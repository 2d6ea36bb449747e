import PotholeServer.Db.Ranges
import PotholeServer.Fusion.Pairing
import PotholeServer.Fusion.Pool
import PotholeServer.Sensor.Usable
import PotholeServer.Sql.Guarded

/-!
# A fusion tick writes values in their ranges

Both engines give a fused confidence strictly between 0 and 1. The heuristic clamps its severity;
the primary engine passes on the severity that a scoring step has stored, so its range is one that
the whole database has.
-/

namespace PotholeServer.Fusion

open Sql Db Sensor

variable {R : Type} [Field R] [LinearOrder R]

/-- What the jobs rely on: every stored value is in its range, and every stored model is usable. -/
structure Ranged (ext : Externals R) (db : Database R) : Prop where
  inRange : db.InRange
  usable : ∀ r ∈ db.sensorModel, Usable ext r.model

variable {ext : Externals R} {db : Database R}

theorem ranged_empty (ext : Externals R) : Ranged ext Database.empty where
  inRange := Database.inRange_empty
  usable := fun r h ↦ absurd h (Table.not_mem_empty r)

/-- No row effect touches the models. -/
theorem Ranged.write (h : Ranged ext db) {w : Write R} (hw : w.InRange) :
    Ranged ext (Effect.apply w db) where
  inRange := h.inRange.write hw
  usable := by cases w <;> exact h.usable

theorem Ranged.usable_of_loaded (h : Ranged ext db) {model : SensorModel R}
    (hload : loadActiveModel db = some model) : Usable ext model := by
  obtain ⟨r, hr, rfl⟩ := Option.map_eq_some_iff.mp hload
  exact h.usable r (List.mem_of_find?_eq_some hr)

variable [IsStrictOrderedRing R]

/-! ### The engines -/

section Engines

variable (hexp : ∀ x, 0 < ext.exp x)
include hexp

theorem matlabPortV1Fuse_mem_Ioo (wS wV : R) (inp : FusionInput R) :
    (matlabPortV1Fuse ext wS wV inp).fusedConfidence ∈ Set.Ioo 0 1 := by
  have hterms : ∀ terms : List R,
      (if terms.isEmpty then half else sigmoid ext terms.sum) ∈ Set.Ioo (0 : R) 1 := by
    intro terms
    split
    · exact ⟨half_pos one_pos, half_lt_self one_pos⟩
    · exact sigmoid_mem_Ioo hexp _
  exact hterms _

theorem getEngine_fusedConfidence_mem_Ioo (settings : Settings R) (model : Option (SensorModel R))
    (inp : FusionInput R) :
    ((getEngine ext settings model).fuse inp).fusedConfidence ∈ Set.Ioo 0 1 := by
  unfold getEngine
  split
  · exact matlabPortV1Fuse_mem_Ioo hexp _ _ inp
  · exact sigmoid_mem_Ioo hexp _

omit hexp in
theorem getEngine_severity_mem_Icc (settings : Settings R) (model : Option (SensorModel R))
    {inp : FusionInput R} (hinp : ∀ s, inp.sensorSeverity = some s → s ∈ Set.Icc 0 1) :
    ((getEngine ext settings model).fuse inp).severity ∈ Set.Icc 0 1 := by
  unfold getEngine
  split
  · change inp.sensorSeverity.getD 0 ∈ Set.Icc 0 1
    cases hs : inp.sensorSeverity with
    | none => exact ⟨le_rfl, zero_le_one⟩
    | some s => exact hinp s hs
  · exact severity_mem_Icc _ _ _ _

end Engines

/-! ### The tick -/

section Tick

variable (hexp : ∀ x, 0 < ext.exp x) (settings : Settings R)

theorem guarded_scoreRows {model : SensorModel R} (hmodel : Usable ext model) (now : DateTime)
    (rows : List (AssetObservation R)) :
    (scoreRows ext model now rows).Guarded (Ranged ext) Write.InRange (fun _ ↦ True) := by
  induction rows with
  | nil => exact Prog.guarded_pure trivial
  | cons r rest ih =>
    rw [scoreRows]
    refine Prog.guarded_bind (Prog.guarded_ofExcept (fun _ hres ↦ hmodel.score_mem_Icc hres)) ?_
    intro res hres
    exact Prog.guarded_bind (Prog.guarded_effect hres) (fun _ _ ↦ ih)

theorem guarded_scoreIfModel {model : Option (SensorModel R)}
    (hmodel : ∀ m, model = some m → Usable ext m) (now : DateTime) :
    (scoreIfModel ext settings model now).Guarded (Ranged ext) Write.InRange (fun _ ↦ True) := by
  cases model with
  | none => exact Prog.guarded_pure trivial
  | some m =>
    rw [scoreIfModel, scoreUnscored]
    refine Prog.guarded_bind (Q := fun _ ↦ True) ?_ (fun _ _ ↦ Prog.guarded_pure trivial)
    refine Prog.guarded_bind (Prog.guarded_fetch (Q := fun _ ↦ True) (fun _ _ _ _ ↦ trivial)) ?_
    intro rows _
    split
    · exact Prog.guarded_pure trivial
    · exact Prog.guarded_bind (Prog.guarded_transaction (guarded_scoreRows (hmodel m rfl) now rows))
        (fun _ _ ↦ Prog.guarded_pure trivial)

omit [IsStrictOrderedRing R] in
/-- The candidates carry severities that are stored. -/
theorem sensorSeverity_of_mem_pairing (h : db.InRange) {ids : List String} {r : Candidate R}
    (hr : r ∈ pairing ext settings ids db) :
    ∀ s, r.fusionInput.sensorSeverity = some s → s ∈ Set.Icc 0 1 := by
  obtain ⟨f, _, _, o, ho, rfl⟩ := mem_pairing.mp hr
  exact (h.observation o ho.mem).sensorSeverity

include hexp

theorem guarded_upsertPairs (model : Option (SensorModel R)) (runId : String) (now : DateTime)
    {rows : List (Candidate R)}
    (hrows : ∀ r ∈ rows, ∀ s, r.fusionInput.sensorSeverity = some s → s ∈ Set.Icc 0 1) :
    (upsertPairs (getEngine ext settings model) runId now rows).Guarded (Ranged ext) Write.InRange
      (fun _ ↦ True) := by
  induction rows with
  | nil => exact Prog.guarded_pure trivial
  | cons r rest ih =>
    rw [upsertPairs]
    have hpair : (newPair (getEngine ext settings model) runId now r).InRange :=
      ⟨getEngine_fusedConfidence_mem_Ioo hexp settings model _,
        getEngine_severity_mem_Icc settings model (hrows r (List.mem_cons_self ..))⟩
    exact Prog.guarded_bind (Prog.guarded_effect hpair)
      (fun _ _ ↦ ih (fun r' hr' ↦ hrows r' (List.mem_cons_of_mem _ hr')))

theorem guarded_pairAndFuse (model : Option (SensorModel R)) (runId : String) (now : DateTime) :
    (pairAndFuse ext settings model runId now).Guarded (Ranged ext) Write.InRange
      (fun _ ↦ True) := by
  rw [pairAndFuse]
  refine Prog.guarded_bind (Prog.guarded_fetch (Q := fun _ ↦ True) (fun _ _ _ _ ↦ trivial)) ?_
  intro ids _
  split
  · exact Prog.guarded_pure trivial
  refine Prog.guarded_transaction ?_
  rw [pairingTransaction]
  refine Prog.guarded_bind (Prog.guarded_execute ?_) (fun _ _ ↦ ?_)
  · intro s ws _ hws w hw
    rw [insertRun] at hws
    split at hws
    · cases hws
    · cases hws
      cases List.mem_singleton.mp hw
      trivial
  refine Prog.guarded_bind (Prog.guarded_fetch (Q := fun rows ↦ ∀ r ∈ rows, ∀ s,
    r.fusionInput.sensorSeverity = some s → s ∈ Set.Icc 0 1) ?_) ?_
  · intro s rows hs hq r hr
    cases hq
    exact sensorSeverity_of_mem_pairing settings hs.inRange hr
  intro rows hrows
  refine Prog.guarded_bind (guarded_upsertPairs hexp settings model runId now hrows)
    (fun _ _ ↦ ?_)
  exact Prog.guarded_bind (Prog.guarded_effect trivial) (fun _ _ ↦
    Prog.guarded_bind (Prog.guarded_effect trivial) (fun _ _ ↦ Prog.guarded_pure trivial))

/-- On states with values in range a tick writes values in their ranges. -/
theorem guarded_runFusionJob (t : Tick) :
    (runFusionJob ext settings t).Guarded (Ranged ext) Write.InRange (fun _ ↦ True) := by
  rw [runFusionJob]
  refine Prog.guarded_bind Prog.guarded_nothing (fun _ _ ↦ ?_)
  split
  · refine Prog.guarded_tryFinally ?_ Prog.guarded_nothing
    rw [fuseTick]
    refine Prog.guarded_bind (Prog.guarded_fetch (Q := fun model ↦ ∀ m, model = some m →
      Usable ext m) ?_) ?_
    · intro s model hs hq m hm
      cases hq
      exact hs.usable_of_loaded hm
    intro model hmodel
    refine Prog.guarded_bind (guarded_scoreIfModel settings hmodel t.scoreNow) (fun _ _ ↦ ?_)
    exact Prog.guarded_bind (guarded_pairAndFuse hexp settings model t.runId t.pairNow)
      (fun _ _ ↦ Prog.guarded_pure trivial)
  · exact Prog.guarded_pure trivial

end Tick

end PotholeServer.Fusion
