import Mathlib.Logic.Relation
import PotholeServer.Fusion.Job
import PotholeServer.Sql.Session

/-!
# What one tick does

A tick of `run_fusion_job` under any schedule of arrivals and failures. Either it changes
nothing but scores, or it commits exactly one batch: the frames selected in one snapshot, the
pairs found in a later one, all applied to the state at the commit.
-/

namespace PotholeServer.Fusion

open Sql Db Sensor

variable {R : Type} [Field R] [LinearOrder R] {U : Type} [Effect U (Database R)]

/-- A database connection. -/
abbrev DbConn (R : Type) := Conn (Database R) (Write R) Statement

section Tick

variable (ext : Externals R) (settings : Settings R)

/-- The effect of scoring one row. -/
def ScoreWrite (model : SensorModel R) (now : DateTime) (r : AssetObservation R) (w : Write R) :
    Prop :=
  ∃ res, scoreObservation ext model r.magnitude r.accelStd r.gbarInMax r.speedMps = .ok res ∧
    w = .updateScored r.clientId (scoresOf model res) now

/-- The effects of the pairing transaction, in order. -/
def tickWrites (model : Option (SensorModel R)) (runId : String) (now : DateTime)
    (batchIds : List String) (candidates : List (Candidate R)) : List (Write R) :=
  let engine := getEngine ext settings model
  .insertRun (newRun engine runId now batchIds.length) ::
    (candidates.map (fun r ↦ .upsertPair (newPair engine runId now r)) ++
      [.markProcessed batchIds now,
        .updateRun runId candidates.length
          { frames := batchIds.length
            pairs := candidates.length
            sensorModelVersion := model.map SensorModel.modelVersion } now])

/-- A committed batch: the snapshots of the batch query, of the run's `INSERT` and of the pairing
query, the state at the commit, and what follows it. Before the batch query the committed
state is related to the first one by `G`, after it only arrivals happen. -/
structure BatchCommit (U : Type) [Effect U (Database R)] (G : Database R → Database R → Prop)
    (model : Option (SensorModel R)) (runId : String) (now : DateTime) (c c' : DbConn R)
    (batchIds : List String) (sSelect sInsert sPair sCommit : Database R) : Prop where
  before : G c.store sSelect
  batch : selectFrameBatch settings.fusionBatchSize sSelect = .ok batchIds
  nonempty : batchIds ≠ []
  toInsert : Arrived U sSelect sInsert
  fresh : ¬sInsert.fusionRun.HasKey runId
  toPair : Arrived U sInsert sPair
  toCommit : Arrived U sPair sCommit
  after : Arrived U (applyAll (tickWrites ext settings model runId now batchIds
    (pairing ext settings batchIds sPair)) sCommit) c'.store
  commits : ∀ t, .commit t ∈ c'.trace → .commit t ∈ c.trace ∨ G c.store t ∨
    Arrived U (applyAll (tickWrites ext settings model runId now batchIds
      (pairing ext settings batchIds sPair)) sCommit) t
  selected : .stmt (.selectFrameBatch settings.fusionBatchSize) sSelect [] ∈ c'.trace
  asked : ∃ v, .stmt (.pairing batchIds) v [] ∈ c'.trace ∧
    v.assetObservation = sPair.assetObservation ∧ v.assetFrame = sPair.assetFrame

variable {c : DbConn R}

/-! ### Inside the transactions -/

theorem body_scoreRows (model : SensorModel R) (now : DateTime) (rows : List (AssetObservation R))
    {p : List (Write R)} (hc : c.txn = .active p) :
    Prog.Body U (scoreRows ext model now rows) c (fun _ c' ↦
      ∃ ws, c'.txn = .active (p ++ ws) ∧ List.Forall₂ (ScoreWrite ext model now) rows ws) := by
  induction rows generalizing c p with
  | nil =>
    refine Prog.body_pure ⟨[], ?_, .nil⟩
    rw [List.append_nil, hc]
  | cons row rest ih =>
    rw [scoreRows]
    refine Prog.body_bind (Prog.body_ofExcept ?_)
    intro res hres
    refine Prog.body_bind (Prog.body_execute hc ?_)
    intro ws c' _ htxn hws _
    cases hws
    refine Prog.body_mono (ih htxn) ?_
    rintro _ c'' _ ⟨ws, hactive, hscored⟩
    refine ⟨.updateScored row.clientId (scoresOf model res) now :: ws, ?_, ?_⟩
    · rw [hactive, List.append_assoc, List.singleton_append]
    · exact .cons ⟨res, hres, rfl⟩ hscored

omit [Field R] [LinearOrder R] in
theorem body_upsertPairs (engine : FusionEngine R) (runId : String) (now : DateTime)
    (candidates : List (Candidate R)) {p : List (Write R)} (hc : c.txn = .active p) :
    Prog.Body U (upsertPairs engine runId now candidates) c (fun _ c' ↦ c'.txn = .active
      (p ++ candidates.map (fun r ↦ .upsertPair (newPair engine runId now r)))) := by
  induction candidates generalizing c p with
  | nil =>
    refine Prog.body_pure ?_
    rw [List.map_nil, List.append_nil, hc]
  | cons r rest ih =>
    rw [upsertPairs]
    refine Prog.body_bind (Prog.body_execute hc ?_)
    intro ws c' _ htxn hws _
    cases hws
    refine Prog.body_mono (ih htxn) ?_
    intro _ c'' _ hactive
    rw [hactive, List.append_assoc, List.map_cons, List.singleton_append]

/-- What the pairing transaction has collected when its body returns. -/
def PairingBody (U : Type) [Effect U (Database R)] (model : Option (SensorModel R))
    (runId : String) (now : DateTime) (batchIds : List String) (c : DbConn R)
    (p : List (Write R)) (c' : DbConn R) : Prop :=
  ∃ sInsert sPair, Arrived U c.store sInsert ∧ ¬sInsert.fusionRun.HasKey runId ∧
    Arrived U sInsert sPair ∧ Arrived U sPair c'.store ∧
    p = tickWrites ext settings model runId now batchIds (pairing ext settings batchIds sPair) ∧
    ∃ v, .stmt (.pairing batchIds) v [] ∈ c'.trace ∧
      v.assetObservation = sPair.assetObservation ∧ v.assetFrame = sPair.assetFrame

theorem body_pairingTransaction (model : Option (SensorModel R)) (runId : String)
    (now : DateTime) (batchIds : List String) (hc : c.txn = .active []) :
    Prog.Body U (pairingTransaction ext settings model runId now batchIds) c (fun _ c' ↦
      ∃ p, c'.txn = .active p ∧ PairingBody ext settings U model runId now batchIds c p c') := by
  rw [pairingTransaction]
  refine Prog.body_bind (Prog.body_execute hc ?_)
  intro ws c₁ hfol₁ htxn₁ hws _
  have hinserted : ¬c₁.store.fusionRun.HasKey runId ∧
      ws = [.insertRun (newRun (getEngine ext settings model) runId now batchIds.length)] := by
    rw [applyAll_nil, insertRun] at hws
    split at hws
    · cases hws
    · next h => cases hws; exact ⟨h, rfl⟩
  obtain ⟨hfresh, rfl⟩ := hinserted
  refine Prog.body_bind (Prog.body_fetch htxn₁ ?_)
  intro candidates c₂ hfol₂ htxn₂ hpair hasked
  cases hpair
  refine Prog.body_bind (Prog.body_mono
    (body_upsertPairs (getEngine ext settings model) runId now _ htxn₂) ?_)
  intro _ c₃ hfol₃ htxn₃
  refine Prog.body_bind (Prog.body_execute htxn₃ ?_)
  intro ws₄ c₄ hfol₄ htxn₄ hws₄ _
  cases hws₄
  refine Prog.body_bind (Prog.body_execute htxn₄ ?_)
  intro ws₅ c₅ hfol₅ htxn₅ hws₅ _
  cases hws₅
  refine Prog.body_pure ⟨_, htxn₅, c₁.store, c₂.store, hfol₁.store, hfresh, hfol₂.store, ?_, ?_, ?_⟩
  · exact hfol₃.store.trans (hfol₄.store.trans hfol₅.store)
  · simp only [tickWrites, List.nil_append, List.cons_append, List.append_assoc]
    rfl
  · exact ⟨_, hfol₅.grows.mem (hfol₄.grows.mem (hfol₃.grows.mem hasked)), rfl, rfl⟩

/-! ### The two steps of a tick -/

variable {G : Database R → Database R → Prop}

/-- Scoring commits at most the scores of the rows it selected. -/
theorem spec_scoreUnscored (model : SensorModel R) (now : DateTime) (hc : c.txn = .auto)
    (harr : ∀ s s', Arrived U s s' → G s s') (htrans : ∀ s s' s'', G s s' → G s' s'' → G s s'')
    (hscore : ∀ su rows ws s, Arrived U c.store su →
      selectUnscored settings.fusionBatchSize su = .ok rows → rows ≠ [] →
      List.Forall₂ (ScoreWrite ext model now) rows ws → Arrived U su s → G s (applyAll ws s)) :
    Prog.Spec U (scoreUnscored ext settings model now) c (fun _ c' ↦
      c'.txn = .auto ∧ Follows G c c') := by
  rw [scoreUnscored]
  refine Prog.spec_bind (Prog.spec_fetch_auto hc ?_ ?_)
  · intro e c₁ hfol hauto
    exact ⟨fun _ h ↦ (by cases h), fun _ _ ↦ ⟨hauto, hfol.mono harr⟩⟩
  intro rows c₁ hfol₁ hauto₁ hrows _
  refine ⟨fun _ hb ↦ ?_, fun _ h ↦ (by cases h)⟩
  cases hb
  split
  · exact Prog.spec_pure ⟨hauto₁, hfol₁.mono harr⟩
  next hne =>
  have hnonempty : rows ≠ [] := by
    rintro rfl
    exact hne rfl
  refine Prog.spec_bind (Prog.spec_transaction
    (fun _ p _ ↦ List.Forall₂ (ScoreWrite ext model now) rows p) hauto₁ ?_ ?_ ?_)
  · intro c₂ _ htxn₂ _
    refine Prog.body_mono (body_scoreRows ext model now rows htxn₂) ?_
    rintro _ c₃ _ ⟨ws, hactive, hscored⟩
    exact ⟨ws, hactive, hscored⟩
  · intro e c₂ hfol hauto
    exact ⟨fun _ h ↦ (by cases h), fun _ _ ↦ ⟨hauto, (hfol₁.next hfol).mono harr⟩⟩
  · intro _ ws c₂ s c₃ hfol₂ hws hs hdone
    refine ⟨fun _ _ ↦ Prog.spec_pure ⟨hdone.auto, ?_⟩, fun _ h ↦ (by cases h)⟩
    have hall := hfol₁.next hfol₂
    have hcommit : G c.store (applyAll ws s) :=
      htrans _ _ _ (harr _ _ (hall.store.trans hs))
        (hscore c₁.store rows ws s hfol₁.store hrows hnonempty hws (hfol₂.store.trans hs))
    refine ⟨hdone.store ▸ hcommit, hall.grows.trans hdone.grows, ?_⟩
    intro t ht
    rcases hdone.commits t ht with ht | ht | rfl
    · exact (hall.commits t ht).imp id (harr _ _)
    · exact .inr (harr _ _ (hall.store.trans ht))
    · exact .inr hcommit

/-- Pairing commits nothing, and returns then only if no frame was waiting, or one batch. -/
theorem spec_pairAndFuse (model : Option (SensorModel R)) (runId : String) (now : DateTime)
    (hc : c.txn = .auto) :
    Prog.Spec U (pairAndFuse ext settings model runId now) c (fun r c' ↦ c'.txn = .auto ∧
      ((Follows (Arrived U) c c' ∧ (∀ a, r = .ok a → ∃ s, Arrived U c.store s ∧
          selectFrameBatch settings.fusionBatchSize s = .ok [])) ∨
        ∃ ids sSelect sInsert sPair sCommit, BatchCommit ext settings U (Arrived U) model runId
          now c c' ids sSelect sInsert sPair sCommit)) := by
  rw [pairAndFuse]
  refine Prog.spec_bind (Prog.spec_fetch_auto hc ?_ ?_)
  · intro e c₁ hfol hauto
    exact ⟨fun _ h ↦ (by cases h), fun _ _ ↦ ⟨hauto, .inl ⟨hfol, fun _ h ↦ (by cases h)⟩⟩⟩
  intro ids c₁ hfol₁ hauto₁ hbatch hselected
  refine ⟨fun _ hb ↦ ?_, fun _ h ↦ (by cases h)⟩
  cases hb
  split
  · next hempty =>
    have hnil : ids = [] := List.isEmpty_iff.mp hempty
    subst hnil
    exact Prog.spec_pure ⟨hauto₁, .inl ⟨hfol₁, fun _ _ ↦ ⟨c₁.store, hfol₁.store, hbatch⟩⟩⟩
  next hne =>
  have hnonempty : ids ≠ [] := by
    rintro rfl
    exact hne rfl
  refine Prog.spec_transaction
    (fun _ p c₂ ↦ PairingBody ext settings U model runId now ids c₁ p c₂) hauto₁ ?_ ?_ ?_
  · intro c₂ hfol₂ htxn₂ _
    refine Prog.body_mono (body_pairingTransaction ext settings model runId now ids htxn₂) ?_
    rintro _ c₃ _ ⟨p, hactive, sInsert, sPair, hs, hrest⟩
    exact ⟨p, hactive, sInsert, sPair, hfol₂.store.trans hs, hrest⟩
  · intro e c₂ hfol hauto
    exact ⟨hauto, .inl ⟨hfol₁.next hfol, fun _ h ↦ (by cases h)⟩⟩
  · rintro _ p c₂ s c₃ hfol₂ ⟨sInsert, sPair, hInsert, hfresh, hPair, hEnd, rfl, v, hv, hvo, hvf⟩
      hs hdone
    have hall := hfol₁.next hfol₂
    refine ⟨hdone.auto, .inr ⟨ids, c₁.store, sInsert, sPair, s, ?_⟩⟩
    refine ⟨hfol₁.store, hbatch, hnonempty, hInsert, hfresh, hPair, hEnd.trans hs,
      hdone.store ▸ Arrived.refl _, ?_, hdone.grows.mem (hfol₂.grows.mem hselected),
      ⟨v, hdone.grows.mem hv, hvo, hvf⟩⟩
    intro t ht
    rcases hdone.commits t ht with ht | ht | rfl
    · exact (hall.commits t ht).imp id .inl
    · exact .inr (.inl (hall.store.trans ht))
    · exact .inr (.inr (Arrived.refl _))

/-! ### The whole tick -/

section Compose

variable {model : Option (SensorModel R)} {runId : String} {now : DateTime} {ids : List String}
  {c₁ c' c'' : DbConn R} {sSelect sInsert sPair sCommit : Database R}

/-- What happens before a batch is part of what precedes its selection. -/
theorem BatchCommit.after_follows (harr : ∀ s s', Arrived U s s' → G s s')
    (htrans : ∀ s s' s'', G s s' → G s' s'' → G s s'') (hfol : Follows G c c₁)
    (h : BatchCommit ext settings U (Arrived U) model runId now c₁ c' ids sSelect sInsert sPair
      sCommit) :
    BatchCommit ext settings U G model runId now c c' ids sSelect sInsert sPair sCommit where
  before := htrans _ _ _ hfol.store (harr _ _ h.before)
  batch := h.batch
  nonempty := h.nonempty
  toInsert := h.toInsert
  fresh := h.fresh
  toPair := h.toPair
  toCommit := h.toCommit
  after := h.after
  commits := by
    intro t ht
    rcases h.commits t ht with ht | ht | ht
    · exact (hfol.commits t ht).imp id .inl
    · exact .inr (.inl (htrans _ _ _ hfol.store (harr _ _ ht)))
    · exact .inr (.inr ht)
  selected := h.selected
  asked := h.asked

/-- Arrivals after a batch. -/
theorem BatchCommit.before_follows (h : BatchCommit ext settings U G model runId now c c' ids
      sSelect sInsert sPair sCommit) (hfol : Follows (Arrived U) c' c'') :
    BatchCommit ext settings U G model runId now c c'' ids sSelect sInsert sPair sCommit where
  before := h.before
  batch := h.batch
  nonempty := h.nonempty
  toInsert := h.toInsert
  fresh := h.fresh
  toPair := h.toPair
  toCommit := h.toCommit
  after := h.after.trans hfol.store
  commits := by
    intro t ht
    rcases hfol.commits t ht with ht | ht
    · exact h.commits t ht
    · exact .inr (.inr (h.after.trans ht))
  selected := hfol.grows.mem h.selected
  asked := by
    obtain ⟨v, hv, hvo, hvf⟩ := h.asked
    exact ⟨v, hfol.grows.mem hv, hvo, hvf⟩

end Compose

/-- The outcome of a tick. Either nothing is committed but changes in `G`, and a tick that
returns with the lock has seen an empty queue; or one batch is committed. -/
def TickOutcome (U : Type) [Effect U (Database R)] (G : Database R → Database R → Prop)
    (tick : Tick) (c : DbConn R) (r : Except Exn Unit) (c' : DbConn R) : Prop :=
  (Follows G c c' ∧ (r = .ok () → tick.locked = true →
    ∃ s, G c.store s ∧ selectFrameBatch settings.fusionBatchSize s = .ok [])) ∨
  ∃ sModel ids sSelect sInsert sPair sCommit, Arrived U c.store sModel ∧
    BatchCommit ext settings U G (loadActiveModel sModel) tick.runId tick.pairNow c c' ids sSelect
      sInsert sPair sCommit

/-- The same with the model that the tick has loaded: the changes before the batch may depend on
it. -/
def LoadedOutcome (U : Type) [Effect U (Database R)]
    (G : Option (SensorModel R) → Database R → Database R → Prop) (tick : Tick) (c : DbConn R)
    (r : Except Exn Unit) (c' : DbConn R) : Prop :=
  (Follows (Arrived U) c c' ∧ ¬(r = .ok () ∧ tick.locked = true)) ∨
  ∃ sModel, Arrived U c.store sModel ∧ .stmt .selectActive sModel [] ∈ c'.trace ∧
    ((Follows (G (loadActiveModel sModel)) c c' ∧ (r = .ok () →
        ∃ s, G (loadActiveModel sModel) c.store s ∧
          selectFrameBatch settings.fusionBatchSize s = .ok [])) ∨
      ∃ ids sSelect sInsert sPair sCommit, BatchCommit ext settings U (G (loadActiveModel sModel))
        (loadActiveModel sModel) tick.runId tick.pairNow c c' ids sSelect sInsert sPair sCommit)

theorem LoadedOutcome.before_follows {G : Option (SensorModel R) → Database R → Database R → Prop}
    {tick : Tick} {r r' : Except Exn Unit} {c' c'' : DbConn R}
    (harr : ∀ m s s', Arrived U s s' → G m s s')
    (htrans : ∀ m s s' s'', G m s s' → G m s' s'' → G m s s'')
    (h : LoadedOutcome ext settings U G tick c r c') (hfol : Follows (Arrived U) c' c'')
    (hr : r' = .ok () → r = .ok ()) : LoadedOutcome ext settings U G tick c r' c'' := by
  rcases h with ⟨hquiet, hnot⟩ | ⟨sModel, hModel, hloaded, hrest⟩
  · exact .inl ⟨hquiet.next hfol, fun hok ↦ hnot ⟨hr hok.1, hok.2⟩⟩
  · refine .inr ⟨sModel, hModel, hfol.grows.mem hloaded, ?_⟩
    rcases hrest with ⟨hscored, hempty⟩ | ⟨ids, s₀, s₁, s₂, s₃, hbatch⟩
    · exact .inl ⟨hscored.trans (htrans _) (hfol.mono (harr _)), fun hok ↦ hempty (hr hok)⟩
    · exact .inr ⟨ids, s₀, s₁, s₂, s₃, hbatch.before_follows ext settings hfol⟩

/-- When the changes do not depend on the model, it need not be named. -/
theorem LoadedOutcome.tickOutcome {tick : Tick} {r : Except Exn Unit} {c' : DbConn R}
    (harr : ∀ s s', Arrived U s s' → G s s')
    (h : LoadedOutcome ext settings U (fun _ ↦ G) tick c r c') :
    TickOutcome ext settings U G tick c r c' := by
  rcases h with ⟨hquiet, hnot⟩ | ⟨sModel, hModel, -, hrest⟩
  · exact .inl ⟨hquiet.mono harr, fun hok hlocked ↦ absurd ⟨hok, hlocked⟩ hnot⟩
  · rcases hrest with ⟨hscored, hempty⟩ | ⟨ids, s₀, s₁, s₂, s₃, hbatch⟩
    · exact .inl ⟨hscored, fun hok _ ↦ hempty hok⟩
    · exact .inr ⟨sModel, ids, s₀, s₁, s₂, s₃, hModel, hbatch⟩

/-- With or without a model, the scoring step commits scores at most. -/
theorem spec_scoreIfModel (model : Option (SensorModel R)) (now : DateTime) (hc : c.txn = .auto)
    (harr : ∀ s s', Arrived U s s' → G s s') (htrans : ∀ s s' s'', G s s' → G s' s'' → G s s'')
    (hscore : ∀ m su rows ws s, model = some m → Arrived U c.store su →
      selectUnscored settings.fusionBatchSize su = .ok rows → rows ≠ [] →
      List.Forall₂ (ScoreWrite ext m now) rows ws → Arrived U su s → G s (applyAll ws s)) :
    Prog.Spec U (scoreIfModel ext settings model now) c (fun _ c' ↦
      c'.txn = .auto ∧ Follows G c c') := by
  cases model with
  | none => exact Prog.spec_pure ⟨hc, Follows.refl (fun s ↦ harr s s (Arrived.refl s)) c⟩
  | some m =>
    refine Prog.spec_bind (Prog.spec_mono (spec_scoreUnscored ext settings m now hc harr htrans
      (fun su rows ws s ↦ hscore m su rows ws s rfl)) ?_)
    intro r c' h
    exact ⟨fun _ _ ↦ Prog.spec_pure h, fun _ _ ↦ h⟩

/-- What pairing adds to a tick that has committed changes in `G` so far. -/
theorem loadedOutcome_of_pairing {G : Option (SensorModel R) → Database R → Database R → Prop}
    (tick : Tick) {c₂ c₃ c₄ : DbConn R} {r₄ : Except Exn Nat}
    (harr : ∀ m s s', Arrived U s s' → G m s s')
    (htrans : ∀ m s s' s'', G m s s' → G m s' s'' → G m s s'') (hmodel : Arrived U c.store c₂.store)
    (hloaded : .stmt .selectActive c₂.store [] ∈ c₃.trace)
    (hfol : Follows (G (loadActiveModel c₂.store)) c c₃)
    (hgrows : c₃.trace <:+ c₄.trace)
    (h : (Follows (Arrived U) c₃ c₄ ∧ (∀ a, r₄ = .ok a → ∃ s, Arrived U c₃.store s ∧
        selectFrameBatch settings.fusionBatchSize s = .ok [])) ∨
      ∃ ids sSelect sInsert sPair sCommit, BatchCommit ext settings U (Arrived U)
        (loadActiveModel c₂.store) tick.runId tick.pairNow c₃ c₄ ids sSelect sInsert sPair sCommit)
    (r : Except Exn Unit) (hr : r = .ok () → ∃ a, r₄ = .ok a) :
    LoadedOutcome ext settings U G tick c r c₄ := by
  refine .inr ⟨c₂.store, hmodel, hgrows.mem hloaded, ?_⟩
  rcases h with ⟨hfol₄, hempty⟩ | ⟨ids, s₀, s₁, s₂, s₃, hbatch⟩
  · refine .inl ⟨hfol.trans (htrans _) (hfol₄.mono (harr _)), ?_⟩
    intro hok
    obtain ⟨a, ha⟩ := hr hok
    obtain ⟨s, hs, hnil⟩ := hempty a ha
    exact ⟨s, htrans _ _ _ _ hfol.store (harr _ _ _ hs), hnil⟩
  · exact .inr ⟨ids, s₀, s₁, s₂, s₃, hbatch.after_follows ext settings (harr _) (htrans _) hfol⟩

/-- The `try` block, from a connection `c₁` that the lock request has left. -/
theorem spec_fuseTick {G : Option (SensorModel R) → Database R → Database R → Prop} (tick : Tick)
    {c₁ : DbConn R} (hfol₁ : Follows (Arrived U) c c₁) (hauto₁ : c₁.txn = .auto)
    (harr : ∀ m s s', Arrived U s s' → G m s s')
    (htrans : ∀ m s s' s'', G m s s' → G m s' s'' → G m s s'')
    (hscore : ∀ sm m su rows ws s, Arrived U c.store sm → loadActiveModel sm = some m →
      Arrived U sm su → selectUnscored settings.fusionBatchSize su = .ok rows → rows ≠ [] →
      List.Forall₂ (ScoreWrite ext m tick.scoreNow) rows ws → Arrived U su s →
      G (some m) s (applyAll ws s)) :
    Prog.Spec U (fuseTick ext settings tick) c₁ (fun r c' ↦ c'.txn = .auto ∧
      LoadedOutcome ext settings U G tick c r c') := by
  rw [fuseTick]
  refine Prog.spec_bind (Prog.spec_fetch_auto hauto₁ ?_ ?_)
  · intro e c₂ hfol hauto
    exact ⟨fun _ h ↦ (by cases h), fun _ _ ↦ ⟨hauto, .inl ⟨hfol₁.next hfol,
      fun h ↦ (by cases h.1)⟩⟩⟩
  intro model c₂ hfol₂ hauto₂ hmodel hloaded₂
  cases hmodel
  have hall₂ := hfol₁.next hfol₂
  refine ⟨fun _ hb ↦ ?_, fun _ h ↦ (by cases h)⟩
  cases hb
  refine Prog.spec_bind (Prog.spec_mono (Prog.spec_and (spec_scoreIfModel ext settings
    (G := G (loadActiveModel c₂.store)) (loadActiveModel c₂.store) tick.scoreNow hauto₂ (harr _)
    (htrans _) ?_) (Prog.spec_grows _ _)) ?_)
  · intro m su rows ws s hm hsu hrows hne hws hs
    rw [hm]
    exact hscore c₂.store m su rows ws s hall₂.store hm hsu hrows hne hws hs
  rintro r c₃ ⟨⟨hauto₃, hfol₃⟩, hgrows₃⟩
  have hall₃ := (hall₂.mono (harr _)).trans (htrans _) hfol₃
  have hloaded₃ := hgrows₃.mem hloaded₂
  refine ⟨fun _ _ ↦ ?_, fun e _ ↦ ⟨hauto₃, .inr ⟨c₂.store, hall₂.store, hloaded₃,
    .inl ⟨hall₃, fun h ↦ (by cases h)⟩⟩⟩⟩
  refine Prog.spec_bind (Prog.spec_mono (Prog.spec_and (spec_pairAndFuse ext settings
    (loadActiveModel c₂.store) tick.runId tick.pairNow hauto₃) (Prog.spec_grows _ _)) ?_)
  rintro r₄ c₄ ⟨⟨hauto₄, houtcome⟩, hgrows₄⟩
  have htick := loadedOutcome_of_pairing ext settings tick harr htrans hall₂.store hloaded₃ hall₃
    hgrows₄ houtcome
  constructor
  · intro a ha
    exact Prog.spec_pure ⟨hauto₄, htick _ (fun _ ↦ ⟨a, ha⟩)⟩
  · intro e _
    exact ⟨hauto₄, htick _ (fun h ↦ (by cases h))⟩

/-- Every tick under every schedule has one of the outcomes, for any transitive `G` that allows
arrivals and the scores that the tick may write with its model. -/
theorem spec_runFusionJob_loaded {G : Option (SensorModel R) → Database R → Database R → Prop}
    (tick : Tick) (hc : c.txn = .auto) (harr : ∀ m s s', Arrived U s s' → G m s s')
    (htrans : ∀ m s s' s'', G m s s' → G m s' s'' → G m s s'')
    (hscore : ∀ sm m su rows ws s, Arrived U c.store sm → loadActiveModel sm = some m →
      Arrived U sm su → selectUnscored settings.fusionBatchSize su = .ok rows → rows ≠ [] →
      List.Forall₂ (ScoreWrite ext m tick.scoreNow) rows ws → Arrived U su s →
      G (some m) s (applyAll ws s)) :
    Prog.Spec U (runFusionJob ext settings tick) c (LoadedOutcome ext settings U G tick c) := by
  rw [runFusionJob]
  refine Prog.spec_bind (Prog.spec_execute_auto hc ?_)
  intro r₁ c₁ hfol₁ hauto₁
  refine ⟨fun _ _ ↦ ?_, fun e _ ↦ .inl ⟨hfol₁, fun h ↦ (by cases h.1)⟩⟩
  split
  · refine Prog.spec_tryFinally (Prog.spec_mono
      (spec_fuseTick ext settings tick hfol₁ hauto₁ harr htrans hscore) ?_)
    rintro r c₂ ⟨hauto₂, houtcome⟩
    refine Prog.spec_execute_auto hauto₂ ?_
    intro r' c₃ hfol₃ _
    constructor
    · intro _
      exact houtcome.before_follows ext settings harr htrans hfol₃ id
    · intro e _
      exact houtcome.before_follows ext settings harr htrans hfol₃ (fun h ↦ (by cases h))
  · next hlocked => exact Prog.spec_pure (.inl ⟨hfol₁, fun h ↦ hlocked h.2⟩)

/-- The outcome of a tick when the changes it allows are the same for every model. -/
theorem spec_runFusionJob (tick : Tick) (hc : c.txn = .auto)
    (harr : ∀ s s', Arrived U s s' → G s s') (htrans : ∀ s s' s'', G s s' → G s' s'' → G s s'')
    (hscore : ∀ sm m su rows ws s, Arrived U c.store sm → loadActiveModel sm = some m →
      Arrived U sm su → selectUnscored settings.fusionBatchSize su = .ok rows → rows ≠ [] →
      List.Forall₂ (ScoreWrite ext m tick.scoreNow) rows ws → Arrived U su s →
      G s (applyAll ws s)) :
    Prog.Spec U (runFusionJob ext settings tick) c (TickOutcome ext settings U G tick c) := by
  refine Prog.spec_mono (spec_runFusionJob_loaded ext settings (G := fun _ ↦ G) tick hc
    (fun _ ↦ harr) (fun _ ↦ htrans) hscore) ?_
  intro r c' h
  exact h.tickOutcome ext settings harr

end Tick

end PotholeServer.Fusion
