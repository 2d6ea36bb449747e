import PotholeServer.Fusion.Batch
import PotholeServer.Ingest.Upload

/-!
# Batching and re-running do not change the result

While the frames, the observations and the active model stay as they are, any sequence of ticks
of any batch sizes, failures of ticks, resets of `processed_at` and changes of the physical row
order that leaves no frame unprocessed leads to one table of pairs, up to run ids and times.
-/

namespace PotholeServer.Fusion

open Sql Db Sensor

variable {R : Type}

/-- A pair without its run id and its time. -/
def ignoringRun (p : FusionPair R) : FusionPair R := { p with fusionRunId := "", createdAt := 0 }

/-- A frame without its processing mark. -/
def ignoringMark (f : AssetFrame R) : AssetFrame R := { f with processedAt := none }

/-- `UPDATE asset_frame SET processed_at = NULL WHERE client_id = ANY(..)`, by an operator. -/
def resetProcessed (ids : List String) (db : Database R) : Database R :=
  { db with
    assetFrame := db.assetFrame.update (fun f ↦ f.clientId ∈ ids) ignoringMark (fun _ ↦ rfl) }

/-- The same rows in every table, in any physical order. -/
structure SameContents (db db' : Database R) : Prop where
  assetObservation : db.assetObservation.SameRows db'.assetObservation
  assetFrame : db.assetFrame.SameRows db'.assetFrame
  sensorModel : db.sensorModel.SameRows db'.sensorModel
  fusionRun : db.fusionRun.SameRows db'.fusionRun
  fusionPair : db.fusionPair.SameRows db'.fusionPair

section Expected

variable [Field R] [LinearOrder R] (ext : Externals R) (settings : Settings R)

/-- The pair of a frame and an observation as the engine computes it. -/
def fusedPair (model : Option (SensorModel R)) (f : AssetFrame R) (o : AssetObservation R) :
    FusionPair R :=
  newPair (getEngine ext settings model) "" 0 (candidate ext f o)

/-- One pair for each frame with a candidate: the frame with its nearest candidate. -/
def expectedPairs (db : Database R) : List (FusionPair R) :=
  db.assetFrame.rows.filterMap (fun f ↦
    (nearest ext settings db.assetObservation.rows f).map
      (fusedPair ext settings (loadActiveModel db) f))

/-- A step of a history in which nothing is uploaded: a tick with some batch size, which may
fail at any statement, a reset, or another physical row order. -/
inductive RerunStep (db : Database R) : Database R → Prop where
  | tick (batchSize : Int) (t : Tick) (sch : Schedule Empty) :
    RerunStep db ((runFusionJob ext { settings with fusionBatchSize := batchSize } t).run sch
      (.fresh db)).conn.store
  | reset (ids : List String) : RerunStep db (resetProcessed ids db)
  | reorder (db' : Database R) (h : SameContents db db') : RerunStep db db'

end Expected

/-! ### The processing mark -/

section Mark

variable [LinearOrder R] {ext : Externals R} {settings : Settings R} {f g : AssetFrame R}

theorem isNearest_ignoringMark {os : List (AssetObservation R)} {o : AssetObservation R} :
    IsNearest ext settings (ignoringMark f) os o ↔ IsNearest ext settings f os o := by
  constructor
  · rintro ⟨hmem, hj, hleast⟩
    exact ⟨hmem, hj, hleast⟩
  · rintro ⟨hmem, hj, hleast⟩
    exact ⟨hmem, hj, hleast⟩

/-- The nearest observation of a frame does not depend on its mark. -/
theorem isNearest_of_mark (h : ignoringMark f = ignoringMark g) {os : List (AssetObservation R)}
    {o : AssetObservation R} : IsNearest ext settings f os o ↔ IsNearest ext settings g os o := by
  rw [← isNearest_ignoringMark, h, isNearest_ignoringMark]

theorem fusedPair_of_mark [Field R] (h : ignoringMark f = ignoringMark g)
    (model : Option (SensorModel R)) (o : AssetObservation R) :
    fusedPair ext settings model f o = fusedPair ext settings model g o := by
  have hmark : ∀ f, fusedPair ext settings model f o =
      fusedPair ext settings model (ignoringMark f) o := fun _ ↦ rfl
  rw [hmark f, hmark g, h]

omit [LinearOrder R] in
theorem clientId_of_mark (h : ignoringMark f = ignoringMark g) : f.clientId = g.clientId :=
  congrArg (fun f ↦ f.clientId) h

end Mark

/-! ### The invariant -/

section Invariant

variable [Field R] [LinearOrder R] (ext : Externals R) (settings : Settings R)

/-- What holds of every state of a history from `db₀`: frames, observations and model are the
first ones, every pair is the expected one of its frame, and a processed frame has its pair. -/
structure Rerun (db₀ db : Database R) : Prop where
  frames : (db.assetFrame.rows.map ignoringMark).Perm (db₀.assetFrame.rows.map ignoringMark)
  observations : db.assetObservation.SameRows db₀.assetObservation
  model : loadActiveModel db = loadActiveModel db₀
  sound : ∀ p ∈ db.fusionPair, ∃ f ∈ db₀.assetFrame, ∃ o,
    IsNearest ext settings f db₀.assetObservation.rows o ∧
      ignoringRun p = fusedPair ext settings (loadActiveModel db₀) f o
  complete : ∀ f ∈ db.assetFrame, f.processedAt ≠ none → ∀ o,
    IsNearest ext settings f db₀.assetObservation.rows o →
      db.fusionPair.HasKey (o.clientId, f.clientId)

variable {ext settings} {db₀ db : Database R}

/-- The frame of `db₀` behind a frame. -/
theorem Rerun.exists_first (h : Rerun ext settings db₀ db) {f : AssetFrame R}
    (hf : f ∈ db.assetFrame) : ∃ f₀ ∈ db₀.assetFrame, ignoringMark f₀ = ignoringMark f :=
  List.mem_map.mp (h.frames.mem_iff.mp (List.mem_map_of_mem hf))

/-- The frame that a frame of `db₀` has become. -/
theorem Rerun.exists_now (h : Rerun ext settings db₀ db) {f₀ : AssetFrame R}
    (hf : f₀ ∈ db₀.assetFrame) : ∃ f ∈ db.assetFrame, ignoringMark f = ignoringMark f₀ :=
  List.mem_map.mp (h.frames.mem_iff.mpr (List.mem_map_of_mem hf))

theorem Rerun.isNearest_iff (h : Rerun ext settings db₀ db) {f : AssetFrame R}
    {o : AssetObservation R} : IsNearest ext settings f db.assetObservation.rows o ↔
      IsNearest ext settings f db₀.assetObservation.rows o :=
  isNearest_congr (fun _ ↦ h.observations.mem_iff)

omit [Field R] [LinearOrder R] in
/-- Rewriting the marks of some frames keeps the frames. -/
theorem map_mark_update (t : Table (AssetFrame R)) (p : AssetFrame R → Bool)
    (f : AssetFrame R → AssetFrame R) (hf : ∀ r, key (f r) = key r)
    (hmark : ∀ r, ignoringMark (f r) = ignoringMark r) :
    (t.update p f hf).rows.map ignoringMark = t.rows.map ignoringMark := by
  rw [Table.rows_update, List.map_map]
  apply List.map_congr_left
  intro r _
  rw [Function.comp_apply]
  split
  · exact hmark r
  · rfl

/-- A reset only removes marks. -/
theorem Rerun.reset (h : Rerun ext settings db₀ db) (ids : List String) :
    Rerun ext settings db₀ (resetProcessed ids db) where
  frames := by
    have hmap := map_mark_update db.assetFrame (fun f ↦ f.clientId ∈ ids) ignoringMark
      (fun _ ↦ rfl) (fun _ ↦ rfl)
    rw [resetProcessed]
    dsimp only
    rw [hmap]
    exact h.frames
  observations := h.observations
  model := h.model
  sound := h.sound
  complete := by
    intro f hf hp o ho
    have hupdate : ∃ g ∈ db.assetFrame,
        (if decide (g.clientId ∈ ids) then ignoringMark g else g) = f := List.mem_map.mp hf
    obtain ⟨g, hg, rfl⟩ := hupdate
    split at hp
    · exact absurd rfl hp
    · next hid =>
      rw [if_neg hid] at ho ⊢
      exact h.complete g hg hp o ho

omit [Field R] [LinearOrder R] in
/-- The active model does not depend on the row order, since it is the only one. -/
theorem loadActiveModel_of_sameRows {db db' : Database R}
    (h : db.sensorModel.SameRows db'.sensorModel) : loadActiveModel db' = loadActiveModel db := by
  unfold loadActiveModel
  congr 1
  cases hfind : db.sensorModel.rows.find? SensorModelRow.isActive with
  | none =>
    rw [List.find?_eq_none] at hfind ⊢
    intro m hm
    exact hfind m (h.mem_iff.mpr hm)
  | some m =>
    have hm := List.mem_of_find?_eq_some hfind
    have hactive := List.find?_some hfind
    cases hfind' : db'.sensorModel.rows.find? SensorModelRow.isActive with
    | none => exact absurd hactive (List.find?_eq_none.mp hfind' m (h.mem_iff.mp hm))
    | some m' =>
      have hm' := List.mem_of_find?_eq_some hfind'
      rw [db.activeUnique m hm m' (h.mem_iff.mpr hm') hactive (List.find?_some hfind')]

/-- Nothing depends on the physical row order. -/
theorem Rerun.reorder (h : Rerun ext settings db₀ db) {db' : Database R}
    (hsame : SameContents db db') : Rerun ext settings db₀ db' where
  frames := (hsame.assetFrame.map ignoringMark).symm.trans h.frames
  observations := hsame.assetObservation.symm.trans h.observations
  model := (loadActiveModel_of_sameRows hsame.sensorModel).trans h.model
  sound := fun p hp ↦ h.sound p (hsame.fusionPair.mem_iff.mpr hp)
  complete := by
    intro f hf hp o ho
    rw [← hsame.fusionPair.hasKey_iff]
    exact h.complete f (hsame.assetFrame.mem_iff.mpr hf) hp o ho

/-- A batch adds the expected pairs of its frames and marks them. -/
theorem Rerun.batch (h : Rerun ext settings db₀ db) (runId : String) (now : DateTime)
    (ids : List String) :
    Rerun ext settings db₀ (applyAll (tickWrites ext settings (loadActiveModel db) runId now ids
      (pairing ext settings ids db)) db) := by
  obtain ⟨runs, heq⟩ := applyAll_tickWrites ext settings (loadActiveModel db) now ids
    (pairing ext settings ids db) runId db
  rw [heq]
  constructor
  · have hmap := map_mark_update db.assetFrame (fun f ↦ f.clientId ∈ ids ∧ f.processedAt = none)
      (fun f ↦ { f with processedAt := some now }) (fun _ ↦ rfl) (fun _ ↦ rfl)
    dsimp only [markAll]
    rw [hmap]
    exact h.frames
  · exact h.observations
  · exact h.model
  · -- a row of the pairing query is the expected pair of its frame
    intro p hp
    rcases of_mem_upsertAll hp with hp | ⟨r, hr, hcols⟩
    · exact h.sound p hp
    · obtain ⟨f, hf, _, o, hnear, rfl⟩ := mem_pairing.mp hr
      obtain ⟨f₀, hf₀, hmark⟩ := h.exists_first hf
      refine ⟨f₀, hf₀, o, (isNearest_of_mark hmark).mpr (h.isNearest_iff.mp hnear), ?_⟩
      have hrun : ignoringRun p = ignoringRun { p with createdAt := now } := rfl
      rw [hrun, hcols, h.model, fusedPair_of_mark hmark]
      rfl
  · -- a frame of the batch has got its pair, the others had it before
    intro f hf hp o ho
    rw [hasKey_upsertAll]
    rcases mem_markAll.mp hf with ⟨hf, _⟩ | ⟨g, hg, ⟨hid, _⟩, rfl⟩
    · exact .inl (h.complete f hf hp o ho)
    · have hmark : ignoringMark { g with processedAt := some now } = ignoringMark g := rfl
      have hnear := h.isNearest_iff.mpr ((isNearest_of_mark hmark).mp ho)
      exact .inr ⟨candidate ext g o, mem_pairing.mpr ⟨g, hg, hid, o, hnear, rfl⟩, rfl⟩

/-- No tick changes an observation: all are scored, or there is no active model. -/
def NothingToScore (db : Database R) : Prop :=
  loadActiveModel db = none ∨ ∀ o ∈ db.assetObservation, o.scoredAt ≠ none

omit [Field R] [LinearOrder R] in
theorem selectUnscored_of_scored (h : ∀ o ∈ db.assetObservation, o.scoredAt ≠ none) {n : Int}
    {rows : List (AssetObservation R)} (hrows : selectUnscored n db = .ok rows) : rows = [] := by
  have hqueue : unscoredQueue db = [] := by
    rw [List.eq_nil_iff_forall_not_mem]
    intro o ho
    rw [unscoredQueue, mem_orderBy, List.mem_filter, Option.isNone_iff_eq_none] at ho
    exact h o ho.1 ho.2
  rw [selectUnscored, limitTo, hqueue] at hrows
  split at hrows
  · cases hrows
  · cases hrows
    exact List.take_nil

/-- With nothing to score and nobody else connected, a tick changes nothing or commits a batch. -/
theorem rerun_tick (ext : Externals R) (settings : Settings R) (hfixed : NothingToScore db)
    (t : Tick) (sch : Schedule Empty) :
    ((runFusionJob ext settings t).run sch (.fresh db)).conn.store = db ∨
      ∃ ids, ((runFusionJob ext settings t).run sch (.fresh db)).conn.store =
        applyAll (tickWrites ext settings (loadActiveModel db) t.runId t.pairNow ids
          (pairing ext settings ids db)) db := by
  have hout := spec_runFusionJob ext settings (U := Empty) (G := fun s s' ↦ s' = s) t
    (c := .fresh db) rfl (fun _ _ ↦ Arrived.eq) (fun _ _ _ h h' ↦ h'.trans h) ?_ sch
  · rcases hout with ⟨hfol, _⟩ | ⟨sModel, ids, s₀, s₁, s₂, s₃, hModel, hb⟩
    · exact .inl hfol.store
    · have h₁ : s₁ = db := hb.toInsert.eq.trans hb.before
      have h₂ : s₂ = db := hb.toPair.eq.trans h₁
      have h₃ : s₃ = db := hb.toCommit.eq.trans h₂
      have hm : sModel = db := hModel.eq
      have hafter := hb.after.eq
      rw [h₂, h₃, hm] at hafter
      exact .inr ⟨ids, hafter⟩
  · -- the unscored observations of an active model are none
    intro sm m su rows ws s hsm hm hsu hrows hne _ _
    have hsm' : sm = db := hsm.eq
    have hsu' : su = db := hsu.eq.trans hsm'
    subst hsm'
    subst hsu'
    rcases hfixed with hnone | hscored
    · rw [hnone] at hm
      cases hm
    · exact absurd (selectUnscored_of_scored hscored hrows) hne

theorem Rerun.nothingToScore (h : Rerun ext settings db₀ db) (hfixed : NothingToScore db₀) :
    NothingToScore db := by
  unfold NothingToScore at hfixed ⊢
  rw [h.model]
  apply hfixed.imp id
  intro hscored o ho
  exact hscored o (h.observations.mem_iff.mp ho)

/-- Every step keeps the invariant. -/
theorem Rerun.step (h : Rerun ext settings db₀ db) (hfixed : NothingToScore db₀)
    {db' : Database R} (hstep : RerunStep ext settings db db') : Rerun ext settings db₀ db' := by
  cases hstep with
  | tick batchSize t sch =>
    have hcases := rerun_tick ext { settings with fusionBatchSize := batchSize }
      (h.nothingToScore hfixed) t sch
    rcases hcases with heq | ⟨ids, heq⟩
    · rw [heq]
      exact h
    · rw [heq]
      exact h.batch t.runId t.pairNow ids
  | reset ids => exact h.reset ids
  | reorder db' hsame => exact h.reorder hsame

/-- Nothing has been fused yet: there are no pairs, and a frame that is processed already had no
candidate. -/
structure Unfused (ext : Externals R) (settings : Settings R) (db : Database R) : Prop where
  fusionPair : db.fusionPair = .empty
  processed : ∀ f ∈ db.assetFrame, f.processedAt ≠ none →
    candidatesOf ext settings f db.assetObservation.rows = []

omit [Field R] in
theorem not_isNearest_of_candidates {f : AssetFrame R} {os : List (AssetObservation R)}
    (h : candidatesOf ext settings f os = []) (o : AssetObservation R) :
    ¬IsNearest ext settings f os o := by
  intro hn
  have hmem : o ∈ candidatesOf ext settings f os := List.mem_filter.mpr ⟨hn.mem, hn.joins⟩
  rw [h] at hmem
  cases hmem

theorem rerun_start (h : Unfused ext settings db₀) : Rerun ext settings db₀ db₀ where
  frames := List.Perm.refl _
  observations := Table.SameRows.refl _
  model := rfl
  sound := by
    intro p hp
    rw [h.fusionPair] at hp
    exact absurd hp (Table.not_mem_empty p)
  complete := by
    intro f hf hp o ho
    exact absurd ho (not_isNearest_of_candidates (h.processed f hf hp) o)

theorem rerun_of_steps (hstart : Unfused ext settings db₀) (hfixed : NothingToScore db₀)
    (h : Relation.ReflTransGen (RerunStep ext settings) db₀ db) : Rerun ext settings db₀ db := by
  induction h with
  | refl => exact rerun_start hstart
  | tail _ hstep ih => exact ih.step hfixed hstep

/-! ### The result -/

theorem mem_expectedPairs {p : FusionPair R} : p ∈ expectedPairs ext settings db₀ ↔
    ∃ f ∈ db₀.assetFrame, ∃ o, IsNearest ext settings f db₀.assetObservation.rows o ∧
      fusedPair ext settings (loadActiveModel db₀) f o = p := by
  simp only [expectedPairs, List.mem_filterMap, Option.map_eq_some_iff, nearest_eq_some]
  rfl

/-- Each frame is in at most one expected pair. -/
theorem expectedPairs_nodup : (expectedPairs ext settings db₀).Nodup := by
  have hkeys : ((expectedPairs ext settings db₀).map (fun p ↦ p.frameClientId)).Nodup := by
    have hsub : ((expectedPairs ext settings db₀).map (fun p ↦ p.frameClientId)).Sublist
        (db₀.assetFrame.rows.map key) := by
      unfold expectedPairs
      induction db₀.assetFrame.rows with
      | nil => exact List.Sublist.slnil
      | cons f rest ih =>
        rw [List.filterMap_cons]
        cases nearest ext settings db₀.assetObservation.rows f with
        | none => exact ih.cons _
        | some o => exact ih.cons_cons _
    exact hsub.nodup db₀.assetFrame.keysNodup
  exact hkeys.of_map

/-- When no frame is left, the pairs are the expected ones. -/
theorem Rerun.result (h : Rerun ext settings db₀ db)
    (hdone : ∀ f ∈ db.assetFrame, f.processedAt ≠ none) :
    (db.fusionPair.rows.map ignoringRun).Perm (expectedPairs ext settings db₀) := by
  have hnodup : (db.fusionPair.rows.map ignoringRun).Nodup := by
    apply List.Nodup.of_map (f := key)
    rw [List.map_map]
    exact db.fusionPair.keysNodup
  rw [List.perm_ext_iff_of_nodup hnodup expectedPairs_nodup]
  intro p
  rw [mem_expectedPairs, List.mem_map]
  constructor
  · rintro ⟨q, hq, rfl⟩
    obtain ⟨f, hf, o, ho, heq⟩ := h.sound q hq
    exact ⟨f, hf, o, ho, heq.symm⟩
  · rintro ⟨f₀, hf₀, o, ho, rfl⟩
    -- the frame is processed, so it has a pair, and that pair is the expected one
    obtain ⟨f, hf, hmark⟩ := h.exists_now hf₀
    have hkey := h.complete f hf (hdone f hf) o ((isNearest_of_mark hmark).mpr ho)
    obtain ⟨q, hq, hqkey⟩ := Table.hasKey_iff.mp hkey
    obtain ⟨f₁, hf₁, o₁, ho₁, heq⟩ := h.sound q hq
    have hframe : f₁.clientId = f₀.clientId := by
      have hq₁ : f₁.clientId = q.frameClientId := (congrArg (fun p ↦ p.frameClientId) heq).symm
      have hq₂ : q.frameClientId = f.clientId := congrArg Prod.snd hqkey
      rw [hq₁, hq₂, clientId_of_mark hmark]
    have hf₁₀ : f₁ = f₀ := Table.eq_of_key hf₁ hf₀ hframe
    subst hf₁₀
    exact ⟨q, hq, heq.trans (congrArg _ (ho₁.unique ho))⟩

end Invariant

/-- One report and two frames near it. -/
def twoFramesDb : Database ℚ :=
  applyAll [Ingest.reportAt "event" 0 1, Ingest.frameAt "frame" 0 2,
    Ingest.frameAt "other" (1 / 10000) 3] Database.empty

/-- The state after a tick that gets the lock. -/
def afterTick (batchSize : Int) (runId : String) (db : Database ℚ) : Database ℚ :=
  ((runFusionJob Externals.planar { Settings.default ℚ with fusionBatchSize := batchSize }
    ⟨true, runId, 10, 11⟩).run (quiet : Schedule Empty) (.fresh db)).conn.store

end PotholeServer.Fusion
