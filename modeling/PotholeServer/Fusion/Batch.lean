import PotholeServer.Fusion.Pairing
import PotholeServer.Fusion.Tick

/-!
# What a committed batch does to the tables

The effects of the pairing transaction, table by table: one completed run, one upsert for each
row of the pairing query, and the frames of the batch marked processed.
-/

namespace PotholeServer.Fusion

open Sql Db Sensor

variable {R : Type}

theorem key_setExcluded (new p : FusionPair R) : key (new.setExcluded p) = key p := rfl

/-- The upserts of the loop of `_pair_and_fuse`, in order. -/
def upsertAll (engine : FusionEngine R) (runId : String) (now : DateTime)
    (t : Table (FusionPair R)) (candidates : List (Candidate R)) : Table (FusionPair R) :=
  candidates.foldl (fun t r ↦ t.upsert (newPair engine runId now r)
    (newPair engine runId now r).setExcluded (key_setExcluded _)) t

theorem key_setProcessed (now : DateTime) (f : AssetFrame R) :
    key { f with processedAt := some now } = key f := rfl

/-- `UPDATE asset_frame SET processed_at = now()
WHERE client_id = ANY(..) AND processed_at IS NULL` -/
def markAll (ids : List String) (now : DateTime) (t : Table (AssetFrame R)) :
    Table (AssetFrame R) :=
  t.update (fun f ↦ f.clientId ∈ ids ∧ f.processedAt = none)
    (fun f ↦ { f with processedAt := some now }) (key_setProcessed now)

/-- A run row as the transaction leaves it. -/
def completedRun (engine : FusionEngine R) (runId : String) (now : DateTime)
    (model : Option (SensorModel R)) (inputs outputs : Nat) : FusionRun R :=
  { newRun engine runId now inputs with
    completedAt := some now
    outputsCount := some outputs
    metrics := some
      { frames := inputs
        pairs := outputs
        sensorModelVersion := model.map SensorModel.modelVersion } }

theorem applyAll_upsertPairs (engine : FusionEngine R) (runId : String) (now : DateTime)
    (candidates : List (Candidate R)) (db : Database R) :
    applyAll (candidates.map (fun r ↦ Write.upsertPair (newPair engine runId now r))) db =
      { db with fusionPair := upsertAll engine runId now db.fusionPair candidates } := by
  induction candidates generalizing db with
  | nil => rfl
  | cons r rest ih =>
    rw [List.map_cons, applyAll_cons, ih]
    rfl

/-! ### Upserts -/

section Upserts

variable {engine : FusionEngine R} {runId : String} {now : DateTime} {t : Table (FusionPair R)}
  {candidates : List (Candidate R)}

/-- The keys after the upserts. -/
theorem hasKey_upsertAll {k : String × String} :
    (upsertAll engine runId now t candidates).HasKey k ↔
      t.HasKey k ∨ ∃ r ∈ candidates, (r.eventClientId, r.frameClientId) = k := by
  induction candidates generalizing t with
  | nil => simp [upsertAll]
  | cons r rest ih =>
    have hcons : upsertAll engine runId now t (r :: rest) =
        upsertAll engine runId now (t.upsert (newPair engine runId now r)
          (newPair engine runId now r).setExcluded (key_setExcluded _)) rest := rfl
    rw [hcons, ih, Table.hasKey_upsert]
    simp only [List.mem_cons, exists_eq_or_imp, or_assoc]
    apply or_congr_right
    apply or_congr_left
    exact eq_comm

/-- Every pair after the upserts is an older one or carries the columns of a candidate. -/
theorem of_mem_upsertAll {p : FusionPair R} (hp : p ∈ upsertAll engine runId now t candidates) :
    p ∈ t ∨ ∃ r ∈ candidates, { p with createdAt := now } = newPair engine runId now r := by
  induction candidates generalizing t with
  | nil => exact .inl hp
  | cons r rest ih =>
    rcases ih hp with hp | ⟨r', hr', hcols⟩
    · rcases Table.mem_upsert.mp hp with ⟨hp, _⟩ | ⟨u, hu, hkey, rfl⟩ | ⟨rfl, _⟩
      · exact .inl hp
      · refine .inr ⟨r, List.mem_cons_self .., ?_⟩
        have hevent : u.eventClientId = r.eventClientId := congrArg Prod.fst hkey
        have hframe : u.frameClientId = r.frameClientId := congrArg Prod.snd hkey
        simp only [FusionPair.setExcluded, newPair, hevent, hframe]
      · exact .inr ⟨r, List.mem_cons_self .., rfl⟩
    · exact .inr ⟨r', List.mem_cons_of_mem _ hr', hcols⟩

theorem exists_run_upsertAll {p : FusionPair R} (hp : p ∈ t) (hrun : p.fusionRunId = runId) :
    ∃ q ∈ upsertAll engine runId now t candidates, key q = key p ∧ q.fusionRunId = runId := by
  induction candidates generalizing t p with
  | nil => exact ⟨p, hp, rfl, hrun⟩
  | cons r rest ih =>
    by_cases hkey : key p = key (newPair engine runId now r)
    · have hmem : (newPair engine runId now r).setExcluded p ∈ t.upsert (newPair engine runId now r)
          (newPair engine runId now r).setExcluded (key_setExcluded _) :=
        Table.mem_upsert.mpr (.inr (.inl ⟨p, hp, hkey, rfl⟩))
      obtain ⟨q, hq, hqk, hqrun⟩ := ih hmem rfl
      exact ⟨q, hq, hqk, hqrun⟩
    · exact ih (Table.mem_upsert.mpr (.inl ⟨hp, hkey⟩)) hrun

/-- Every candidate has a pair of the run after the upserts. -/
theorem exists_mem_upsertAll (engine : FusionEngine R) (runId : String) (now : DateTime)
    (t : Table (FusionPair R)) {r : Candidate R} (hr : r ∈ candidates) :
    ∃ q ∈ upsertAll engine runId now t candidates,
      key q = (r.eventClientId, r.frameClientId) ∧ q.fusionRunId = runId := by
  induction candidates generalizing t with
  | nil => cases hr
  | cons r' rest ih =>
    rcases List.mem_cons.mp hr with rfl | hr
    · by_cases hkey : t.HasKey (key (newPair engine runId now r))
      · obtain ⟨p, hp, hpk⟩ := Table.hasKey_iff.mp hkey
        have hmem : (newPair engine runId now r).setExcluded p ∈
            t.upsert (newPair engine runId now r) (newPair engine runId now r).setExcluded
              (key_setExcluded _) := Table.mem_upsert.mpr (.inr (.inl ⟨p, hp, hpk, rfl⟩))
        obtain ⟨q, hq, hqk, hrun⟩ := exists_run_upsertAll hmem rfl
        exact ⟨q, hq, hqk.trans hpk, hrun⟩
      · have hmem : newPair engine runId now r ∈
            t.upsert (newPair engine runId now r) (newPair engine runId now r).setExcluded
              (key_setExcluded _) := Table.mem_upsert.mpr (.inr (.inr ⟨rfl, hkey⟩))
        exact exists_run_upsertAll hmem rfl
    · exact ih _ hr

/-- Pairs of frames that have none yet are appended in order. -/
theorem rows_upsertAll (hnodup : (candidates.map (fun r ↦ r.frameClientId)).Nodup)
    (hfresh : ∀ p ∈ t, p.frameClientId ∉ candidates.map (fun r ↦ r.frameClientId)) :
    (upsertAll engine runId now t candidates).rows =
      t.rows ++ candidates.map (newPair engine runId now) := by
  induction candidates generalizing t with
  | nil => simp [upsertAll]
  | cons r rest ih =>
    rw [List.map_cons, List.nodup_cons] at hnodup
    have hkey : ¬t.HasKey (key (newPair engine runId now r)) := by
      intro h
      obtain ⟨p, hp, hk⟩ := Table.hasKey_iff.mp h
      apply hfresh p hp
      have hframe : p.frameClientId = r.frameClientId := congrArg Prod.snd hk
      rw [hframe]
      exact List.mem_cons_self ..
    have hrows := Table.rows_insertNew hkey
    have hcons : upsertAll engine runId now t (r :: rest) =
        upsertAll engine runId now (t.insertNew (newPair engine runId now r)) rest := by
      change upsertAll engine runId now (t.upsert _ _ (key_setExcluded _)) rest = _
      rw [Table.upsert_of_not_hasKey hkey]
    rw [hcons, ih hnodup.2, hrows, List.append_assoc]
    · rfl
    · intro p hp
      rcases Table.mem_insertNew.mp hp with hp | ⟨rfl, _⟩
      · intro hmem
        exact hfresh p hp (List.mem_cons_of_mem _ hmem)
      · exact hnodup.1

end Upserts

/-! ### Marked frames -/

section Marked

variable {ids : List String} {now : DateTime} {t : Table (AssetFrame R)} {f : AssetFrame R}

theorem mem_markAll : f ∈ markAll ids now t ↔
    (f ∈ t ∧ ¬(f.clientId ∈ ids ∧ f.processedAt = none)) ∨
      ∃ g ∈ t, (g.clientId ∈ ids ∧ g.processedAt = none) ∧
        f = { g with processedAt := some now } := by
  rw [markAll, Table.mem_update]
  constructor
  · rintro ⟨g, hg, rfl⟩
    by_cases h : g.clientId ∈ ids ∧ g.processedAt = none
    · exact .inr ⟨g, hg, h, by simp [h]⟩
    · rw [if_neg (by simpa using h)]
      exact .inl ⟨hg, h⟩
  · rintro (⟨hf, h⟩ | ⟨g, hg, h, rfl⟩)
    · exact ⟨f, hf, by simp [h]⟩
    · exact ⟨g, hg, by simp [h]⟩

/-- A processed frame stays as it is. -/
theorem mem_markAll_of_processed (hf : f ∈ t) (hp : f.processedAt ≠ none) :
    f ∈ markAll ids now t := mem_markAll.mpr (.inl ⟨hf, fun h ↦ hp h.2⟩)

end Marked

/-! ### The batch -/

section Batch

variable [Field R] [LinearOrder R] (ext : Externals R) (settings : Settings R)
  (model : Option (SensorModel R)) {runId : String} (now : DateTime) (ids : List String)
  (candidates : List (Candidate R)) {db : Database R}

/-- The database after the effects of a batch, up to the runs. -/
theorem applyAll_tickWrites (runId : String) (db : Database R) : ∃ runs,
    applyAll (tickWrites ext settings model runId now ids candidates) db =
      { db with
        assetFrame := markAll ids now db.assetFrame
        fusionRun := runs
        fusionPair := upsertAll (getEngine ext settings model) runId now db.fusionPair
          candidates } := by
  rw [tickWrites, applyAll_cons, applyAll_append, applyAll_upsertPairs]
  exact ⟨_, rfl⟩

/-- A batch whose run id is new adds one completed run. -/
theorem fusionRun_tickWrites (hfresh : ¬db.fusionRun.HasKey runId) :
    (applyAll (tickWrites ext settings model runId now ids candidates) db).fusionRun.rows =
      db.fusionRun.rows ++ [completedRun (getEngine ext settings model) runId now model
        ids.length candidates.length] := by
  rw [tickWrites, applyAll_cons, applyAll_append, applyAll_upsertPairs]
  simp only [applyAll_cons, applyAll_nil, apply_write, Database.write]
  rw [Table.rows_update, Table.rows_insertNew hfresh, List.map_append]
  congr 1
  · -- the update of the run touches no older row, whose id is another one
    have hsame : ∀ r ∈ db.fusionRun.rows, r.runId ≠ runId := by
      intro r hr he
      exact hfresh (he ▸ Table.hasKey_of_mem hr)
    calc db.fusionRun.rows.map _ = db.fusionRun.rows.map id := by
          apply List.map_congr_left
          intro r hr
          simp [hsame r hr]
      _ = db.fusionRun.rows := List.map_id _
  · simp [newRun, completedRun]

end Batch

end PotholeServer.Fusion
