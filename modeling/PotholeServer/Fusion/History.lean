import PotholeServer.Fusion.Batch
import PotholeServer.Ingest.Upload

/-!
# Ticks among uploads

Outside its batch a tick lets uploads through and writes scores. Seen from the pairing, both only
add rows: existing frames, pairs and runs stay, and an observation keeps its device, time and
place.
-/

namespace PotholeServer.Fusion

open Sql Db Sensor Ingest

variable {R : Type}

/-- From one database to a later one there have been uploads and scores, and no batch. -/
structure Since (s s' : Database R) : Prop where
  observationKept : ∀ o ∈ s.assetObservation, ∃ o' ∈ s'.assetObservation, SameReport o o'
  frameKept : ∀ f ∈ s.assetFrame, f ∈ s'.assetFrame
  frameNew : ∀ f ∈ s'.assetFrame, f ∈ s.assetFrame ∨ f.processedAt = none
  fusionRun : s'.fusionRun = s.fusionRun
  fusionPair : s'.fusionPair = s.fusionPair

theorem Since.refl (s : Database R) : Since s s where
  observationKept := fun o ho ↦ ⟨o, ho, .refl o⟩
  frameKept := fun _ h ↦ h
  frameNew := fun _ h ↦ .inl h
  fusionRun := rfl
  fusionPair := rfl

theorem Since.trans {s s' s'' : Database R} (h : Since s s') (h' : Since s' s'') : Since s s'' where
  observationKept := by
    intro o ho
    obtain ⟨o', ho', hsame⟩ := h.observationKept o ho
    obtain ⟨o'', ho'', hsame'⟩ := h'.observationKept o' ho'
    exact ⟨o'', ho'', hsame.trans hsame'⟩
  frameKept := fun f hf ↦ h'.frameKept f (h.frameKept f hf)
  frameNew := by
    intro f hf
    rcases h'.frameNew f hf with hf | hf
    · exact h.frameNew f hf
    · exact .inr hf
  fusionRun := h'.fusionRun.trans h.fusionRun
  fusionPair := h'.fusionPair.trans h.fusionPair

theorem since_of_uploaded {s s' : Database R} (h : Uploaded s s') : Since s s' where
  observationKept := fun o ho ↦ ⟨o, h.observationKept o ho, .refl o⟩
  frameKept := h.frameKept
  frameNew := h.frameNew
  fusionRun := h.fusionRun
  fusionPair := h.fusionPair

theorem since_of_arrived {s s' : Database R} (h : Arrived (Upload R) s s') : Since s s' :=
  since_of_uploaded (uploaded_of_arrived h)

theorem since_updateScored (clientId : String) (scores : Scores R) (now : DateTime)
    (s : Database R) : Since s (s.write (.updateScored clientId scores now)) := by
  refine ⟨?_, fun _ h ↦ h, fun _ h ↦ .inl h, rfl, rfl⟩
  intro o ho
  have hmem : (if decide (o.clientId = clientId) then o.setScores scores now else o) ∈
      (s.write (.updateScored clientId scores now)).assetObservation :=
    Table.mem_update_of_mem (p := fun r ↦ r.clientId = clientId)
      (f := AssetObservation.setScores scores now) (fun _ ↦ rfl) ho
  refine ⟨_, hmem, ?_⟩
  split
  · exact ⟨rfl, rfl, rfl, rfl⟩
  · exact .refl o

variable [Field R] [LinearOrder R] (ext : Externals R) (settings : Settings R)

theorem since_scoreWrites {model : SensorModel R} {now : DateTime}
    {rows : List (AssetObservation R)} {ws : List (Write R)}
    (h : List.Forall₂ (ScoreWrite ext model now) rows ws) (s : Database R) :
    Since s (applyAll ws s) := by
  induction h generalizing s with
  | nil => exact .refl s
  | cons hw _ ih =>
    obtain ⟨res, _, rfl⟩ := hw
    exact (since_updateScored _ _ _ s).trans (ih _)

/-- One tick on a fresh connection, with the uploads and failures that the schedule brings. -/
def runTick (t : Tick) (sch : Schedule (Upload R)) (db : Database R) :
    Outcome (Database R) (Write R) Statement (Upload R) Unit :=
  (runFusionJob ext settings t).run sch (.fresh db)

/-- The outcome of a tick among uploads. -/
theorem runTick_outcome (t : Tick) (sch : Schedule (Upload R)) (db : Database R) :
    TickOutcome ext settings (Upload R) Since t (.fresh db) (runTick ext settings t sch db).result
      (runTick ext settings t sch db).conn := by
  refine spec_runFusionJob ext settings t rfl (fun _ _ ↦ since_of_arrived)
    (fun _ _ _ ↦ Since.trans) ?_ sch
  intro _ _ _ _ _ s _ _ _ _ _ hws _
  exact since_scoreWrites ext hws s

/-- The states committed while a tick runs: what the trace records, or the last one. -/
def CommittedBy (t : Tick) (sch : Schedule (Upload R)) (db s : Database R) : Prop :=
  .commit s ∈ (runTick ext settings t sch db).conn.trace ∨
    s = (runTick ext settings t sch db).conn.store

/-- A batch of a tick on `db`, and a state `s` that only uploads separate from it. -/
structure BatchBefore (t : Tick) (model : Option (SensorModel R)) (db s : Database R)
    (ids : List String) (sSelect sPair sCommit : Database R) : Prop where
  before : Since db sSelect
  batch : selectFrameBatch settings.fusionBatchSize sSelect = .ok ids
  nonempty : ids ≠ []
  toPair : Uploaded sSelect sPair
  toCommit : Uploaded sPair sCommit
  fresh : ¬sCommit.fusionRun.HasKey t.runId
  after : Uploaded (applyAll (tickWrites ext settings model t.runId t.pairNow ids
    (pairing ext settings ids sPair)) sCommit) s

theorem BatchCommit.batchBefore {t : Tick} {model : Option (SensorModel R)} {db u : Database R}
    {c : DbConn R} {ids : List String} {s₀ s₁ s₂ s₃ : Database R}
    (h : BatchCommit ext settings (Upload R) Since model t.runId t.pairNow (.fresh db) c ids s₀ s₁
      s₂ s₃)
    (hu : Arrived (Upload R) (applyAll (tickWrites ext settings model t.runId t.pairNow ids
      (pairing ext settings ids s₂)) s₃) u) :
    BatchBefore ext settings t model db u ids s₀ s₂ s₃ where
  before := h.before
  batch := h.batch
  nonempty := h.nonempty
  toPair := (uploaded_of_arrived h.toInsert).trans (uploaded_of_arrived h.toPair)
  toCommit := uploaded_of_arrived h.toCommit
  fresh := by
    rw [(uploaded_of_arrived h.toCommit).fusionRun, (uploaded_of_arrived h.toPair).fusionRun]
    exact h.fresh
  after := uploaded_of_arrived hu

/-- A state committed by a tick comes before its batch or after it. -/
theorem committedBy_cases {t : Tick} {sch : Schedule (Upload R)} {db s : Database R}
    (h : CommittedBy ext settings t sch db s) :
    Since db s ∨ ∃ model ids sSelect sPair sCommit,
      BatchBefore ext settings t model db s ids sSelect sPair sCommit := by
  rcases runTick_outcome ext settings t sch db with
    ⟨hfol, _⟩ | ⟨sModel, ids, s₀, s₁, s₂, s₃, _, hb⟩
  · rcases h with h | rfl
    · rcases hfol.commits s h with h | h
      · cases h
      · exact .inl h
    · exact .inl hfol.store
  · rcases h with h | rfl
    · rcases hb.commits s h with h | h | h
      · cases h
      · exact .inl h
      · exact .inr ⟨_, _, _, _, _, hb.batchBefore ext settings h⟩
    · exact .inr ⟨_, _, _, _, _, hb.batchBefore ext settings hb.after⟩

end PotholeServer.Fusion
