import PotholeServer.Pipeline.Evidence

/-!
# The whole server

Any number of calls of `insert_events`, ticks of the fusion job and runs of the clustering job, each
in a session of its own, and the transactions of one statement of `store_frame`, `save_model` and an
admin. The statements of all of them are interleaved, requests fail and connections are lost; which
row locks the server takes, and whether a job holds its advisory lock, makes no difference here.
-/

namespace PotholeServer.Pipeline

open Sql Db Sensor Fusion Cluster Ingest

variable {R : Type} [Field R] [LinearOrder R]

/-! ### Jobs -/

/-- What runs in a session: a call of `insert_events`, `run_fusion_job` or `run_cluster_job`. -/
inductive ServerJob (ext : Externals R) where
  | insertEvents (deviceId : String) (now : DateTime) (events : List (EventPayload ext))
  | fusion (t : Tick)
  | clustering (tick : ClusterTick)

namespace ServerJob

variable {ext : Externals R}

/-- What a job returns. -/
def Answer : ServerJob ext → Type
  | insertEvents .. => List String × List RejectedEvent
  | fusion _ => Unit
  | clustering _ => Nat

/-- The program of a job. -/
def program (settings : Settings R) : (j : ServerJob ext) → DbProg R j.Answer
  | insertEvents deviceId now events => Ingest.insertEvents ext deviceId now events
  | fusion t => runFusionJob ext settings t
  | clustering tick => runClusterJob ext settings tick

/-- A job derives what it writes from the evidence, or brings evidence. -/
theorem admissible (settings : Settings R) (j : ServerJob ext) :
    Server.Admissible (ledger ext settings) (j.program settings) := by
  cases j with
  | insertEvents deviceId now events => exact .inr (emits_insertEvents (fun _ _ ↦ rfl))
  | fusion t => exact .inl (grounded_runFusionJob t)
  | clustering tick => exact .inl (grounded_runClusterJob tick)

end ServerJob

/-- What is committed beside the sessions: the row of `store_frame`, a `save_model`, or a repair. -/
inductive Outside (R : Type) where
  | storeFrame (row : AssetFrame R)
  | saveModel (model : SensorModel R)
  | repair (clusterId : String) (time : DateTime)

omit [Field R] [LinearOrder R] in
/-- The effect of a commit. -/
def Outside.apply : Outside R → Database R → Database R
  | .storeFrame row, db => db.write (.insertFrame row)
  | .saveModel model, db => Fusion.saveModel model db
  | .repair clusterId time, db => markRepaired clusterId time db

instance : Effect (Outside R) (Database R) := ⟨Outside.apply⟩

/-- A server with all jobs. -/
abbrev PipelineServer (ext : Externals R) :=
  Server (ServerJob ext) ServerJob.Answer (Database R) (Write R) Statement

section Steps

variable {ext : Externals R} {K : Type} [DecidableEq K] (locks : Write R → List K)
  (asks : Outside R → List K) (settings : Settings R)

/-- One step of the server. -/
abbrev serverStep (σ : PipelineServer ext) (a : Act (ServerJob ext) (Outside R)) :
    Option (PipelineServer ext) :=
  σ.step locks (ServerJob.program settings) asks a

/-- What the server can come to from one state. -/
abbrev Runs (σ σ' : PipelineServer ext) : Prop :=
  Reaches (serverStep locks asks settings) (fun _ _ ↦ True) σ σ'

end Steps

/-! ### Everything derived is reproducible -/

section Reproducible

variable {ext : Externals R} {settings : Settings R}

omit [Field R] [LinearOrder R] in
theorem retains_saveModel (model : SensorModel R) (db : Database R) :
    db.sensorModel.Retains SameModel (Fusion.saveModel model db).sensorModel := by
  unfold Fusion.saveModel
  split
  · exact .refl SameModel.refl _
  · refine Table.Retains.trans (fun h h' ↦ h'.trans h) ?_
      (Table.retains_insertNew SameModel.refl _ _)
    exact Table.retains_update (f := fun r : SensorModelRow R ↦ { r with isActive := false })
      SameModel.refl (fun _ _ ↦ rfl) (fun _ ↦ rfl)

omit [Field R] [LinearOrder R] in
/-- `save_model` writes one table. -/
theorem tables_saveModel (model : SensorModel R) (db : Database R) :
    (Fusion.saveModel model db).assetObservation = db.assetObservation ∧
      (Fusion.saveModel model db).assetFrame = db.assetFrame ∧
      (Fusion.saveModel model db).fusionRun = db.fusionRun ∧
      (Fusion.saveModel model db).fusionPair = db.fusionPair ∧
      (Fusion.saveModel model db).assetCluster = db.assetCluster ∧
      (Fusion.saveModel model db).observationClusterLink = db.observationClusterLink ∧
      (Fusion.saveModel model db).clusterRun = db.clusterRun := by
  unfold Fusion.saveModel
  split
  · exact ⟨rfl, rfl, rfl, rfl, rfl, rfl, rfl⟩
  · exact ⟨rfl, rfl, rfl, rfl, rfl, rfl, rfl⟩

/-- What is committed beside the sessions derives nothing. -/
theorem harmless (u : Outside R) : Server.Harmless (ledger ext settings) u := by
  intro db hdb
  cases u with
  | storeFrame row => exact ⟨hdb.write (w := .insertFrame row) trivial, evidence_write _ db⟩
  | saveModel model =>
    obtain ⟨hobservation, hframe, -, hpair, -, hlink, -⟩ := tables_saveModel model db
    have hE : evidence db ⊆ evidence (Fusion.saveModel model db) := by
      refine evidence_subset ?_ ?_ (retains_saveModel model db)
      · rw [hobservation]
        exact .refl SameReported.refl _
      · rw [hframe]
        exact .refl SameTaken.refl _
    exact ⟨hdb.of_kept hE (fun _ ho ↦ hobservation ▸ ho) (fun _ hp ↦ hpair ▸ hp)
      (fun _ hl ↦ hlink ▸ hl), hE⟩
  | repair clusterId time =>
    have hE : evidence db ⊆ evidence (markRepaired clusterId time db) := subset_rfl
    exact ⟨hdb.of_kept hE (fun _ ho ↦ ho) (fun _ hp ↦ hp) (fun _ hl ↦ hl), hE⟩

variable {K : Type} [DecidableEq K] {locks : Write R → List K} {asks : Outside R → List K}

/-- In every state that the server can come to, whatever is interleaved, refused, lost or rolled
back, each score is what a stored model gives to what was reported, each pair is what an engine
makes of a frame and such an observation in its window, and each link is that of an observation that
a stored model has called a pothole or that has such a pair. -/
theorem derived_reproducible {σ : PipelineServer ext}
    (h : Runs locks asks settings (Server.idle Database.empty) σ) :
    Reproducible ext settings σ.store := by
  have hstart : Server.Guaranteed (ledger ext settings)
      (Server.idle Database.empty : PipelineServer ext) :=
    Server.guaranteed_idle (ledger ext settings) reproducible_empty
  refine (hstart.reaches ?_ h).1.sound
  exact fun _ _ _ ↦ ⟨fun j _ ↦ j.admissible settings, fun u _ ↦ harmless u⟩

end Reproducible

/-! ### Nothing is forgotten -/

/-- A row stays: what is fixed in it stays as it is, and what has been noted in it stays noted. -/
structure Stays {ρ α γ : Type} (fixed : ρ → α) (noted : ρ → γ → Prop) (r r' : ρ) : Prop where
  fixed : fixed r' = fixed r
  noted : ∀ x, noted r x → noted r' x

section Stays

variable {ρ α γ : Type} {fixed : ρ → α} {noted : ρ → γ → Prop} {r r' r'' : ρ}

theorem Stays.refl (r : ρ) : Stays fixed noted r r := ⟨rfl, fun _ h ↦ h⟩

theorem Stays.trans (h : Stays fixed noted r r') (h' : Stays fixed noted r' r'') :
    Stays fixed noted r r'' :=
  ⟨h'.fixed.trans h.fixed, fun x hx ↦ h'.noted x (h.noted x hx)⟩

end Stays

section Preserved

omit [Field R] [LinearOrder R]

/-- The columns that `_UPDATE_SCORED_SQL` sets. -/
inductive ScoreColumn where
  | sensorClass
  | sensorPPothole
  | sensorSeverity
  | sensorIsOutlier
  | sensorModelVersion
  | scoredAt

/-- The column is not `NULL`. -/
def IsSet (o : AssetObservation R) : ScoreColumn → Prop
  | .sensorClass => o.sensorClass ≠ none
  | .sensorPPothole => o.sensorPPothole ≠ none
  | .sensorSeverity => o.sensorSeverity ≠ none
  | .sensorIsOutlier => o.sensorIsOutlier ≠ none
  | .sensorModelVersion => o.sensorModelVersion ≠ none
  | .scoredAt => o.scoredAt ≠ none

/-- Scoring sets them all. -/
theorem isSet_setScores (o : AssetObservation R) (scores : Scores R) (now : DateTime)
    (c : ScoreColumn) : IsSet (o.setScores scores now) c := by
  cases c <;> exact Option.some_ne_none _

/-- A report stays, and a score that is set stays set. -/
abbrev ObservationStays : AssetObservation R → AssetObservation R → Prop :=
  Stays unscored IsSet

/-- A frame stays, and so does its mark. -/
abbrev FrameStays : AssetFrame R → AssetFrame R → Prop :=
  Stays unmarked (fun f time ↦ f.processedAt = some time)

/-- A fusion run stays, and once it is complete it is. -/
abbrev RunStays : FusionRun R → FusionRun R → Prop :=
  Stays (fun r ↦ (r.runId, r.engineVersion, r.weights, r.startedAt, r.inputsCount))
    (fun r (_ : Unit) ↦ r.completedAt ≠ none)

/-- A pair stays, from when it was made on. -/
abbrev PairStays : FusionPair R → FusionPair R → Prop :=
  Stays (fun p ↦ (p.eventClientId, p.frameClientId)) (fun p time ↦ p.createdAt = time)

/-- A cluster stays, and once it is repaired it is. -/
abbrev ClusterStays : AssetCluster R → AssetCluster R → Prop :=
  Stays (fun c ↦ (c.clusterId, c.assetType, c.source, c.createdAt))
    (fun c (_ : Unit) ↦ c.repairedAt ≠ none)

/-- A cluster run stays, and once it is complete it is. -/
abbrev ClusterRunStays : ClusterRun R → ClusterRun R → Prop :=
  Stays (fun r ↦ (r.runId, r.startedAt, r.inputsCount, r.params))
    (fun r (_ : Unit) ↦ r.completedAt ≠ none)

/-- Every row stays, but for the links of clusters. -/
structure Preserved (db db' : Database R) : Prop where
  observation : db.assetObservation.Retains ObservationStays db'.assetObservation
  frame : db.assetFrame.Retains FrameStays db'.assetFrame
  model : db.sensorModel.Retains SameModel db'.sensorModel
  run : db.fusionRun.Retains RunStays db'.fusionRun
  pair : db.fusionPair.Retains PairStays db'.fusionPair
  cluster : db.assetCluster.Retains ClusterStays db'.assetCluster
  clusterRun : db.clusterRun.Retains ClusterRunStays db'.clusterRun

theorem Preserved.refl (db : Database R) : Preserved db db where
  observation := .refl Stays.refl _
  frame := .refl Stays.refl _
  model := .refl SameModel.refl _
  run := .refl Stays.refl _
  pair := .refl Stays.refl _
  cluster := .refl Stays.refl _
  clusterRun := .refl Stays.refl _

theorem Preserved.trans {db db' db'' : Database R} (h : Preserved db db')
    (h' : Preserved db' db'') : Preserved db db'' where
  observation := h.observation.trans Stays.trans h'.observation
  frame := h.frame.trans Stays.trans h'.frame
  model := h.model.trans (fun hm hm' ↦ hm'.trans hm) h'.model
  run := h.run.trans Stays.trans h'.run
  pair := h.pair.trans Stays.trans h'.pair
  cluster := h.cluster.trans Stays.trans h'.cluster
  clusterRun := h.clusterRun.trans Stays.trans h'.clusterRun

/-- Every effect leaves the rows. -/
theorem preserved_write (w : Write R) (db : Database R) : Preserved db (db.write w) := by
  cases w with
  | insertObservation row =>
    exact { Preserved.refl db with observation := Table.retains_insertNew Stays.refl _ _ }
  | insertFrame row =>
    exact { Preserved.refl db with frame := Table.retains_insertNew Stays.refl _ _ }
  | insertRun row =>
    exact { Preserved.refl db with run := Table.retains_insertNew Stays.refl _ _ }
  | insertClusterRun row =>
    exact { Preserved.refl db with clusterRun := Table.retains_insertNew Stays.refl _ _ }
  | insertCluster row =>
    exact { Preserved.refl db with cluster := Table.retains_insertNew Stays.refl _ _ }
  | updateScored id scores now =>
    have hstays : ∀ o : AssetObservation R, ObservationStays o (o.setScores scores now) :=
      fun o ↦ ⟨rfl, fun c _ ↦ isSet_setScores o scores now c⟩
    exact { Preserved.refl db with
      observation := Table.retains_update Stays.refl (fun o _ ↦ hstays o) (fun _ ↦ rfl) }
  | markProcessed ids now =>
    -- The statement selects frames that have no mark.
    have hstays : ∀ f : AssetFrame R, decide (f.clientId ∈ ids ∧ f.processedAt = none) = true →
        FrameStays f { f with processedAt := some now } := by
      intro f hf
      refine ⟨rfl, ?_⟩
      intro time htime
      rw [(of_decide_eq_true hf).2] at htime
      cases htime
    exact { Preserved.refl db with
      frame := Table.retains_update Stays.refl hstays (fun _ ↦ rfl) }
  | upsertPair row =>
    have hstays : ∀ p : FusionPair R, PairStays p (row.setExcluded p) :=
      fun p ↦ ⟨rfl, fun _ h ↦ h⟩
    exact { Preserved.refl db with
      pair := Table.retains_upsert Stays.refl (fun p _ ↦ hstays p) (fun _ ↦ rfl) }
  | updateRun runId outputs metrics now =>
    have hstays : ∀ r : FusionRun R, RunStays r
        { r with completedAt := some now, outputsCount := some outputs, metrics := some metrics } :=
      fun r ↦ ⟨rfl, fun _ _ ↦ Option.some_ne_none now⟩
    exact { Preserved.refl db with
      run := Table.retains_update Stays.refl (fun r _ ↦ hstays r) (fun _ ↦ rfl) }
  | updateCluster id summary now =>
    have hstays : ∀ c : AssetCluster R, ClusterStays c (c.setSummary summary now) :=
      fun c ↦ ⟨rfl, fun _ h ↦ h⟩
    exact { Preserved.refl db with
      cluster := Table.retains_update Stays.refl (fun c _ ↦ hstays c) (fun _ ↦ rfl) }
  | updateClusterRun runId outputs now =>
    have hstays : ∀ r : ClusterRun R, ClusterRunStays r
        { r with completedAt := some now, outputsCount := some outputs } :=
      fun r ↦ ⟨rfl, fun _ _ ↦ Option.some_ne_none now⟩
    exact { Preserved.refl db with
      clusterRun := Table.retains_update Stays.refl (fun r _ ↦ hstays r) (fun _ ↦ rfl) }
  | deleteLinks | insertLink => exact { Preserved.refl db with }

/-- So does what is committed beside the sessions. -/
theorem preserved_outside (u : Outside R) (db : Database R) : Preserved db (Effect.apply u db) := by
  cases u with
  | storeFrame row => exact preserved_write (.insertFrame row) db
  | saveModel model =>
    obtain ⟨hobservation, hframe, hrun, hpair, hcluster, -, hclusterRun⟩ :=
      tables_saveModel model db
    have hkept := Preserved.refl db
    change Preserved db (Fusion.saveModel model db)
    exact ⟨hobservation ▸ hkept.observation, hframe ▸ hkept.frame, retains_saveModel model db,
      hrun ▸ hkept.run, hpair ▸ hkept.pair, hcluster ▸ hkept.cluster,
      hclusterRun ▸ hkept.clusterRun⟩
  | repair id time =>
    have hstays : ∀ c : AssetCluster R, ClusterStays c { c with repairedAt := some time } :=
      fun c ↦ ⟨rfl, fun _ _ ↦ Option.some_ne_none time⟩
    exact { Preserved.refl db with
      cluster := Table.retains_update Stays.refl (fun c _ ↦ hstays c) (fun _ ↦ rfl) }

end Preserved

section Runs

variable {ext : Externals R} {settings : Settings R} {K : Type} [DecidableEq K]
  {locks : Write R → List K} {asks : Outside R → List K}

/-- From any state on, whatever is interleaved, refused, lost or rolled back, every report and every
frame stays as it was ingested, marks, pairs, models, runs and clusters stay, and nothing that was
noted is taken back. -/
theorem rows_preserved {σ σ' : PipelineServer ext} (h : Runs locks asks settings σ σ') :
    Preserved σ.store σ'.store :=
  Server.related_of_reaches Preserved.refl Preserved.trans (fun w db ↦ preserved_write w db)
    preserved_outside h

end Runs

/-! ### Two ticks at a time -/

/-- The frame of a report. -/
def reportFrame : AssetFrame ℚ :=
  newFrame "device" { clientId := "frame", lat := 0, lon := 0, devicePOnDevice := 4 / 5 } reportTime
    "device/frame.jpg" 0

/-- A frame and a model are stored, and a report is uploaded. -/
def oneReport : List (Act (ServerJob .planar) (Outside ℚ)) :=
  [.commit (.storeFrame reportFrame), .commit (.saveModel certainModel),
    .start (.insertEvents "device" 0 [goodEvent]), .serve 0, .serve 0, .serve 0, .finish 0]

/-- Two ticks of the fusion job run at a time, statement by statement, and one of them loses its
connection at the end. -/
def twoTicks : List (Act (ServerJob .planar) (Outside ℚ)) :=
  [.start (.fusion ⟨true, "first", reportTime, reportTime⟩),
    .start (.fusion ⟨true, "second", reportTime, reportTime⟩)] ++
    (List.replicate 14 [.serve 1, .serve 2]).flatten ++ [.lose 1]

/-- A server on which no statement waits for a lock. -/
def played (σ : PipelineServer .planar) (acts : List (Act (ServerJob .planar) (Outside ℚ))) :
    PipelineServer .planar :=
  play (serverStep (fun _ ↦ ([] : List Empty)) (fun _ ↦ []) (Settings.default ℚ)) σ acts

/-- The server with the report. -/
def afterReport : PipelineServer .planar := played (Server.idle Database.empty) oneReport

/-- The server after the ticks. -/
def afterTwoTicks : PipelineServer .planar := played afterReport twoTicks

theorem runs_played {σ σ' : PipelineServer .planar}
    (h : Runs (fun _ ↦ ([] : List Empty)) (fun _ ↦ []) (Settings.default ℚ) σ σ')
    (acts : List (Act (ServerJob .planar) (Outside ℚ))) :
    Runs (fun _ ↦ ([] : List Empty)) (fun _ ↦ []) (Settings.default ℚ) σ (played σ' acts) :=
  h.play (admits_of_forall (fun _ _ _ ↦ trivial) _)

theorem derived_twoTicks : afterTwoTicks.store.fusionPair.rows.length = 1 ∧
    Reproducible .planar (Settings.default ℚ) afterTwoTicks.store :=
  ⟨by decide +kernel, derived_reproducible (runs_played (runs_played .start oneReport) twoTicks)⟩

/-- A report with its scores, a frame with its mark and a repaired cluster. -/
def notedDb : Database ℚ :=
  markRepaired "repaired" 2
    ([.insertObservation (newObservation "device" (report "scored" none) reportTime 0),
      .updateScored "scored" ⟨.pothole, 1, 1, false, "earlier"⟩ 1,
      .insertFrame { reportFrame with clientId := "processed" }, .markProcessed ["processed"] 1,
      .insertCluster (newCluster "repaired" ⟨⟨0, 0⟩, 1, 1, 3, 1, reportTime⟩ 1)].foldl
        Database.write Database.empty)

/-- The same uploads and ticks on it. -/
def afterNoted : PipelineServer .planar :=
  played (played (Server.idle notedDb) oneReport) twoTicks

theorem preserved_twoTicks :
    (notedDb.assetObservation.rows.map (fun o ↦ o.scoredAt) = [some 1] ∧
      notedDb.assetFrame.rows.map AssetFrame.processedAt = [some 1] ∧
      notedDb.assetCluster.rows.map AssetCluster.repairedAt = [some 2]) ∧
    (afterNoted.store.assetObservation.rows.length = 2 ∧
      afterNoted.store.assetFrame.rows.length = 2 ∧ afterNoted.store.fusionPair.rows.length = 1) ∧
    Preserved notedDb afterNoted.store := by
  refine ⟨by decide +kernel, by decide +kernel, ?_⟩
  have hrun : Runs (fun _ ↦ ([] : List Empty)) (fun _ ↦ []) (Settings.default ℚ)
      (Server.idle notedDb) afterNoted := runs_played (runs_played .start oneReport) twoTicks
  exact rows_preserved hrun

end PotholeServer.Pipeline
