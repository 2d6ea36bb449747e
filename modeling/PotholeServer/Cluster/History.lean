import PotholeServer.Cluster.Run
import PotholeServer.Ingest.Upload
import PotholeServer.Runs

/-!
# Histories of the clustering job

Between the runs of the job uploads arrive, observations are scored, pairs are fused and an admin
marks clusters as repaired; each of these and each run is one step.
-/

namespace PotholeServer.Cluster

open Sql Db Ingest

variable {R : Type}

/-- An admin's `UPDATE asset_cluster SET repaired_at = .. WHERE cluster_id = ..` -/
def markRepaired (clusterId : String) (time : DateTime) (db : Database R) : Database R :=
  { db with
    assetCluster := db.assetCluster.update (fun c ↦ c.clusterId = clusterId)
      (fun c ↦ { c with repairedAt := some time }) (fun _ ↦ rfl) }

theorem mem_markRepaired {clusterId : String} {time : DateTime} {db : Database R}
    {c : AssetCluster R} : c ∈ (markRepaired clusterId time db).assetCluster ↔
      ∃ u ∈ db.assetCluster,
        (if decide (u.clusterId = clusterId) then { u with repairedAt := some time } else u) = c :=
  List.mem_map

/-- One step of a history. -/
inductive Event (R : Type) where
  | uploaded (u : Upload R)
  | scored (clientId : String) (scores : Scores R) (now : DateTime)
  | paired (p : FusionPair R)
  | repaired (clusterId : String) (time : DateTime)
  | clustered (tick : ClusterTick)

/-- The state after a step. -/
def Event.next [Field R] [LinearOrder R] (ext : Externals R) (settings : Settings R)
    (db : Database R) : Event R → Database R
  | .uploaded u => db.write u.write
  | .scored clientId scores now => db.write (.updateScored clientId scores now)
  | .paired p => db.write (.upsertPair p)
  | .repaired clusterId time => markRepaired clusterId time db
  | .clustered tick => (clusterRun ext settings tick db).conn.store

/-! ### Links -/

/-- The observation is linked to the cluster. -/
def linked (db : Database R) (observationId clusterId : String) : Bool :=
  db.observationClusterLink.rows.any (fun l ↦ l.clusterId = clusterId ∧
    l.memberId = observationId ∧ l.kind = .observation)

/-- The cluster has not been repaired. -/
def live (db : Database R) (clusterId : String) : Bool :=
  db.assetCluster.rows.any (fun c ↦ c.clusterId = clusterId ∧ c.repairedAt = none)

section Links

variable {db : Database R} {observationId clusterId : String}

theorem linked_iff : linked db observationId clusterId = true ↔
    ∃ l ∈ db.observationClusterLink, l.clusterId = clusterId ∧ l.memberId = observationId ∧
      l.kind = .observation := by
  simp only [linked, List.any_eq_true, decide_eq_true_eq]
  rfl

theorem live_iff : live db clusterId = true ↔
    ∃ c ∈ db.assetCluster, c.clusterId = clusterId ∧ c.repairedAt = none := by
  simp only [live, List.any_eq_true, decide_eq_true_eq]
  rfl

end Links

/-! ### Potholes on a lane -/

/-- The position on the lane, in steps of some 20 m. -/
def onLane (steps : ℚ) : ℚ := steps * (18 / 100000)

/-- The scores of a clear pothole. -/
def potholeScores : Scores ℚ where
  sensorClass := .pothole
  sensorPPothole := 9 / 10
  sensorSeverity := 1 / 2
  sensorIsOutlier := false
  sensorModelVersion := "model"

/-- A pothole is reported on the lane and scored. -/
def detected (clientId : String) (steps : ℚ) : List (Event ℚ) :=
  [.uploaded (reportAt clientId (onLane steps) reportTime),
    .scored clientId potholeScores reportTime]

/-- A detection is an upload and a scoring. -/
theorem forall_detected {P : Event ℚ → Prop} (huploaded : ∀ u, P (.uploaded u))
    (hscored : ∀ clientId scores now, P (.scored clientId scores now)) (clientId : String)
    (steps : ℚ) : ∀ e ∈ detected clientId steps, P e := by
  intro e he
  rcases List.mem_cons.mp he with rfl | he
  · exact huploaded _
  · cases List.mem_singleton.mp he
    exact hscored ..

/-- Three detections of one pothole. -/
def onePothole : List (Event ℚ) := detected "a" 0 ++ detected "b" 0 ++ detected "c" 0

theorem forall_onePothole {P : Event ℚ → Prop} (huploaded : ∀ u, P (.uploaded u))
    (hscored : ∀ clientId scores now, P (.scored clientId scores now)) : ∀ e ∈ onePothole, P e := by
  intro e he
  rcases List.mem_append.mp he with he | he
  · rcases List.mem_append.mp he with he | he
    · exact forall_detected huploaded hscored _ _ e he
    · exact forall_detected huploaded hscored _ _ e he
  · exact forall_detected huploaded hscored _ _ e he

/-- Five detections further along the lane, up to some 60 m away. -/
def alongLane : List (Event ℚ) :=
  detected "d" 1 ++ detected "e" 2 ++ detected "f" 3 ++ detected "g" 3 ++ detected "h" 3

/-- A run on the day of the reports. -/
def laneTick (runId : String) : ClusterTick where
  locked := true
  runId := runId
  statsNow := reportTime + 60000000
  clusterNow := reportTime + 60000000
  now := reportTime + 60000000
  newIds := fun k ↦ runId ++ toString k

end PotholeServer.Cluster
