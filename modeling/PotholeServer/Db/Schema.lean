import PotholeServer.Base
import PotholeServer.Sensor.Model
import PotholeServer.Sql.Prog
import PotholeServer.Sql.Table

/-!
# The database

The tables of `migrations/001_initial_schema.sql`, `002_sensor_model_and_fusion.sql` and
`003_clustering.sql`, with the columns the modelled code reads or writes, and the row
effects of every statement that writes. A statement's own checks (a duplicate primary
key in a plain `INSERT`) are made where the statement is modelled.
-/

namespace PotholeServer.Db

open Sql Sensor

variable {R : Type}

/-- `asset_observation` -/
structure AssetObservation (R : Type) where
  clientId : String
  deviceId : String
  assetType : String
  schemaVersion : Int
  tsUtc : DateTime
  geom : Point R
  speedMps : Option R
  bearingDeg : Option R
  speedAccuracyMps : Option R
  accelMaxG : Option R
  accelStd : Option R
  magnitude : Option R
  gbarInMax : Option R
  timeInMax : Option R
  timeInMin : Option R
  confidence : R
  rawWindowB64 : Option String
  visualConfirmed : Option Bool
  frameClientId : Option String
  receivedAt : DateTime
  sensorClass : Option SensorClass
  sensorPPothole : Option R
  sensorSeverity : Option R
  sensorIsOutlier : Option Bool
  sensorModelVersion : Option String
  scoredAt : Option DateTime
  deriving DecidableEq, Repr

/-- `asset_frame`; the `server_*` columns are never written. -/
structure AssetFrame (R : Type) where
  clientId : String
  deviceId : String
  eventClientId : Option String
  tsUtc : DateTime
  geom : Point R
  deviceProbability : Option R
  deviceModelId : Option String
  deviceDetections : Option String
  jpegUrl : String
  receivedAt : DateTime
  processedAt : Option DateTime
  deriving DecidableEq, Repr

/-- The `metrics_jsonb` of a fusion run. -/
structure FusionMetrics where
  frames : Nat
  pairs : Nat
  sensorModelVersion : Option String
  deriving DecidableEq, Repr

/-- `fusion_run` -/
structure FusionRun (R : Type) where
  runId : String
  engineVersion : String
  weights : List (String × R)
  startedAt : DateTime
  completedAt : Option DateTime
  inputsCount : Nat
  outputsCount : Option Nat
  metrics : Option FusionMetrics
  deriving DecidableEq, Repr

/-- `fusion_pair` -/
structure FusionPair (R : Type) where
  eventClientId : String
  frameClientId : String
  fusedConfidence : R
  severity : R
  deltaMs : Int
  deltaM : R
  fusionRunId : String
  createdAt : DateTime
  deriving DecidableEq, Repr

/-- `asset_cluster` -/
structure AssetCluster (R : Type) where
  clusterId : String
  assetType : String
  centroid : Point R
  severity : R
  confidence : R
  observationCount : Nat
  distinctDevices : Nat
  lastSeen : DateTime
  source : String
  repairedAt : Option DateTime
  createdAt : DateTime
  updatedAt : DateTime
  deriving DecidableEq, Repr

/-- The `kind` of a cluster link. -/
inductive LinkKind where
  | observation
  | frame
  deriving DecidableEq, Repr

/-- `observation_cluster_link` -/
structure ObservationClusterLink (R : Type) where
  clusterId : String
  memberId : String
  kind : LinkKind
  fusedConfidence : R
  deriving DecidableEq, Repr

/-- The `params_jsonb` of a cluster run. -/
structure ClusterParams (R : Type) where
  epsM : R
  epsUnits3857 : R
  minPoints : Int
  windowDays : Int
  memberMinConfidence : R
  meanLat : R
  deriving DecidableEq, Repr

/-- `cluster_run` -/
structure ClusterRun (R : Type) where
  runId : String
  startedAt : DateTime
  completedAt : Option DateTime
  inputsCount : Nat
  outputsCount : Option Nat
  params : ClusterParams R
  deriving DecidableEq, Repr

/-- `sensor_model`: the artifact as `load_active_model` rebuilds it, and its flag. -/
structure SensorModelRow (R : Type) where
  model : SensorModel R
  isActive : Bool

instance : Keyed (AssetObservation R) String := ⟨AssetObservation.clientId⟩
instance : Keyed (AssetFrame R) String := ⟨AssetFrame.clientId⟩
instance : Keyed (FusionRun R) String := ⟨FusionRun.runId⟩
instance : Keyed (FusionPair R) (String × String) := ⟨fun p ↦ (p.eventClientId, p.frameClientId)⟩
instance : Keyed (AssetCluster R) String := ⟨AssetCluster.clusterId⟩
instance : Keyed (ObservationClusterLink R) (String × String × LinkKind) :=
  ⟨fun l ↦ (l.clusterId, l.memberId, l.kind)⟩
instance : Keyed (ClusterRun R) String := ⟨ClusterRun.runId⟩
instance : Keyed (SensorModelRow R) String := ⟨fun m ↦ m.model.modelVersion⟩

/-- The state of the database. -/
structure Database (R : Type) where
  assetObservation : Table (AssetObservation R)
  assetFrame : Table (AssetFrame R)
  sensorModel : Table (SensorModelRow R)
  fusionRun : Table (FusionRun R)
  fusionPair : Table (FusionPair R)
  assetCluster : Table (AssetCluster R)
  observationClusterLink : Table (ObservationClusterLink R)
  clusterRun : Table (ClusterRun R)
  /-- `idx_sensor_model_active`: at most one active model. -/
  activeUnique : ∀ m ∈ sensorModel, ∀ m' ∈ sensorModel, m.isActive = true → m'.isActive = true →
    m = m'

/-- The database after the migrations. -/
def Database.empty : Database R where
  assetObservation := .empty
  assetFrame := .empty
  sensorModel := .empty
  fusionRun := .empty
  fusionPair := .empty
  assetCluster := .empty
  observationClusterLink := .empty
  clusterRun := .empty
  activeUnique := fun m hm ↦ absurd hm (Table.not_mem_empty m)

/-- `unique_violation` -/
def uniqueViolation : PgError := ⟨"duplicate key value violates unique constraint"⟩

/-- `LIMIT` of a negative number -/
def negativeLimit : PgError := ⟨"LIMIT must not be negative"⟩

/-- What a scoring step writes into one observation (`_UPDATE_SCORED_SQL`, `$2` to `$6`). -/
structure Scores (R : Type) where
  sensorClass : SensorClass
  sensorPPothole : R
  sensorSeverity : R
  sensorIsOutlier : Bool
  sensorModelVersion : String
  deriving DecidableEq, Repr

/-- `UPDATE asset_observation SET sensor_class = .., scored_at = now()` -/
def AssetObservation.setScores (s : Scores R) (now : DateTime) (o : AssetObservation R) :
    AssetObservation R :=
  { o with
    sensorClass := some s.sensorClass
    sensorPPothole := some s.sensorPPothole
    sensorSeverity := some s.sensorSeverity
    sensorIsOutlier := some s.sensorIsOutlier
    sensorModelVersion := some s.sensorModelVersion
    scoredAt := some now }

/-- `DO UPDATE SET fused_confidence = EXCLUDED.fused_confidence, ..`; `created_at` stays. -/
def FusionPair.setExcluded (new : FusionPair R) (p : FusionPair R) : FusionPair R :=
  { p with
    fusedConfidence := new.fusedConfidence
    severity := new.severity
    deltaMs := new.deltaMs
    deltaM := new.deltaM
    fusionRunId := new.fusionRunId }

/-- The aggregates of one computed cluster, as `_UPDATE_CLUSTER_SQL` writes them. -/
structure ClusterSummary (R : Type) where
  centroid : Point R
  severity : R
  confidence : R
  observationCount : Nat
  distinctDevices : Nat
  lastSeen : DateTime
  deriving DecidableEq, Repr

/-- `UPDATE asset_cluster SET centroid = .., updated_at = now()` -/
def AssetCluster.setSummary (s : ClusterSummary R) (now : DateTime) (c : AssetCluster R) :
    AssetCluster R :=
  { c with
    centroid := s.centroid
    severity := s.severity
    confidence := s.confidence
    observationCount := s.observationCount
    distinctDevices := s.distinctDevices
    lastSeen := s.lastSeen
    updatedAt := now }

/-- The row effects of the statements that write. -/
inductive Write (R : Type) where
  | insertObservation (row : AssetObservation R)
  | insertFrame (row : AssetFrame R)
  | updateScored (clientId : String) (scores : Scores R) (now : DateTime)
  | insertRun (row : FusionRun R)
  | upsertPair (row : FusionPair R)
  | markProcessed (ids : List String) (now : DateTime)
  | updateRun (runId : String) (outputs : Nat) (metrics : FusionMetrics) (now : DateTime)
  | insertClusterRun (row : ClusterRun R)
  | updateCluster (clusterId : String) (summary : ClusterSummary R) (now : DateTime)
  | insertCluster (row : AssetCluster R)
  | deleteLinks (clusterId : String)
  | insertLink (row : ObservationClusterLink R)
  | updateClusterRun (runId : String) (outputs : Nat) (now : DateTime)

/-- Apply one row effect. -/
def Database.write (db : Database R) : Write R → Database R
  | .insertObservation row =>
    { db with assetObservation := db.assetObservation.insertNew row }
  | .insertFrame row =>
    { db with assetFrame := db.assetFrame.insertNew row }
  | .updateScored clientId scores now =>
    { db with
      assetObservation := db.assetObservation.update (fun o ↦ o.clientId = clientId)
        (fun o ↦ o.setScores scores now) (fun _ ↦ rfl) }
  | .insertRun row =>
    { db with fusionRun := db.fusionRun.insertNew row }
  | .upsertPair row =>
    { db with fusionPair := db.fusionPair.upsert row row.setExcluded (fun _ ↦ rfl) }
  | .markProcessed ids now =>
    { db with
      assetFrame := db.assetFrame.update (fun f ↦ f.clientId ∈ ids ∧ f.processedAt = none)
        (fun f ↦ { f with processedAt := some now }) (fun _ ↦ rfl) }
  | .updateRun runId outputs metrics now =>
    { db with
      fusionRun := db.fusionRun.update (fun r ↦ r.runId = runId)
        (fun r ↦ { r with
          completedAt := some now
          outputsCount := some outputs
          metrics := some metrics }) (fun _ ↦ rfl) }
  | .insertClusterRun row =>
    { db with clusterRun := db.clusterRun.insertNew row }
  | .updateCluster clusterId summary now =>
    { db with
      assetCluster := db.assetCluster.update (fun c ↦ c.clusterId = clusterId)
        (fun c ↦ c.setSummary summary now) (fun _ ↦ rfl) }
  | .insertCluster row =>
    { db with assetCluster := db.assetCluster.insertNew row }
  | .deleteLinks clusterId =>
    { db with
      observationClusterLink :=
        db.observationClusterLink.filter (fun l ↦ l.clusterId ≠ clusterId) }
  | .insertLink row =>
    { db with
      observationClusterLink := db.observationClusterLink.upsert row
        (fun l ↦ { l with fusedConfidence := row.fusedConfidence }) (fun _ ↦ rfl) }
  | .updateClusterRun runId outputs now =>
    { db with
      clusterRun := db.clusterRun.update (fun r ↦ r.runId = runId)
        (fun r ↦ { r with completedAt := some now, outputsCount := some outputs })
        (fun _ ↦ rfl) }

instance : Effect (Write R) (Database R) := ⟨fun w db ↦ db.write w⟩

@[simp] theorem apply_write (w : Write R) (db : Database R) : Effect.apply w db = db.write w := rfl

/-- The statements of the source, as a trace names them; a query carries the arguments
that select its rows. -/
inductive Statement where
  | insertEvent
  | tryAdvisoryLock
  | advisoryUnlock
  | selectActive
  | selectUnscored (limit : Int)
  | updateScored
  | selectFrameBatch (limit : Int)
  | insertRun
  | pairing (ids : List String)
  | upsertPair
  | markProcessed
  | updateRun
  | memberStats
  | cluster
  | insertClusterRun
  | findExisting
  | updateCluster
  | insertCluster
  | deleteLinks
  | insertLink
  | updateClusterRun
  deriving DecidableEq, Repr

/-- Programs over the database. -/
abbrev DbProg (R α : Type) := Prog (Database R) (Write R) Statement α

end PotholeServer.Db
