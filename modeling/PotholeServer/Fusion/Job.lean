import Mathlib.Algebra.Order.Group.Int
import Mathlib.Algebra.Order.Group.Unbundled.Abs
import Mathlib.Data.Prod.Lex
import Mathlib.Data.String.Basic
import PotholeServer.Db.Schema
import PotholeServer.Fusion.Engine
import PotholeServer.Sensor.Score
import PotholeServer.Sql.Query

/-!
# The fusion job

`app/fusion/service.py: run_fusion_job` with its queries. A tick loads the active model, scores
the oldest unscored observations in one transaction, then pairs the oldest unprocessed frames
in a second one: insert the run, find for each frame the nearest observation of its device
inside the window, fuse and upsert the pairs, mark the frames processed, complete the run.
`text` columns are ordered by code points.
-/

namespace PotholeServer.Fusion

open Sql Db Sensor

variable {R : Type} [Field R] [LinearOrder R]

/-! ### Queries -/

/-- `LIMIT n` -/
def limitTo {ρ : Type} (n : Int) (rows : List ρ) : Except PgError (List ρ) :=
  if n < 0 then .error negativeLimit else .ok (rows.take n.toNat)

/-- `_SELECT_ACTIVE_SQL` -/
def loadActiveModel (db : Database R) : Option (SensorModel R) :=
  (db.sensorModel.rows.find? SensorModelRow.isActive).map SensorModelRow.model

/-- The unscored observations, oldest first. -/
def unscoredQueue (db : Database R) : List (AssetObservation R) :=
  orderBy (fun o ↦ toLex (o.receivedAt, o.clientId))
    (db.assetObservation.rows.filter (fun o ↦ o.scoredAt.isNone))

/-- `_SELECT_UNSCORED_SQL` -/
def selectUnscored (limit : Int) (db : Database R) : Except PgError (List (AssetObservation R)) :=
  limitTo limit (unscoredQueue db)

/-- The unprocessed frames, oldest first. -/
def frameQueue (db : Database R) : List (AssetFrame R) :=
  orderBy (fun f ↦ toLex (f.receivedAt, f.clientId))
    (db.assetFrame.rows.filter (fun f ↦ f.processedAt.isNone))

/-- `_SELECT_FRAME_BATCH_SQL` -/
def selectFrameBatch (limit : Int) (db : Database R) : Except PgError (List String) :=
  (limitTo limit (frameQueue db)).map (fun batch ↦ batch.map (fun f ↦ f.clientId))

/-- The join condition of `_PAIRING_SQL`; timestamps count microseconds. -/
def joins (ext : Externals R) (settings : Settings R) (f : AssetFrame R)
    (o : AssetObservation R) : Bool :=
  o.deviceId = f.deviceId ∧ ext.stDistance f.geom o.geom ≤ settings.fusionWindowM ∧
    |f.tsUtc - o.tsUtc| * 1000 < settings.fusionWindowMs * 1000000

/-- The observations of a frame's device inside its window. -/
def candidatesOf (ext : Externals R) (settings : Settings R) (f : AssetFrame R)
    (observations : List (AssetObservation R)) : List (AssetObservation R) :=
  observations.filter (joins ext settings f)

/-- `ORDER BY abs(EXTRACT(EPOCH FROM ..)), ST_Distance(..), o.client_id` -/
def nearness (ext : Externals R) (f : AssetFrame R) (o : AssetObservation R) :
    Int ×ₗ R ×ₗ String :=
  toLex (|f.tsUtc - o.tsUtc|, toLex (ext.stDistance f.geom o.geom, o.clientId))

/-- A cast to `bigint` of a number of microseconds in milliseconds: half away from zero. -/
def roundMillis (us : Int) : Int :=
  if 0 ≤ us then (us + 500) / 1000 else -((-us + 500) / 1000)

/-- A row of `candidates` with `rn = 1`. -/
structure Candidate (R : Type) where
  frameClientId : String
  eventClientId : String
  visualConfidence : Option R
  magnitude : Option R
  accelStd : Option R
  gbarInMax : Option R
  speedMps : Option R
  sensorPPothole : Option R
  sensorSeverity : Option R
  deltaMs : Int
  deltaM : R

/-- The columns of `_PAIRING_SQL` for one frame and one observation. -/
def candidate (ext : Externals R) (f : AssetFrame R) (o : AssetObservation R) : Candidate R where
  frameClientId := f.clientId
  eventClientId := o.clientId
  visualConfidence := f.deviceProbability
  magnitude := o.magnitude
  accelStd := o.accelStd
  gbarInMax := o.gbarInMax
  speedMps := o.speedMps
  sensorPPothole := o.sensorPPothole
  sensorSeverity := o.sensorSeverity
  deltaMs := roundMillis (f.tsUtc - o.tsUtc)
  deltaM := ext.stDistance f.geom o.geom

/-- `_PAIRING_SQL` -/
def pairing (ext : Externals R) (settings : Settings R) (batchIds : List String)
    (db : Database R) : List (Candidate R) :=
  (db.assetFrame.rows.filter (fun f ↦ f.clientId ∈ batchIds)).flatMap (fun f ↦
    let rows := candidatesOf ext settings f db.assetObservation.rows
    (rows.filter (fun o ↦ rowNumber (nearness ext f) rows o = 1)).map (candidate ext f))

/-- The input that the loop of `_pair_and_fuse` builds from a row. -/
def Candidate.fusionInput (r : Candidate R) : FusionInput R where
  magnitude := r.magnitude
  accelStd := r.accelStd
  gbarInMax := r.gbarInMax
  speedMps := r.speedMps
  sensorPPothole := r.sensorPPothole
  sensorSeverity := r.sensorSeverity
  visualConfidence := r.visualConfidence
  deltaMs := r.deltaMs
  deltaM := r.deltaM

/-! ### Effects -/

/-- The row `_INSERT_RUN_SQL` inserts. -/
def newRun (engine : FusionEngine R) (runId : String) (now : DateTime) (inputs : Nat) :
    FusionRun R where
  runId := runId
  engineVersion := engine.version
  weights := engine.weights
  startedAt := now
  completedAt := none
  inputsCount := inputs
  outputsCount := none
  metrics := none

/-- The row `_UPSERT_PAIR_SQL` inserts. -/
def newPair (engine : FusionEngine R) (runId : String) (now : DateTime) (r : Candidate R) :
    FusionPair R :=
  let out := engine.fuse r.fusionInput
  { eventClientId := r.eventClientId
    frameClientId := r.frameClientId
    fusedConfidence := out.fusedConfidence
    severity := out.severity
    deltaMs := r.deltaMs
    deltaM := r.deltaM
    fusionRunId := runId
    createdAt := now }

/-- `_INSERT_RUN_SQL` -/
def insertRun (row : FusionRun R) (db : Database R) : Except PgError (List (Write R)) :=
  if db.fusionRun.HasKey row.runId then .error uniqueViolation else .ok [.insertRun row]

/-- The arguments of `_UPDATE_SCORED_SQL`. -/
def scoresOf (model : SensorModel R) (res : ScoreResult R) : Scores R where
  sensorClass := res.sensorClass
  sensorPPothole := res.pPothole
  sensorSeverity := res.severity
  sensorIsOutlier := res.isOutlier
  sensorModelVersion := model.modelVersion

/-! ### The job -/

/-- What one tick draws from outside: whether the lock was granted, the id of the run, and
`now()` of its two transactions. -/
structure Tick where
  locked : Bool
  runId : String
  scoreNow : DateTime
  pairNow : DateTime

section Programs

variable (ext : Externals R) (settings : Settings R)

/-- The loop of `_score_unscored`. -/
def scoreRows (model : SensorModel R) (now : DateTime) :
    List (AssetObservation R) → DbProg R Unit
  | [] => pure ()
  | r :: rest => do
    let res ← Prog.ofExcept
      (scoreObservation ext model r.magnitude r.accelStd r.gbarInMax r.speedMps)
    Prog.execute .updateScored (fun _ ↦ .ok [.updateScored r.clientId (scoresOf model res) now])
    scoreRows model now rest

/-- `_score_unscored` -/
def scoreUnscored (model : SensorModel R) (now : DateTime) : DbProg R Nat := do
  let rows ← Prog.fetch (.selectUnscored settings.fusionBatchSize)
    (selectUnscored settings.fusionBatchSize)
  if rows.isEmpty then
    pure 0
  else
    Prog.transaction (scoreRows ext model now rows)
    pure rows.length

/-- The loop of `_pair_and_fuse`. -/
def upsertPairs (engine : FusionEngine R) (runId : String) (now : DateTime) :
    List (Candidate R) → DbProg R Unit
  | [] => pure ()
  | r :: rest => do
    Prog.execute .upsertPair (fun _ ↦ .ok [.upsertPair (newPair engine runId now r)])
    upsertPairs engine runId now rest

/-- The transaction of `_pair_and_fuse`. -/
def pairingTransaction (model : Option (SensorModel R)) (runId : String) (now : DateTime)
    (batchIds : List String) : DbProg R Nat := do
  let engine := getEngine ext settings model
  Prog.execute .insertRun (insertRun (newRun engine runId now batchIds.length))
  let candidates ← Prog.fetch (.pairing batchIds)
    (fun db ↦ .ok (pairing ext settings batchIds db))
  upsertPairs engine runId now candidates
  Prog.execute .markProcessed (fun _ ↦ .ok [.markProcessed batchIds now])
  Prog.execute .updateRun (fun _ ↦ .ok [.updateRun runId candidates.length
    { frames := batchIds.length
      pairs := candidates.length
      sensorModelVersion := model.map SensorModel.modelVersion } now])
  pure candidates.length

/-- `_pair_and_fuse` -/
def pairAndFuse (model : Option (SensorModel R)) (runId : String) (now : DateTime) :
    DbProg R Nat := do
  let batchIds ← Prog.fetch (.selectFrameBatch settings.fusionBatchSize)
    (selectFrameBatch settings.fusionBatchSize)
  if batchIds.isEmpty then
    pure 0
  else
    Prog.transaction (pairingTransaction ext settings model runId now batchIds)

/-- `if model is not None: await _score_unscored(conn, model)` -/
def scoreIfModel (model : Option (SensorModel R)) (now : DateTime) : DbProg R Unit :=
  match model with
  | some m => do
    let _ ← scoreUnscored ext settings m now
    pure ()
  | none => pure ()

/-- The `try` block of `run_fusion_job`. -/
def fuseTick (tick : Tick) : DbProg R Unit := do
  let model ← Prog.fetch .selectActive (fun db ↦ .ok (loadActiveModel db))
  scoreIfModel ext settings model tick.scoreNow
  let _ ← pairAndFuse ext settings model tick.runId tick.pairNow
  pure ()

/-- `run_fusion_job` -/
def runFusionJob (tick : Tick) : DbProg R Unit := do
  Prog.execute .tryAdvisoryLock (fun _ ↦ .ok [])
  if tick.locked then
    Prog.tryFinally (fuseTick ext settings tick) (Prog.execute .advisoryUnlock (fun _ ↦ .ok []))
  else
    pure ()

end Programs

end PotholeServer.Fusion
