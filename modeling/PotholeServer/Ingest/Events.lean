import Mathlib.Algebra.Order.Field.Basic
import PotholeServer.Db.Schema
import PotholeServer.Planar

/-!
# Event ingestion

`app/models/__init__.py: EventPayload` and `app/services/event_service.py: insert_events`.
The whole batch is one transaction without savepoints, and each event's `PostgresError` is
caught in the loop. A server-side error therefore aborts the transaction under the loop:
the events accepted before it are rolled back by the final `COMMIT`, and the events after
it are refused.
-/

namespace PotholeServer.Ingest

open Sql Db

variable {R : Type} [Field R] [LinearOrder R]

/-- The fields of `EventPayload` as decoded from the request. -/
structure EventFields (R : Type) where
  clientId : String
  schemaVersion : Int := 1
  ts : String
  lat : R
  lon : R
  speedMps : R
  bearingDeg : R
  speedAccuracyMps : Option R := none
  accelMaxG : R
  accelStd : R
  magnitude : R
  gbarInMax : Option R := none
  timeInMax : Option R := none
  timeInMin : Option R := none
  confidence : R
  rawWindowB64 : Option String := none
  visualConfirmed : Option Bool := none
  frameClientId : Option String := none

/-- `datetime.fromisoformat(ts.replace("Z", "+00:00") if ts.endswith("Z") else ts)` -/
def parseTs (ext : Externals R) (ts : String) : Option IsoDateTime :=
  ext.fromisoformat (if ts.endsWith "Z" then ts.replace "Z" "+00:00" else ts)

/-- `validate_timestamp`: an ISO-8601 timestamp with a time zone. -/
def validTimestamp (ext : Externals R) (ts : String) : Prop :=
  ∃ dt, parseTs ext ts = some dt ∧ dt.aware = true

/-- A present value lies in the given bounds. -/
def Within (lo hi : R) (x : Option R) : Prop := ∀ v ∈ x, lo ≤ v ∧ v ≤ hi

/-- The constraints pydantic checks on `EventPayload`. -/
structure EventFields.Valid (ext : Externals R) (e : EventFields R) : Prop where
  clientId : 1 ≤ e.clientId.length ∧ e.clientId.length ≤ 64
  schemaVersion : 1 ≤ e.schemaVersion ∧ e.schemaVersion ≤ 100
  ts : validTimestamp ext e.ts
  lat : -90 ≤ e.lat ∧ e.lat ≤ 90
  lon : -180 ≤ e.lon ∧ e.lon ≤ 180
  speedMps : 0 ≤ e.speedMps ∧ e.speedMps ≤ 200
  bearingDeg : 0 ≤ e.bearingDeg ∧ e.bearingDeg ≤ 360
  speedAccuracyMps : Within 0 200 e.speedAccuracyMps
  accelMaxG : -50 ≤ e.accelMaxG ∧ e.accelMaxG ≤ 50
  accelStd : 0 ≤ e.accelStd ∧ e.accelStd ≤ 100
  magnitude : 0 ≤ e.magnitude ∧ e.magnitude ≤ 500
  gbarInMax : Within 0 500 e.gbarInMax
  timeInMax : ∀ v ∈ e.timeInMax, 0 ≤ v
  timeInMin : ∀ v ∈ e.timeInMin, 0 ≤ v
  confidence : 0 ≤ e.confidence ∧ e.confidence ≤ 1
  rawWindowB64 : ∀ s ∈ e.rawWindowB64, s.length ≤ 50000
  frameClientId : ∀ s ∈ e.frameClientId, s.length ≤ 64

/-- `EventPayload`: fields that passed the validation. -/
structure EventPayload (ext : Externals R) extends EventFields R where
  valid : toEventFields.Valid ext

/-- `RejectedEvent` -/
structure RejectedEvent where
  clientId : String
  reason : String
  deriving DecidableEq, Repr

/-- The row `_INSERT_EVENT_SQL` inserts; the scoring columns start as `NULL`. -/
def newObservation (deviceId : String) (e : EventFields R) (ts receivedAt : DateTime) :
    AssetObservation R where
  clientId := e.clientId
  deviceId := deviceId
  assetType := "pothole"
  schemaVersion := e.schemaVersion
  tsUtc := ts
  geom := ⟨e.lon, e.lat⟩
  speedMps := some e.speedMps
  bearingDeg := some e.bearingDeg
  speedAccuracyMps := e.speedAccuracyMps
  accelMaxG := some e.accelMaxG
  accelStd := some e.accelStd
  magnitude := some e.magnitude
  gbarInMax := e.gbarInMax
  timeInMax := e.timeInMax
  timeInMin := e.timeInMin
  confidence := e.confidence
  rawWindowB64 := e.rawWindowB64
  visualConfirmed := e.visualConfirmed
  frameClientId := e.frameClientId
  receivedAt := receivedAt
  sensorClass := none
  sensorPPothole := none
  sensorSeverity := none
  sensorIsOutlier := none
  sensorModelVersion := none
  scoredAt := none

/-- The `try` block of the loop: parse the timestamp and insert one event. -/
def insertEvent (ext : Externals R) (deviceId : String) (now : DateTime) (e : EventPayload ext) :
    DbProg R Unit :=
  match parseTs ext e.ts with
  | none => Prog.raise .valueError
  | some dt => Prog.execute .insertEvent (fun _ ↦
      .ok [.insertObservation (newObservation deviceId e.toEventFields dt.instant now)])

/-- The loop of `insert_events`, with its two accumulators. -/
def insertEventsLoop (ext : Externals R) (deviceId : String) (now : DateTime) :
    List (EventPayload ext) → List String → List RejectedEvent →
      DbProg R (List String × List RejectedEvent)
  | [], accepted, rejected => pure (accepted, rejected)
  | e :: rest, accepted, rejected => do
    match ← (insertEvent ext deviceId now e).attempt with
    | .ok _ => insertEventsLoop ext deviceId now rest (accepted ++ [e.clientId]) rejected
    | .error (.postgresError err) =>
      insertEventsLoop ext deviceId now rest accepted (rejected ++ [⟨e.clientId, err.message⟩])
    | .error ex => Prog.raise ex

/-- `insert_events`; `now` is the transaction's `now()`. -/
def insertEvents (ext : Externals R) (deviceId : String) (now : DateTime)
    (events : List (EventPayload ext)) : DbProg R (List String × List RejectedEvent) :=
  Prog.transaction (insertEventsLoop ext deviceId now events [] [])

/-- A minimal report, with a window of sensor samples as the client encodes it. -/
def report (clientId : String) (window : Option String) : EventFields ℚ where
  clientId := clientId
  ts := "2026-01-01T00:00:00+00:00"
  lat := 0
  lon := 0
  speedMps := 10
  bearingDeg := 90
  accelMaxG := 2
  accelStd := 1
  magnitude := 5
  confidence := 1 / 2
  rawWindowB64 := window

end PotholeServer.Ingest
