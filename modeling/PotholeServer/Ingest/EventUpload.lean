import PotholeServer.Ingest.EventBatch
import PotholeServer.Ingest.FramePaths
import PotholeServer.Ingest.FrameRecord
import PotholeServer.Ingest.RateLimit
import PotholeServer.Json.Answer
import PotholeServer.Sql.Timeline

/-!
# The events endpoint

`app/routes/events.py: ingest_events`, from the bytes of a JSON request to the rows in
`asset_observation`. The events of a batch are validated before the endpoint runs: one of them that
is refused refuses the batch, with errors that name it, and no event of the batch ends up among the
rejected ones. The errors repeat what they refuse, and the answer fails if that cannot be written.
What is accepted is stored as the device has sent it.
-/

namespace PotholeServer.Ingest

open Sql Db Validation

variable {K R U : Type}

/-! ### Requests -/

/-- A request, with the two headers that are read. -/
structure EventsRequest where
  deviceId : Option String
  acceptVersion : Option String
  body : List UInt8

/-- What `ingest_events` raises, or FastAPI before it. `unwritable` stands for errors that repeat
what cannot be written. -/
inductive EventsError where
  | validation (errors : List FieldError)
  | unwritable (errors : List FieldError)
  | http (e : HTTPException)
  | rateLimit (e : RateLimitExceeded)
  | unhandled (e : Exn)

/-- The status of an answer; `unhandled_exception_handler` answers what nothing else does. -/
def EventsError.statusCode : EventsError → Nat
  | .validation _ => 422
  | .http e => e.statusCode
  | .rateLimit e => e.statusCode
  | .unwritable _ | .unhandled _ => 500

/-- `EventBatchResponse` -/
structure EventBatchResponse where
  accepted : List String
  rejected : List RejectedEvent
  deriving DecidableEq, Repr

/-- The status of the answer to a request. -/
def eventsStatus : Except EventsError EventBatchResponse → Nat
  | .ok _ => 200
  | .error e => e.statusCode

/-- `require_version_v1`; outside of ASCII no letter has the lower case `v`. -/
def requireVersionV1 (acceptVersion : Option String) : Except HTTPException String :=
  match acceptVersion with
  | some header =>
    if header = "" then .error ⟨400, "Missing required header: Accept-Version"⟩
    else if (pyStrip header).toLower ≠ "v1" then
      .error ⟨400, "Unsupported API version: " ++ header ++ ". Only 'v1' is supported."⟩
    else .ok (pyStrip header)
  | none => .error ⟨400, "Missing required header: Accept-Version"⟩

section Requests

variable [Field R] [LinearOrder R] (ext : EventExternals R) (maxBatchSize : Int) (depth : Nat)

/-- The body of a request, or none if it is empty. -/
def parseBody (bytes : List UInt8) : Except EventsError (Option (PyValue R)) :=
  if bytes = [] then .ok none
  else
    match PyValue.loads ext.readFloat depth bytes with
    | .ok v => .ok (some v)
    | .error (.jsonDecodeError _ left) =>
      let text := (PyStr.decode (PyStr.detectEncoding bytes) bytes).getD []
      .error (.validation
        [⟨[.field "body", .index (text.length - left)], "json_invalid"⟩])
    | .error _ => .error (.http ⟨400, "There was an error parsing the body"⟩)

/-- Everything that the errors of a body repeat can be written. -/
def Writable (body : Option (PyValue R)) (errors : List FieldError) : Prop :=
  ∀ e ∈ errors, (e.input body).repeatable ext.answerDepth = true

instance (body : Option (PyValue R)) (errors : List FieldError) :
    Decidable (Writable ext body errors) :=
  inferInstanceAs (Decidable (∀ e ∈ errors, (e.input body).repeatable ext.answerDepth = true))

/-- `request_validation_exception_handler` -/
def refuse (body : Option (PyValue R)) (errors : List FieldError) : EventsError :=
  if Writable ext body errors then .validation errors else .unwritable errors

/-- What is checked of a request before the rate limit: its body as JSON, its headers, the body as
`EventBatchRequest`, and the size of the batch. -/
def checkRequest (request : EventsRequest) : Except EventsError (String × ValidBatch ext) := do
  let body ← parseBody ext depth request.body
  let deviceId ← (requireDeviceId request.deviceId).mapError .http
  let _ ← (requireVersionV1 request.acceptVersion).mapError .http
  let batch ← (validateBody ext body).mapError (refuse ext body)
  if maxBatchSize < batch.1.length then
    throw (.http ⟨400, "Batch size " ++ toString batch.1.length ++ " exceeds maximum of " ++
      toString maxBatchSize ++ "."⟩)
  else
    return (deviceId, batch)

variable [Field K] [LinearOrder K] [FloorRing K] (settings : Settings K)

/-- `ingest_events` up to the call of `insert_events`. -/
def receiveEvents (request : EventsRequest) (clock : K) (limits : RateLimits K) :
    Except EventsError (String × ValidBatch ext) × RateLimits K :=
  match checkRequest ext maxBatchSize depth request with
  | .error e => (.error e, limits)
  | .ok (deviceId, batch) =>
    match checkRateLimit settings limits deviceId "events" batch.1.length clock with
    | (limits, .error e) => (.error (.rateLimit e), limits)
    | (limits, .ok ()) => (.ok (deviceId, batch), limits)

end Requests

/-! ### Inserting -/

/-- The loop of `insert_events`, for any kind of events. -/
def insertLoop {E V : Type} (insert : E → DbProg V Unit) (clientId : E → String) :
    List E → List String → List RejectedEvent → DbProg V (List String × List RejectedEvent)
  | [], accepted, rejected => pure (accepted, rejected)
  | e :: rest, accepted, rejected => do
    match ← (insert e).attempt with
    | .ok _ => insertLoop insert clientId rest (accepted ++ [clientId e]) rejected
    | .error (.postgresError err) =>
      insertLoop insert clientId rest accepted (rejected ++ [⟨clientId e, err.message⟩])
    | .error ex => Prog.raise ex

section Insert

variable [Field R] [LinearOrder R] (ext : EventExternals R) (deviceId : String) (now : DateTime)

/-- The `try` block of the loop, for a valid event. -/
def insertValidEvent (e : ValidEvent ext) : DbProg (PyFloat R) Unit :=
  match ext.fromisoformat (isoText e.ts.1) with
  | none => Prog.raise .valueError
  | some dt => Prog.execute .insertEvent (fun _ ↦
      .ok [.insertObservation (newObservation deviceId (e.fields ext) dt.instant now)])

/-- `insert_events` -/
def insertValidEvents (events : List (ValidEvent ext)) :
    DbProg (PyFloat R) (List String × List RejectedEvent) :=
  Prog.transaction (insertLoop (insertValidEvent ext deviceId now) (fun e ↦ e.clientId.1) events
    [] [])

/-- The row of an event. -/
def eventRow (e : ValidEvent ext) : AssetObservation (PyFloat R) :=
  newObservation deviceId (e.fields ext)
    (((ext.fromisoformat (isoText e.ts.1)).map IsoDateTime.instant).getD 0) now

variable {ext}

/-- The timestamp that `validate_timestamp` has accepted. -/
theorem ValidEvent.exists_instant (e : ValidEvent ext) :
    ∃ dt, ext.fromisoformat (isoText e.ts.1) = some dt ∧ dt.aware = true := by
  have haccepted := e.ts.2
  rw [acceptsTs, Option.any_eq_true] at haccepted
  exact haccepted

/-- The `try` block is one statement. -/
theorem insertValidEvent_eq (e : ValidEvent ext) : insertValidEvent ext deviceId now e =
    Prog.execute .insertEvent (fun _ ↦ .ok [.insertObservation (eventRow ext deviceId now e)]) := by
  obtain ⟨dt, hdt, -⟩ := e.exists_instant
  simp [insertValidEvent, eventRow, hdt]

variable [Effect U (Database (PyFloat R))] (arr : Nat → List U) (s : Database (PyFloat R))

/-- Without failures the loop accepts every event, and its rows wait in the transaction. -/
theorem runsTo_insertLoop (es : List (ValidEvent ext)) (acc : List String)
    (rej : List RejectedEvent) (n : Nat) (p : List (Write (PyFloat R))) :
    RunsTo arr (insertLoop (insertValidEvent ext deviceId now) (fun e ↦ e.clientId.1) es acc rej)
      n (seen arr s n) (.active p) (.ok (acc ++ es.map (fun e ↦ e.clientId.1), rej))
      (n + es.length) (seen arr s (n + es.length))
      (.active (p ++ es.map (fun e ↦ .insertObservation (eventRow ext deviceId now e)))) := by
  induction es generalizing acc n p with
  | nil =>
    rw [List.map_nil, List.map_nil, List.append_nil, List.append_nil]
    exact runs_ret _
  | cons e rest ih =>
    have hrest := ih (acc ++ [e.clientId.1]) (n + 1)
      (p ++ [.insertObservation (eventRow ext deviceId now e)])
    have hlength : n + 1 + rest.length = n + (e :: rest).length := by
      rw [List.length_cons]
      omega
    rw [List.append_assoc, List.append_assoc, hlength] at hrest
    rw [insertLoop, insertValidEvent_eq]
    exact runs_bind (runs_attempt (runs_execute_active rfl trivial)) hrest

/-- Without failures every event is accepted, and the rows are inserted at the commit. -/
theorem runsTo_insertValidEvents (es : List (ValidEvent ext)) :
    RunsTo arr (insertValidEvents ext deviceId now es) 0 s .auto
      (.ok (es.map (fun e ↦ e.clientId.1), [])) (1 + es.length + 1)
      (applyAll (es.map (fun e ↦ Write.insertObservation (eventRow ext deviceId now e)))
        (seen arr s (1 + es.length + 1))) .auto := by
  have hloop := runsTo_insertLoop deviceId now arr s es [] [] 1 []
  exact runs_transaction hloop

end Insert

/-- Inserting rows keeps those that are there; each inserted id has its row, an old one or one of
the new ones. -/
theorem mem_applyAll_inserts (rows : List (AssetObservation R)) (s : Database R) :
    (∀ row ∈ s.assetObservation,
      row ∈ (applyAll (rows.map Write.insertObservation) s).assetObservation) ∧
    ∀ r ∈ rows, ∃ row ∈ (applyAll (rows.map Write.insertObservation) s).assetObservation,
      row.clientId = r.clientId ∧ (row ∈ s.assetObservation ∨ row ∈ rows) := by
  induction rows generalizing s with
  | nil => exact ⟨fun _ h ↦ h, fun _ h ↦ absurd h List.not_mem_nil⟩
  | cons r rest ih =>
    obtain ⟨hkept, hrows⟩ := ih (s.write (.insertObservation r))
    have hmem : ∀ row ∈ (s.write (.insertObservation r)).assetObservation,
        row ∈ s.assetObservation ∨ row ∈ r :: rest := by
      intro row hrow
      rcases Table.mem_insertNew.mp hrow with hold | ⟨rfl, -⟩
      · exact .inl hold
      · exact .inr (List.mem_cons_self ..)
    refine ⟨fun row hrow ↦ hkept row (Table.mem_insertNew_of_mem r hrow), ?_⟩
    intro r' hr'
    rcases List.mem_cons.mp hr' with rfl | hr'
    · obtain ⟨row, hrow, hid⟩ := Table.hasKey_iff.mp
        (Table.hasKey_insertNew (t := s.assetObservation) (r := r') |>.mpr (.inr rfl))
      exact ⟨row, hkept row hrow, hid, hmem row hrow⟩
    · obtain ⟨row, hrow, hid, hfrom⟩ := hrows r' hr'
      refine ⟨row, hrow, hid, ?_⟩
      rcases hfrom with hfrom | hfrom
      · exact hmem row hfrom
      · exact .inr (List.mem_cons_of_mem _ hfrom)

/-! ### Rows -/

section Rows

variable [Field R] [LinearOrder R] (ext : EventExternals R)

/-- The column holds the integer that the member stands for, and a default if there is none. -/
def SameInt (name : String) (default : Int) (members : Members R) (n : Int) : Prop :=
  (value? name members = none ∧ n = default) ∨
    ∃ v, value? name members = some v ∧ ext.readInt v = .ok n

/-- The column holds the flag that the member stands for, and `NULL` if there is none. -/
def SameFlag (name : String) (members : Members R) : Option Bool → Prop
  | some b => ∃ v, value? name members = some v ∧ ext.readBool v = .ok b
  | none => Absent name members

/-- The column holds the number that the member stands for, which is there. -/
def GivenFloat (name : String) (members : Members R) (column : Option (PyFloat R)) : Prop :=
  ∃ x, column = some x ∧ SameFloat ext.toPyExternals name members x

/-- The column holds the number that the member stands for, and `NULL` if there is none. -/
def OptionalFloat (name : String) (members : Members R) : Option (PyFloat R) → Prop
  | some x => SameFloat ext.toPyExternals name members x
  | none => Absent name members

/-- The row holds what the event says. -/
structure EventRecord (members : Members R) (row : AssetObservation (PyFloat R)) : Prop where
  clientId : SameText "client_id" members (some row.clientId)
  schemaVersion : SameInt ext "schema_version" 1 members row.schemaVersion
  ts : SameInstant ext.toPyExternals "ts" members row.tsUtc
  lat : SameFloat ext.toPyExternals "lat" members row.geom.lat
  lon : SameFloat ext.toPyExternals "lon" members row.geom.lon
  speedMps : GivenFloat ext "speed_mps" members row.speedMps
  bearingDeg : GivenFloat ext "bearing_deg" members row.bearingDeg
  speedAccuracyMps : OptionalFloat ext "speed_accuracy_mps" members row.speedAccuracyMps
  accelMaxG : GivenFloat ext "accel_max_g" members row.accelMaxG
  accelStd : GivenFloat ext "accel_std" members row.accelStd
  magnitude : GivenFloat ext "magnitude" members row.magnitude
  gbarInMax : OptionalFloat ext "gbar_in_max" members row.gbarInMax
  timeInMax : OptionalFloat ext "time_in_max" members row.timeInMax
  timeInMin : OptionalFloat ext "time_in_min" members row.timeInMin
  confidence : SameFloat ext.toPyExternals "confidence" members row.confidence
  rawWindowB64 : SameText "raw_window_b64" members row.rawWindowB64
  visualConfirmed : SameFlag ext "visual_confirmed" members row.visualConfirmed
  frameClientId : SameText "frame_client_id" members row.frameClientId

variable {ext} {name : String} {members : Members R}

omit [Field R] [LinearOrder R] in
theorem sameInt_of_defaulted {lo hi : Int} {default n : IntBounded lo hi}
    (h : defaulted name default (integer ext.readInt lo hi) members = .ok n) :
    SameInt ext name default.1 members n.1 := by
  rcases defaulted_eq_ok h with ⟨hnone, rfl⟩ | ⟨v, hv, hn⟩
  · exact .inl ⟨hnone, rfl⟩
  · exact .inr ⟨v, hv, integer_eq_ok hn⟩

omit [Field R] [LinearOrder R] in
theorem sameFlag_of_optional {b : Option Bool}
    (h : optional name (reads ext.readBool) members = .ok b) : SameFlag ext name members b := by
  cases b with
  | none => exact optional_eq_none h
  | some b =>
    obtain ⟨v, hv, hb⟩ := optional_eq_some h
    exact ⟨v, hv, reads_eq_ok hb⟩

theorem number_eq_ok (ext : EventExternals R) (lo hi : Int) (loc : List Loc) (v : PyValue R)
    (x : Number R lo hi) (h : number ext lo hi loc v = .ok x) :
    toFloat ext.toPyExternals v = some x.1 :=
  bounded_eq_ok h

theorem givenFloat_of_required {lo hi : Int} {x : Number R lo hi}
    (h : required name (number ext lo hi) members = .ok x) :
    GivenFloat ext name members (some x.1) :=
  ⟨x.1, rfl, sameFloat_of_required h⟩

omit [LinearOrder R] in
theorem optionalFloat_of_optional {p : PyFloat R → Prop}
    {validate : List Loc → PyValue R → Checked {x : PyFloat R // p x}}
    (hvalidate : ∀ loc v x, validate loc v = .ok x → toFloat ext.toPyExternals v = some x.1)
    {x : Option {x : PyFloat R // p x}} (h : optional name validate members = .ok x) :
    OptionalFloat ext name members (x.map Subtype.val) := by
  cases x with
  | none => exact optional_eq_none h
  | some x =>
    obtain ⟨v, hv, hx⟩ := optional_eq_some h
    exact ⟨v, hv, hvalidate _ _ _ hx⟩

/-- The row of a valid event holds what the event says. -/
theorem eventRecord_eventRow {e : ValidEvent ext} (h : validateEvent ext members = .ok e)
    (deviceId : String) (now : DateTime) :
    EventRecord ext members (eventRow ext deviceId now e) := by
  obtain ⟨dt, hdt, haware⟩ := e.exists_instant
  obtain ⟨_, frame, h₁, hframe, rfl⟩ := apply_eq_ok h
  obtain ⟨_, visual, h₂, hvisual, rfl⟩ := apply_eq_ok h₁
  obtain ⟨_, window, h₃, hwindow, rfl⟩ := apply_eq_ok h₂
  obtain ⟨_, confidence, h₄, hconfidence, rfl⟩ := apply_eq_ok h₃
  obtain ⟨_, timeMin, h₅, htimeMin, rfl⟩ := apply_eq_ok h₄
  obtain ⟨_, timeMax, h₆, htimeMax, rfl⟩ := apply_eq_ok h₅
  obtain ⟨_, gbar, h₇, hgbar, rfl⟩ := apply_eq_ok h₆
  obtain ⟨_, magnitude, h₈, hmagnitude, rfl⟩ := apply_eq_ok h₇
  obtain ⟨_, std, h₉, hstd, rfl⟩ := apply_eq_ok h₈
  obtain ⟨_, peak, h₁₀, hpeak, rfl⟩ := apply_eq_ok h₉
  obtain ⟨_, accuracy, h₁₁, haccuracy, rfl⟩ := apply_eq_ok h₁₀
  obtain ⟨_, bearing, h₁₂, hbearing, rfl⟩ := apply_eq_ok h₁₁
  obtain ⟨_, speed, h₁₃, hspeed, rfl⟩ := apply_eq_ok h₁₂
  obtain ⟨_, lon, h₁₄, hlon, rfl⟩ := apply_eq_ok h₁₃
  obtain ⟨_, lat, h₁₅, hlat, rfl⟩ := apply_eq_ok h₁₄
  obtain ⟨_, ts, h₁₆, hts, rfl⟩ := apply_eq_ok h₁₅
  obtain ⟨_, version, h₁₇, hversion, rfl⟩ := apply_eq_ok h₁₆
  obtain ⟨_, client, hmk, hclient, rfl⟩ := apply_eq_ok h₁₇
  cases hmk
  obtain ⟨v, hv, htext⟩ := required_eq_ok hts
  rw [textWith_eq_ok htext] at hv
  have htime : ∀ loc v (x : AtLeast (0 : R)), atLeast (toFloat ext.toPyExternals) 0 loc v = .ok x →
      toFloat ext.toPyExternals v = some x.1 := fun _ _ _ ↦ atLeast_eq_ok
  exact {
    clientId := sameText_of_required hclient
    schemaVersion := sameInt_of_defaulted hversion
    ts := ⟨ts.1, dt, hv, hdt, haware, by simp [eventRow, newObservation, hdt]⟩
    lat := sameFloat_of_required hlat
    lon := sameFloat_of_required hlon
    speedMps := givenFloat_of_required hspeed
    bearingDeg := givenFloat_of_required hbearing
    speedAccuracyMps := optionalFloat_of_optional (number_eq_ok ext 0 200) haccuracy
    accelMaxG := givenFloat_of_required hpeak
    accelStd := givenFloat_of_required hstd
    magnitude := givenFloat_of_required hmagnitude
    gbarInMax := optionalFloat_of_optional (number_eq_ok ext 0 500) hgbar
    timeInMax := optionalFloat_of_optional htime htimeMax
    timeInMin := optionalFloat_of_optional htime htimeMin
    confidence := sameFloat_of_required hconfidence
    rawWindowB64 := sameText_of_optional hwindow
    visualConfirmed := sameFlag_of_optional hvisual
    frameClientId := sameText_of_optional hframe }

end Rows

/-! ### The endpoint -/

/-- What the process and the database hold. -/
structure EventServer (K R : Type) where
  limits : RateLimits K
  db : Database (PyFloat R)

section Endpoint

variable [Field R] [LinearOrder R] [Field K] [LinearOrder K] [FloorRing K]
  [Effect U (Database (PyFloat R))] (maxBatchSize : Int) (depth : Nat) (settings : Settings K)
  (ext : EventExternals R)

/-- `ingest_events`, behind its dependencies. -/
def ingestEvents (request : EventsRequest) (clock : K) (now : DateTime) (sch : Schedule U)
    (s : EventServer K R) : Except EventsError EventBatchResponse × EventServer K R :=
  match receiveEvents ext maxBatchSize depth settings request clock s.limits with
  | (.error e, limits) => (.error e, { s with limits })
  | (.ok (deviceId, batch), limits) =>
    let outcome := (insertValidEvents ext deviceId now batch.1).run sch (.fresh s.db)
    match outcome.result with
    | .error e => (.error (.unhandled e), ⟨limits, outcome.conn.store⟩)
    | .ok (accepted, rejected) => (.ok ⟨accepted, rejected⟩, ⟨limits, outcome.conn.store⟩)

variable {maxBatchSize depth settings ext} {request : EventsRequest}

omit [Field R] [LinearOrder R] in
theorem loads_of_parseBody {bytes : List UInt8} {v : PyValue R}
    (h : parseBody ext depth bytes = .ok (some v)) :
    PyValue.loads ext.readFloat depth bytes = .ok v := by
  unfold parseBody at h
  split at h
  · cases h
  · split at h
    · next hloads =>
      cases h
      exact hloads
    · cases h
    · cases h

omit [Field R] [LinearOrder R] in
theorem parseBody_of_loads {bytes : List UInt8} {v : PyValue R}
    (h : PyValue.loads ext.readFloat depth bytes = .ok v) :
    parseBody ext depth bytes = .ok (some v) := by
  have hbytes : bytes ≠ [] := by
    rintro rfl
    cases h
  simp [parseBody, hbytes, h]

/-- A request that passes its checks. -/
theorem checkRequest_eq_ok {deviceId : String} {batch : ValidBatch ext}
    (h : checkRequest ext maxBatchSize depth request = .ok (deviceId, batch)) :
    requireDeviceId request.deviceId = .ok deviceId ∧
      ∃ v values, PyValue.loads ext.readFloat depth request.body = .ok v ∧
        eventsOf v = some values ∧ List.Forall₂ (fun v e ↦ ∃ members, v = .dict members ∧
          validateEvent ext members = .ok e) values batch.1 := by
  obtain ⟨body, hbody, hrest⟩ := bind_eq_ok h
  obtain ⟨d, hdevice, hrest'⟩ := bind_eq_ok hrest
  obtain ⟨_, -, hrest''⟩ := bind_eq_ok hrest'
  obtain ⟨b, hvalid, hsize⟩ := bind_eq_ok hrest''
  obtain ⟨v, values, rfl, hvalues, hforall⟩ := validateBody_eq_ok (mapError_eq_ok hvalid)
  split at hsize
  · cases hsize
  · cases hsize
    exact ⟨mapError_eq_ok hdevice, v, values, loads_of_parseBody hbody, hvalues, hforall⟩

/-- A request that the service is called with has passed its checks. -/
theorem receiveEvents_eq_ok {clock : K} {limits limits' : RateLimits K} {deviceId : String}
    {batch : ValidBatch ext}
    (h : receiveEvents ext maxBatchSize depth settings request clock limits =
      (.ok (deviceId, batch), limits')) :
    checkRequest ext maxBatchSize depth request = .ok (deviceId, batch) ∧
      checkRateLimit settings limits deviceId "events" batch.1.length clock =
        (limits', .ok ()) := by
  unfold receiveEvents at h
  split at h
  · cases h
  · next d b hcheck =>
    split at h
    · cases h
    · next hlimit =>
      cases h
      exact ⟨hcheck, hlimit⟩

/-! ### Refused batches -/

/-- The errors of a batch name the events that are refused, each by itself, and no others. -/
structure NamesRefused (ext : EventExternals R) (values : List (PyValue R))
    (errors : List FieldError) : Prop where
  names : ∀ n, (∃ e ∈ errors, eventPlace n <+: e.loc) ↔
    ∃ x, values[n]? = some x ∧ ¬AcceptsEvent ext x
  only : ∀ e ∈ errors, ∃ n, eventPlace n <+: e.loc

/-- What becomes of a batch that is refused: it is answered 422, or 500 if its errors cannot be
written, and neither the database nor the rate limit changes. -/
structure Refused (ext : EventExternals R) (v : PyValue R) (values : List (PyValue R))
    (s : EventServer K R) (errors : List FieldError)
    (result : Except EventsError EventBatchResponse × EventServer K R) : Prop where
  answer : result.1 = .error (refuse ext (some v) errors)
  status : eventsStatus result.1 = if Writable ext (some v) errors then 422 else 500
  names : NamesRefused ext values errors
  unchanged : result.2 = s

omit [Field R] [LinearOrder R] in
theorem statusCode_refuse (body : Option (PyValue R)) (errors : List FieldError) :
    (refuse ext body errors).statusCode = if Writable ext body errors then 422 else 500 := by
  unfold refuse
  split <;> rfl

/-- Only the checks of a request refuse it with errors of its fields. -/
theorem checkRequest_of_answer {clock : K} {now : DateTime} {sch : Schedule U} {s : EventServer K R}
    {errors : List FieldError} {e : EventsError}
    (he : e = .validation errors ∨ e = .unwritable errors)
    (h : (ingestEvents maxBatchSize depth settings ext request clock now sch s).1 = .error e) :
    checkRequest ext maxBatchSize depth request = .error e := by
  unfold ingestEvents at h
  split at h
  · next e' limits hreceive =>
    cases h
    unfold receiveEvents at hreceive
    split at hreceive
    · next hcheck =>
      cases hreceive
      exact hcheck
    · split at hreceive
      · cases hreceive
        rcases he with he | he <;> cases he
      · cases hreceive
  · dsimp only at h
    split at h
    · cases h
      rcases he with he | he <;> cases he
    · cases h

/-- A batch of one to a hundred events, with both headers, is refused exactly if one of its events
is. Then the errors name the events that are refused, no other event of the batch is stored either,
and the rate limit does not count it. No other batch is answered with errors of its fields. -/
theorem unprocessable_iff {v : PyValue R} {values : List (PyValue R)} {deviceId version : String}
    (hloads : PyValue.loads ext.readFloat depth request.body = .ok v)
    (hvalues : eventsOf v = some values) (hlo : 1 ≤ values.length) (hhi : values.length ≤ 100)
    (hdevice : requireDeviceId request.deviceId = .ok deviceId)
    (hversion : requireVersionV1 request.acceptVersion = .ok version) (clock : K) (now : DateTime)
    (sch : Schedule U) (s : EventServer K R) :
    ((∃ errors, Refused ext v values s errors
        (ingestEvents maxBatchSize depth settings ext request clock now sch s)) ↔
      ∃ x ∈ values, ¬AcceptsEvent ext x) ∧
    ∀ errors e, e = .validation errors ∨ e = .unwritable errors →
      (ingestEvents maxBatchSize depth settings ext request clock now sch s).1 = .error e →
        Refused ext v values s errors
          (ingestEvents maxBatchSize depth settings ext request clock now sch s) := by
  have haccepted := @validateBody_ok_iff R _ _ ext v values hvalues hlo hhi
  have hnames := @names_event_iff R _ _ ext v values hvalues hlo hhi
  have honly := fun e ↦ @exists_refused_of_mem R _ _ ext v values hvalues hlo hhi e
  have hcheck : checkRequest ext maxBatchSize depth request =
      (validateBody ext (some v)).mapError (refuse ext (some v)) >>= fun batch ↦
        if maxBatchSize < batch.1.length then
          throw (.http ⟨400, "Batch size " ++ toString batch.1.length ++ " exceeds maximum of " ++
            toString maxBatchSize ++ "."⟩)
        else return (deviceId, batch) := by
    rw [checkRequest, parseBody_of_loads hloads, hdevice, hversion]
    rfl
  cases hvalid : validateBody ext (some v) with
  | error es =>
    rw [hvalid] at haccepted hnames honly hcheck
    have hanswer : ingestEvents maxBatchSize depth settings ext request clock now sch s =
        (.error (refuse ext (some v) es), s) := by
      rw [ingestEvents, receiveEvents, hcheck]
      rfl
    rw [hanswer]
    have hrefused : Refused ext v values s es
        (.error (refuse ext (some v) es), s) :=
      ⟨rfl, statusCode_refuse (some v) es, ⟨hnames, honly⟩, rfl⟩
    refine ⟨iff_of_true ⟨es, hrefused⟩ ?_, ?_⟩
    · by_contra hall
      obtain ⟨batch, hbatch⟩ := haccepted.mpr (by simpa using hall)
      cases hbatch
    · intro errors e he herrors
      have hsame : errors = es := by
        rw [← Except.error.inj herrors, refuse] at he
        split at he <;> rcases he with he | he <;> cases he <;> rfl
      exact hsame ▸ hrefused
  | ok batch =>
    have hnever : ∀ errors e, e = .validation errors ∨ e = .unwritable errors →
        (ingestEvents maxBatchSize depth settings ext request clock now sch s).1 ≠ .error e := by
      intro errors e he herrors
      rw [hvalid] at hcheck
      have hchecked := checkRequest_of_answer he herrors
      rw [hcheck] at hchecked
      change (if _ then _ else _) = _ at hchecked
      split at hchecked
      · cases hchecked
        rcases he with he | he <;> cases he
      · cases hchecked
    refine ⟨iff_of_false ?_ ?_, fun errors e he herrors ↦ absurd herrors (hnever errors e he)⟩
    · rintro ⟨errors, hrefused⟩
      refine hnever errors _ ?_ hrefused.answer
      unfold refuse
      split
      · exact .inl rfl
      · exact .inr rfl
    · simpa using haccepted.mp ⟨batch, hvalid⟩

/-! ### Accepted batches -/

/-- What a batch that is answered with success leaves behind, if no request fails: every row that
others have committed up to its `COMMIT` is kept (one slot for each of its events, one for the
`BEGIN` and one for the `COMMIT`), and each event that was sent is accepted and has a row, which
others have committed or which holds in every column what an event of the batch with this id
says. -/
structure RecordedEvents (ext : EventExternals R) (depth : Nat) (arr : Nat → List U)
    (request : EventsRequest) (now : DateTime) (response : EventBatchResponse)
    (before after : Database (PyFloat R)) : Prop where
  rejected : response.rejected = []
  rows : ∃ deviceId v values, requireDeviceId request.deviceId = .ok deviceId ∧
    PyValue.loads ext.readFloat depth request.body = .ok v ∧ eventsOf v = some values ∧
    List.Forall₂ (fun x id ↦ ∃ members, x = .dict members ∧
      SameText "client_id" members (some id)) values response.accepted ∧
    (∀ row ∈ (seen arr before (values.length + 2)).assetObservation,
      row ∈ after.assetObservation) ∧
    ∀ id ∈ response.accepted, ∃ row ∈ after.assetObservation, row.clientId = id ∧
      (row ∈ (seen arr before (values.length + 2)).assetObservation ∨ row.deviceId = deviceId ∧
        row.assetType = "pothole" ∧ row.receivedAt = now ∧ row.scoredAt = none ∧
        ∃ members, .dict members ∈ values ∧ EventRecord ext members row)

/-- A batch that is answered with success is recorded, whatever others commit meanwhile. -/
theorem recordedEvents_of_accepted {arr : Nat → List U} {clock : K} {now : DateTime}
    {s : EventServer K R} {response : EventBatchResponse}
    (h : (ingestEvents maxBatchSize depth settings ext request clock now (arriving arr) s).1 =
      .ok response) :
    RecordedEvents ext depth arr request now response s.db
      (ingestEvents maxBatchSize depth settings ext request clock now (arriving arr) s).2.db := by
  unfold ingestEvents at h ⊢
  split at h
  · cases h
  · next deviceId batch limits hreceive =>
    have hrun := runsTo_insertValidEvents deviceId now arr s.db batch.1
    obtain ⟨hdevice, v, values, hloads, hvalues, hforall⟩ :=
      checkRequest_eq_ok (receiveEvents_eq_ok hreceive).1
    have hslots : 1 + batch.1.length + 1 = values.length + 2 := by
      rw [hforall.length_eq]
      omega
    rw [hslots] at hrun
    dsimp only at h
    rw [hrun.returns] at h
    dsimp only at h
    cases h
    simp only [hrun.returns, hrun.whole.1]
    obtain ⟨hkept, hrows⟩ := mem_applyAll_inserts (batch.1.map (eventRow ext deviceId now))
      (seen arr s.db (values.length + 2))
    rw [List.map_map] at hkept hrows
    refine ⟨rfl, deviceId, v, values, hdevice, hloads, hvalues, ?_, hkept, ?_⟩
    · apply List.forall₂_map_right_iff.mpr
      refine hforall.imp ?_
      rintro x e ⟨members, rfl, hvalid⟩
      exact ⟨members, rfl, (eventRecord_eventRow hvalid deviceId now).clientId⟩
    · intro id hid
      obtain ⟨e, he, rfl⟩ := List.mem_map.mp hid
      obtain ⟨row, hrow, hsame, hfrom⟩ := hrows _ (List.mem_map_of_mem he)
      refine ⟨row, hrow, hsame, ?_⟩
      rcases hfrom with hold | hnew
      · exact .inl hold
      · obtain ⟨e', he', rfl⟩ := List.mem_map.mp hnew
        obtain ⟨x, hx, members, rfl, hvalid⟩ := exists_of_forall₂ hforall he'
        exact .inr ⟨rfl, rfl, rfl, rfl, members, hx, eventRecord_eventRow hvalid deviceId now⟩

end Endpoint

/-! ### Two batches -/

/-- Python and pydantic on numbers without a fraction, and on one timestamp. -/
def EventExternals.plain : EventExternals ℚ where
  toPyExternals := .plain
  readInt
    | .int n => .ok n
    | .bool b => .ok (if b then 1 else 0)
    | .float (.finite x) => if x.den = 1 then .ok x.num else .error "int_from_float"
    | .float _ => .error "finite_number"
    | .str _ => .error "int_parsing"
    | _ => .error "int_type"
  readBool
    | .bool b => .ok b
    | .int n => if n = 0 then .ok false else if n = 1 then .ok true else .error "bool_parsing"
    | .str _ => .error "bool_parsing"
    | _ => .error "bool_type"
  answerDepth := 900

/-- An event with every field that has to be there, in pieces. -/
def eventText (clientId lat : String) : List String :=
  ["\x7b\"client_id\": \"", clientId, "\", \"ts\": ", "\"2026-01-01T00:00:00Z\"", ", \"lat\": ",
    lat, ", \"lon\": -79", ", \"speed_mps\": 10", ", \"bearing_deg\": 90", ", \"accel_max_g\": 2",
    ", \"accel_std\": 1", ", \"magnitude\": 5", ", \"confidence\": 1\x7d"]

/-- A request with these events. -/
def requestOf (events : List (List String)) : EventsRequest where
  deviceId := some "device"
  acceptVersion := some "v1"
  body := (["\x7b\"events\": ["] ++ [", "].intercalate events ++ ["]\x7d"]).flatMap
    (fun piece ↦ piece.toList.map (fun c ↦ UInt8.ofNat c.toNat))

/-- A request with two events. -/
def pairRequest (lat lat' : String) : EventsRequest :=
  requestOf [eventText "a" lat, eventText "b" lat']

/-- A new server. -/
def EventServer.empty : EventServer ℚ ℚ := ⟨.empty, .empty⟩

/-- The first request that a new server receives. -/
abbrev ingestPair (lat lat' : String) : Except EventsError EventBatchResponse × EventServer ℚ ℚ :=
  ingestEvents 100 1000 (Settings.default ℚ) .plain (pairRequest lat lat') 0 0
    (arriving (fun _ ↦ ([] : List Empty))) .empty

/-- A latitude that there is not refuses the batch, and so does one that is not a number, which the
answer cannot repeat. -/
theorem unprocessable_pair :
    (eventsStatus (ingestPair "43" "91").1 = 422 ∧ eventsStatus (ingestPair "43" "NaN").1 = 500) ∧
    ∀ lat' ∈ ["91", "NaN"], ∃ v values errors,
      Refused .plain v values .empty errors (ingestPair "43" lat') := by
  refine ⟨by decide +kernel, ?_⟩
  intro lat' hlat
  have hsent : ∀ lat' ∈ ["91", "NaN"], (PyValue.loads EventExternals.plain.readFloat 1000
      (pairRequest "43" lat').body).toOption.map (fun v ↦ ((eventsOf v).map List.length,
        (validateBody .plain (some v)).isOk)) = some (some 2, false) := by
    decide +kernel
  obtain ⟨v, hv, hchecked⟩ := Option.map_eq_some_iff.mp (hsent lat' hlat)
  obtain ⟨hlist, hrefused⟩ := Prod.mk.inj hchecked
  obtain ⟨values, hvalues, hlength⟩ := Option.map_eq_some_iff.mp hlist
  have hloads : PyValue.loads EventExternals.plain.readFloat 1000 (pairRequest "43" lat').body =
      .ok v := by
    cases hresult : PyValue.loads EventExternals.plain.readFloat 1000
      (pairRequest "43" lat').body with
    | error e =>
      rw [hresult] at hv
      cases hv
    | ok v' =>
      rw [hresult] at hv
      cases hv
      rfl
  have hinvalid : ∃ x ∈ values, ¬AcceptsEvent .plain x := by
    by_contra hall
    obtain ⟨batch, hbatch⟩ := (validateBody_ok_iff hvalues (by omega) (by omega)).mpr
      (by simpa using hall)
    rw [hbatch] at hrefused
    cases hrefused
  have hdevice : requireDeviceId (some "device") = .ok "device" := by decide +kernel
  have hversion : requireVersionV1 (some "v1") = .ok "v1" := by decide +kernel
  have hanswer := @unprocessable_iff ℚ ℚ Empty _ _ _ _ _ _ 100 1000 (Settings.default ℚ) .plain
    (pairRequest "43" lat') v values "device" "v1" hloads hvalues (by omega) (by omega)
    hdevice hversion 0 0 (arriving (fun _ ↦ [])) .empty
  obtain ⟨errors, herrors⟩ := hanswer.1.mpr hinvalid
  exact ⟨v, values, errors, herrors⟩

/-- Two events are recorded. -/
theorem recordedEvents_pair : ∃ response, (ingestPair "43" "44").1 = .ok response ∧
    RecordedEvents .plain 1000 (fun _ ↦ ([] : List Empty)) (pairRequest "43" "44") 0 response .empty
      (ingestPair "43" "44").2.db := by
  have haccepted : (ingestPair "43" "44").1.isOk = true := by decide +kernel
  obtain ⟨response, h⟩ := exists_of_isOk haccepted
  have hrecorded := @recordedEvents_of_accepted ℚ ℚ Empty _ _ _ _ _ _ 100 1000
    (Settings.default ℚ) .plain (pairRequest "43" "44") (fun _ ↦ []) 0 0 .empty response h
  refine ⟨response, h, ?_⟩
  unfold ingestPair
  exact hrecorded

end PotholeServer.Ingest
