import PotholeServer.Ingest.Events
import PotholeServer.Ingest.FrameMetadata
import PotholeServer.Json.Models

/-!
# Event batches

`app/models/__init__.py: EventPayload` and `EventBatchRequest`, from the JSON document on. A field
that is accepted has a type that carries its constraint; the errors of all events are collected.
-/

namespace PotholeServer.Ingest

open Validation

/-- What pydantic reads in integers and flags, beside numbers and timestamps, and what FastAPI
repeats. -/
structure EventExternals (R : Type) extends PyExternals R where
  /-- The integer that pydantic reads in a value, or the type of its error. -/
  readInt : PyValue R → Except String Int
  /-- The flag that pydantic reads in a value, or the type of its error. -/
  readBool : PyValue R → Except String Bool
  /-- How deep the encoder of the answers recurses. -/
  answerDepth : Nat

variable {R : Type} [Field R] [LinearOrder R] (ext : EventExternals R)

/-! ### Events -/

/-- `float` with `ge` and `le`, for bounds that are whole numbers. -/
abbrev Number (R : Type) [Field R] [LinearOrder R] (lo hi : Int) := Bounded (lo : R) (hi : R)

/-- The validator of `Number`. -/
abbrev number (lo hi : Int) : List Loc → PyValue R → Checked (Number R lo hi) :=
  bounded (toFloat ext.toPyExternals) lo hi

/-- `EventPayload`: fields that passed the validation. -/
structure ValidEvent where
  clientId : Text 1 64
  schemaVersion : IntBounded 1 100
  ts : TextWith (acceptsTs ext.toPyExternals)
  lat : Number R (-90) 90
  lon : Number R (-180) 180
  speedMps : Number R 0 200
  bearingDeg : Number R 0 360
  speedAccuracyMps : Option (Number R 0 200)
  accelMaxG : Number R (-50) 50
  accelStd : Number R 0 100
  magnitude : Number R 0 500
  gbarInMax : Option (Number R 0 500)
  timeInMax : Option (AtLeast (0 : R))
  timeInMin : Option (AtLeast (0 : R))
  confidence : Number R 0 1
  rawWindowB64 : Option (Text 0 50000)
  visualConfirmed : Option Bool
  frameClientId : Option (Text 0 64)

/-- `EventPayload(**members)`; other members are ignored. -/
def validateEvent (members : Members R) : Checked (ValidEvent ext) :=
  Checked.apply (.ok ValidEvent.mk) (required "client_id" (text 1 64) members)
    |>.apply (defaulted "schema_version" ⟨1, by decide⟩ (integer ext.readInt 1 100) members)
    |>.apply (required "ts" (textWith (acceptsTs ext.toPyExternals)) members)
    |>.apply (required "lat" (number ext (-90) 90) members)
    |>.apply (required "lon" (number ext (-180) 180) members)
    |>.apply (required "speed_mps" (number ext 0 200) members)
    |>.apply (required "bearing_deg" (number ext 0 360) members)
    |>.apply (optional "speed_accuracy_mps" (number ext 0 200) members)
    |>.apply (required "accel_max_g" (number ext (-50) 50) members)
    |>.apply (required "accel_std" (number ext 0 100) members)
    |>.apply (required "magnitude" (number ext 0 500) members)
    |>.apply (optional "gbar_in_max" (number ext 0 500) members)
    |>.apply (optional "time_in_max" (atLeast (toFloat ext.toPyExternals) 0) members)
    |>.apply (optional "time_in_min" (atLeast (toFloat ext.toPyExternals) 0) members)
    |>.apply (required "confidence" (number ext 0 1) members)
    |>.apply (optional "raw_window_b64" (text 0 50000) members)
    |>.apply (optional "visual_confirmed" (reads ext.readBool) members)
    |>.apply (optional "frame_client_id" (text 0 64) members)

/-- The fields of `EventPayload`. -/
def eventFields : List String :=
  ["client_id", "schema_version", "ts", "lat", "lon", "speed_mps", "bearing_deg",
    "speed_accuracy_mps", "accel_max_g", "accel_std", "magnitude", "gbar_in_max", "time_in_max",
    "time_in_min", "confidence", "raw_window_b64", "visual_confirmed", "frame_client_id"]

/-- The validation reports an error only with a field that it checks. -/
theorem names_validateEvent (members : Members R) :
    Names (eventFields.map .field) (validateEvent ext members) := by
  have hnumber := fun name lo hi ↦
    names_required name (located_bounded (toFloat ext.toPyExternals) ((lo : Int) : R) (hi : Int))
      members
  have hbounded := fun name lo hi ↦
    names_optional name (located_bounded (toFloat ext.toPyExternals) ((lo : Int) : R) (hi : Int))
      members
  have htime := fun name ↦
    names_optional name (located_atLeast (toFloat ext.toPyExternals) 0) members
  have htext := fun name hi ↦ names_optional name (located_text (R := R) 0 hi) members
  have hint := names_defaulted "schema_version" ⟨1, by decide⟩
    (located_integer ext.readInt 1 100) members
  have hts := names_required "ts" (located_textWith (acceptsTs ext.toPyExternals)) members
  have hflag := names_optional "visual_confirmed" (located_reads ext.readBool) members
  exact (names_ok [] (@ValidEvent.mk R _ _ ext)).apply
    (names_required "client_id" (located_text 1 64) members)
    |>.apply hint |>.apply hts
    |>.apply (hnumber "lat" (-90) 90) |>.apply (hnumber "lon" (-180) 180)
    |>.apply (hnumber "speed_mps" 0 200) |>.apply (hnumber "bearing_deg" 0 360)
    |>.apply (hbounded "speed_accuracy_mps" 0 200)
    |>.apply (hnumber "accel_max_g" (-50) 50) |>.apply (hnumber "accel_std" 0 100)
    |>.apply (hnumber "magnitude" 0 500) |>.apply (hbounded "gbar_in_max" 0 500)
    |>.apply (htime "time_in_max") |>.apply (htime "time_in_min")
    |>.apply (hnumber "confidence" 0 1) |>.apply (htext "raw_window_b64" 50000)
    |>.apply hflag |>.apply (htext "frame_client_id" 64)

/-- The fields that go into the row. `fromisoformat` reads no surrogates. -/
def ValidEvent.fields (e : ValidEvent ext) : EventFields (PyFloat R) where
  clientId := e.clientId.1
  schemaVersion := e.schemaVersion.1
  ts := String.ofList (e.ts.1.chars?.getD [])
  lat := e.lat.1
  lon := e.lon.1
  speedMps := e.speedMps.1
  bearingDeg := e.bearingDeg.1
  speedAccuracyMps := e.speedAccuracyMps.map Subtype.val
  accelMaxG := e.accelMaxG.1
  accelStd := e.accelStd.1
  magnitude := e.magnitude.1
  gbarInMax := e.gbarInMax.map Subtype.val
  timeInMax := e.timeInMax.map Subtype.val
  timeInMin := e.timeInMin.map Subtype.val
  confidence := e.confidence.1
  rawWindowB64 := e.rawWindowB64.map Subtype.val
  visualConfirmed := e.visualConfirmed
  frameClientId := e.frameClientId.map Subtype.val

/-! ### Batches -/

/-- `EventBatchRequest` -/
abbrev ValidBatch := Sized (ValidEvent ext) 1 100

/-- The validator of `EventBatchRequest`. -/
def validateBatch : List Loc → PyValue R → Checked (ValidBatch ext) :=
  model (required "events" (sized 1 100 (model (validateEvent ext))))

/-- The body parameter of the endpoint; `null` is no body. -/
def validateBody : Option (PyValue R) → Checked (ValidBatch ext)
  | none | some .null => fail [.field "body"] "missing"
  | some v => validateBatch ext [.field "body"] v

/-- The event is accepted, by itself. -/
def AcceptsEvent (v : PyValue R) : Prop := Accepts (model (validateEvent ext)) v

/-- The list of events in a document. -/
def eventsOf : PyValue R → Option (List (PyValue R))
  | .dict members =>
    match value? "events" members with
    | some (.list values) => some values
    | _ => none
  | _ => none

/-- The place of an event in the body. -/
def eventPlace (n : Nat) : List Loc := [.field "body", .field "events", .index n]

theorem placed_event : Placed (model (validateEvent ext)) :=
  placed_model (fun members es h ↦ (names_validateEvent ext members es h).1)

variable {ext}

omit [Field R] [LinearOrder R] in
theorem eventsOf_eq_some {v : PyValue R} {values : List (PyValue R)}
    (h : eventsOf v = some values) :
    ∃ members, v = .dict members ∧ value? "events" members = some (.list values) := by
  unfold eventsOf at h
  split at h
  · next members =>
    split at h
    · next hvalue =>
      cases h
      exact ⟨members, rfl, hvalue⟩
    · cases h
  · cases h

/-- A document with a list of events is validated as the list is. -/
theorem validateBody_eq {v : PyValue R} {values : List (PyValue R)}
    (h : eventsOf v = some values) : validateBody ext (some v) =
      (sized 1 100 (model (validateEvent ext)) [.field "events"] (.list values)).within
        [.field "body"] := by
  obtain ⟨members, rfl, hvalue⟩ := eventsOf_eq_some h
  rw [value?] at hvalue
  simp only [validateBody, validateBatch, model, required, hvalue]

/-- A batch that is accepted is a list of events, each of them accepted. -/
theorem validateBody_eq_ok {body : Option (PyValue R)} {batch : ValidBatch ext}
    (h : validateBody ext body = .ok batch) : ∃ v values, body = some v ∧
      eventsOf v = some values ∧ List.Forall₂ (fun v e ↦ ∃ members, v = .dict members ∧
        validateEvent ext members = .ok e) values batch.1 := by
  unfold validateBody at h
  split at h
  · cases h
  · cases h
  · next v _ =>
    obtain ⟨members, rfl, hrequired⟩ := model_eq_ok h
    obtain ⟨_, hvalue, hsized⟩ := required_eq_ok hrequired
    obtain ⟨values, rfl, hvalues⟩ := sized_eq_ok (placed_event ext) hsized
    refine ⟨_, values, rfl, by simp [eventsOf, hvalue], ?_⟩
    exact hvalues.imp (fun _ _ hevent ↦ model_eq_ok hevent)

section Batch

variable {v : PyValue R} {values : List (PyValue R)}

/-- A batch of one to a hundred events is accepted exactly if each of them is. -/
theorem validateBody_ok_iff (h : eventsOf v = some values) (hlo : 1 ≤ values.length)
    (hhi : values.length ≤ 100) : (∃ batch, validateBody ext (some v) = .ok batch) ↔
      ∀ x ∈ values, AcceptsEvent ext x := by
  simp only [validateBody_eq h, within_eq_ok_iff]
  exact sized_eq_ok_iff (placed_event ext) _ hlo hhi

/-- An event is named by an error exactly if it is refused. -/
theorem names_event_iff (h : eventsOf v = some values) (hlo : 1 ≤ values.length)
    (hhi : values.length ≤ 100) (n : Nat) :
    (∃ e ∈ (validateBody ext (some v)).errors, eventPlace n <+: e.loc) ↔
      ∃ x, values[n]? = some x ∧ ¬AcceptsEvent ext x := by
  have hsized := errorsAt_sized (placed_event ext) [.field "events"] hlo hhi
  show _ ↔ ∃ x, values[n]? = some x ∧ ¬Accepts (model (validateEvent ext)) x
  rw [validateBody_eq h, errors_within, ← hsized.names_iff n]
  simp [eventPlace]

/-- Every error names an event that is refused. -/
theorem exists_refused_of_mem (h : eventsOf v = some values) (hlo : 1 ≤ values.length)
    (hhi : values.length ≤ 100) {e : FieldError} (he : e ∈ (validateBody ext (some v)).errors) :
    ∃ n, eventPlace n <+: e.loc := by
  have hsized := errorsAt_sized (placed_event ext) [.field "events"] hlo hhi
  rw [validateBody_eq h, errors_within] at he
  obtain ⟨e', he', rfl⟩ := List.mem_map.mp he
  obtain ⟨n, x, -, -, hplace⟩ := hsized.sound e' he'
  rw [Nat.zero_add] at hplace
  exact ⟨n, by simpa [eventPlace] using hplace⟩

end Batch

end PotholeServer.Ingest
