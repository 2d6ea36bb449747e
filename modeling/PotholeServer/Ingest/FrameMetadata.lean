import Mathlib.Algebra.Order.Field.Basic
import PotholeServer.Ingest.Frames
import PotholeServer.Json.Validation

/-!
# Frame metadata

`app/models/frames.py: FrameMetadata`, and the way from the bytes of the metadata part to it. What
`json.loads` and the validation raise is a `ValueError`, but for two cases: a document that nests
too deep, and a document that is no object, which `**` does not unpack.
-/

namespace PotholeServer.Ingest

open Validation

/-- What Python and pydantic read in numbers and timestamps, and how they print numbers and
errors. -/
structure PyExternals (R : Type) where
  /-- `float(text)`, for the text of a number in JSON. -/
  readFloat : List Char → PyFloat R
  /-- `float(n)`; `none` is an `OverflowError`. -/
  floatOfInt : Int → Option (PyFloat R)
  /-- The float that pydantic reads in a string. -/
  floatOfStr : PyStr → Option (PyFloat R)
  /-- `float.__repr__` of a number. -/
  repr : R → List Char
  /-- `datetime.fromisoformat`; `none` is its `ValueError`. -/
  fromisoformat : PyStr → Option IsoDateTime
  /-- `str(e)` of an error of `json.loads` on these bytes. -/
  loadsMessage : List UInt8 → LoadsError → String
  /-- `str(e)` of a `ValidationError`. -/
  validationMessage : List FieldError → String

variable {R : Type} [Field R] [LinearOrder R] (ext : PyExternals R)

/-! ### Fields -/

/-- `v.replace("Z", "+00:00") if v.endswith("Z") else v` -/
def isoText (v : PyStr) : PyStr :=
  if v.getLast? = some (.char 'Z') then
    v.flatMap (fun c ↦ if c = .char 'Z' then PyStr.ofChars "+00:00".toList else [c])
  else v

/-- `validate_timestamp` accepts the text. -/
def acceptsTs (v : PyStr) : Bool := (ext.fromisoformat (isoText v)).any (·.aware)

/-- The float that pydantic makes of a value, or none. -/
def toFloat : PyValue R → Option (PyFloat R)
  | .float x => some x
  | .int n => ext.floatOfInt n
  | .bool b => some (.finite (if b then 1 else 0))
  | .str s => ext.floatOfStr s
  | _ => none

/-- `FrameMetadata`: fields that passed the validation. -/
structure ValidMetadata where
  clientId : Text 1 64
  eventClientId : Option (Text 0 64)
  ts : TextWith (acceptsTs ext)
  lat : Bounded (-90 : R) 90
  lon : Bounded (-180 : R) 180
  devicePOnDevice : Bounded (0 : R) 1
  modelId : Option (Text 0 128)
  detections : Option (List (Members R))

/-- `FrameMetadata(**members)`; other members are ignored. -/
def validateMetadata (members : Members R) : Checked (ValidMetadata ext) :=
  Checked.apply (Checked.apply (Checked.apply (Checked.apply (Checked.apply (Checked.apply
    (Checked.apply ((required "client_id" (text 1 64) members).map ValidMetadata.mk)
      (optional "event_client_id" (text 0 64) members))
      (required "ts" (textWith (acceptsTs ext)) members))
      (required "lat" (bounded (toFloat ext) (-90) 90) members))
      (required "lon" (bounded (toFloat ext) (-180) 180) members))
      (required "device_p_on_device" (bounded (toFloat ext) 0 1) members))
      (optional "model_id" (text 0 128) members))
      (optional "detections" (list dict) members)

namespace ValidMetadata

variable {ext}

/-- The timestamp that `validate_timestamp` has accepted. -/
theorem exists_instant (m : ValidMetadata ext) :
    ∃ dt, ext.fromisoformat (isoText m.ts.1) = some dt := by
  have haccepted := m.ts.2
  rw [acceptsTs, Option.any_eq_true] at haccepted
  obtain ⟨dt, hdt, -⟩ := haccepted
  exact ⟨dt, hdt⟩

/-- `detections_json` in `store_frame`; an empty list is false. `json.dumps` recurses less deep on
the detections than `json.loads` did on the document that they are in. -/
def detectionsJson (m : ValidMetadata ext) : Option String :=
  match m.detections with
  | none | some [] => none
  | some detections =>
    some (String.ofList ((PyValue.list (detections.map .dict)).dumps ext.repr))

/-- The fields that go into the row. -/
def fields (m : ValidMetadata ext) : FrameMetadata (PyFloat R) where
  clientId := m.clientId.1
  eventClientId := m.eventClientId.map Subtype.val
  lat := m.lat.1
  lon := m.lon.1
  devicePOnDevice := m.devicePOnDevice.1
  modelId := m.modelId.map Subtype.val
  detections := m.detectionsJson

end ValidMetadata

/-! ### Documents -/

/-- What goes wrong between the bytes of the metadata part and `FrameMetadata`. -/
inductive MetadataError where
  | loads (e : LoadsError)
  | notMapping
  | validation (errors : List FieldError)
  deriving DecidableEq, Repr

/-- `FrameMetadata(**json.loads(metadata_bytes))`; `**` unpacks nothing but an object. -/
def parseMetadata (depth : Nat) (bytes : List UInt8) : Except MetadataError (ValidMetadata ext) :=
  match PyValue.loads ext.readFloat depth bytes with
  | .error e => .error (.loads e)
  | .ok (.dict members) =>
    match validateMetadata ext members with
    | .error errors => .error (.validation errors)
    | .ok m => .ok m
  | .ok _ => .error .notMapping

/-- `str(e)` of an error that `except (json.JSONDecodeError, ValueError)` catches. -/
def MetadataError.caught (bytes : List UInt8) : MetadataError → Option String
  | .loads e => if e.isValueError then some (ext.loadsMessage bytes e) else none
  | .notMapping => none
  | .validation errors => some (ext.validationMessage errors)

/-- The bytes are a JSON object that satisfies `FrameMetadata`, however deep it nests. -/
def SatisfiesMetadata (bytes : List UInt8) : Prop :=
  ∃ depth m, parseMetadata ext depth bytes = .ok m

/-- The parse stops where `json.loads` does. -/
theorem parseMetadata_eq_loads {depth : Nat} {bytes : List UInt8} {e : LoadsError} :
    parseMetadata ext depth bytes = .error (.loads e) ↔
      PyValue.loads ext.readFloat depth bytes = .error e := by
  unfold parseMetadata
  split
  · next hloads => simp [hloads]
  · next hloads => split <;> simp [hloads]
  · next hloads => simp [hloads]

/-- The parse stops at what is no object. -/
theorem parseMetadata_eq_notMapping {depth : Nat} {bytes : List UInt8} :
    parseMetadata ext depth bytes = .error .notMapping ↔
      ∃ v, PyValue.loads ext.readFloat depth bytes = .ok v ∧ ∀ members, v ≠ .dict members := by
  unfold parseMetadata
  split
  · next hloads => simp [hloads]
  · next hloads => split <;> simp [hloads]
  · next v hv hloads => exact iff_of_true rfl ⟨v, hloads, hv⟩

/-- Metadata that is parsed does not nest too deep. -/
theorem shallow_of_parsed {depth : Nat} {bytes : List UInt8} {m : ValidMetadata ext}
    (h : parseMetadata ext depth bytes = .ok m) :
    PyValue.loads ext.readFloat depth bytes ≠ .error .recursionError := by
  intro hloads
  rw [(parseMetadata_eq_loads ext).mpr hloads] at h
  cases h

/-- Metadata that is parsed is an object. -/
theorem object_of_parsed {depth : Nat} {bytes : List UInt8} {m : ValidMetadata ext}
    (h : parseMetadata ext depth bytes = .ok m) (v : PyValue R)
    (hv : PyValue.loads ext.readFloat depth bytes = .ok v) : ∃ members, v = .dict members := by
  by_contra hnot
  have hnone := (parseMetadata_eq_notMapping ext).mpr ⟨v, hv, not_exists.mp hnot⟩
  rw [h] at hnone
  cases hnone

/-- The errors that are not caught are those of a document that nests too deep and of one that is
no object. -/
theorem caught_eq_none_iff {depth : Nat} {bytes : List UInt8} {e : MetadataError}
    (h : parseMetadata ext depth bytes = .error e) :
    e.caught ext bytes = none ↔ e = .loads .recursionError ∨ e = .notMapping := by
  cases e with
  | validation errors => simp [MetadataError.caught]
  | notMapping => simp [MetadataError.caught]
  | loads e =>
    cases e with
    | outOfFuel =>
      have hfuel := PyValue.loads_ne_outOfFuel ext.readFloat depth bytes
      exact absurd ((parseMetadata_eq_loads ext).mp h) hfuel
    | _ => simp [MetadataError.caught, LoadsError.isValueError]

/-- A document that is parsed satisfies `FrameMetadata` exactly if the bounded parse says so. -/
theorem satisfiesMetadata_iff {depth : Nat} {bytes : List UInt8}
    (h : parseMetadata ext depth bytes ≠ .error (.loads .recursionError)) :
    SatisfiesMetadata ext bytes ↔ ∃ m, parseMetadata ext depth bytes = .ok m := by
  constructor
  · rintro ⟨depth', m, hm⟩
    have hne : PyValue.loads ext.readFloat depth bytes ≠ .error .recursionError :=
      fun hloads ↦ h ((parseMetadata_eq_loads ext).mpr hloads)
    have hloads := PyValue.loads_eq_of_ne ext.readFloat hne (shallow_of_parsed ext hm)
    exact ⟨m, by rw [parseMetadata, hloads, ← parseMetadata, hm]⟩
  · rintro ⟨m, hm⟩
    exact ⟨depth, m, hm⟩

end PotholeServer.Ingest
