import PotholeServer.Ingest.FrameUpload
import PotholeServer.Json.Accepted

/-!
# The record of a frame

What `app/services/frame_service.py: store_frame` leaves in `asset_frame` of the bytes that the
device has sent. The columns are compared with the members of the JSON document itself, and the text
in `device_detections` with what `json.loads` reads in it.
-/

namespace PotholeServer.Ingest

open Sql Db Storage Validation PyStr PyValue

variable {K R U : Type}

/-! ### Columns -/

section Columns

/-- The column holds the text of the member, and `NULL` if there is none. -/
def SameText (name : String) (members : Members R) : Option String → Prop
  | some text => value? name members = some (.str (PyStr.ofChars text.toList))
  | none => Absent name members

theorem sameText_of_required {name : String} {lo hi : Nat} {members : Members R} {t : Text lo hi}
    (h : required name (text lo hi) members = .ok t) : SameText name members (some t.1) := by
  obtain ⟨v, hv, htext⟩ := required_eq_ok h
  rw [SameText, hv, text_eq_ok htext]

theorem sameText_of_optional {name : String} {lo hi : Nat} {members : Members R}
    {t : Option (Text lo hi)} (h : optional name (text lo hi) members = .ok t) :
    SameText name members (t.map Subtype.val) := by
  cases t with
  | none => exact optional_eq_none h
  | some t =>
    obtain ⟨v, hv, htext⟩ := optional_eq_some h
    rw [Option.map_some, SameText, hv, text_eq_ok htext]

variable [Field R] [LinearOrder R] (ext : PyExternals R)

/-- The column holds the number that the member stands for. -/
def SameFloat (name : String) (members : Members R) (x : PyFloat R) : Prop :=
  ∃ v, value? name members = some v ∧ toFloat ext v = some x

/-- The column holds the instant that the member stands for, which has a time zone. -/
def SameInstant (name : String) (members : Members R) (instant : DateTime) : Prop :=
  ∃ text dt, value? name members = some (.str text) ∧
    ext.fromisoformat (isoText text) = some dt ∧ dt.aware = true ∧ dt.instant = instant

/-- The column holds a text in which the value of the member is read, unless a string of it has the
two halves of a surrogate pair apart, and `NULL` if there is no member or nothing in it. -/
def SameJson (depth : Nat) (name : String) (members : Members R) : Option String → Prop
  | some text => ∃ v, value? name members = some v ∧ v ≠ .null ∧ v ≠ .list [] ∧
    PyValue.decode ext.readFloat depth (PyStr.ofChars text.toList) = .ok v.reread ∧
    (v.Joined → v.reread = v)
  | none => Absent name members ∨ value? name members = some (.list [])

variable {ext}

theorem sameFloat_of_required {name : String} {lo hi : R} {members : Members R}
    {x : Bounded lo hi} (h : required name (bounded (toFloat ext) lo hi) members = .ok x) :
    SameFloat ext name members x.1 := by
  obtain ⟨v, hv, hx⟩ := required_eq_ok h
  exact ⟨v, hv, bounded_eq_ok hx⟩

/-- What is sent as detections, and what `json.dumps` makes of it. -/
theorem sameJson_of_optional (hrepr : PyValue.ReprReads ext.repr ext.readFloat) {depth : Nat}
    {bytes : List UInt8} {members : Members R} {m : ValidMetadata ext}
    (hloads : PyValue.loads ext.readFloat depth bytes = .ok (.dict members))
    (h : optional "detections" (list dict) members = .ok m.detections) :
    SameJson ext depth "detections" members m.detectionsJson := by
  unfold ValidMetadata.detectionsJson
  split
  · next hnone =>
    rw [hnone] at h
    exact .inl (optional_eq_none h)
  · next hempty =>
    rw [hempty] at h
    obtain ⟨v, hv, hlist⟩ := optional_eq_some h
    rw [list_eq_ok (fun _ _ _ ↦ dict_eq_ok) hlist] at hv
    exact .inr hv
  · next detections hnonempty hsome =>
    rw [hsome] at h
    obtain ⟨v, hv, hlist⟩ := optional_eq_some h
    have hwritten := list_eq_ok (fun _ _ _ ↦ dict_eq_ok) hlist
    have hread := PyValue.read_of_lookup (PyValue.read_of_loads hrepr hloads) hv
    refine ⟨v, hv, ?_, ?_, ?_, PyValue.reread_eq_self hread.distinct⟩
    · rw [hwritten]
      intro heq
      cases heq
    · rw [hwritten]
      intro heq
      exact hnonempty (List.map_eq_nil_iff.mp (PyValue.list.inj heq))
    · rw [← hwritten, String.toList_ofList]
      exact PyValue.decode_dumps hread.fits

end Columns

/-! ### Rows -/

section Rows

variable [Field R] [LinearOrder R] (ext : PyExternals R)

/-- The row holds what the document says. -/
structure FrameRecord (depth : Nat) (members : Members R) (row : AssetFrame (PyFloat R)) :
    Prop where
  clientId : SameText "client_id" members (some row.clientId)
  eventClientId : SameText "event_client_id" members row.eventClientId
  ts : SameInstant ext "ts" members row.tsUtc
  lat : SameFloat ext "lat" members row.geom.lat
  lon : SameFloat ext "lon" members row.geom.lon
  probability : ∃ p, row.deviceProbability = some p ∧ SameFloat ext "device_p_on_device" members p
  modelId : SameText "model_id" members row.deviceModelId
  detections : SameJson ext depth "detections" members row.deviceDetections

variable {ext}

/-- The row that is made of a valid document holds what the document says. -/
theorem frameRecord_newFrame (hrepr : PyValue.ReprReads ext.repr ext.readFloat) {depth : Nat}
    {bytes : List UInt8} {members : Members R} {m : ValidMetadata ext} {ts : IsoDateTime}
    (hloads : PyValue.loads ext.readFloat depth bytes = .ok (.dict members))
    (h : validateMetadata ext members = .ok m)
    (hts : ext.fromisoformat (isoText m.ts.1) = some ts) (deviceId jpegUrl : String)
    (now : DateTime) :
    FrameRecord ext depth members (newFrame deviceId m.fields ts.instant jpegUrl now) := by
  obtain ⟨_, detections, h₁, hdetections, rfl⟩ := apply_eq_ok h
  obtain ⟨_, modelId, h₂, hmodel, rfl⟩ := apply_eq_ok h₁
  obtain ⟨_, p, h₃, hp, rfl⟩ := apply_eq_ok h₂
  obtain ⟨_, lon, h₄, hlon, rfl⟩ := apply_eq_ok h₃
  obtain ⟨_, lat, h₅, hlat, rfl⟩ := apply_eq_ok h₄
  obtain ⟨_, ts', h₆, hts', rfl⟩ := apply_eq_ok h₅
  obtain ⟨_, event, h₇, hevent, rfl⟩ := apply_eq_ok h₆
  obtain ⟨client, hclient, rfl⟩ := map_eq_ok h₇
  have haware : ts.aware = true := by
    have haccepted := ts'.2
    change acceptsTs ext ts'.1 = true at haccepted
    rw [acceptsTs, hts] at haccepted
    exact haccepted
  obtain ⟨v, hv, htext⟩ := required_eq_ok hts'
  rw [textWith_eq_ok htext] at hv
  exact {
    clientId := sameText_of_required hclient
    eventClientId := sameText_of_optional hevent
    ts := ⟨ts'.1, ts, hv, hts, haware, rfl⟩
    lat := sameFloat_of_required hlat
    lon := sameFloat_of_required hlon
    probability := ⟨p.1, rfl, sameFloat_of_required hp⟩
    modelId := sameText_of_optional hmodel
    detections := sameJson_of_optional hrepr hloads hdetections }

end Rows

/-! ### Answers -/

section Answers

variable [Field R] [LinearOrder R] {ext : PyExternals R} {backends : Backends R}
  [Effect U (Database (PyFloat R))] {others : List U}

/-- What an upload that is answered with success leaves behind: the rows that were there and those
that others have committed meanwhile, and one with the id that was sent, which is one of them or
holds what was sent. -/
structure Recorded (others : List U) (ext : PyExternals R) (depth : Nat) (deviceId : String)
    (metadata : Bytes) (now : DateTime) (response : FrameUploadResponse R)
    (before after : FrameServer K R) : Prop where
  kept : ∀ row ∈ (applyAll others before.db).assetFrame, row ∈ after.db.assetFrame
  row : ∃ members, PyValue.loads ext.readFloat depth metadata = .ok (.dict members) ∧
    SameText "client_id" members (some response.clientId) ∧
    ∃ row ∈ after.db.assetFrame, row.clientId = response.clientId ∧
      (row ∈ (applyAll others before.db).assetFrame ∨ row.deviceId = deviceId ∧
        row.receivedAt = now ∧ row.processedAt = none ∧ FrameRecord ext depth members row)

/-- A document that is parsed is an object that is validated. -/
theorem validated_of_parsed {depth : Nat} {bytes : List UInt8} {m : ValidMetadata ext}
    (h : parseMetadata ext depth bytes = .ok m) :
    ∃ members, PyValue.loads ext.readFloat depth bytes = .ok (.dict members) ∧
      validateMetadata ext members = .ok m := by
  unfold parseMetadata at h
  split at h
  · cases h
  · next members hloads =>
    split at h
    · cases h
    · next hvalid =>
      cases h
      exact ⟨members, hloads, hvalid⟩
  · cases h

/-- What `store_frame` has written when it succeeds. -/
theorem storeFrame_eq_ok {deviceId : String} {m : ValidMetadata ext} {jpeg : Bytes}
    {now : DateTime} {s s' : FrameServer K R} {response : FrameUploadResponse R}
    (h : s.storeFrameAmid backends others deviceId m jpeg now = (.ok response, s')) :
    response.clientId = m.clientId.1 ∧ ∃ url ts, ext.fromisoformat (isoText m.ts.1) = some ts ∧
      s'.db.assetFrame = (applyAll others s.db).assetFrame.insertNew
        (newFrame deviceId m.fields ts.instant url now) := by
  unfold FrameServer.storeFrameAmid at h
  split at h
  · cases h
  · next url objects _ =>
    split at h
    · cases h
    · next ts hts =>
      dsimp only at h
      split at h
      · cases h
      · cases h
        exact ⟨rfl, url, ts, hts, rfl⟩

variable [Field K] [LinearOrder K] [FloorRing K] {settings : Settings K}

/-- The upload that `ingest_frame` answers with success has been stored. -/
theorem ingestFrame_eq_ok {maxFrameSizeBytes : Int} {depth : Nat} {deviceId : String}
    {metadata frame : Bytes} {clock : K} {now : DateTime} {s : FrameServer K R}
    {response : FrameUploadResponse R}
    (h : (ingestFrameAmid backends maxFrameSizeBytes depth settings others ext deviceId metadata
      frame clock now s).1 = .ok response) :
    ∃ limits m, parseMetadata ext depth metadata = .ok m ∧
      FrameServer.storeFrameAmid backends others deviceId m frame now { s with limits } =
        (.ok response, (ingestFrameAmid backends maxFrameSizeBytes depth settings others ext
          deviceId metadata frame clock now s).2) := by
  unfold ingestFrameAmid at h ⊢
  cases hlimit : checkRateLimit settings s.limits deviceId "frames" 1 clock with
  | mk limits admitted =>
    rw [hlimit] at h
    dsimp only at h ⊢
    cases admitted with
    | error e => cases h
    | ok _ =>
      dsimp only at h ⊢
      cases hparse : parseMetadata ext depth metadata with
      | error e =>
        rw [hparse] at h
        dsimp only at h
        split at h <;> cases h
      | ok m =>
        rw [hparse] at h
        dsimp only at h ⊢
        split at h
        · cases h
        · next hempty =>
          rw [if_neg hempty]
          split at h
          · cases h
          · next hsize =>
            rw [if_neg hsize]
            split at h
            · cases h
            · next hjpeg =>
              rw [if_neg hjpeg]
              refine ⟨limits, m, rfl, ?_⟩
              cases hstore : FrameServer.storeFrameAmid backends others deviceId m frame now
                  { s with limits } with
              | mk result s' =>
                rw [hstore] at h
                cases result with
                | error e => cases h
                | ok response' =>
                  cases h
                  rfl

end Answers

/-! ### A detection -/

/-- Python on numbers without a fraction, and on one with one. -/
def PyExternals.half : PyExternals ℚ where
  readFloat := fun text ↦ if text = ['0', '.', '5'] then .finite (1 / 2) else .nan
  floatOfInt := PyExternals.plain.floatOfInt
  floatOfStr := PyExternals.plain.floatOfStr
  repr := fun x ↦ if x = 1 / 2 then ['0', '.', '5'] else PyExternals.plain.repr x
  fromisoformat := PyExternals.plain.fromisoformat
  loadsMessage := PyExternals.plain.loadsMessage
  validationMessage := PyExternals.plain.validationMessage

/-- Metadata with a detection. -/
def detectedMetadata : Bytes :=
  ("\x7b\"client_id\": \"a\", \"ts\": \"2026-01-01T00:00:00Z\", \"lat\": 43, \"lon\": -79, " ++
    "\"device_p_on_device\": 0.5, \"detections\": [\x7b\"p\": 0.5\x7d]\x7d").toList.map
      (fun c ↦ UInt8.ofNat c.toNat)

/-- A frame that another connection inserts. -/
def otherFrame : AssetFrame (PyFloat ℚ) :=
  newFrame "other"
    { clientId := "b"
      lat := .finite 43
      lon := .finite (-79)
      devicePOnDevice := .finite 1 }
    0 "other/b.jpg" 0

/-- The first upload that a new server receives, and one that overtakes it. -/
def ingestDetected : Except Raised (FrameUploadResponse ℚ) × FrameServer ℚ ℚ :=
  ingestFrameAmid .all 10485760 1000 (Settings.default ℚ) [Write.insertFrame otherFrame] .half
    "device" detectedMetadata jpegMagic 0 0 .empty

theorem reprReads_half :
    PyValue.ReprReads PyExternals.half.repr PyExternals.half.readFloat := by
  have hhalf : PyExternals.half.repr (1 / 2) = ['0', '.', '5'] := if_pos rfl
  have hread : PyExternals.half.readFloat ['0', '.', '5'] = .finite (1 / 2) := by
    simp [PyExternals.half]
  intro text
  change Reprints _ _ (if text = ['0', '.', '5'] then .finite (1 / 2) else .nan)
  split
  · rw [Reprints, hhalf]
    have hdigits : AreDigits ['5'] := by
      refine ⟨List.cons_ne_nil _ _, ?_⟩
      intro c hc
      rw [List.mem_singleton.mp hc]
      rfl
    have hfraction : IsFraction ['.', '5'] := .inr ⟨['5'], hdigits, rfl⟩
    exact ⟨⟨[], ['0'], ['.', '5'], [], .inl rfl, .inl rfl, hfraction, .inl rfl, by simp, rfl⟩,
      hread⟩
  · exact trivial

end PotholeServer.Ingest
