import PotholeServer.Ingest.FrameMetadata
import PotholeServer.Ingest.FrameStore
import PotholeServer.Ingest.RateLimit

/-!
# The frame endpoint

`app/routes/frames.py: ingest_frame`, from the bytes of the two parts to the answer. A malformed
upload is a client error, except for two kinds of metadata whose errors are not caught, and for
valid uploads whose names and values the storage or the database does not take: those are answered
500, the latter after the image has been stored.
-/

namespace PotholeServer.Ingest

open Sql Db Storage Validation

variable {K R U : Type}

/-! ### Storage and database -/

/-- The upload of an image fails there, on this backend. -/
def stopsImage (settings : StorageSettings) : Failure → Bool
  | .mkdir | .writeBytes _ | .replace => settings.storageBackend ≠ "supabase"
  | .upload _ => settings.storageBackend = "supabase"
  | .insert _ => false

/-- The storage and the database. They work, and refuse what they cannot hold: a name that is too
long or taken by a directory, a character or a number that a column does not have. -/
structure Backends (R : Type) where
  settings : StorageSettings
  canonical : String → String
  /-- Where the storage refuses this image under this path. -/
  refuseImage : Objects → String → Bytes → Option Failure
  /-- The database refuses the row. -/
  refuseRow : AssetFrame (PyFloat R) → Bool
  stops : ∀ objects path jpeg failure, refuseImage objects path jpeg = some failure →
    stopsImage settings failure = true

/-- What the process and the stores hold. -/
structure FrameServer (K R : Type) where
  limits : RateLimits K
  objects : Objects
  db : Database (PyFloat R)

/-! ### Answers -/

/-- What `ingest_frame` raises. -/
inductive Raised where
  | rateLimit (e : RateLimitExceeded)
  | http (e : HTTPException)
  | metadata (e : MetadataError)
  | store (e : StoreError)

/-- The status of an answer; `unhandled_exception_handler` answers what is no `HTTPException`. -/
def statusCode {α : Type} : Except Raised α → Nat
  | .ok _ => 200
  | .error (.rateLimit e) => e.statusCode
  | .error (.http e) => e.statusCode
  | .error (.metadata _) | .error (.store _) => 500

/-- `_JPEG_MAGIC` -/
def jpegMagic : Bytes := [0xFF, 0xD8, 0xFF]

/-! ### Storing -/

section Endpoint

variable [Field R] [LinearOrder R] {ext : PyExternals R} (backends : Backends R)

/-- `store_frame`, while others commit between the storage of the image and the `INSERT`. -/
def FrameServer.storeFrameAmid [Effect U (Database (PyFloat R))] (others : List U)
    (deviceId : String) (m : ValidMetadata ext) (jpeg : Bytes) (now : DateTime)
    (s : FrameServer K R) : Except StoreError (FrameUploadResponse R) × FrameServer K R :=
  match storeJpeg backends.canonical backends.settings deviceId m.clientId.1 jpeg
    (backends.refuseImage s.objects (relativePath deviceId m.clientId.1) jpeg) s.objects with
  | (.error e, objects) => (.error e, { s with objects })
  | (.ok jpegUrl, objects) =>
    match ext.fromisoformat (isoText m.ts.1) with
    | none => (.error .valueError, { s with objects })
    | some ts =>
      let row := newFrame deviceId m.fields ts.instant jpegUrl now
      let db := applyAll others s.db
      if backends.refuseRow row then (.error .postgresError, { s with objects, db })
      else
        (.ok ⟨m.clientId.1, none, none, none⟩,
          { s with objects, db := db.write (.insertFrame row) })

/-- `store_frame`, by itself. -/
def FrameServer.storeFrame (deviceId : String) (m : ValidMetadata ext) (jpeg : Bytes)
    (now : DateTime) (s : FrameServer K R) :
    Except StoreError (FrameUploadResponse R) × FrameServer K R :=
  s.storeFrameAmid backends ([] : List (Write (PyFloat R))) deviceId m jpeg now

/-- The storage takes the image under its path, and the database takes the row. -/
structure Takes (deviceId : String) (m : ValidMetadata ext) (jpeg : Bytes) (now : DateTime)
    (s : FrameServer K R) : Prop where
  image : backends.refuseImage s.objects (relativePath deviceId m.clientId.1) jpeg = none
  row : ∀ ts, ext.fromisoformat (isoText m.ts.1) = some ts →
    backends.refuseRow (newFrame deviceId m.fields ts.instant
      (jpegUrl backends.settings deviceId m.clientId.1) now) = false

/-- An image that is not refused is stored. -/
theorem storeJpeg_taken (canonical : String → String) (settings : StorageSettings)
    (deviceId clientId : String) (jpeg : Bytes) (objects : Objects) :
    (storeJpeg canonical settings deviceId clientId jpeg none objects).1 =
      .ok (jpegUrl settings deviceId clientId) := by
  unfold storeJpeg jpegUrl
  split <;> rfl

/-- An image that is refused is an error. -/
theorem storeJpeg_refused (canonical : String → String) {settings : StorageSettings}
    (deviceId clientId : String) (jpeg : Bytes) {failure : Failure} (objects : Objects)
    (h : stopsImage settings failure = true) :
    ∃ e, (storeJpeg canonical settings deviceId clientId jpeg (some failure) objects).1 =
      .error e := by
  unfold storeJpeg
  split
  · next hbackend =>
    cases failure with
    | upload stored => exact ⟨_, rfl⟩
    | _ => simp [stopsImage, hbackend] at h
  · next hbackend =>
    cases failure with
    | mkdir => exact ⟨_, rfl⟩
    | writeBytes part => exact ⟨_, rfl⟩
    | replace => exact ⟨_, rfl⟩
    | _ => simp [stopsImage, hbackend] at h

/-- `store_frame` succeeds exactly if the storage and the database take the upload. -/
theorem storeFrame_ok_iff (deviceId : String) (m : ValidMetadata ext) (jpeg : Bytes)
    (now : DateTime) (s : FrameServer K R) :
    (∃ response, (s.storeFrame backends deviceId m jpeg now).1 = .ok response) ↔
      Takes backends deviceId m jpeg now s := by
  obtain ⟨ts, hts⟩ := m.exists_instant
  cases himage : backends.refuseImage s.objects (relativePath deviceId m.clientId.1) jpeg with
  | some failure =>
    refine iff_of_false ?_ ?_
    · rintro ⟨response, hresponse⟩
      obtain ⟨e, he⟩ := storeJpeg_refused backends.canonical deviceId m.clientId.1 jpeg s.objects
        (backends.stops _ _ _ _ himage)
      unfold FrameServer.storeFrame FrameServer.storeFrameAmid at hresponse
      rw [himage] at hresponse
      split at hresponse
      · cases hresponse
      · next hok =>
        rw [hok] at he
        cases he
    · intro htakes
      rw [htakes.image] at himage
      cases himage
  | none =>
    have hstored := storeJpeg_taken backends.canonical backends.settings deviceId m.clientId.1 jpeg
      s.objects
    unfold FrameServer.storeFrame FrameServer.storeFrameAmid
    rw [himage]
    split
    · next herror =>
      rw [herror] at hstored
      cases hstored
    · next url objects hok =>
      rw [hok] at hstored
      cases hstored
      rw [hts]
      dsimp only
      split
      · next hrefused =>
        refine iff_of_false ?_ ?_
        · rintro ⟨response, hresponse⟩
          cases hresponse
        · intro htakes
          rw [htakes.row ts hts] at hrefused
          cases hrefused
      · next htaken =>
        refine iff_of_true ⟨_, rfl⟩ ⟨himage, ?_⟩
        intro ts' hts'
        rw [hts] at hts'
        cases hts'
        exact Bool.eq_false_iff.mpr htaken

/-! ### Clean answers -/

variable (maxFrameSizeBytes : Int) (depth : Nat)

/-- The frame part starts with the magic bytes. -/
def IsJpeg (frame : Bytes) : Prop := frame.take 3 = jpegMagic

/-- The frame part passes the checks of the endpoint. -/
structure Acceptable (frame : Bytes) : Prop where
  nonempty : frame ≠ []
  size : frame.length ≤ maxFrameSizeBytes
  jpeg : IsJpeg frame

/-- The status that the frame part calls for; one with two defects may be refused for either. -/
def FrameStatus (frame : Bytes) (status : Nat) : Prop :=
  status = 400 ∧ (frame = [] ∨ ¬IsJpeg frame) ∨ status = 413 ∧ maxFrameSizeBytes < frame.length ∨
    status = 200 ∧ Acceptable maxFrameSizeBytes frame

/-- The answer to an upload is clean: malformed metadata and frames are client errors, nothing is
unhandled, and nothing is written without success. -/
structure Clean (ext : PyExternals R) (metadata frame : Bytes) (s : FrameServer K R)
    (result : Except Raised (FrameUploadResponse R) × FrameServer K R) : Prop where
  malformed : ¬SatisfiesMetadata ext metadata → statusCode result.1 = 400
  satisfied : SatisfiesMetadata ext metadata →
    FrameStatus maxFrameSizeBytes frame (statusCode result.1)
  handled : statusCode result.1 ≠ 500
  unwritten : statusCode result.1 ≠ 200 →
    result.2.objects = s.objects ∧ result.2.db.assetFrame = s.db.assetFrame

variable {backends maxFrameSizeBytes depth}

/-- Metadata that is not parsed is answered cleanly exactly if its error is caught. -/
theorem clean_of_malformed {ext : PyExternals R} {metadata frame : Bytes} {s : FrameServer K R}
    (limits : RateLimits K) {e : MetadataError}
    (hparse : parseMetadata ext depth metadata = .error e) :
    Clean maxFrameSizeBytes ext metadata frame s
        (match e.caught ext metadata with
          | some message => (.error (.http ⟨400, "Invalid metadata JSON: " ++ message⟩),
            { s with limits })
          | none => (.error (.metadata e), { s with limits })) ↔
      e ≠ .loads .recursionError ∧ e ≠ .notMapping := by
  have hcaught := caught_eq_none_iff ext hparse
  cases hmessage : e.caught ext metadata with
  | none =>
    rw [hmessage] at hcaught
    refine iff_of_false (fun hclean ↦ hclean.handled rfl) ?_
    rintro ⟨hdepth, hobject⟩
    rcases hcaught.mp rfl with he | he
    · exact hdepth he
    · exact hobject he
  | some message =>
    rw [hmessage] at hcaught
    have hkinds : e ≠ .loads .recursionError ∧ e ≠ .notMapping := by
      rw [← not_or]
      exact fun he ↦ absurd (hcaught.mpr he) (by simp)
    refine iff_of_true ⟨fun _ ↦ rfl, ?_, by simp [statusCode], fun _ ↦ ⟨rfl, rfl⟩⟩ hkinds
    intro hsatisfied
    have hshallow : parseMetadata ext depth metadata ≠ .error (.loads .recursionError) := by
      rw [hparse]
      exact fun he ↦ hkinds.1 (Except.error.inj he)
    obtain ⟨m, hm⟩ := (satisfiesMetadata_iff ext hshallow).mp hsatisfied
    rw [hparse] at hm
    cases hm

/-- A refused frame is answered cleanly. -/
theorem clean_of_refused {ext : PyExternals R} {metadata frame : Bytes} {s : FrameServer K R}
    (limits : RateLimits K) (hsatisfied : SatisfiesMetadata ext metadata) {e : HTTPException}
    (hstatus : e.statusCode = 400 ∧ (frame = [] ∨ ¬IsJpeg frame) ∨
      e.statusCode = 413 ∧ maxFrameSizeBytes < frame.length) :
    Clean maxFrameSizeBytes ext metadata frame s
      ((.error (.http e), { s with limits }) :
        Except Raised (FrameUploadResponse R) × FrameServer K R) where
  malformed := fun hnot ↦ absurd hsatisfied hnot
  satisfied := by
    intro _
    rcases hstatus with hstatus | hstatus
    · exact .inl hstatus
    · exact .inr (.inl hstatus)
  handled := by
    intro hunhandled
    rw [statusCode] at hunhandled
    omega
  unwritten := fun _ ↦ ⟨rfl, rfl⟩

/-- An upload with valid parts is answered cleanly exactly if it is stored. -/
theorem clean_of_acceptable {ext : PyExternals R} {deviceId : String} {metadata frame : Bytes}
    {now : DateTime} {s : FrameServer K R} (limits : RateLimits K) {m : ValidMetadata ext}
    (hsatisfied : SatisfiesMetadata ext metadata) (hframe : Acceptable maxFrameSizeBytes frame) :
    Clean maxFrameSizeBytes ext metadata frame s
        (match FrameServer.storeFrameAmid backends ([] : List (Write (PyFloat R))) deviceId m frame
            now { s with limits } with
          | (.error e, s) => (.error (.store e), s)
          | (.ok response, s) => (.ok response, s)) ↔
      Takes backends deviceId m frame now s := by
  have hstored := storeFrame_ok_iff backends deviceId m frame now { s with limits }
  unfold FrameServer.storeFrame at hstored
  cases hresult : FrameServer.storeFrameAmid backends ([] : List (Write (PyFloat R))) deviceId m
    frame now { s with limits } with
  | mk result s' =>
    rw [hresult] at hstored
    cases result with
    | error e =>
      refine iff_of_false (fun hclean ↦ hclean.handled rfl) ?_
      intro htakes
      obtain ⟨response, hresponse⟩ := hstored.mpr ⟨htakes.image, htakes.row⟩
      cases hresponse
    | ok response =>
      have htakes := hstored.mp ⟨response, rfl⟩
      refine iff_of_true ⟨fun hnot ↦ absurd hsatisfied hnot, fun _ ↦ .inr (.inr ⟨rfl, hframe⟩),
        by simp [statusCode], fun hstatus ↦ absurd rfl hstatus⟩ ⟨htakes.image, htakes.row⟩

/-! ### The endpoint -/

variable (backends maxFrameSizeBytes depth)
variable [Field K] [LinearOrder K] [FloorRing K] (settings : Settings K)

/-- `ingest_frame`, behind its dependencies, while others commit between the storage of the image
and the `INSERT`; `depth` is how deep the interpreter recurses. -/
def ingestFrameAmid [Effect U (Database (PyFloat R))] (others : List U) (ext : PyExternals R)
    (deviceId : String) (metadata frame : Bytes) (clock : K) (now : DateTime)
    (s : FrameServer K R) : Except Raised (FrameUploadResponse R) × FrameServer K R :=
  let (limits, admitted) := checkRateLimit settings s.limits deviceId "frames" 1 clock
  let s := { s with limits }
  match admitted with
  | .error e => (.error (.rateLimit e), s)
  | .ok () =>
    match parseMetadata ext depth metadata with
    | .error e =>
      match e.caught ext metadata with
      | some message => (.error (.http ⟨400, "Invalid metadata JSON: " ++ message⟩), s)
      | none => (.error (.metadata e), s)
    | .ok m =>
      if frame.length = 0 then (.error (.http ⟨400, "Frame file is empty."⟩), s)
      else if maxFrameSizeBytes < frame.length then
        (.error (.http ⟨413, "Frame size " ++ toString frame.length ++
          " bytes exceeds maximum of " ++ toString maxFrameSizeBytes ++ " bytes."⟩), s)
      else if frame.take 3 ≠ jpegMagic then
        (.error (.http ⟨400, "Frame file is not a valid JPEG (invalid magic bytes)."⟩), s)
      else
        match s.storeFrameAmid backends others deviceId m frame now with
        | (.error e, s) => (.error (.store e), s)
        | (.ok response, s) => (.ok response, s)

/-- `ingest_frame`, by itself. -/
def ingestFrame (ext : PyExternals R) (deviceId : String) (metadata frame : Bytes) (clock : K)
    (now : DateTime) (s : FrameServer K R) :
    Except Raised (FrameUploadResponse R) × FrameServer K R :=
  ingestFrameAmid backends maxFrameSizeBytes depth settings ([] : List (Write (PyFloat R))) ext
    deviceId metadata frame clock now s

/-- The metadata does not nest too deep and is no other JSON value than an object, and a valid
upload is taken by the storage and the database. -/
structure Digestible (ext : PyExternals R) (deviceId : String) (metadata frame : Bytes)
    (now : DateTime) (s : FrameServer K R) : Prop where
  shallow : PyValue.loads ext.readFloat depth metadata ≠ .error .recursionError
  object : ∀ v, PyValue.loads ext.readFloat depth metadata = .ok v → ∃ members, v = .dict members
  taken : ∀ m, parseMetadata ext depth metadata = .ok m → Acceptable maxFrameSizeBytes frame →
    Takes backends deviceId m frame now s

section Digestible

variable {backends maxFrameSizeBytes depth} {ext : PyExternals R} {deviceId : String}
  {metadata frame : Bytes} {now : DateTime} {s : FrameServer K R}

omit [Field K] [LinearOrder K] [FloorRing K]

/-- Metadata that is not parsed is digestible exactly if its error is none of the two. -/
theorem digestible_of_error {e : MetadataError}
    (hparse : parseMetadata ext depth metadata = .error e) :
    Digestible backends maxFrameSizeBytes depth ext deviceId metadata frame now s ↔
      e ≠ .loads .recursionError ∧ e ≠ .notMapping := by
  have herror : ∀ e', e = e' ↔ parseMetadata ext depth metadata = .error e' := by
    intro e'
    rw [hparse, Except.error.injEq]
  have hdepth : e ≠ .loads .recursionError ↔
      PyValue.loads ext.readFloat depth metadata ≠ .error .recursionError := by
    rw [Ne, Ne, herror, parseMetadata_eq_loads]
  have hobject : e ≠ .notMapping ↔ ∀ v, PyValue.loads ext.readFloat depth metadata = .ok v →
      ∃ members, v = .dict members := by
    rw [Ne, herror, parseMetadata_eq_notMapping]
    simp only [not_exists, not_and, not_forall, ne_eq, not_not]
  rw [hdepth, hobject]
  constructor
  · intro hdigestible
    exact ⟨hdigestible.shallow, hdigestible.object⟩
  · rintro ⟨hshallow, hdict⟩
    refine ⟨hshallow, hdict, ?_⟩
    intro m hm
    rw [hparse] at hm
    cases hm

/-- Metadata that is parsed is digestible exactly if its upload is taken. -/
theorem digestible_of_parsed {m : ValidMetadata ext}
    (hparse : parseMetadata ext depth metadata = .ok m) :
    Digestible backends maxFrameSizeBytes depth ext deviceId metadata frame now s ↔
      (Acceptable maxFrameSizeBytes frame → Takes backends deviceId m frame now s) := by
  constructor
  · intro hdigestible
    exact hdigestible.taken m hparse
  · intro htaken
    refine ⟨shallow_of_parsed ext hparse, object_of_parsed ext hparse, ?_⟩
    intro m' hm'
    rw [hparse] at hm'
    cases hm'
    exact htaken

end Digestible

/-- An upload below the rate limit is answered cleanly exactly if it is digestible. -/
theorem clean_iff_digestible (ext : PyExternals R) (deviceId : String) (metadata frame : Bytes)
    (clock : K) (now : DateTime) (s : FrameServer K R)
    (h : (checkRateLimit settings s.limits deviceId "frames" 1 clock).2 = .ok ()) :
    Clean maxFrameSizeBytes ext metadata frame s
        (ingestFrame backends maxFrameSizeBytes depth settings ext deviceId metadata frame clock
          now s) ↔
      Digestible backends maxFrameSizeBytes depth ext deviceId metadata frame now s := by
  obtain ⟨limits, hlimits⟩ :
      ∃ limits, checkRateLimit settings s.limits deviceId "frames" 1 clock = (limits, .ok ()) :=
    ⟨_, Prod.ext rfl h⟩
  unfold ingestFrame ingestFrameAmid
  rw [hlimits]
  dsimp only
  cases hparse : parseMetadata ext depth metadata with
  | error e => rw [clean_of_malformed limits hparse, digestible_of_error hparse]
  | ok m =>
    have hsatisfied : SatisfiesMetadata ext metadata := ⟨depth, m, hparse⟩
    rw [digestible_of_parsed hparse]
    dsimp only
    split
    · next hempty =>
      refine iff_of_true (clean_of_refused limits hsatisfied (.inl ⟨rfl, .inl ?_⟩)) ?_
      · exact List.eq_nil_of_length_eq_zero hempty
      · intro hframe
        exact absurd (List.eq_nil_of_length_eq_zero hempty) hframe.nonempty
    · next hnonempty =>
      split
      · next hsize =>
        refine iff_of_true (clean_of_refused limits hsatisfied (.inr ⟨rfl, hsize⟩)) ?_
        intro hframe
        exact absurd hsize (not_lt.mpr hframe.size)
      · next hsize =>
        split
        · next hjpeg =>
          refine iff_of_true (clean_of_refused limits hsatisfied (.inl ⟨rfl, .inr hjpeg⟩)) ?_
          intro hframe
          exact absurd hframe.jpeg hjpeg
        · next hjpeg =>
          have hframe : Acceptable maxFrameSizeBytes frame := by
            refine ⟨?_, not_lt.mp hsize, not_not.mp hjpeg⟩
            rintro rfl
            exact hnonempty rfl
          rw [clean_of_acceptable limits hsatisfied hframe]
          exact ⟨fun htakes _ ↦ htakes, fun h ↦ h hframe⟩

end Endpoint

/-! ### Two uploads -/

/-- Python on numbers without a fraction, and on one timestamp. -/
def PyExternals.plain : PyExternals ℚ where
  readFloat := fun _ ↦ .nan
  floatOfInt := fun n ↦ some (.finite n)
  floatOfStr := fun _ ↦ none
  repr := fun x ↦ (toString x.num ++ ".0").toList
  fromisoformat := fun v ↦
    if v = PyStr.ofChars "2026-01-01T00:00:00+00:00".toList then some ⟨reportTime, true⟩ else none
  loadsMessage := fun _ _ ↦ "Expecting value: line 1 column 1 (char 0)"
  validationMessage := fun errors ↦ toString errors.length ++ " validation errors for FrameMetadata"

/-- A storage and a database that take everything. -/
def Backends.all : Backends ℚ where
  settings := localStorage
  canonical := id
  refuseImage := fun _ _ _ ↦ none
  refuseRow := fun _ ↦ false
  stops := by
    intro objects path jpeg failure h
    cases h

/-- A new server. -/
def FrameServer.empty : FrameServer ℚ ℚ where
  limits := .empty
  objects := fun _ ↦ none
  db := .empty

/-- The first upload that a new server receives. -/
def ingestFirst (metadata frame : Bytes) :
    Except Raised (FrameUploadResponse ℚ) × FrameServer ℚ ℚ :=
  ingestFrame .all 10485760 1000 (Settings.default ℚ) .plain "device" metadata frame 0 0 .empty

/-- Metadata with every field that has to be there. -/
def minimalMetadata : Bytes :=
  ("\x7b\"client_id\": \"a\", \"ts\": \"2026-01-01T00:00:00Z\", \"lat\": 43, \"lon\": -79, " ++
    "\"device_p_on_device\": 1\x7d").toList.map (fun c ↦ UInt8.ofNat c.toNat)

/-- A valid upload is stored. -/
theorem clean_minimal :
    statusCode (ingestFirst minimalMetadata jpegMagic).1 = 200 ∧
      Clean 10485760 .plain minimalMetadata jpegMagic .empty
        (ingestFirst minimalMetadata jpegMagic) := by
  have hparsed : (parseMetadata .plain 1000 minimalMetadata).isOk = true := by decide +kernel
  obtain ⟨m, hm⟩ := exists_of_isOk hparsed
  refine ⟨by decide +kernel, (clean_iff_digestible .all 10485760 1000 (Settings.default ℚ) .plain
    "device" minimalMetadata jpegMagic 0 0 .empty (by decide +kernel)).mpr ?_⟩
  exact ⟨shallow_of_parsed _ hm, object_of_parsed _ hm, fun _ _ _ ↦ ⟨rfl, fun _ _ ↦ rfl⟩⟩

/-- Metadata that is an array is not caught. -/
theorem array_unhandled :
    (checkRateLimit (Settings.default ℚ) .empty "device" "frames" 1 0).2 = .ok () ∧
      ¬∀ metadata frame : Bytes,
        Clean 10485760 .plain metadata frame .empty (ingestFirst metadata frame) := by
  refine ⟨by decide +kernel, ?_⟩
  intro h
  exact (h [0x5B, 0x5D] jpegMagic).handled (by decide +kernel)

end PotholeServer.Ingest
