import PotholeServer.Ingest.FramePaths
import PotholeServer.Ingest.Upload
import PotholeServer.Runs

/-!
# Frames and their images

`app/services/frame_service.py: store_frame`. The image goes to object storage first and replaces
what was stored under its name; the row is inserted after it, unless its client id is taken. An
upload of a taken client id therefore keeps the row of the first upload and replaces its image.
-/

namespace PotholeServer.Ingest

open Sql Db Storage

/-! ### Object storage -/

/-- The bytes of a file. -/
abbrev Bytes := List UInt8

/-- The storage settings of `app/config.py`; `storageLocalPath` is resolved. -/
structure StorageSettings where
  storageBackend : String := "local"
  storageLocalPath : Location
  supabaseStorageBucket : String := "frames"

/-- A file, or an object of the bucket service. -/
inductive ObjectName where
  | file (loc : Location)
  | object (name : String)
  deriving DecidableEq

/-- What is stored. -/
abbrev Objects := ObjectName → Option Bytes

/-- Write a file or upload an object, over what had its name. -/
def Objects.put (objects : Objects) (name : ObjectName) (bytes : Bytes) : Objects :=
  Function.update objects name (some bytes)

/-- `os.replace(src, dst)` -/
def Objects.replace (objects : Objects) (src dst : ObjectName) : Objects := fun name ↦
  if name = dst then objects src else if name = src then none else objects name

/-- Where an upload fails. The write of the temporary file may have stored a part of it, and a
request to the bucket service or to the database may have been carried out before its answer was
lost. -/
inductive Failure where
  | mkdir
  | writeBytes (part : Bytes)
  | replace
  | upload (stored : Bool)
  | insert (stored : Bool)
  deriving DecidableEq

/-- What `store_frame` raises. -/
inductive StoreError where
  | osError
  | storageError
  | valueError
  | postgresError
  deriving DecidableEq, Repr

/-- `_store_jpeg_local` -/
def storeJpegLocal (settings : StorageSettings) (relativePath : String) (jpeg : Bytes)
    (failure : Option Failure) (objects : Objects) : Except StoreError String × Objects :=
  let filePath := resolve settings.storageLocalPath relativePath.toList
  let tempPath := withSuffix filePath ['.', 't', 'm', 'p']
  match failure with
  | some .mkdir => (.error .osError, objects)
  | some (.writeBytes part) => (.error .osError, objects.put (.file tempPath) part)
  | some .replace => (.error .osError, objects.put (.file tempPath) jpeg)
  | _ => (.ok relativePath,
      (objects.put (.file tempPath) jpeg).replace (.file tempPath) (.file filePath))

variable (canonical : String → String) (settings : StorageSettings)

/-- `_store_jpeg_supabase`; the service reads a storage path as the name `canonical` gives. -/
def storeJpegSupabase (relativePath : String) (jpeg : Bytes) (failure : Option Failure)
    (objects : Objects) : Except StoreError String × Objects :=
  let storagePath := settings.supabaseStorageBucket ++ "/" ++ relativePath
  match failure with
  | some (.upload stored) =>
    (.error .storageError,
      if stored then objects.put (.object (canonical storagePath)) jpeg else objects)
  | _ => (.ok storagePath, objects.put (.object (canonical storagePath)) jpeg)

/-- `_store_jpeg` -/
def storeJpeg (deviceId clientId : String) (jpeg : Bytes) (failure : Option Failure)
    (objects : Objects) : Except StoreError String × Objects :=
  if settings.storageBackend = "supabase" then
    storeJpegSupabase canonical settings (relativePath deviceId clientId) jpeg failure objects
  else
    storeJpegLocal settings (relativePath deviceId clientId) jpeg failure objects

/-! ### Requests -/

variable {R : Type} (ext : Externals R)

/-- A frame upload, whose client id has no path separator. -/
structure FrameRequest (R : Type) where
  deviceId : String
  metadata : FrameMetadata R
  ts : String
  jpeg : Bytes
  separatorFree : '/' ∉ metadata.clientId.toList

/-- `FrameUploadResponse` -/
structure FrameUploadResponse (R : Type) where
  clientId : String
  serverP : Option R
  label : Option String
  modelId : Option String

/-- The two stores. `source` remembers which request inserted the row of a client id; no code reads
it. -/
structure FrameStore (R : Type) where
  db : Database R
  objects : Objects
  source : String → Option (FrameRequest R)

/-- `_INSERT_FRAME_SQL` -/
def FrameStore.insert (q : FrameRequest R) (row : AssetFrame R) (s : FrameStore R) :
    FrameStore R where
  db := s.db.write (.insertFrame row)
  objects := s.objects
  source :=
    if s.db.assetFrame.HasKey row.clientId then s.source
    else Function.update s.source row.clientId (some q)

/-- `store_frame` -/
def storeFrame (q : FrameRequest R) (now : DateTime) (failure : Option Failure)
    (s : FrameStore R) : Except StoreError (FrameUploadResponse R) × FrameStore R :=
  match storeJpeg canonical settings q.deviceId q.metadata.clientId q.jpeg failure s.objects with
  | (.error e, objects) => (.error e, { s with objects })
  | (.ok jpegUrl, objects) =>
    match parseTs ext q.ts with
    | none => (.error .valueError, { s with objects })
    | some ts =>
      let row := newFrame q.deviceId q.metadata ts.instant jpegUrl now
      match failure with
      | some (.insert stored) =>
        (.error .postgresError,
          if stored then { s with objects }.insert q row else { s with objects })
      | _ => (.ok ⟨q.metadata.clientId, none, none, none⟩, { s with objects }.insert q row)

/-! ### Images -/

/-- The `jpeg_url` that `_store_jpeg` returns. -/
def jpegUrl (deviceId clientId : String) : String :=
  if settings.storageBackend = "supabase" then
    settings.supabaseStorageBucket ++ "/" ++ relativePath deviceId clientId
  else relativePath deviceId clientId

/-- The object that a `jpeg_url` names. -/
def objectAt (url : String) : ObjectName :=
  if settings.storageBackend = "supabase" then .object (canonical url)
  else .file (resolve settings.storageLocalPath url.toList)

/-- The object of an upload. -/
def FrameRequest.target (q : FrameRequest R) : ObjectName :=
  objectAt canonical settings (jpegUrl settings q.deviceId q.metadata.clientId)

/-- `_store_jpeg_local` gets as far as `os.replace`. -/
def replacesFile : Option Failure → Bool
  | some .mkdir | some (.writeBytes _) | some .replace => false
  | _ => true

/-- The bucket service stores the image. -/
def replacesObject : Option Failure → Bool
  | some (.upload stored) => stored
  | _ => true

/-- An upload with this failure has replaced what was stored under its name. -/
def replacesImage (failure : Option Failure) : Bool :=
  if settings.storageBackend = "supabase" then replacesObject failure else replacesFile failure

/-- The request inserts this row. -/
def Inserts (q : FrameRequest R) (f : AssetFrame R) : Prop :=
  ∃ ts, parseTs ext q.ts = some ts ∧ f = newFrame q.deviceId q.metadata ts.instant
    (jpegUrl settings q.deviceId q.metadata.clientId) f.receivedAt

/-- Every row comes from a request whose image is stored where the row says. -/
def ImagesMatch (s : FrameStore R) : Prop :=
  ∀ f ∈ s.db.assetFrame, ∃ q, s.source f.clientId = some q ∧ Inserts settings ext q f ∧
    s.objects (objectAt canonical settings f.jpegUrl) = some q.jpeg

/-- If the upload replaces the image of a row, it is by the bytes that are stored there. -/
def KeepsImages (q : FrameRequest R) (failure : Option Failure) (s : FrameStore R) : Prop :=
  replacesImage settings failure = true → ∀ f ∈ s.db.assetFrame,
    objectAt canonical settings f.jpegUrl = q.target canonical settings →
      s.objects (objectAt canonical settings f.jpegUrl) = some q.jpeg

/-- The file of a frame is a name in some directory, with the suffix `.jpg`. -/
theorem exists_parent (root : Location) (deviceId : String) {clientId : String}
    (h : '/' ∉ clientId.toList) :
    ∃ parent, storedFile root deviceId clientId =
      parent ++ [clientId.toList ++ ['.', 'j', 'p', 'g']] := by
  have hname : '/' ∉ clientId.toList ++ ['.', 'j', 'p', 'g'] := by simp [h]
  rw [storedFile, toList_relativePath]
  exact resolve_concat hname (isName_jpg clientId).1 (isName_jpg clientId).2

/-- Frames with one file have one client id. -/
theorem clientId_of_storedFile {root : Location} {d d' c c' : String} (hc : '/' ∉ c.toList)
    (hc' : '/' ∉ c'.toList) (h : storedFile root d c = storedFile root d' c') : c = c' := by
  obtain ⟨parent, hfile⟩ := exists_parent root d hc
  obtain ⟨parent', hfile'⟩ := exists_parent root d' hc'
  rw [hfile, hfile'] at h
  have hnames := List.append_inj_right' h rfl
  exact String.toList_inj.mp (List.append_cancel_right (List.singleton_inj.mp hnames))

/-- A temporary file is no frame's file. -/
theorem tempFile_ne (root : Location) (d d' : String) {c c' : String} (hc : '/' ∉ c.toList)
    (hc' : '/' ∉ c'.toList) :
    storedFile root d' c' ≠ withSuffix (storedFile root d c) ['.', 't', 'm', 'p'] := by
  obtain ⟨parent, hfile⟩ := exists_parent root d hc
  obtain ⟨parent', hfile'⟩ := exists_parent root d' hc'
  rw [hfile, hfile', withSuffix_concat]
  intro h
  have hnames := List.singleton_inj.mp (List.append_inj_right' h rfl)
  exact absurd (List.append_inj_right' hnames rfl) (by decide)

/-- `_store_jpeg_local` replaces the file of its frame, unless it fails before, and no other. -/
theorem storeJpegLocal_file (d d' : String) {c c' : String} (hc : '/' ∉ c.toList)
    (hc' : '/' ∉ c'.toList) (jpeg : Bytes) (failure : Option Failure) (objects : Objects) :
    (storeJpegLocal settings (relativePath d c) jpeg failure objects).2
        (.file (storedFile settings.storageLocalPath d' c')) =
      if replacesFile failure = true ∧
        ObjectName.file (storedFile settings.storageLocalPath d' c') =
          .file (storedFile settings.storageLocalPath d c)
      then some jpeg else objects (.file (storedFile settings.storageLocalPath d' c')) := by
  have hother := tempFile_ne settings.storageLocalPath d d' hc hc'
  have hresolve : resolve settings.storageLocalPath (relativePath d c).toList =
    storedFile settings.storageLocalPath d c := rfl
  unfold storeJpegLocal
  rw [hresolve]
  rcases failure with _ | _ | part | _ | stored | stored <;>
    simp [replacesFile, Objects.replace, Objects.put, hother]

/-- The image of a frame after `_store_jpeg`: the bytes of this upload, if it got so far and the
frame has its object, and otherwise what was stored. -/
theorem storeJpeg_objects (q q' : FrameRequest R) (failure : Option Failure) (objects : Objects) :
    (storeJpeg canonical settings q.deviceId q.metadata.clientId q.jpeg failure objects).2
        (q'.target canonical settings) =
      if replacesImage settings failure = true ∧
        q'.target canonical settings = q.target canonical settings then some q.jpeg
      else objects (q'.target canonical settings) := by
  unfold storeJpeg replacesImage FrameRequest.target objectAt jpegUrl
  by_cases hbackend : settings.storageBackend = "supabase"
  · simp only [if_pos hbackend]
    unfold storeJpegSupabase
    rcases failure with _ | _ | part | _ | stored | stored
    case some.upload =>
      cases stored <;> simp [replacesObject, Objects.put, Function.update_apply]
    all_goals simp [replacesObject, Objects.put, Function.update_apply]
  · simp only [if_neg hbackend]
    exact storeJpegLocal_file settings q.deviceId q'.deviceId q.separatorFree q'.separatorFree
      q.jpeg failure objects

/-- `_store_jpeg` returns the URL of the image that it has replaced. -/
theorem storeJpeg_ok {q : FrameRequest R} {failure : Option Failure} {objects : Objects}
    {url : String}
    (h : (storeJpeg canonical settings q.deviceId q.metadata.clientId q.jpeg failure objects).1 =
      .ok url) :
    url = jpegUrl settings q.deviceId q.metadata.clientId ∧
      replacesImage settings failure = true := by
  unfold storeJpeg at h
  unfold jpegUrl replacesImage
  split at h
  · next hbackend =>
    rw [if_pos hbackend, if_pos hbackend]
    rcases failure with _ | _ | part | _ | stored | stored <;> cases h <;> exact ⟨rfl, rfl⟩
  · next hbackend =>
    rw [if_neg hbackend, if_neg hbackend]
    rcases failure with _ | _ | part | _ | stored | stored <;> cases h <;> exact ⟨rfl, rfl⟩

/-! ### Uploads -/

/-- What an upload can change. -/
structure Stored (q : FrameRequest R) (failure : Option Failure) (s s' : FrameStore R) : Prop where
  kept : ∀ f ∈ s.db.assetFrame, f ∈ s'.db.assetFrame ∧ s'.source f.clientId = s.source f.clientId
  new : ∀ f ∈ s'.db.assetFrame, f ∈ s.db.assetFrame ∨
    s'.source f.clientId = some q ∧ Inserts settings ext q f ∧ replacesImage settings failure = true
  objects : ∀ q' : FrameRequest R, s'.objects (q'.target canonical settings) =
    if replacesImage settings failure = true ∧ q'.target canonical settings =
      q.target canonical settings then some q.jpeg else s.objects (q'.target canonical settings)

/-- The row of an insert is new, or its client id was taken and nothing changes. -/
theorem Stored.insert {q : FrameRequest R} {failure : Option Failure} {s s' : FrameStore R}
    (h : Stored canonical settings ext q failure s s') {row : AssetFrame R}
    (hrow : Inserts settings ext q row) (hreplaces : replacesImage settings failure = true)
    (hdb : s'.db = s.db) (hsource : s'.source = s.source) :
    Stored canonical settings ext q failure s (s'.insert q row) where
  kept := by
    intro f hf
    rw [← hdb] at hf
    refine ⟨Table.mem_insertNew_of_mem row hf, ?_⟩
    unfold FrameStore.insert
    dsimp only
    split
    · exact (h.kept f (hdb ▸ hf)).2
    · next hnew =>
      have hne : f.clientId ≠ row.clientId := by
        intro hkey
        exact hnew (hkey ▸ Table.hasKey_of_mem hf)
      rw [Function.update_of_ne hne, hsource]
  new := by
    intro f hf
    rcases Table.mem_insertNew.mp hf with hf | ⟨rfl, hnew⟩
    · exact .inl (hdb ▸ hf)
    · refine .inr ⟨?_, hrow, hreplaces⟩
      have hfree : ¬s'.db.assetFrame.HasKey f.clientId := hnew
      simp [FrameStore.insert, hfree]
  objects := h.objects

/-- An upload stores its image and then its row. -/
theorem stored_storeFrame (q : FrameRequest R) (now : DateTime) (failure : Option Failure)
    (s : FrameStore R) :
    Stored canonical settings ext q failure s
      (storeFrame canonical settings ext q now failure s).2 := by
  have hobjects := fun q' ↦ storeJpeg_objects canonical settings q q' failure s.objects
  unfold storeFrame
  cases hstored : storeJpeg canonical settings q.deviceId q.metadata.clientId q.jpeg failure
    s.objects with
  | mk url objects =>
    simp only [hstored] at hobjects
    have himage : Stored canonical settings ext q failure s { s with objects } :=
      ⟨fun f hf ↦ ⟨hf, rfl⟩, fun f hf ↦ .inl hf, hobjects⟩
    cases url with
    | error e => exact himage
    | ok url =>
      obtain ⟨rfl, hreplaces⟩ := storeJpeg_ok canonical settings (congrArg Prod.fst hstored)
      dsimp only
      cases hts : parseTs ext q.ts with
      | none => exact himage
      | some ts =>
        have hrow : Inserts settings ext q (newFrame q.deviceId q.metadata ts.instant
          (jpegUrl settings q.deviceId q.metadata.clientId) now) := ⟨ts, hts, rfl⟩
        have hinsert := himage.insert canonical settings ext hrow hreplaces rfl rfl
        rcases failure with _ | _ | part | _ | stored | stored
        case some.insert =>
          cases stored
          · exact himage
          · exact hinsert
        all_goals exact hinsert

/-- The object of a row is the target of the request that inserts it. -/
theorem objectAt_of_inserts {q : FrameRequest R} {f : AssetFrame R}
    (h : Inserts settings ext q f) :
    objectAt canonical settings f.jpegUrl = q.target canonical settings := by
  obtain ⟨ts, -, hrow⟩ := h
  rw [hrow]
  rfl

variable {canonical settings ext}

/-- When every row has its image, an upload keeps this so exactly if it does not replace the image
of a row by other bytes. -/
theorem imagesMatch_storeFrame_iff {s : FrameStore R} (hs : ImagesMatch canonical settings ext s)
    (q : FrameRequest R) (now : DateTime) (failure : Option Failure) :
    ImagesMatch canonical settings ext (storeFrame canonical settings ext q now failure s).2 ↔
      KeepsImages canonical settings q failure s := by
  have hstored := stored_storeFrame canonical settings ext q now failure s
  generalize (storeFrame canonical settings ext q now failure s).2 = s' at hstored
  constructor
  · intro hs' hreplaces f hf htarget
    obtain ⟨q₀, hsource, hrow, himage⟩ := hs f hf
    obtain ⟨hf', hsource'⟩ := hstored.kept f hf
    obtain ⟨q₁, hq₁, -, himage'⟩ := hs' f hf'
    -- the row still comes from the request that inserted it
    rw [hsource', hsource, Option.some_inj] at hq₁
    subst hq₁
    rw [objectAt_of_inserts canonical settings ext hrow] at htarget himage himage' ⊢
    rw [himage, ← himage', hstored.objects, if_pos ⟨hreplaces, htarget⟩]
  · intro hkeeps f hf
    rcases hstored.new f hf with hold | ⟨hsource, hrow, hreplaces⟩
    · obtain ⟨q₀, hsource, hrow, himage⟩ := hs f hold
      refine ⟨q₀, (hstored.kept f hold).2.trans hsource, hrow, ?_⟩
      have hobject := objectAt_of_inserts canonical settings ext hrow
      rw [hobject, hstored.objects]
      split
      · next h =>
        have hsame := hkeeps h.1 f hold (hobject.trans h.2)
        exact hsame.symm.trans himage
      · rw [← hobject]
        exact himage
    · refine ⟨q, hsource, hrow, ?_⟩
      rw [objectAt_of_inserts canonical settings ext hrow, hstored.objects, if_pos ⟨hreplaces, rfl⟩]

/-- On the local file system only an upload of a taken client id can replace the image of a row. -/
theorem keepsImages_of_new {s : FrameStore R} (hs : ImagesMatch canonical settings ext s)
    (hlocal : settings.storageBackend ≠ "supabase") {q : FrameRequest R}
    (hnew : ¬s.db.assetFrame.HasKey q.metadata.clientId) (failure : Option Failure) :
    KeepsImages canonical settings q failure s := by
  intro _ f hf htarget
  obtain ⟨q₀, -, hrow, -⟩ := hs f hf
  rw [objectAt_of_inserts canonical settings ext hrow] at htarget
  simp only [FrameRequest.target, objectAt, jpegUrl, if_neg hlocal] at htarget
  have hsame : q₀.metadata.clientId = q.metadata.clientId :=
    clientId_of_storedFile q₀.separatorFree q.separatorFree (ObjectName.file.inj htarget)
  obtain ⟨ts, -, hf₀⟩ := hrow
  have hkey := Table.hasKey_of_mem hf
  rw [hf₀] at hkey
  exact absurd (hsame ▸ hkey) hnew

/-- One call of `store_frame`. -/
structure FrameCall (R : Type) where
  request : FrameRequest R
  now : DateTime
  failure : Option Failure

variable (canonical settings ext) in
/-- The stores after a call. -/
def FrameStore.call (s : FrameStore R) (e : FrameCall R) : Option (FrameStore R) :=
  some (storeFrame canonical settings ext e.request e.now e.failure s).2

/-- In every run in which no call replaces the image of a row by other bytes, each row names an
existing object with the bytes that came with it. -/
theorem images_match {start s : FrameStore R} (hstart : start.db.assetFrame.rows = [])
    (h : Reaches (FrameStore.call canonical settings ext)
      (fun s e ↦ KeepsImages canonical settings e.request e.failure s) start s) :
    ImagesMatch canonical settings ext s := by
  refine h.invariant (ImagesMatch canonical settings ext) ?_ ?_
  · intro f hf
    rw [Table.mem_def, hstart] at hf
    exact absurd hf List.not_mem_nil
  · intro s e s' hs hkeeps hcall
    cases hcall
    exact (imagesMatch_storeFrame_iff hs e.request e.now e.failure).mpr hkeeps

/-- A frame of one device with an image. -/
def imageOf (jpeg : Bytes) : FrameRequest ℚ where
  deviceId := "device"
  metadata :=
    { clientId := "frame"
      lat := 0
      lon := 0
      devicePOnDevice := 4 / 5 }
  ts := "2026-01-01T00:00:00+00:00"
  jpeg := jpeg
  separatorFree := by decide

/-- The default backend in the container. -/
def localStorage : StorageSettings where
  storageLocalPath := appFrames

/-- Nothing is stored. -/
def FrameStore.empty : FrameStore ℚ where
  db := .empty
  objects := fun _ ↦ none
  source := fun _ ↦ none

/-- The stores after calls, one after the other. -/
def afterCalls (calls : List (FrameCall ℚ)) : Option (FrameStore ℚ) :=
  runEvents (FrameStore.call id localStorage .planar) .empty calls

/-- An upload whose `INSERT` fails, its repetition with another image, and that one once more: the
row names the second image. -/
theorem images_match_repeated :
    ∃ s, afterCalls [⟨imageOf [0xFF, 0xD8, 0xFF, 1], 0, some (.insert false)⟩,
        ⟨imageOf [0xFF, 0xD8, 0xFF, 2], 1, none⟩, ⟨imageOf [0xFF, 0xD8, 0xFF, 2], 2, none⟩] =
          some s ∧
      s.db.assetFrame.rows.length = 1 ∧ ImagesMatch id localStorage .planar s := by
  refine ⟨_, rfl, by decide, ?_⟩
  have hstart : FrameStore.empty.db.assetFrame.rows = [] := rfl
  refine images_match hstart ?_
  refine .next ⟨imageOf [0xFF, 0xD8, 0xFF, 2], 2, none⟩
    (.next ⟨imageOf [0xFF, 0xD8, 0xFF, 2], 1, none⟩
      (.next ⟨imageOf [0xFF, 0xD8, 0xFF, 1], 0, some (.insert false)⟩ .start ?_ rfl) ?_ rfl) ?_ rfl
  · intro _ f hf
    exact absurd hf List.not_mem_nil
  · intro _ f hf
    exact absurd hf List.not_mem_nil
  · -- the row is there, and its image has the bytes of the last upload
    intro _ f hf
    rw [List.mem_singleton.mp hf]
    intro _
    rfl

/-- A second upload of a stored frame replaces its image and leaves its row. -/
theorem duplicate_replaces_image :
    ¬∀ (calls : List (FrameCall ℚ)) (s : FrameStore ℚ), afterCalls calls = some s →
      ImagesMatch id localStorage .planar s := by
  intro h
  have hmatch := h [⟨imageOf [0xFF, 0xD8, 0xFF, 1], 0, none⟩,
    ⟨imageOf [0xFF, 0xD8, 0xFF, 2], 1, none⟩] _ rfl
  obtain ⟨q, hsource, -, himage⟩ := hmatch (newFrame "device" (imageOf []).metadata
    1767225600000000 "device/frame.jpg" 0) (List.mem_singleton.mpr rfl)
  have hq : q.jpeg = [0xFF, 0xD8, 0xFF, 1] :=
    congrArg FrameRequest.jpeg (Option.some.inj hsource).symm
  rw [hq] at himage
  exact absurd himage (by decide)

end PotholeServer.Ingest
