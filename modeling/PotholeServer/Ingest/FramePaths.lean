import PotholeServer.Storage.Path

/-!
# Where frames are stored

`app/dependencies.py: require_device_id` and the paths of `app/services/frame_service.py:
_store_jpeg`. The device id and the client id go into the path as they are: separators and dot
segments in either of them lead to other directories, out of the storage root, or to the file of
another frame. Ids without them do not.
-/

namespace PotholeServer.Ingest

open Storage

/-! ### Ids -/

/-- `HTTPException` -/
structure HTTPException where
  statusCode : Nat
  detail : String
  deriving DecidableEq, Repr

/-- `str.isspace()` of one character. -/
def isPySpace (c : Char) : Bool :=
  let n := c.toNat
  (9 ≤ n ∧ n ≤ 13) ∨ (0x1C ≤ n ∧ n ≤ 0x20) ∨ n = 0x85 ∨ n = 0xA0 ∨ n = 0x1680 ∨
    (0x2000 ≤ n ∧ n ≤ 0x200A) ∨ n = 0x2028 ∨ n = 0x2029 ∨ n = 0x202F ∨ n = 0x205F ∨ n = 0x3000

/-- `str.strip()` -/
def pyStrip (s : String) : String :=
  String.ofList ((s.toList.dropWhile isPySpace).rdropWhile isPySpace)

/-- `require_device_id` -/
def requireDeviceId (xDeviceId : Option String) : Except HTTPException String :=
  match xDeviceId with
  | some header =>
    if header = "" ∨ pyStrip header = "" then
      .error ⟨400, "Missing required header: X-Device-Id"⟩
    else
      .ok (pyStrip header)
  | none => .error ⟨400, "Missing required header: X-Device-Id"⟩

/-- A device id that `require_device_id` returns. -/
structure DeviceId where
  val : String
  returned : ∃ header, requireDeviceId header = .ok val

/-- A `client_id` that `FrameMetadata` accepts. -/
structure ClientId where
  val : String
  accepted : 1 ≤ val.length ∧ val.length ≤ 64

theorem DeviceId.ext {d d' : DeviceId} (h : d.val = d'.val) : d = d' := by
  cases d
  cases d'
  cases h
  rfl

theorem ClientId.ext {c c' : ClientId} (h : c.val = c'.val) : c = c' := by
  cases c
  cases c'
  cases h
  rfl

/-! ### Files -/

/-- `relative_path` in `_store_jpeg` -/
def relativePath (deviceId clientId : String) : String := deviceId ++ "/" ++ clientId ++ ".jpg"

/-- `file_path` in `_store_jpeg_local`, as the file system resolves it; `root` is the resolved
`storage_local_path`. -/
def storedFile (root : Location) (deviceId clientId : String) : Location :=
  resolve root (relativePath deviceId clientId).toList

/-- What the path of a frame descends below the root, if it spells every name that it climbs out
of. -/
def framesBelow (root : Location) (deviceId clientId : String) : Option (List Segment) :=
  below root (relativePath deviceId clientId).toList

/-- The file lies inside the root, and it is not the file of another pair. -/
def ConfinedAndDistinct (root : Location) (d₁ : DeviceId) (c₁ : ClientId) (d₂ : DeviceId)
    (c₂ : ClientId) : Prop :=
  StrictlyInside root (storedFile root d₁.val c₁.val) ∧
    (storedFile root d₁.val c₁.val = storedFile root d₂.val c₂.val → d₁ = d₂ ∧ c₁ = c₂)

theorem toList_relativePath (deviceId clientId : String) : (relativePath deviceId clientId).toList =
    deviceId.toList ++ '/' :: (clientId.toList ++ ['.', 'j', 'p', 'g']) := by
  simp [relativePath]

/-- The name of a file is no dot segment. -/
theorem isName_jpg (clientId : String) :
    isHere (clientId.toList ++ ['.', 'j', 'p', 'g']) = false ∧
      isParent (clientId.toList ++ ['.', 'j', 'p', 'g']) = false := by
  have hlength : 3 < (clientId.toList ++ ['.', 'j', 'p', 'g']).length := by simp
  generalize clientId.toList ++ ['.', 'j', 'p', 'g'] = name at hlength
  simp only [isHere, isParent, decide_eq_false_iff_not, not_or]
  refine ⟨⟨?_, ?_⟩, ?_⟩
  · rintro rfl
    simp at hlength
  · rintro rfl
    simp at hlength
  · rintro rfl
    simp at hlength

/-- Ids without separators, and a device id that is no dot segment. -/
structure Plain (deviceId clientId : String) : Prop where
  device : '/' ∉ deviceId.toList
  client : '/' ∉ clientId.toList
  dots : deviceId ≠ "" ∧ deviceId ≠ "." ∧ deviceId ≠ ".."

/-- The file of a plain frame is in the directory of its device. -/
theorem framesBelow_of_plain (root : Location) {deviceId clientId : String}
    (h : Plain deviceId clientId) : framesBelow root deviceId clientId =
      some [deviceId.toList, clientId.toList ++ ['.', 'j', 'p', 'g']] := by
  obtain ⟨hdevice, hclient, hdots⟩ := h
  have hname : '/' ∉ clientId.toList ++ ['.', 'j', 'p', 'g'] := by simp [hclient]
  have hhere : isHere deviceId.toList = false := by
    simp only [isHere, decide_eq_false_iff_not, not_or]
    exact ⟨fun h ↦ hdots.1 (String.toList_inj.mp h), fun h ↦ hdots.2.1 (String.toList_inj.mp h)⟩
  have hparent : isParent deviceId.toList = false := by
    simp only [isParent, decide_eq_false_iff_not]
    exact fun h ↦ hdots.2.2 (String.toList_inj.mp h)
  have hrelative : isAbsolute (relativePath deviceId clientId).toList = false := by
    rw [toList_relativePath, isAbsolute, decide_eq_false_iff_not]
    cases hd : deviceId.toList with
    | nil => exact absurd (String.toList_inj.mp hd) hdots.1
    | cons c cs =>
      rw [hd, List.mem_cons, not_or] at hdevice
      simpa using Ne.symm hdevice.1
  rw [framesBelow, below_eq_some, reentry, hrelative, toList_relativePath, segments_slash,
    segments_of_no_slash hdevice, segments_of_no_slash hname]
  simp [cancel, cancelStep, hhere, hparent, isName_jpg clientId]

/-- Two frames keep apart inside the root exactly if the path of the first one spells the names
that it climbs out of and then descends further, and the path of another pair does not descend to
the same place. -/
theorem confinedAndDistinct_iff (root : Location) (d₁ d₂ : DeviceId) (c₁ c₂ : ClientId) :
    ConfinedAndDistinct root d₁ c₁ d₂ c₂ ↔
      ∃ rest, rest ≠ [] ∧ framesBelow root d₁.val c₁.val = some rest ∧
        (framesBelow root d₂.val c₂.val = some rest → d₁ = d₂ ∧ c₁ = c₂) := by
  unfold ConfinedAndDistinct framesBelow
  constructor
  · rintro ⟨⟨rest, hne, hfile⟩, hdistinct⟩
    refine ⟨rest, hne, resolve_eq_append.mp hfile, ?_⟩
    intro hsame
    exact hdistinct (hfile.trans (resolve_eq_append.mpr hsame).symm)
  · rintro ⟨rest, hne, hbelow, hdistinct⟩
    have hfile := resolve_eq_append.mpr hbelow
    refine ⟨⟨rest, hne, hfile⟩, ?_⟩
    intro hsame
    exact hdistinct (resolve_eq_append.mp (hsame.symm.trans hfile))

/-- Plain frames keep apart. -/
theorem confinedAndDistinct_of_plain (root : Location) {d₁ d₂ : DeviceId} {c₁ c₂ : ClientId}
    (h₁ : Plain d₁.val c₁.val) (h₂ : Plain d₂.val c₂.val) :
    ConfinedAndDistinct root d₁ c₁ d₂ c₂ := by
  refine (confinedAndDistinct_iff root d₁ d₂ c₁ c₂).mpr
    ⟨_, by simp, framesBelow_of_plain root h₁, ?_⟩
  intro hsame
  rw [framesBelow_of_plain root h₂, Option.some_inj, List.cons.injEq, List.cons.injEq] at hsame
  exact ⟨DeviceId.ext (String.toList_inj.mp hsame.1.symm),
    ClientId.ext (String.toList_inj.mp (List.append_cancel_right hsame.2.1.symm))⟩

/-- `./storage/frames` in the working directory of the container. -/
def appFrames : Location := ["app".toList, "storage".toList, "frames".toList]

/-- A device id of dot segments leads out of the root, and a client id with a separator to the
frame of another device. -/
theorem ids_leave_their_directory :
    ¬(∀ (d₁ d₂ : DeviceId) (c₁ c₂ : ClientId), ConfinedAndDistinct appFrames d₁ c₁ d₂ c₂) ∧
      storedFile appFrames ".." "a" = ["app".toList, "storage".toList, "a.jpg".toList] ∧
      storedFile appFrames "a" "../b/c" = storedFile appFrames "b" "c" := by
  refine ⟨?_, by decide, by decide⟩
  intro h
  have hcollision := (h ⟨"a", some "a", by decide⟩ ⟨"b", some "b", by decide⟩
    ⟨"../b/c", by decide⟩ ⟨"c", by decide⟩).2 (by decide)
  exact absurd (congrArg DeviceId.val hcollision.1) (by decide)

end PotholeServer.Ingest
