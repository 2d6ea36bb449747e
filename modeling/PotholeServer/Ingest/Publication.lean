import PotholeServer.Ingest.FrameStore
import PotholeServer.Storage.Files

/-!
# Publishing an image

The system calls of `app/services/frame_service.py: _store_jpeg_local`, in worker processes that
share one file system. A call writes the temporary file of its frame and then renames it. The name
of that file comes from the ids alone, so that calls for one frame write to one file: a call that
opens it empties what another call is about to publish, and goes on writing to what another call
has published.
-/

namespace PotholeServer.Ingest

open Storage

/-! ### System calls -/

/-- How far a call of `_store_jpeg_local` has come. -/
inductive CallState where
  | called
  | writing (file written : Nat)
  | returned
  | raised
  deriving DecidableEq, Repr

/-- The file system, and one call in each worker. -/
structure Publication (W : Type) where
  files : Files Location UInt8
  calls : W → CallState

/-- What a worker asks of the file system: `write_bytes` opens the temporary file and writes to it
in chunks, and `os.replace` follows. -/
inductive SystemCall (W : Type) where
  | openTemp (w : W)
  | writeChunk (w : W) (size : Nat)
  | replace (w : W)
  deriving DecidableEq, Repr

/-- `temp_path` in `_store_jpeg_local` -/
def tempFile (root : Location) (deviceId clientId : String) : Location :=
  withSuffix (storedFile root deviceId clientId) ['.', 't', 'm', 'p']

variable {W : Type} [DecidableEq W]

section Paths

variable (tempPath filePath : Location) (jpeg : W → Bytes)

/-- The bytes of an upload that a chunk holds. -/
def chunk (w : W) (written size : Nat) : Bytes := ((jpeg w).drop written).take size

/-- The next system call of a worker. `os.replace` raises an error when another call has renamed the
temporary file. -/
def publishStep (s : Publication W) : SystemCall W → Option (Publication W)
  | .openTemp w =>
    match s.calls w with
    | .called => some
      { files := s.files.openTruncate tempPath
        calls := Function.update s.calls w (.writing (s.files.fileOf tempPath) 0) }
    | _ => none
  | .writeChunk w size =>
    match s.calls w with
    | .writing file written =>
      if 0 < size ∧ written + size ≤ (jpeg w).length then some
        { files := s.files.write 0 file written (chunk jpeg w written size)
          calls := Function.update s.calls w (.writing file (written + size)) }
      else none
    | _ => none
  | .replace w =>
    match s.calls w with
    | .writing _ written =>
      if written = (jpeg w).length then
        match s.files.replace tempPath filePath with
        | some files => some { files, calls := Function.update s.calls w .returned }
        | none => some { s with calls := Function.update s.calls w .raised }
      else none
    | _ => none

/-- What a system call does, in cases. -/
inductive Published (s : Publication W) : SystemCall W → Publication W → Prop where
  | openTemp (w : W) (hw : s.calls w = .called) : Published s (.openTemp w)
      { files := s.files.openTruncate tempPath
        calls := Function.update s.calls w (.writing (s.files.fileOf tempPath) 0) }
  | writeChunk (w : W) (size file written : Nat) (hw : s.calls w = .writing file written)
      (hsize : written + size ≤ (jpeg w).length) : Published s (.writeChunk w size)
      { files := s.files.write 0 file written (chunk jpeg w written size)
        calls := Function.update s.calls w (.writing file (written + size)) }
  | replace (w : W) (file i : Nat) (hw : s.calls w = .writing file (jpeg w).length)
      (htemp : s.files.names tempPath = some i) : Published s (.replace w)
      { files := s.files.move tempPath filePath i htemp
        calls := Function.update s.calls w .returned }
  | raised (w : W) (file : Nat) (hw : s.calls w = .writing file (jpeg w).length)
      (htemp : s.files.names tempPath = none) : Published s (.replace w)
      { s with calls := Function.update s.calls w .raised }

theorem published_of_step {s s' : Publication W} {e : SystemCall W}
    (h : publishStep tempPath filePath jpeg s e = some s') :
    Published tempPath filePath jpeg s e s' := by
  cases e with
  | openTemp w =>
    unfold publishStep at h
    dsimp only at h
    split at h
    · next hw =>
      cases h
      exact .openTemp w hw
    · cases h
  | writeChunk w size =>
    unfold publishStep at h
    dsimp only at h
    split at h
    · next file written hw =>
      split at h
      · next hsize =>
        cases h
        exact .writeChunk w size file written hw hsize.2
      · cases h
    · cases h
  | replace w =>
    unfold publishStep at h
    dsimp only at h
    split at h
    · next file written hw =>
      split at h
      · next hall =>
        subst hall
        split at h
        · next files hfiles =>
          cases h
          obtain ⟨i, htemp, rfl⟩ := Files.replace_eq_some.mp hfiles
          exact .replace w file i hw htemp
        · next hnone =>
          cases h
          refine .raised w file hw ?_
          cases htemp : s.files.names tempPath with
          | none => rfl
          | some i =>
            have hmove : s.files.replace tempPath filePath =
                some (s.files.move tempPath filePath i htemp) :=
              Files.replace_eq_some.mpr ⟨i, htemp, rfl⟩
            exact absurd (hnone.symm.trans hmove) (by simp)
      · cases h
    · cases h

/-! ### Whole images -/

/-- The complete bytes of an upload, or of the image that was there before. -/
def Whole (before : Option Bytes) (bytes : Bytes) : Prop :=
  (∃ w, bytes = jpeg w) ∨ before = some bytes

/-- The file of the frame is absent or whole. -/
def Atomic (before : Option Bytes) (s : Publication W) : Prop :=
  ∀ bytes, s.files.read filePath = some bytes → Whole jpeg before bytes

/-- What is renamed is whole, and a chunk that is written to a file after it was renamed leaves it
whole. -/
def KeepsWhole (before : Option Bytes) (s : Publication W) : SystemCall W → Prop
  | .openTemp _ => True
  | .writeChunk w size => ∀ file written, s.calls w = .writing file written →
      s.files.names filePath = some file →
        Whole jpeg before
          (overwrite 0 (s.files.contents file) written (chunk jpeg w written size))
  | .replace _ => ∀ bytes, s.files.read tempPath = some bytes → Whole jpeg before bytes

/-- A system call keeps the file of the frame whole exactly under `KeepsWhole`. -/
theorem atomic_iff_keepsWhole {before : Option Bytes} {s s' : Publication W} {e : SystemCall W}
    (hne : filePath ≠ tempPath) (hs : Atomic filePath jpeg before s)
    (h : publishStep tempPath filePath jpeg s e = some s') :
    Atomic filePath jpeg before s' ↔ KeepsWhole tempPath filePath jpeg before s e := by
  cases published_of_step tempPath filePath jpeg h with
  | openTemp w hw =>
    refine iff_of_true ?_ trivial
    intro bytes hbytes
    rw [Files.read_openTruncate, if_neg hne] at hbytes
    exact hs bytes hbytes
  | writeChunk w size file written hw hsize =>
    constructor
    · intro hatomic file' written' hw' hpublished
      rw [hw, CallState.writing.injEq] at hw'
      obtain ⟨rfl, rfl⟩ := hw'
      apply hatomic
      rw [Files.write, Files.read_setContents, if_pos hpublished]
    · intro hkeeps bytes hbytes
      rw [Files.write, Files.read_setContents] at hbytes
      split at hbytes
      · next hpublished => exact Option.some_inj.mp hbytes ▸ hkeeps file written hw hpublished
      · exact hs bytes hbytes
  | replace w file i hw htemp =>
    unfold Atomic KeepsWhole
    simp only [Files.read_move, if_true]
  | raised w file hw htemp =>
    refine iff_of_true hs ?_
    intro bytes hbytes
    rw [Files.read, htemp] at hbytes
    cases hbytes

/-! ### Calls that are not interrupted -/

/-- A writer that is not interrupted writes the whole upload. -/
theorem write_uninterrupted {w : W} {file written : Nat} {s : Publication W} (sizes : List Nat)
    (hw : s.calls w = .writing file written)
    (hcontents : s.files.contents file = (jpeg w).take written)
    (hpos : ∀ n ∈ sizes, 0 < n) (hsum : written + sizes.sum = (jpeg w).length) :
    ∃ s', runEvents (publishStep tempPath filePath jpeg) s (sizes.map (.writeChunk w)) = some s' ∧
      s'.calls w = .writing file (jpeg w).length ∧
      s'.files = s.files.setContents file (jpeg w) := by
  induction sizes generalizing s written with
  | nil =>
    rw [List.sum_nil, Nat.add_zero] at hsum
    rw [hsum, List.take_length] at hcontents
    exact ⟨s, rfl, hsum ▸ hw, (Files.setContents_eq_self hcontents).symm⟩
  | cons n rest ih =>
    rw [List.sum_cons] at hsum
    have hstep : publishStep tempPath filePath jpeg s (.writeChunk w n) = some
        { files := s.files.write 0 file written (chunk jpeg w written n)
          calls := Function.update s.calls w (.writing file (written + n)) } := by
      have hsize : 0 < n ∧ written + n ≤ (jpeg w).length :=
        ⟨hpos n (List.mem_cons_self ..), by omega⟩
      simp only [publishStep, hw, if_pos hsize]
    have hnext : overwrite 0 (s.files.contents file) written (chunk jpeg w written n) =
        (jpeg w).take (written + n) := by
      rw [hcontents]
      exact overwrite_take 0 (jpeg w) n (by omega)
    obtain ⟨s', hrun, hcalls, hfiles⟩ := ih
      (s := ⟨s.files.write 0 file written (chunk jpeg w written n),
        Function.update s.calls w (.writing file (written + n))⟩)
      (Function.update_self ..) (by rw [Files.write, Files.contents_setContents, hnext])
      (fun m hm ↦ hpos m (List.mem_cons_of_mem _ hm)) (by omega)
    refine ⟨s', ?_, hcalls, ?_⟩
    · rw [List.map_cons, runEvents_cons, hstep]
      exact hrun
    · rw [hfiles, Files.write, Files.setContents_setContents]

/-! ### One call at a time -/

/-- A call starts when no other one is writing. -/
def Exclusive (s : Publication W) : SystemCall W → Prop
  | .openTemp _ => ∀ w file written, s.calls w ≠ .writing file written
  | _ => True

/-- The temporary file holds what its only writer has written. -/
structure SingleWriter (before : Option Bytes) (s : Publication W) : Prop where
  atomic : Atomic filePath jpeg before s
  temp : ∀ w file written, s.calls w = .writing file written →
    s.files.names tempPath = some file ∧ s.files.contents file = (jpeg w).take written ∧
      written ≤ (jpeg w).length
  only : ∀ w file written w' file' written', s.calls w = .writing file written →
    s.calls w' = .writing file' written' → w' = w

/-- The call that goes on writing is the only writer, if no other call was one. -/
theorem eq_of_writing {calls : W → CallState} {w w' : W} {file written file' written' : Nat}
    (hothers : ∀ v f n, v ≠ w → calls v ≠ .writing f n)
    (h : Function.update calls w (.writing file written) w' = .writing file' written') :
    w' = w ∧ file = file' ∧ written = written' := by
  by_cases hsame : w' = w
  · rw [hsame, Function.update_self, CallState.writing.injEq] at h
    exact ⟨hsame, h⟩
  · rw [Function.update_of_ne hsame] at h
    exact absurd h (hothers _ _ _ hsame)

/-- A call that has ended leaves no writer. -/
theorem SingleWriter.not_writing {before : Option Bytes} {s : Publication W}
    (hs : SingleWriter tempPath filePath jpeg before s) {w : W} {file written : Nat}
    (hw : s.calls w = .writing file written) {ended : CallState}
    (hended : ∀ file written, ended ≠ .writing file written) (w' : W) (file' written' : Nat) :
    Function.update s.calls w ended w' ≠ .writing file' written' := by
  intro hw'
  by_cases hsame : w' = w
  · rw [hsame, Function.update_self] at hw'
    exact hended _ _ hw'
  · rw [Function.update_of_ne hsame] at hw'
    exact hsame (hs.only w file written w' file' written' hw hw')

/-- A system call keeps a single writer, if calls do not overlap. -/
theorem SingleWriter.step {before : Option Bytes} {s s' : Publication W} {e : SystemCall W}
    (hne : filePath ≠ tempPath) (hs : SingleWriter tempPath filePath jpeg before s)
    (hok : Exclusive s e) (h : publishStep tempPath filePath jpeg s e = some s') :
    SingleWriter tempPath filePath jpeg before s' := by
  have hatomic := atomic_iff_keepsWhole tempPath filePath jpeg hne hs.atomic h
  cases published_of_step tempPath filePath jpeg h with
  | openTemp w hw =>
    have hothers : ∀ v f n, v ≠ w → s.calls v ≠ .writing f n := fun v f n _ ↦ hok v f n
    refine ⟨hatomic.mpr trivial, ?_, ?_⟩
    · intro w' file written hw'
      obtain ⟨rfl, rfl, rfl⟩ := eq_of_writing hothers hw'
      simp [Files.openTruncate]
    · intro w₁ f₁ n₁ w₂ f₂ n₂ h₁ h₂
      exact (eq_of_writing hothers h₂).1.trans (eq_of_writing hothers h₁).1.symm
  | writeChunk w size file written hw hsize =>
    obtain ⟨htemp, hcontents, hwritten⟩ := hs.temp w file written hw
    have hothers : ∀ v f n, v ≠ w → s.calls v ≠ .writing f n :=
      fun v f n hne' hv ↦ hne' (hs.only w file written v f n hw hv)
    refine ⟨hatomic.mpr ?_, ?_, ?_⟩
    · -- the file of the frame is not the one that is written
      intro file' written' hw' hpublished
      rw [hw, CallState.writing.injEq] at hw'
      obtain ⟨rfl, rfl⟩ := hw'
      exact absurd (s.files.unshared _ _ file hpublished htemp) hne
    · intro w' file' written' hw'
      obtain ⟨rfl, rfl, rfl⟩ := eq_of_writing hothers hw'
      refine ⟨htemp, ?_, hsize⟩
      rw [Files.write, Files.contents_setContents, hcontents]
      exact overwrite_take 0 (jpeg w') size hwritten
    · intro w₁ f₁ n₁ w₂ f₂ n₂ h₁ h₂
      exact (eq_of_writing hothers h₂).1.trans (eq_of_writing hothers h₁).1.symm
  | replace w file i hw htemp =>
    have hended : ∀ file written, CallState.returned ≠ .writing file written := by simp
    have hnone := hs.not_writing tempPath filePath jpeg hw hended
    refine ⟨hatomic.mpr ?_, fun w' f n hw' ↦ absurd hw' (hnone w' f n),
      fun w' f n _ _ _ hw' _ ↦ absurd hw' (hnone w' f n)⟩
    intro bytes hbytes
    obtain ⟨hfile, hcontents, -⟩ := hs.temp w file _ hw
    rw [Files.read, hfile, Option.map_some, Option.some_inj, hcontents, List.take_length]
      at hbytes
    exact .inl ⟨w, hbytes.symm⟩
  | raised w file hw htemp =>
    have hfile := (hs.temp w file _ hw).1
    rw [htemp] at hfile
    cases hfile

/-- So a single writer keeps the file of the frame whole. -/
theorem SingleWriter.keepsWhole {before : Option Bytes} {s s' : Publication W} {e : SystemCall W}
    (hne : filePath ≠ tempPath) (hs : SingleWriter tempPath filePath jpeg before s)
    (hok : Exclusive s e) (h : publishStep tempPath filePath jpeg s e = some s') :
    KeepsWhole tempPath filePath jpeg before s e :=
  (atomic_iff_keepsWhole tempPath filePath jpeg hne hs.atomic h).mp
    (hs.step tempPath filePath jpeg hne hok h).atomic

end Paths

/-! ### Frames -/

/-- The name of a frame's file ends in `.jpg`, whatever the ids are. -/
theorem exists_jpg (root : Location) (deviceId clientId : String) : ∃ parent front,
    storedFile root deviceId clientId = parent ++ [front ++ ['.', 'j', 'p', 'g']] := by
  obtain ⟨front, last, hsplit, hlast⟩ := exists_last_slash deviceId.toList clientId.toList
  have hpath : (relativePath deviceId clientId).toList =
      front ++ '/' :: (last ++ ['.', 'j', 'p', 'g']) := by
    rw [toList_relativePath, ← List.cons_append, ← List.append_assoc, hsplit, List.append_assoc,
      List.cons_append]
  have hname : '/' ∉ last ++ ['.', 'j', 'p', 'g'] := by simp [hlast]
  have hdots := isName_jpg (String.ofList last)
  rw [String.toList_ofList] at hdots
  rw [storedFile, hpath]
  obtain ⟨parent, hparent⟩ := resolve_concat hname hdots.1 hdots.2
  exact ⟨parent, last, hparent⟩

/-- The temporary file of a frame is not its file. -/
theorem storedFile_ne_tempFile (root : Location) (deviceId clientId : String) :
    storedFile root deviceId clientId ≠ tempFile root deviceId clientId := by
  obtain ⟨parent, front, hfile⟩ := exists_jpg root deviceId clientId
  rw [tempFile, hfile, withSuffix_concat]
  intro h
  have hnames := List.singleton_inj.mp (List.append_cancel_left h)
  exact absurd (List.append_inj_right' hnames rfl) (by decide)

section Frame

variable (root : Location) (deviceId clientId : String) (jpeg : W → Bytes)

/-- The system calls of `_store_jpeg_local` for one frame. -/
def storeStep : Publication W → SystemCall W → Option (Publication W) :=
  publishStep (tempFile root deviceId clientId) (storedFile root deviceId clientId) jpeg

/-- Every worker has been called, and none has done anything yet. -/
def calledOn (files : Files Location UInt8) : Publication W := ⟨files, fun _ ↦ .called⟩

omit [DecidableEq W] in
/-- Before anything is done nobody writes. -/
theorem singleWriter_calledOn (files : Files Location UInt8) :
    SingleWriter (tempFile root deviceId clientId) (storedFile root deviceId clientId) jpeg
      (files.read (storedFile root deviceId clientId)) (calledOn files) where
  atomic := fun _ hbytes ↦ .inr hbytes
  temp := by
    intro w file written hw
    cases hw
  only := by
    intro w file written w' file' written' hw
    cases hw

/-- Calls that do not overlap publish atomically. -/
theorem atomic_of_exclusive (files : Files Location UInt8) {s : Publication W}
    (h : Reaches (storeStep root deviceId clientId jpeg) Exclusive (calledOn files) s) :
    Atomic (storedFile root deviceId clientId) jpeg
      (files.read (storedFile root deviceId clientId)) s := by
  have hne := storedFile_ne_tempFile root deviceId clientId
  refine (h.invariant (SingleWriter (tempFile root deviceId clientId)
    (storedFile root deviceId clientId) jpeg (files.read (storedFile root deviceId clientId)))
    (singleWriter_calledOn root deviceId clientId jpeg files) ?_).atomic
  intro t e t' ht hok hstep
  exact ht.step _ _ jpeg hne hok hstep

/-- Every system call of such a run keeps the file of the frame whole. -/
theorem keepsWhole_of_exclusive (files : Files Location UInt8) {calls : List (SystemCall W)}
    (h : (runEvents (storeStep root deviceId clientId jpeg) (calledOn files) calls).isSome = true)
    (hexclusive : Admits (storeStep root deviceId clientId jpeg) Exclusive (calledOn files) calls) :
    Admits (storeStep root deviceId clientId jpeg)
      (KeepsWhole (tempFile root deviceId clientId) (storedFile root deviceId clientId) jpeg
        (files.read (storedFile root deviceId clientId))) (calledOn files) calls := by
  have hne := storedFile_ne_tempFile root deviceId clientId
  refine hexclusive.of_invariant (SingleWriter (tempFile root deviceId clientId)
    (storedFile root deviceId clientId) jpeg (files.read (storedFile root deviceId clientId))) ?_
    (singleWriter_calledOn root deviceId clientId jpeg files) h
  intro t e t' ht hok hstep
  exact ⟨ht.step _ _ jpeg hne hok hstep, ht.keepsWhole _ _ jpeg hne hok hstep⟩

/-- What the files store. -/
def objectsIn (files : Files Location UInt8) : Objects
  | .file loc => files.read loc
  | .object _ => none

/-- A call that is not interrupted does what `storeJpegLocal` says. -/
theorem storeJpegLocal_uninterrupted (settings : StorageSettings) {w : W} {s : Publication W}
    (hw : s.calls w = .called) (sizes : List Nat) (hpos : ∀ n ∈ sizes, 0 < n)
    (hsum : sizes.sum = (jpeg w).length) :
    ∃ s', runEvents (storeStep settings.storageLocalPath deviceId clientId jpeg) s
        (.openTemp w :: (sizes.map (.writeChunk w) ++ [.replace w])) = some s' ∧
      s'.calls w = .returned ∧ objectsIn s'.files =
        (storeJpegLocal settings (relativePath deviceId clientId) (jpeg w) none
          (objectsIn s.files)).2 := by
  set tempPath := tempFile settings.storageLocalPath deviceId clientId with htempPath
  set filePath := storedFile settings.storageLocalPath deviceId clientId with hfilePath
  have hopen : publishStep tempPath filePath jpeg s (.openTemp w) = some
      { files := s.files.openTruncate tempPath
        calls := Function.update s.calls w (.writing (s.files.fileOf tempPath) 0) } := by
    simp only [publishStep, hw]
  obtain ⟨t, hrun, hcalls, hfiles⟩ := write_uninterrupted tempPath filePath jpeg
    (s := ⟨s.files.openTruncate tempPath,
      Function.update s.calls w (.writing (s.files.fileOf tempPath) 0)⟩)
    sizes (Function.update_self ..) (by simp [Files.openTruncate]) hpos (by omega)
  have htemp : t.files.names tempPath = some (s.files.fileOf tempPath) := by
    rw [hfiles]
    exact (Files.names_openTruncate s.files tempPath tempPath).mpr rfl
  have hmoved : t.files.replace tempPath filePath =
      some (t.files.move tempPath filePath _ htemp) := Files.replace_eq_some.mpr ⟨_, htemp, rfl⟩
  have hreplace : publishStep tempPath filePath jpeg t (.replace w) = some
      { files := t.files.move tempPath filePath _ htemp
        calls := Function.update t.calls w .returned } := by
    simp only [publishStep, hcalls, hmoved, if_true]
  refine ⟨⟨t.files.move tempPath filePath _ htemp, Function.update t.calls w .returned⟩, ?_,
    Function.update_self .., ?_⟩
  · rw [storeStep, runEvents_cons, hopen, Option.bind_some, runEvents_append, hrun,
      Option.bind_some, runEvents_cons, hreplace]
    rfl
  · have hread : ∀ loc, t.files.read loc =
        if loc = tempPath then some (jpeg w) else s.files.read loc := by
      intro loc
      rw [hfiles, Files.read_setContents, Files.read_openTruncate]
      simp only [Files.names_openTruncate]
      split <;> rfl
    funext name
    cases name with
    | object name => simp [objectsIn, storeJpegLocal, Objects.put, Objects.replace]
    | file loc =>
      have hresolve : resolve settings.storageLocalPath (relativePath deviceId clientId).toList =
        filePath := rfl
      have hsuffix : withSuffix filePath ['.', 't', 'm', 'p'] = tempPath := rfl
      simp only [objectsIn, storeJpegLocal, hresolve, hsuffix, Objects.put, Objects.replace,
        Files.read_move, hread, ObjectName.file.injEq, Function.update_apply, if_true]

/-- Whatever the workers do in whatever order, the file of the frame is absent or whole at every
moment exactly if every `os.replace` renames a whole image and every chunk that is written to the
published file leaves it whole. -/
theorem published_atomically_iff (files : Files Location UInt8) (calls : List (SystemCall W))
    (h : (runEvents (storeStep root deviceId clientId jpeg) (calledOn files) calls).isSome = true) :
    (∀ k s, runEvents (storeStep root deviceId clientId jpeg) (calledOn files) (calls.take k) =
        some s →
      Atomic (storedFile root deviceId clientId) jpeg
        (files.read (storedFile root deviceId clientId)) s) ↔
      Admits (storeStep root deviceId clientId jpeg)
        (KeepsWhole (tempFile root deviceId clientId) (storedFile root deviceId clientId) jpeg
          (files.read (storedFile root deviceId clientId))) (calledOn files) calls := by
  apply always_iff_admits (Atomic (storedFile root deviceId clientId) jpeg
    (files.read (storedFile root deviceId clientId))) _ _ calls h
  · intro s e s' hs hstep
    exact atomic_iff_keepsWhole _ _ jpeg (storedFile_ne_tempFile root deviceId clientId) hs hstep
  · intro bytes hbytes
    exact .inr hbytes

end Frame

/-- A file system without files. -/
def noFiles : Files Location UInt8 where
  names _ := none
  contents _ := []
  unused := 0
  made _ _ h := by cases h
  unshared _ _ _ h := by cases h

/-- The image of both uploads. -/
def sameImage : Bool → Bytes := fun _ ↦ [0xFF, 0xD8, 0xFF]

/-- The second upload starts when the first has ended. -/
def oneAfterTheOther : List (SystemCall Bool) :=
  [.openTemp false, .writeChunk false 3, .replace false,
    .openTemp true, .writeChunk true 3, .replace true]

/-- Two uploads of one image, one after the other. -/
theorem published_one_after_the_other :
    Admits (storeStep appFrames "a" "b" sameImage)
        (KeepsWhole (tempFile appFrames "a" "b") (storedFile appFrames "a" "b") sameImage none)
        (calledOn noFiles) oneAfterTheOther ∧
      ∀ k s, runEvents (storeStep appFrames "a" "b" sameImage) (calledOn noFiles)
          (oneAfterTheOther.take k) = some s →
        Atomic (storedFile appFrames "a" "b") sameImage none s := by
  have hexclusive : Admits (storeStep appFrames "a" "b" sameImage) Exclusive (calledOn noFiles)
      oneAfterTheOther := by
    refine ⟨?_, trivial, trivial, ?_, trivial, trivial, trivial⟩
    · intro w file written hw
      cases hw
    · -- the first call has returned, and the second one is about to open its file
      intro w file written hw
      cases w with
      | false => cases hw
      | true => cases hw
  have hadmits := keepsWhole_of_exclusive appFrames "a" "b" sameImage noFiles (by decide) hexclusive
  exact ⟨hadmits, (published_atomically_iff appFrames "a" "b" sameImage noFiles oneAfterTheOther
    (by decide)).mpr hadmits⟩

/-- An upload is repeated while it is written: the second call empties the file that the first one
then publishes. -/
theorem published_empty :
    ¬∀ (files : Files Location UInt8) (calls : List (SystemCall Bool)) (s : Publication Bool),
      runEvents (storeStep appFrames "a" "b" sameImage) (calledOn files) calls = some s →
        Atomic (storedFile appFrames "a" "b") sameImage
          (files.read (storedFile appFrames "a" "b")) s := by
  intro h
  have hempty := h noFiles
    [.openTemp false, .writeChunk false 3, .openTemp true, .replace false] _ rfl [] (by decide)
  rcases hempty with ⟨w, hw⟩ | hbefore
  · cases hw
  · cases hbefore

end PotholeServer.Ingest
