import Mathlib.Data.List.TakeDrop
import Mathlib.Logic.Function.Basic

/-!
# Files and handles

A name leads to a file, and an open handle leads to its file without the name: a file that has been
renamed is still the one that its handles write to. Files are numbered, and a number is not used
again.
-/

namespace PotholeServer.Storage

variable {N B : Type}

/-- Names, and the bytes of the files that they lead to. No file has two names, and the files from
`unused` on have not been made yet. -/
structure Files (N B : Type) where
  names : N → Option Nat
  contents : Nat → List B
  unused : Nat
  made : ∀ n i, names n = some i → i < unused
  unshared : ∀ n m i, names n = some i → names m = some i → n = m

/-- Put bytes into a file from an offset on; a gap before them is filled. -/
def overwrite (zero : B) (old : List B) (offset : Nat) (bytes : List B) : List B :=
  old.takeD offset zero ++ bytes ++ old.drop (offset + bytes.length)

/-- Bytes that go on where a file ends lengthen it. -/
theorem overwrite_end (zero : B) (old bytes : List B) :
    overwrite zero old old.length bytes = old ++ bytes := by
  rw [overwrite, List.takeD_eq_take zero (Nat.le_refl _), List.take_length,
    List.drop_eq_nil_of_le (Nat.le_add_right _ _), List.append_nil]

/-- The next chunk of the data makes the part that a file holds longer. -/
theorem overwrite_take (zero : B) (data : List B) {k : Nat} (n : Nat) (hk : k ≤ data.length) :
    overwrite zero (data.take k) k ((data.drop k).take n) = data.take (k + n) := by
  have hlength : (data.take k).length = k := List.length_take_of_le hk
  have hend := overwrite_end zero (data.take k) ((data.drop k).take n)
  rwa [hlength, ← List.take_add] at hend

namespace Files

/-- The bytes under a name. -/
def read (fs : Files N B) (n : N) : Option (List B) := (fs.names n).map fs.contents

/-- The file under a name, or the one that will be made for it. -/
def fileOf (fs : Files N B) (n : N) : Nat := (fs.names n).getD fs.unused

theorem fileOf_eq {fs : Files N B} {n : N} {i : Nat} (h : fs.names n = some i) :
    fs.fileOf n = i := by
  rw [fileOf, h, Option.getD_some]

/-- The file of a name is the file of no other one. -/
theorem names_ne_fileOf (fs : Files N B) {n m : N} (h : m ≠ n) :
    fs.names m ≠ some (fs.fileOf n) := by
  intro hm
  cases hn : fs.names n with
  | none =>
    rw [fileOf, hn, Option.getD_none] at hm
    exact absurd (fs.made m _ hm) (Nat.lt_irrefl _)
  | some i =>
    rw [fileOf_eq hn] at hm
    exact h (fs.unshared m n i hm hn)

variable [DecidableEq N]

/-- `open(name, "wb")`: the file under the name is emptied, or an empty one is made. -/
def openTruncate (fs : Files N B) (n : N) : Files N B where
  names := Function.update fs.names n (some (fs.fileOf n))
  contents := Function.update fs.contents (fs.fileOf n) []
  unused := max fs.unused (fs.fileOf n + 1)
  made := by
    intro m i hm
    by_cases hmn : m = n
    · subst hmn
      rw [Function.update_self, Option.some_inj] at hm
      omega
    · rw [Function.update_of_ne hmn] at hm
      exact Nat.lt_of_lt_of_le (fs.made m i hm) (Nat.le_max_left ..)
  unshared := by
    intro m m' i hm hm'
    by_cases hmn : m = n <;> by_cases hmn' : m' = n
    · exact hmn.trans hmn'.symm
    · rw [hmn, Function.update_self, Option.some_inj] at hm
      rw [Function.update_of_ne hmn', ← hm] at hm'
      exact absurd hm' (fs.names_ne_fileOf hmn')
    · rw [hmn', Function.update_self, Option.some_inj] at hm'
      rw [Function.update_of_ne hmn, ← hm'] at hm
      exact absurd hm (fs.names_ne_fileOf hmn)
    · rw [Function.update_of_ne hmn] at hm
      rw [Function.update_of_ne hmn'] at hm'
      exact fs.unshared m m' i hm hm'

/-- Give a file other contents. -/
def setContents (fs : Files N B) (i : Nat) (bytes : List B) : Files N B :=
  { fs with contents := Function.update fs.contents i bytes }

/-- Write through a handle. -/
def write (zero : B) (fs : Files N B) (i offset : Nat) (bytes : List B) : Files N B :=
  fs.setContents i (overwrite zero (fs.contents i) offset bytes)

/-- Give a file of this name another name, in place of the file that had it. -/
def move (fs : Files N B) (src dst : N) (i : Nat) (h : fs.names src = some i) : Files N B where
  names := fun n ↦ if n = dst then some i else if n = src then none else fs.names n
  contents := fs.contents
  unused := fs.unused
  made := by
    intro m j hm
    split at hm
    · exact Option.some_inj.mp hm ▸ fs.made src i h
    · split at hm
      · cases hm
      · exact fs.made m j hm
  unshared := by
    intro m m' j hm hm'
    split at hm <;> split at hm'
    · next hdst hdst' => exact hdst.trans hdst'.symm
    · split at hm'
      · cases hm'
      · next hsrc =>
        rw [← Option.some_inj.mp hm] at hm'
        exact absurd (fs.unshared m' src i hm' h) hsrc
    · split at hm
      · cases hm
      · next hsrc =>
        rw [← Option.some_inj.mp hm'] at hm
        exact absurd (fs.unshared m src i hm h) hsrc
    · split at hm
      · cases hm
      · split at hm'
        · cases hm'
        · exact fs.unshared m m' j hm hm'

/-- `os.replace(src, dst)`; it fails when there is no file to move. -/
def replace (fs : Files N B) (src dst : N) : Option (Files N B) :=
  match h : fs.names src with
  | none => none
  | some i => some (fs.move src dst i h)

/-! ### What is read afterwards -/

/-- A file that has been opened for writing is empty, and the others are as they were. -/
theorem read_openTruncate (fs : Files N B) (n m : N) :
    (fs.openTruncate n).read m = if m = n then some [] else fs.read m := by
  unfold read openTruncate
  dsimp only
  split
  · next hmn => rw [hmn, Function.update_self, Option.map_some, Function.update_self]
  · next hmn =>
    rw [Function.update_of_ne hmn]
    cases hm : fs.names m with
    | none => rfl
    | some i =>
      have hne : i ≠ fs.fileOf n := fun hi ↦ fs.names_ne_fileOf hmn (hi ▸ hm)
      rw [Option.map_some, Option.map_some, Function.update_of_ne hne]

/-- The file that has been opened is under the name, and under no other one. -/
theorem names_openTruncate (fs : Files N B) (n m : N) :
    (fs.openTruncate n).names m = some (fs.fileOf n) ↔ m = n := by
  unfold openTruncate
  dsimp only
  constructor
  · intro hm
    by_contra hmn
    rw [Function.update_of_ne hmn] at hm
    exact fs.names_ne_fileOf hmn hm
  · intro hmn
    rw [hmn, Function.update_self]

section Contents

omit [DecidableEq N]

/-- The contents of a file are read under its name, if it has one. -/
theorem read_setContents (fs : Files N B) (i : Nat) (bytes : List B) (m : N) :
    (fs.setContents i bytes).read m =
      if fs.names m = some i then some bytes else fs.read m := by
  unfold read setContents
  dsimp only
  split
  · next hm => rw [hm, Option.map_some, Function.update_self]
  · next hm =>
    cases hj : fs.names m with
    | none => rfl
    | some j =>
      have hne : j ≠ i := fun hi ↦ hm (hj.trans (congrArg some hi))
      rw [Option.map_some, Option.map_some, Function.update_of_ne hne]

theorem setContents_setContents (fs : Files N B) (i : Nat) (bytes bytes' : List B) :
    (fs.setContents i bytes).setContents i bytes' = fs.setContents i bytes' := by
  simp only [setContents, Function.update_idem]

theorem setContents_eq_self {fs : Files N B} {i : Nat} {bytes : List B}
    (h : fs.contents i = bytes) : fs.setContents i bytes = fs := by
  subst h
  simp only [setContents, Function.update_eq_self]

@[simp] theorem contents_setContents (fs : Files N B) (i : Nat) (bytes : List B) :
    (fs.setContents i bytes).contents i = bytes := by
  simp only [setContents, Function.update_self]

end Contents

/-- A file that is moved is read under its new name. -/
theorem read_move (fs : Files N B) {src dst : N} {i : Nat} (h : fs.names src = some i) (m : N) :
    (fs.move src dst i h).read m =
      if m = dst then fs.read src else if m = src then none else fs.read m := by
  unfold read move
  dsimp only
  split
  · rw [h]
  · split <;> rfl

/-- A move succeeds exactly if there is a file to move. -/
theorem replace_eq_some {fs fs' : Files N B} {src dst : N} :
    fs.replace src dst = some fs' ↔
      ∃ i, ∃ h : fs.names src = some i, fs' = fs.move src dst i h := by
  unfold replace
  constructor
  · intro hreplace
    split at hreplace
    · cases hreplace
    · next i h => exact ⟨i, h, (Option.some_inj.mp hreplace).symm⟩
  · rintro ⟨i, h, rfl⟩
    split
    · next hnone => exact absurd (hnone.symm.trans h) (by simp)
    · next j hj =>
      have hij : j = i := Option.some_inj.mp (hj.symm.trans h)
      subst hij
      rfl

end Files

end PotholeServer.Storage
