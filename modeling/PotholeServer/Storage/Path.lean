import Mathlib.Data.List.DropRight
import Mathlib.Data.List.Induction

/-!
# Lexical paths

Paths as a POSIX file system resolves them when no component is a link: a path is split at its
slashes, empty and `.` segments stand for the directory itself, and `..` for its parent. A
directory is the list of the names that lead to it from `/`; an absolute path starts there.

Resolving a path amounts to cancelling every `..` with the name before it: what remains climbs a
number of directories and then descends by names, whatever the directory it starts in.
-/

namespace PotholeServer.Storage

/-- What stands between two slashes. -/
abbrev Segment := List Char

/-- A resolved path: the names from `/` on. -/
abbrev Location := List Segment

/-- `path.split("/")` -/
def segments : List Char → List Segment
  | [] => [[]]
  | c :: cs =>
    if c = '/' then [] :: segments cs
    else match segments cs with
      | [] => [[c]]
      | s :: ss => (c :: s) :: ss

/-- The segment stands for the directory itself. -/
def isHere (s : Segment) : Bool := s = [] ∨ s = ['.']

/-- The segment stands for the parent directory. -/
def isParent (s : Segment) : Bool := s = ['.', '.']

/-- Follow one segment. -/
def follow (dir : Location) (s : Segment) : Location :=
  if isHere s then dir else if isParent s then dir.dropLast else dir ++ [s]

/-- The path starts at `/`. -/
def isAbsolute (path : List Char) : Bool := path.head? = some '/'

/-- The location of a path that is joined to a directory; an absolute path discards it. -/
def resolve (dir : Location) (path : List Char) : Location :=
  (segments path).foldl follow (if isAbsolute path then [] else dir)

/-- The location lies below the directory. -/
def StrictlyInside (dir loc : Location) : Prop := ∃ rest, rest ≠ [] ∧ loc = dir ++ rest

/-! ### Segments -/

theorem segments_ne_nil (path : List Char) : segments path ≠ [] := by
  cases path with
  | nil => simp [segments]
  | cons c cs =>
    rw [segments]
    split
    · simp
    · split <;> simp

/-- A slash separates the segments before it from those after it. -/
theorem segments_slash (xs ys : List Char) :
    segments (xs ++ '/' :: ys) = segments xs ++ segments ys := by
  induction xs with
  | nil => simp [segments]
  | cons c cs ih =>
    rw [List.cons_append, segments, segments, ih]
    split
    · rfl
    · cases hs : segments cs with
      | nil => exact absurd hs (segments_ne_nil cs)
      | cons s ss => rfl

/-- Text without slashes is one segment. -/
theorem segments_of_no_slash {path : List Char} (h : '/' ∉ path) : segments path = [path] := by
  induction path with
  | nil => rfl
  | cons c cs ih =>
    rw [List.mem_cons, not_or] at h
    rw [segments, if_neg (Ne.symm h.1), ih h.2]

/-- A path with a slash has a last one. -/
theorem exists_last_slash (xs ys : List Char) :
    ∃ front last, xs ++ '/' :: ys = front ++ '/' :: last ∧ '/' ∉ last := by
  have hmem : '/' ∈ (xs ++ '/' :: ys).reverse := by simp
  obtain ⟨last, front, hsplit, hlast⟩ := List.eq_append_cons_of_mem hmem
  refine ⟨front.reverse, last.reverse, ?_, by simpa using hlast⟩
  rw [← List.reverse_reverse (xs ++ '/' :: ys), hsplit]
  simp

/-! ### Cancelling -/

/-- Cancel `..` with the last name, or climb when there is none. -/
def cancelStep (x : Nat × List Segment) (s : Segment) : Nat × List Segment :=
  if isHere s then x
  else if isParent s then if x.2 = [] then (x.1 + 1, []) else (x.1, x.2.dropLast)
  else (x.1, x.2 ++ [s])

/-- The number of directories that the segments climb, and the names that they then descend. -/
def cancel (ss : List Segment) : Nat × List Segment := ss.foldl cancelStep (0, [])

theorem cancel_concat (ss : List Segment) (s : Segment) :
    cancel (ss ++ [s]) = cancelStep (cancel ss) s := by
  rw [cancel, List.foldl_append]
  rfl

/-- Following the segments climbs and descends as they say after cancelling. -/
theorem foldl_follow (dir : Location) (ss : List Segment) :
    ss.foldl follow dir = dir.take (dir.length - (cancel ss).1) ++ (cancel ss).2 := by
  induction ss using List.reverseRecOn with
  | nil => simp [cancel]
  | append_singleton ss s ih =>
    rw [List.foldl_append, List.foldl_cons, List.foldl_nil, ih, cancel_concat, follow, cancelStep]
    split
    · rfl
    · split
      · split
        · next hnil =>
          rw [hnil, List.append_nil, List.append_nil, List.dropLast_eq_take, List.take_take,
            List.length_take]
          congr 1
          omega
        · next hne => rw [List.dropLast_append_of_ne_nil hne]
      · rw [List.append_assoc]

/-- The names that a path has to spell to come back to the directory: those that it climbs out of,
or all of them when it is absolute. -/
def reentry (dir : Location) (path : List Char) : List Segment :=
  if isAbsolute path then dir else dir.drop (dir.length - (cancel (segments path)).1)

/-- What a path descends below the directory, if it spells every name that it climbs out of. -/
def below (dir : Location) (path : List Char) : Option (List Segment) :=
  let names := (cancel (segments path)).2
  if reentry dir path <+: names then some (names.drop (reentry dir path).length) else none

theorem below_eq_some {dir : Location} {path : List Char} {rest : List Segment} :
    below dir path = some rest ↔ (cancel (segments path)).2 = reentry dir path ++ rest := by
  unfold below
  dsimp only
  constructor
  · intro h
    split at h
    · next hprefix =>
      obtain ⟨t, ht⟩ := hprefix
      rw [← ht, List.drop_left' rfl] at h
      rw [← ht, Option.some.inj h]
    · cases h
  · intro h
    rw [h, if_pos (List.prefix_append _ _), List.drop_left' rfl]

/-- A path comes to a place below a directory exactly if it spells what it climbs out of and then
descends there. -/
theorem resolve_eq_append {dir : Location} {path : List Char} {rest : List Segment} :
    resolve dir path = dir ++ rest ↔ below dir path = some rest := by
  rw [below_eq_some, resolve, foldl_follow, reentry]
  split
  · simp
  · set n := dir.length - (cancel (segments path)).1
    conv_lhs => rhs; rw [← List.take_append_drop n dir, List.append_assoc]
    exact List.append_right_inj _

/-- The last segment, when it is a name, is the last name of the location. -/
theorem resolve_concat {dir : Location} {front : List Char} {name : Segment}
    (hslash : '/' ∉ name) (hhere : isHere name = false) (hparent : isParent name = false) :
    ∃ parent, resolve dir (front ++ '/' :: name) = parent ++ [name] := by
  rw [resolve, segments_slash, segments_of_no_slash hslash, List.foldl_append, List.foldl_cons,
    List.foldl_nil, follow, hhere, hparent]
  exact ⟨_, rfl⟩

/-! ### Suffixes -/

/-- The name without its last suffix; a leading or a final dot starts none. -/
def stem (name : Segment) : Segment :=
  match name.reverse.dropWhile (· ≠ '.') with
  | '.' :: c :: cs => if name.getLast? = some '.' then name else (c :: cs).reverse
  | _ => name

/-- `path.with_suffix(suffix)`, on the last name of the path. -/
def withSuffix (loc : Location) (suffix : Segment) : Location :=
  loc.dropLast ++ (loc.getLast?.map (fun name ↦ stem name ++ suffix)).toList

theorem withSuffix_concat (parent : Location) (name suffix : Segment) :
    withSuffix (parent ++ [name]) suffix = parent ++ [stem name ++ suffix] := by
  simp [withSuffix]

end PotholeServer.Storage
