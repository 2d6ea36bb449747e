import Mathlib.Data.List.Induction
import Mathlib.Data.List.Nodup
import Mathlib.Data.List.Perm.Basic

/-!
# JSON documents

Documents of numbers, strings, arrays and objects, and what a JSONB column gives back for one:
arrays keep their order, and the members of an object come back in some order. Reading a member
of an object with distinct names does not depend on that order.
-/

namespace PotholeServer

section Dict

variable {α β : Type}

/-- Looking a key up does not depend on the order of a dictionary. -/
theorem lookup_perm [BEq α] [LawfulBEq α] {l l' : List (α × β)} (h : l.Perm l')
    (hnodup : (l.map Prod.fst).Nodup) (a : α) : l.lookup a = l'.lookup a := by
  induction h with
  | nil => rfl
  | cons x _ ih =>
    obtain ⟨b, y⟩ := x
    have hrest := ih (List.nodup_cons.mp hnodup).2
    simp only [List.lookup_cons, hrest]
  | swap x y l =>
    obtain ⟨b, v⟩ := x
    obtain ⟨c, w⟩ := y
    have hne : c ≠ b := by
      rintro rfl
      simp at hnodup
    by_cases hb : a = b
    · subst hb
      have hc : (a == c) = false := beq_eq_false_iff_ne.mpr hne.symm
      simp [List.lookup_cons, hc]
    · have hb' : (a == b) = false := beq_eq_false_iff_ne.mpr hb
      simp [List.lookup_cons, hb']
  | trans h _ ih ih' =>
    rw [ih hnodup, ih' ((h.map Prod.fst).nodup_iff.mp hnodup)]

variable [DecidableEq α]

/-- `d[k] = v` -/
def setItem (k : α) (v : β) : List (α × β) → List (α × β)
  | [] => [(k, v)]
  | (a, x) :: rest => if a = k then (k, v) :: rest else (a, x) :: setItem k v rest

/-- `{k: v for k, v in items}` -/
def dictOf (items : List (α × β)) : List (α × β) :=
  items.foldl (fun d item ↦ setItem item.1 item.2 d) []

theorem setItem_of_notMem {k : α} {v : β} {d : List (α × β)} (h : k ∉ d.map Prod.fst) :
    setItem k v d = d ++ [(k, v)] := by
  induction d with
  | nil => rfl
  | cons p rest ih =>
    obtain ⟨a, x⟩ := p
    obtain ⟨hne, hrest⟩ : k ≠ a ∧ k ∉ rest.map Prod.fst := by simpa [not_or] using h
    rw [setItem, if_neg hne.symm, ih hrest, List.cons_append]

/-- A comprehension over distinct keys has the items in their order. -/
theorem dictOf_eq {items : List (α × β)} (hnodup : (items.map Prod.fst).Nodup) :
    dictOf items = items := by
  induction items using List.reverseRecOn with
  | nil => rfl
  | append_singleton items p ih =>
    rw [List.map_append, List.map_singleton, List.nodup_append_comm] at hnodup
    obtain ⟨hp, hitems⟩ := List.nodup_cons.mp hnodup
    rw [dictOf, List.foldl_concat, ← dictOf, ih hitems, setItem_of_notMem hp]

end Dict

/-- A JSON document; the members of an object are in the order of the text. -/
inductive Json (R : Type) where
  | num (x : R)
  | str (s : String)
  | arr (items : List (Json R))
  | obj (members : List (String × Json R))

namespace Json

variable {R : Type}

section Stored

/-- The order in which JSONB gives back the members of an object. -/
abbrev MemberOrder (R : Type) := List (String × Json R) → List (String × Json R)

variable (reorder : MemberOrder R)

mutual

/-- What is read from a JSONB column in which the document was written. -/
def stored : Json R → Json R
  | num x => num x
  | str s => str s
  | arr items => arr (storedItems items)
  | obj members => obj (reorder (storedMembers members))

/-- `stored` on the items of an array. -/
def storedItems : List (Json R) → List (Json R)
  | [] => []
  | item :: items => stored item :: storedItems items

/-- `stored` on the members of an object. -/
def storedMembers : List (String × Json R) → List (String × Json R)
  | [] => []
  | (name, value) :: members => (name, stored value) :: storedMembers members

end

theorem storedItems_eq (items : List (Json R)) :
    storedItems reorder items = items.map (stored reorder) := by
  induction items with
  | nil => rfl
  | cons item items ih => rw [storedItems, ih, List.map_cons]

theorem storedMembers_eq (members : List (String × Json R)) :
    storedMembers reorder members = members.map (fun m ↦ (m.1, stored reorder m.2)) := by
  induction members with
  | nil => rfl
  | cons m members ih =>
    obtain ⟨name, value⟩ := m
    rw [storedMembers, ih, List.map_cons]

@[simp] theorem stored_num (x : R) : stored reorder (num x) = num x := by
  rw [stored]

@[simp] theorem stored_str (s : String) : stored reorder (str s) = str s := by
  rw [stored]

@[simp] theorem stored_arr (items : List (Json R)) :
    stored reorder (arr items) = arr (items.map (stored reorder)) := by
  rw [stored, storedItems_eq]

theorem stored_obj (members : List (String × Json R)) :
    stored reorder (obj members) =
      obj (reorder (members.map (fun m ↦ (m.1, stored reorder m.2)))) := by
  rw [stored, storedMembers_eq]

end Stored

section Read

/-- `float(d)` -/
def asNum : Json R → Option R
  | num x => some x
  | _ => none

/-- A string. -/
def asStr : Json R → Option String
  | str s => some s
  | _ => none

/-- A list of items that `read` accepts. -/
def asList {α : Type} (read : Json R → Option α) : Json R → Option (List α)
  | arr items => items.mapM read
  | _ => none

/-- `d.items()` -/
def members : Json R → Option (List (String × Json R))
  | obj ms => some ms
  | _ => none

/-- `d[name]`; `none` is a `KeyError` or `TypeError`. -/
def get (name : String) : Json R → Option (Json R)
  | obj ms => ms.lookup name
  | _ => none

@[simp] theorem asNum_num (x : R) : (num x).asNum = some x := rfl

@[simp] theorem asStr_str (s : String) : (str s : Json R).asStr = some s := rfl

@[simp] theorem members_obj (ms : List (String × Json R)) : (obj ms).members = some ms := rfl

/-- A list whose items are read back is read back. -/
theorem mapM_map_eq {α β : Type} {read : β → Option α} {write : α → β}
    (hread : ∀ a, read (write a) = some a) (items : List α) :
    (items.map write).mapM read = some items := by
  induction items with
  | nil => rfl
  | cons a items ih => simp [hread, ih]

theorem asList_map {α : Type} {read : Json R → Option α} {write : α → Json R}
    (hread : ∀ a, read (write a) = some a) (items : List α) :
    (arr (items.map write)).asList read = some items :=
  mapM_map_eq hread items

/-- A member that was written is read back, in whatever order the members come. -/
theorem get_stored {reorder : MemberOrder R} (hreorder : ∀ ms, (reorder ms).Perm ms)
    {ms : List (String × Json R)} (hnodup : (ms.map Prod.fst).Nodup) (name : String) :
    (stored reorder (obj ms)).get name = (ms.lookup name).map (stored reorder) := by
  have hkeys : ((ms.map (fun m ↦ (m.1, stored reorder m.2))).map Prod.fst).Nodup := by
    rwa [List.map_map]
  rw [stored_obj, get, ← lookup_perm (hreorder _).symm hkeys]
  clear hnodup hkeys
  induction ms with
  | nil => rfl
  | cons m ms ih =>
    obtain ⟨b, value⟩ := m
    cases hb : name == b <;> simp [List.lookup_cons, hb, ih]

end Read

end Json

end PotholeServer
