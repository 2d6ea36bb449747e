import PotholeServer.Json.Validation

/-!
# Validation of nested models

The part of pydantic that checks an object in a document, and a list of such objects. Each item is
checked by itself, wherever it is, and the errors of all items are collected: an item is refused
exactly if an error is placed at it. A list that is too long is not looked at any further.
-/

namespace PotholeServer.Validation

variable {α β R : Type}

/-! ### Places -/

theorem exists_of_forall₂ {p : α → β → Prop} {as : List α} {bs : List β}
    (h : List.Forall₂ p as bs) {b : β} (hb : b ∈ bs) : ∃ a ∈ as, p a b := by
  induction h with
  | nil => cases hb
  | @cons a _ _ _ hab _ ih =>
    rcases List.mem_cons.mp hb with rfl | hb
    · exact ⟨a, List.mem_cons_self .., hab⟩
    · obtain ⟨a', ha', hp⟩ := ih hb
      exact ⟨a', List.mem_cons_of_mem _ ha', hp⟩

/-- The errors of a validation. -/
def Checked.errors : Checked α → List FieldError
  | .ok _ => []
  | .error es => es

theorem errors_apply (f : Checked (α → β)) (x : Checked α) :
    (f.apply x).errors = f.errors ++ x.errors := by
  cases f <;> cases x <;> simp [Checked.apply, Checked.errors]

theorem errors_map (f : α → β) (x : Checked α) : Checked.errors (x.map f) = x.errors := by
  cases x <;> rfl

/-- What is refused inside of a value. -/
def Checked.within (loc : List Loc) (x : Checked α) : Checked α :=
  x.mapError (List.map (fun e ↦ { e with loc := loc ++ e.loc }))

theorem within_eq_ok_iff (loc : List Loc) (x : Checked α) (a : α) :
    x.within loc = .ok a ↔ x = .ok a := by
  cases x <;> simp [Checked.within, Except.mapError]

theorem errors_within (loc : List Loc) (x : Checked α) :
    (x.within loc).errors = x.errors.map (fun e ↦ { e with loc := loc ++ e.loc }) := by
  cases x <;> simp [Checked.within, Except.mapError, Checked.errors]

/-- A validator that accepts a value wherever it is, and places its errors at the value or inside
of it. -/
structure Placed (validate : List Loc → PyValue R → Checked α) : Prop where
  uniform : ∀ loc loc' v a, validate loc v = .ok a → validate loc' v = .ok a
  rooted : ∀ loc v es, validate loc v = .error es → es ≠ [] ∧ ∀ e ∈ es, loc <+: e.loc

/-- The value is accepted. -/
def Accepts (validate : List Loc → PyValue R → Checked α) (v : PyValue R) : Prop :=
  ∃ a, validate [] v = .ok a

theorem Placed.accepts_iff {validate : List Loc → PyValue R → Checked α} (h : Placed validate)
    (loc : List Loc) (v : PyValue R) : Accepts validate v ↔ ∃ a, validate loc v = .ok a := by
  constructor
  · rintro ⟨a, ha⟩
    exact ⟨a, h.uniform _ _ _ _ ha⟩
  · rintro ⟨a, ha⟩
    exact ⟨a, h.uniform _ _ _ _ ha⟩

theorem Placed.not_accepts_iff {validate : List Loc → PyValue R → Checked α} (h : Placed validate)
    (loc : List Loc) (v : PyValue R) : ¬Accepts validate v ↔ ∃ es, validate loc v = .error es := by
  rw [h.accepts_iff loc v]
  cases validate loc v with
  | ok a => simp
  | error es => simp

/-! ### Models -/

/-- A model, from what holds its members. -/
def model (validate : Members R → Checked α) (loc : List Loc) : PyValue R → Checked α
  | .dict members => (validate members).within loc
  | _ => fail loc "model_attributes_type"

theorem model_eq_ok {validate : Members R → Checked α} {loc : List Loc} {v : PyValue R} {a : α}
    (h : model validate loc v = .ok a) : ∃ members, v = .dict members ∧
      validate members = .ok a := by
  unfold model at h
  split at h
  · next members =>
    cases hvalid : validate members with
    | error es =>
      rw [hvalid] at h
      cases h
    | ok b =>
      rw [hvalid] at h
      cases h
      exact ⟨members, rfl, hvalid⟩
  · cases h

theorem placed_model {validate : Members R → Checked α}
    (h : ∀ members es, validate members = .error es → es ≠ []) : Placed (model validate) where
  uniform := by
    intro loc loc' v a ha
    obtain ⟨members, rfl, hvalid⟩ := model_eq_ok ha
    simp [model, hvalid, Checked.within, Except.mapError]
  rooted := by
    intro loc v es hes
    unfold model at hes
    split at hes
    · next members =>
      cases hvalid : validate members with
      | ok a =>
        rw [hvalid] at hes
        cases hes
      | error es' =>
        rw [hvalid] at hes
        cases hes
        refine ⟨by simpa using h members es' hvalid, ?_⟩
        intro e he
        obtain ⟨e', -, rfl⟩ := List.mem_map.mp he
        exact List.prefix_append _ _
    · cases hes
      simp

/-! ### Lists of models -/

/-- A list of a length in these bounds. -/
abbrev Sized (α : Type) (lo hi : Nat) := {as : List α // lo ≤ as.length ∧ as.length ≤ hi}

theorem length_of_items {validate : List Loc → PyValue R → Checked α} {loc : List Loc} {i : Nat}
    {values : List (PyValue R)} {as : List α} (h : items validate loc i values = .ok as) :
    as.length = values.length := by
  induction values generalizing i as with
  | nil =>
    cases h
    rfl
  | cons value values ih =>
    obtain ⟨g, rest, hg, hrest, rfl⟩ := apply_eq_ok h
    obtain ⟨a, -, rfl⟩ := map_eq_ok hg
    rw [List.length_cons, List.length_cons, ih hrest]

/-- `list` with `min_length` and `max_length`; the items of a list that is too long count for
nothing. -/
def sized (lo hi : Nat) (validate : List Loc → PyValue R → Checked α) (loc : List Loc) :
    PyValue R → Checked (Sized α lo hi)
  | .list values =>
    if hhi : hi < values.length then fail loc "too_long"
    else
      match h : items validate loc 0 values with
      | .error es => .error es
      | .ok as =>
        if hlo : as.length < lo then fail loc "too_short"
        else .ok ⟨as, Nat.not_lt.mp hlo, by
          rw [length_of_items h]
          exact Nat.not_lt.mp hhi⟩
  | _ => fail loc "list_type"

section Items

variable {validate : List Loc → PyValue R → Checked α} {loc : List Loc} {values : List (PyValue R)}

/-- Two items are in different places. -/
theorem index_eq_of_places {i j : Nat} {l : List Loc} (hi : loc ++ [Loc.index i] <+: l)
    (hj : loc ++ [Loc.index j] <+: l) : i = j := by
  have hsame : loc ++ [Loc.index i] = loc ++ [Loc.index j] :=
    (List.prefix_of_prefix_length_le hi hj (by simp)).eq_of_length (by simp)
  simpa using hsame

/-- The items are accepted exactly if each of them is. -/
theorem items_eq_ok_iff (h : Placed validate) (loc : List Loc) (i : Nat) :
    (∃ as, items validate loc i values = .ok as) ↔ ∀ v ∈ values, Accepts validate v := by
  induction values generalizing i with
  | nil => simp [items]
  | cons value values ih =>
    rw [List.forall_mem_cons, ← ih (i + 1), h.accepts_iff (loc ++ [.index i])]
    constructor
    · rintro ⟨as, has⟩
      obtain ⟨g, rest, hg, hrest, rfl⟩ := apply_eq_ok has
      obtain ⟨a, ha, rfl⟩ := map_eq_ok hg
      exact ⟨⟨a, ha⟩, rest, hrest⟩
    · rintro ⟨⟨a, ha⟩, rest, hrest⟩
      exact ⟨a :: rest, by simp [items, ha, hrest, Except.map, Checked.apply]⟩

/-- Every accepted item is what the validator makes of its value. -/
theorem forall₂_of_items (h : Placed validate) {i : Nat} {as : List α}
    (has : items validate loc i values = .ok as) :
    List.Forall₂ (fun v a ↦ validate [] v = .ok a) values as := by
  induction values generalizing i as with
  | nil =>
    cases has
    exact .nil
  | cons value values ih =>
    obtain ⟨g, rest, hg, hrest, rfl⟩ := apply_eq_ok has
    obtain ⟨a, ha, rfl⟩ := map_eq_ok hg
    exact .cons (h.uniform _ _ _ _ ha) (ih hrest)

theorem Placed.errors_ne_nil_iff (h : Placed validate) (loc : List Loc) (v : PyValue R) :
    (validate loc v).errors ≠ [] ↔ ¬Accepts validate v := by
  rw [h.not_accepts_iff loc v]
  cases hv : validate loc v with
  | ok a => simp [Checked.errors]
  | error es => simpa [Checked.errors] using (h.rooted loc v es hv).1

theorem Placed.prefix_of_mem (h : Placed validate) {v : PyValue R} {e : FieldError}
    (he : e ∈ (validate loc v).errors) : loc <+: e.loc := by
  cases hv : validate loc v with
  | ok a =>
    rw [hv] at he
    cases he
  | error es =>
    rw [hv] at he
    exact (h.rooted loc v es hv).2 e he

/-- Errors of items: each is placed at an item that is refused, and each item that is refused has
one. -/
structure ErrorsAt (validate : List Loc → PyValue R → Checked α) (loc : List Loc) (i : Nat)
    (values : List (PyValue R)) (es : List FieldError) : Prop where
  sound : ∀ e ∈ es, ∃ n v, values[n]? = some v ∧ ¬Accepts validate v ∧
    loc ++ [.index (i + n)] <+: e.loc
  complete : ∀ n v, values[n]? = some v → ¬Accepts validate v →
    ∃ e ∈ es, loc ++ [.index (i + n)] <+: e.loc

theorem errorsAt_items (h : Placed validate) (loc : List Loc) (i : Nat) :
    ErrorsAt validate loc i values (items validate loc i values).errors := by
  induction values generalizing i with
  | nil => exact ⟨by simp [items, Checked.errors], by simp⟩
  | cons value values ih =>
    have hshift : ∀ n, i + 1 + n = i + (n + 1) := by omega
    rw [items, errors_apply, errors_map]
    constructor
    · intro e he
      rcases List.mem_append.mp he with hfirst | hrest
      · refine ⟨0, value, rfl, ?_, h.prefix_of_mem hfirst⟩
        rw [← h.errors_ne_nil_iff (loc ++ [.index i])]
        exact List.ne_nil_of_mem hfirst
      · obtain ⟨n, v, hn, hv, hplace⟩ := (ih (i + 1)).sound e hrest
        rw [hshift] at hplace
        exact ⟨n + 1, v, hn, hv, hplace⟩
    · intro n v hn hv
      cases n with
      | zero =>
        cases hn
        obtain ⟨e, he⟩ := List.exists_mem_of_ne_nil _
          ((h.errors_ne_nil_iff (loc ++ [.index i]) value).mpr hv)
        exact ⟨e, List.mem_append_left _ he, h.prefix_of_mem he⟩
      | succ n =>
        obtain ⟨e, he, hplace⟩ := (ih (i + 1)).complete n v hn hv
        rw [hshift] at hplace
        exact ⟨e, List.mem_append_right _ he, hplace⟩

/-- An index is named by an error exactly if its item is refused. -/
theorem ErrorsAt.names_iff {es : List FieldError} (h : ErrorsAt validate loc 0 values es)
    (n : Nat) : (∃ e ∈ es, loc ++ [.index n] <+: e.loc) ↔
      ∃ v, values[n]? = some v ∧ ¬Accepts validate v := by
  constructor
  · rintro ⟨e, he, hplace⟩
    obtain ⟨m, v, hm, hv, hplace'⟩ := h.sound e he
    rw [Nat.zero_add] at hplace'
    rw [index_eq_of_places hplace hplace']
    exact ⟨v, hm, hv⟩
  · rintro ⟨v, hn, hv⟩
    obtain ⟨e, he, hplace⟩ := h.complete n v hn hv
    rw [Nat.zero_add] at hplace
    exact ⟨e, he, hplace⟩

variable {lo hi : Nat}

theorem sized_eq_ok (h : Placed validate) {v : PyValue R} {as : Sized α lo hi}
    (has : sized lo hi validate loc v = .ok as) : ∃ values, v = .list values ∧
      List.Forall₂ (fun v a ↦ validate [] v = .ok a) values as.1 := by
  unfold sized at has
  split at has
  · next values =>
    split at has
    · cases has
    · split at has
      · cases has
      · next hitems =>
        split at has
        · cases has
        · cases has
          exact ⟨values, rfl, forall₂_of_items h hitems⟩
  · cases has

/-- A list of a length in the bounds is validated item by item. -/
theorem sized_list (hlo : lo ≤ values.length) (hhi : values.length ≤ hi) :
    Except.map Subtype.val (sized lo hi validate loc (.list values)) =
      items validate loc 0 values := by
  unfold sized
  dsimp only
  rw [dif_neg (by omega)]
  split
  · next hitems =>
    rw [hitems]
    rfl
  · next hitems =>
    have hlength := length_of_items hitems
    rw [dif_neg (by omega)]
    exact hitems.symm

/-- Such a list is accepted exactly if each of its items is. -/
theorem sized_eq_ok_iff (h : Placed validate) (loc : List Loc) (hlo : lo ≤ values.length)
    (hhi : values.length ≤ hi) : (∃ as, sized lo hi validate loc (.list values) = .ok as) ↔
      ∀ v ∈ values, Accepts validate v := by
  rw [← items_eq_ok_iff h loc 0, ← sized_list hlo hhi]
  cases sized lo hi validate loc (.list values) with
  | error es => simp [Except.map]
  | ok as => simp [Except.map]

/-- Its errors are those of its items. -/
theorem errorsAt_sized (h : Placed validate) (loc : List Loc) (hlo : lo ≤ values.length)
    (hhi : values.length ≤ hi) :
    ErrorsAt validate loc 0 values (sized lo hi validate loc (.list values)).errors := by
  rw [← errors_map Subtype.val, sized_list hlo hhi]
  exact errorsAt_items h loc 0

end Items

end PotholeServer.Validation
