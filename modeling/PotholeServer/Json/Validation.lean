import Mathlib.Order.Lattice
import PotholeServer.Json.Codec

/-!
# Validation of JSON objects

The part of pydantic that checks what `json.loads` returned: each field is checked by itself, the
errors of all fields are collected, and a field that is accepted has a type that carries its
constraint. What is not a number is within no bounds.
-/

namespace PotholeServer.Validation

/-! ### Errors -/

/-- A step to the place of an error. -/
inductive Loc where
  | field (name : String)
  | index (i : Nat)
  deriving DecidableEq, Repr

/-- One error of a `ValidationError`: its place, and its type. -/
structure FieldError where
  loc : List Loc
  type : String
  deriving DecidableEq, Repr

/-- What a validator returns. -/
abbrev Checked (α : Type) := Except (List FieldError) α

variable {α β R : Type}

/-- One error. -/
def fail (loc : List Loc) (type : String) : Checked α := .error [⟨loc, type⟩]

/-- Go on to the next field; the errors add up. -/
def Checked.apply (f : Checked (α → β)) (x : Checked α) : Checked β :=
  match f, x with
  | .ok f, .ok a => .ok (f a)
  | .ok _, .error e => .error e
  | .error e, .ok _ => .error e
  | .error e, .error e' => .error (e ++ e')

/-- There is no error without a place, and every place starts in one of the given ways. -/
def Names (starts : List Loc) (x : Checked α) : Prop :=
  ∀ es, x = .error es → es ≠ [] ∧ ∀ e ∈ es, ∃ l ∈ starts, e.loc.head? = some l

theorem names_ok (starts : List Loc) (a : α) : Names starts (.ok a : Checked α) := by
  intro es h
  cases h

theorem names_fail (l : Loc) (rest : List Loc) (type : String) :
    Names [l] (fail (l :: rest) type : Checked α) := by
  intro es h
  cases h
  simp

theorem Names.map {starts : List Loc} {x : Checked α} (h : Names starts x) (f : α → β) :
    Names starts (x.map f) := by
  intro es hes
  cases x with
  | ok a => cases hes
  | error e =>
    cases hes
    exact h _ rfl

theorem Names.apply {starts starts' : List Loc} {f : Checked (α → β)} {x : Checked α}
    (hf : Names starts f) (hx : Names starts' x) : Names (starts ++ starts') (f.apply x) := by
  have hleft : ∀ e : FieldError, (∃ l ∈ starts, e.loc.head? = some l) →
      ∃ l ∈ starts ++ starts', e.loc.head? = some l :=
    fun e ⟨l, hl, he⟩ ↦ ⟨l, List.mem_append_left _ hl, he⟩
  have hright : ∀ e : FieldError, (∃ l ∈ starts', e.loc.head? = some l) →
      ∃ l ∈ starts ++ starts', e.loc.head? = some l :=
    fun e ⟨l, hl, he⟩ ↦ ⟨l, List.mem_append_right _ hl, he⟩
  intro es h
  cases f with
  | ok f =>
    cases x with
    | ok a => cases h
    | error e =>
      cases h
      obtain ⟨hne, hall⟩ := hx _ rfl
      exact ⟨hne, fun e he ↦ hright e (hall e he)⟩
  | error e =>
    obtain ⟨hne, hall⟩ := hf _ rfl
    cases x with
    | ok a =>
      cases h
      exact ⟨hne, fun e he ↦ hleft e (hall e he)⟩
    | error e' =>
      cases h
      obtain ⟨_, hall'⟩ := hx _ rfl
      refine ⟨List.append_ne_nil_of_left_ne_nil hne _, ?_⟩
      intro err herr
      rcases List.mem_append.mp herr with herr | herr
      · exact hleft err (hall err herr)
      · exact hright err (hall' err herr)

/-! ### Fields -/

/-- The members of an object. -/
abbrev Members (R : Type) := List (PyStr × PyValue R)

/-- A field that has to be there. -/
def required (name : String) (validate : List Loc → PyValue R → Checked α) (members : Members R) :
    Checked α :=
  match members.lookup (PyStr.ofChars name.toList) with
  | none => fail [.field name] "missing"
  | some value => validate [.field name] value

/-- A field that may be missing or `null`. -/
def optional (name : String) (validate : List Loc → PyValue R → Checked α) (members : Members R) :
    Checked (Option α) :=
  match members.lookup (PyStr.ofChars name.toList) with
  | none | some .null => .ok none
  | some value => (validate [.field name] value).map some

/-- A field that has a default. -/
def defaulted (name : String) (default : α) (validate : List Loc → PyValue R → Checked α)
    (members : Members R) : Checked α :=
  match members.lookup (PyStr.ofChars name.toList) with
  | none => .ok default
  | some value => validate [.field name] value

/-- A validator names the field that it checks. -/
def Located (validate : List Loc → PyValue R → Checked α) : Prop :=
  ∀ l rest value, Names [l] (validate (l :: rest) value)

theorem names_required (name : String) {validate : List Loc → PyValue R → Checked α}
    (h : Located validate) (members : Members R) :
    Names [.field name] (required name validate members) := by
  unfold required
  split
  · exact names_fail _ _ _
  · exact h _ _ _

theorem names_optional (name : String) {validate : List Loc → PyValue R → Checked α}
    (h : Located validate) (members : Members R) :
    Names [.field name] (optional name validate members) := by
  unfold optional
  split
  · exact names_ok _ _
  · exact names_ok _ _
  · exact (h _ _ _).map some

theorem names_defaulted (name : String) (default : α)
    {validate : List Loc → PyValue R → Checked α} (h : Located validate) (members : Members R) :
    Names [.field name] (defaulted name default validate members) := by
  unfold defaulted
  split
  · exact names_ok _ _
  · exact h _ _ _

/-! ### Strings -/

/-- `str` with `min_length` and `max_length` -/
abbrev Text (lo hi : Nat) := {s : String // lo ≤ s.length ∧ s.length ≤ hi}

/-- The validator of `Text`; it reads no surrogates. -/
def text (lo hi : Nat) (loc : List Loc) : PyValue R → Checked (Text lo hi)
  | .str s =>
    match s.chars? with
    | none => fail loc "string_unicode"
    | some cs =>
      if hlo : cs.length < lo then fail loc "string_too_short"
      else if hhi : hi < cs.length then fail loc "string_too_long"
      else .ok ⟨String.ofList cs, by
        rw [String.length_ofList]
        exact ⟨Nat.le_of_not_lt hlo, Nat.le_of_not_lt hhi⟩⟩
  | _ => fail loc "string_type"

theorem located_text (lo hi : Nat) : Located (text lo hi : List Loc → PyValue R → _) := by
  intro l rest value
  unfold text
  split
  · split
    · exact names_fail _ _ _
    · split
      · exact names_fail _ _ _
      · split
        · exact names_fail _ _ _
        · exact names_ok _ _
  · exact names_fail _ _ _

/-- `str` that a `field_validator` accepts -/
abbrev TextWith (accepts : PyStr → Bool) := {s : PyStr // accepts s = true}

/-- The validator of `TextWith`. -/
def textWith (accepts : PyStr → Bool) (loc : List Loc) : PyValue R → Checked (TextWith accepts)
  | .str s => if h : accepts s = true then .ok ⟨s, h⟩ else fail loc "value_error"
  | _ => fail loc "string_type"

theorem located_textWith (accepts : PyStr → Bool) :
    Located (textWith accepts : List Loc → PyValue R → _) := by
  intro l rest value
  unfold textWith
  split
  · split
    · exact names_ok _ _
    · exact names_fail _ _ _
  · exact names_fail _ _ _

/-! ### Numbers -/

section Numbers

variable [LinearOrder R]

/-- `x` fails `ge=lo`. -/
def below (lo : R) : PyFloat R → Bool
  | .finite x => x < lo
  | .nan => true
  | .inf negative => negative

/-- `x` fails `le=hi`. -/
def above (hi : R) : PyFloat R → Bool
  | .finite x => hi < x
  | .nan => true
  | .inf negative => !negative

/-- `float` with `ge` and `le` -/
abbrev Bounded (lo hi : R) := {x : PyFloat R // below lo x = false ∧ above hi x = false}

/-- The validator of `Bounded`, on what the conversion to a float gives. -/
def bounded (toFloat : PyValue R → Option (PyFloat R)) (lo hi : R) (loc : List Loc)
    (value : PyValue R) : Checked (Bounded lo hi) :=
  match toFloat value with
  | none =>
    match value with
    | .str _ => fail loc "float_parsing"
    | _ => fail loc "float_type"
  | some x =>
    if habove : above hi x = true then fail loc "less_than_equal"
    else if hbelow : below lo x = true then fail loc "greater_than_equal"
    else .ok ⟨x, Bool.eq_false_iff.mpr hbelow, Bool.eq_false_iff.mpr habove⟩

/-- `float` with `ge` -/
abbrev AtLeast (lo : R) := {x : PyFloat R // below lo x = false}

/-- The validator of `AtLeast`. -/
def atLeast (toFloat : PyValue R → Option (PyFloat R)) (lo : R) (loc : List Loc)
    (value : PyValue R) : Checked (AtLeast lo) :=
  match toFloat value with
  | none =>
    match value with
    | .str _ => fail loc "float_parsing"
    | _ => fail loc "float_type"
  | some x =>
    if hbelow : below lo x = true then fail loc "greater_than_equal"
    else .ok ⟨x, Bool.eq_false_iff.mpr hbelow⟩

theorem located_atLeast (toFloat : PyValue R → Option (PyFloat R)) (lo : R) :
    Located (atLeast toFloat lo) := by
  intro l rest value
  unfold atLeast
  split
  · split
    · exact names_fail _ _ _
    · exact names_fail _ _ _
  · split
    · exact names_fail _ _ _
    · exact names_ok _ _

theorem located_bounded (toFloat : PyValue R → Option (PyFloat R)) (lo hi : R) :
    Located (bounded toFloat lo hi) := by
  intro l rest value
  unfold bounded
  split
  · split
    · exact names_fail _ _ _
    · exact names_fail _ _ _
  · split
    · exact names_fail _ _ _
    · split
      · exact names_fail _ _ _
      · exact names_ok _ _

end Numbers

/-- A validator that takes what a reader makes of the value. -/
def reads (read : PyValue R → Except String α) (loc : List Loc) (value : PyValue R) :
    Checked α :=
  match read value with
  | .error type => fail loc type
  | .ok a => .ok a

/-- `int` with `ge` and `le` -/
abbrev IntBounded (lo hi : Int) := {n : Int // lo ≤ n ∧ n ≤ hi}

/-- The validator of `IntBounded`. -/
def integer (readInt : PyValue R → Except String Int) (lo hi : Int) (loc : List Loc)
    (value : PyValue R) : Checked (IntBounded lo hi) :=
  match readInt value with
  | .error type => fail loc type
  | .ok n =>
    if habove : hi < n then fail loc "less_than_equal"
    else if hbelow : n < lo then fail loc "greater_than_equal"
    else .ok ⟨n, Int.not_lt.mp hbelow, Int.not_lt.mp habove⟩

theorem located_reads (read : PyValue R → Except String α) : Located (reads read) := by
  intro l rest value
  unfold reads
  split
  · exact names_fail _ _ _
  · exact names_ok _ _

theorem located_integer (readInt : PyValue R → Except String Int) (lo hi : Int) :
    Located (integer readInt lo hi) := by
  intro l rest value
  unfold integer
  split
  · exact names_fail _ _ _
  · split
    · exact names_fail _ _ _
    · split
      · exact names_fail _ _ _
      · exact names_ok _ _

/-! ### Lists -/

/-- `dict` -/
def dict (loc : List Loc) : PyValue R → Checked (Members R)
  | .dict members => .ok members
  | _ => fail loc "dict_type"

/-- The items of a list, from one index on. -/
def items (validate : List Loc → PyValue R → Checked α) (loc : List Loc) :
    Nat → List (PyValue R) → Checked (List α)
  | _, [] => .ok []
  | i, value :: values =>
    Checked.apply ((validate (loc ++ [.index i]) value).map List.cons)
      (items validate loc (i + 1) values)

/-- `list` -/
def list (validate : List Loc → PyValue R → Checked α) (loc : List Loc) :
    PyValue R → Checked (List α)
  | .list values => items validate loc 0 values
  | _ => fail loc "list_type"

/-! ### What is accepted -/

theorem apply_eq_ok {f : Checked (α → β)} {x : Checked α} {b : β} (h : f.apply x = .ok b) :
    ∃ g a, f = .ok g ∧ x = .ok a ∧ b = g a := by
  cases f with
  | error e => cases x <;> cases h
  | ok g =>
    cases x with
    | error e => cases h
    | ok a =>
      cases h
      exact ⟨g, a, rfl, rfl, rfl⟩

theorem map_eq_ok {f : α → β} {x : Checked α} {b : β} (h : x.map f = .ok b) :
    ∃ a, x = .ok a ∧ b = f a := by
  cases x with
  | error e => cases h
  | ok a =>
    cases h
    exact ⟨a, rfl, rfl⟩

theorem bind_eq_ok {ε : Type} {x : Except ε α} {f : α → Except ε β} {b : β}
    (h : x >>= f = .ok b) : ∃ a, x = .ok a ∧ f a = .ok b := by
  cases x with
  | error e => cases h
  | ok a => exact ⟨a, rfl, h⟩

theorem mapError_eq_ok {ε ε' : Type} {x : Except ε α} {f : ε → ε'} {a : α}
    (h : x.mapError f = .ok a) : x = .ok a := by
  cases x with
  | error e => cases h
  | ok b =>
    cases h
    rfl

theorem exists_of_isOk {ε : Type} {x : Except ε α} (h : x.isOk = true) : ∃ a, x = .ok a := by
  cases x with
  | error e => cases h
  | ok a => exact ⟨a, rfl⟩

/-- The value of a member. -/
def value? (name : String) (members : Members R) : Option (PyValue R) :=
  members.lookup (PyStr.ofChars name.toList)

theorem required_eq_ok {name : String} {validate : List Loc → PyValue R → Checked α}
    {members : Members R} {a : α} (h : required name validate members = .ok a) :
    ∃ v, value? name members = some v ∧ validate [.field name] v = .ok a := by
  unfold required at h
  split at h
  · cases h
  · next v hv => exact ⟨v, hv, h⟩

/-- The member is missing or `null`. -/
def Absent (name : String) (members : Members R) : Prop :=
  value? name members = none ∨ value? name members = some .null

theorem optional_eq_none {name : String} {validate : List Loc → PyValue R → Checked α}
    {members : Members R} (h : optional name validate members = .ok none) :
    Absent name members := by
  unfold optional at h
  split at h
  · next hv => exact .inl hv
  · next hv => exact .inr hv
  · obtain ⟨a, -, hnone⟩ := map_eq_ok h
    cases hnone

theorem optional_eq_some {name : String} {validate : List Loc → PyValue R → Checked α}
    {members : Members R} {a : α} (h : optional name validate members = .ok (some a)) :
    ∃ v, value? name members = some v ∧ validate [.field name] v = .ok a := by
  unfold optional at h
  split at h
  · cases h
  · cases h
  · next v _ hv =>
    obtain ⟨b, hb, hsome⟩ := map_eq_ok h
    cases hsome
    exact ⟨v, hv, hb⟩

theorem defaulted_eq_ok {name : String} {default a : α}
    {validate : List Loc → PyValue R → Checked α} {members : Members R}
    (h : defaulted name default validate members = .ok a) :
    (value? name members = none ∧ a = default) ∨
      ∃ v, value? name members = some v ∧ validate [.field name] v = .ok a := by
  unfold defaulted at h
  split at h
  · next hv =>
    cases h
    exact .inl ⟨hv, rfl⟩
  · next v hv => exact .inr ⟨v, hv, h⟩

theorem ofChars_of_chars? {s : PyStr} {cs : List Char} (h : s.chars? = some cs) :
    s = PyStr.ofChars cs := by
  induction s generalizing cs with
  | nil =>
    cases h
    rfl
  | cons c rest ih =>
    cases c with
    | surrogate n => cases h
    | char c =>
      rw [PyStr.chars?, Option.map_eq_some_iff] at h
      obtain ⟨ds, hds, rfl⟩ := h
      rw [ih hds]
      rfl

/-- A text is the string that was sent. -/
theorem text_eq_ok {lo hi : Nat} {loc : List Loc} {v : PyValue R} {t : Text lo hi}
    (h : text lo hi loc v = .ok t) : v = .str (PyStr.ofChars t.1.toList) := by
  unfold text at h
  split at h
  · split at h
    · cases h
    · next s _ cs hcs =>
      split at h
      · cases h
      · split at h
        · cases h
        · cases h
          rw [ofChars_of_chars? hcs, String.toList_ofList]
  · cases h

theorem textWith_eq_ok {accepts : PyStr → Bool} {loc : List Loc} {v : PyValue R}
    {t : TextWith accepts} (h : textWith accepts loc v = .ok t) : v = .str t.1 := by
  unfold textWith at h
  split at h
  · split at h
    · cases h
      rfl
    · cases h
  · cases h

theorem bounded_eq_ok [LinearOrder R] {toFloat : PyValue R → Option (PyFloat R)} {lo hi : R}
    {loc : List Loc} {v : PyValue R} {x : Bounded lo hi}
    (h : bounded toFloat lo hi loc v = .ok x) : toFloat v = some x.1 := by
  unfold bounded at h
  split at h
  · split at h <;> cases h
  · next y hy =>
    split at h
    · cases h
    · split at h
      · cases h
      · cases h
        exact hy

theorem atLeast_eq_ok [LinearOrder R] {toFloat : PyValue R → Option (PyFloat R)} {lo : R}
    {loc : List Loc} {v : PyValue R} {x : AtLeast lo} (h : atLeast toFloat lo loc v = .ok x) :
    toFloat v = some x.1 := by
  unfold atLeast at h
  split at h
  · split at h <;> cases h
  · next y hy =>
    split at h
    · cases h
    · cases h
      exact hy

theorem reads_eq_ok {read : PyValue R → Except String α} {loc : List Loc} {v : PyValue R} {a : α}
    (h : reads read loc v = .ok a) : read v = .ok a := by
  unfold reads at h
  split at h
  · cases h
  · next hread =>
    cases h
    exact hread

theorem integer_eq_ok {readInt : PyValue R → Except String Int} {lo hi : Int} {loc : List Loc}
    {v : PyValue R} {n : IntBounded lo hi} (h : integer readInt lo hi loc v = .ok n) :
    readInt v = .ok n.1 := by
  unfold integer at h
  split at h
  · cases h
  · next m hm =>
    split at h
    · cases h
    · split at h
      · cases h
      · cases h
        exact hm

theorem dict_eq_ok {loc : List Loc} {v : PyValue R} {members : Members R}
    (h : dict loc v = .ok members) : v = .dict members := by
  unfold dict at h
  split at h
  · cases h
    rfl
  · cases h

/-- The items of a list are accepted one by one. -/
theorem list_eq_ok {validate : List Loc → PyValue R → Checked α} {write : α → PyValue R}
    (hwrite : ∀ loc v a, validate loc v = .ok a → v = write a) {loc : List Loc} {v : PyValue R}
    {as : List α} (h : list validate loc v = .ok as) : v = .list (as.map write) := by
  have hitems : ∀ (i : Nat) (values : List (PyValue R)) (as : List α),
      items validate loc i values = .ok as → values = as.map write := by
    intro i values
    induction values generalizing i with
    | nil =>
      intro as h
      cases h
      rfl
    | cons value values ih =>
      intro as h
      obtain ⟨g, rest, hg, hrest, rfl⟩ := apply_eq_ok h
      obtain ⟨a, ha, rfl⟩ := map_eq_ok hg
      rw [List.map_cons, hwrite _ _ _ ha, ← ih (i + 1) rest hrest]
  unfold list at h
  split at h
  · rw [hitems 0 _ as h]
  · cases h

end PotholeServer.Validation
