import Mathlib.Algebra.Order.Field.Basic
import PotholeServer.Json.RoundTrip

/-!
# What is read can be printed

A value that `json.loads` returns nests no deeper than the interpreter recurses, its integers have
no more digits than `int` prints, and no dictionary has a name twice. So `json.dumps` prints it, and
it is read back from the text.
-/

namespace PotholeServer

/-- An item that is set replaces the one of its key. -/
theorem mem_setItem {α β : Type} [DecidableEq α] {k : α} {v : β} {d : List (α × β)} {p : α × β}
    (h : p ∈ setItem k v d) : p = (k, v) ∨ p ∈ d := by
  induction d with
  | nil => exact .inl (List.mem_singleton.mp h)
  | cons q rest ih =>
    obtain ⟨a, x⟩ := q
    rw [setItem] at h
    split at h
    · rcases List.mem_cons.mp h with h | h
      · exact .inl h
      · exact .inr (List.mem_cons_of_mem _ h)
    · rcases List.mem_cons.mp h with h | h
      · exact .inr (h ▸ List.mem_cons_self ..)
      · exact (ih h).imp id (List.mem_cons_of_mem _)

/-- Setting an item adds its key, if it is new. -/
theorem keys_setItem {α β : Type} [DecidableEq α] (k : α) (v : β) (d : List (α × β)) :
    (setItem k v d).map Prod.fst = d.map Prod.fst ∨
      k ∉ d.map Prod.fst ∧ (setItem k v d).map Prod.fst = d.map Prod.fst ++ [k] := by
  induction d with
  | nil => exact .inr ⟨List.not_mem_nil, rfl⟩
  | cons q rest ih =>
    obtain ⟨a, x⟩ := q
    rw [setItem]
    split
    · next h => exact .inl (by rw [List.map_cons, List.map_cons, h])
    · next h =>
      simp only [List.map_cons, List.mem_cons, List.cons_append, List.cons.injEq, true_and]
      rcases ih with hkeys | ⟨hnew, hkeys⟩
      · exact .inl hkeys
      · exact .inr ⟨fun hmem ↦ hmem.elim (fun heq ↦ h heq.symm) hnew, hkeys⟩

theorem nodup_setItem {α β : Type} [DecidableEq α] {k : α} {v : β} {d : List (α × β)}
    (h : (d.map Prod.fst).Nodup) : ((setItem k v d).map Prod.fst).Nodup := by
  rcases keys_setItem k v d with hkeys | ⟨hnew, hkeys⟩
  · rw [hkeys]
    exact h
  · rw [hkeys, List.nodup_append_comm]
    exact List.nodup_cons.mpr ⟨hnew, h⟩

namespace PyStr

theorem isDigit_of_mem_takeDigits (s : PyStr) : ∀ c ∈ (takeDigits s).1, c.isDigit = true := by
  induction s with
  | nil =>
    intro c hc
    cases hc
  | cons c rest ih =>
    cases c with
    | surrogate n =>
      intro c hc
      cases hc
    | char c =>
      rw [takeDigits]
      split
      · next hdigit =>
        intro d hd
        rcases List.mem_cons.mp hd with rfl | hd
        · exact hdigit
        · exact ih d hd
      · intro d hd
        cases hd

/-- Digits stand for a number with no more digits. -/
theorem ofDigits_lt {digits : List Char} (h : ∀ c ∈ digits, c.isDigit = true) :
    ofDigits digits < 10 ^ digits.length := by
  have hdigit : ∀ c : Char, c.isDigit = true → c.toNat - '0'.toNat ≤ 9 := by
    intro c hc
    have hle : c.toNat ≤ '9'.toNat := by
      simp only [Char.isDigit, Bool.and_eq_true, decide_eq_true_eq] at hc
      exact hc.2
    have hnine : '9'.toNat = 57 := rfl
    have hzero : '0'.toNat = 48 := rfl
    omega
  induction digits using List.reverseRecOn with
  | nil => exact Nat.one_pos
  | append_singleton ds c ih =>
    have hds := ih (fun d hd ↦ h d (List.mem_append_left _ hd))
    have hc := hdigit c (h c (List.mem_append_right _ (List.mem_singleton_self c)))
    rw [ofDigits, List.foldl_concat, ← ofDigits, List.length_append, List.length_singleton,
      Nat.pow_succ]
    omega

/-- The digits of an integer part. -/
theorem areDigits_of_scanInteger {s rest : PyStr} {digits : List Char}
    (h : scanInteger s = some (digits, rest)) : AreDigits digits := by
  unfold scanInteger at h
  split at h
  · obtain ⟨rfl, -⟩ := Prod.mk.inj (Option.some_inj.mp h)
    refine ⟨List.cons_ne_nil _ _, ?_⟩
    intro c hc
    rw [List.mem_singleton.mp hc]
    rfl
  · have hdigit := isDigit_of_mem_takeDigits s
    cases htake : takeDigits s with
    | mk ds rest' =>
      rw [htake] at h hdigit
      cases ds with
      | nil => cases h
      | cons d ds =>
        cases h
        exact ⟨List.cons_ne_nil _ _, hdigit⟩

end PyStr

namespace PyValue

open PyStr

variable {R : Type} {repr : R → List Char} {readFloat : List Char → PyFloat R}

/-- No dictionary of the value has a name twice. -/
inductive Distinct : PyValue R → Prop where
  | null : Distinct .null
  | bool (b : Bool) : Distinct (.bool b)
  | int (n : Int) : Distinct (.int n)
  | float (x : PyFloat R) : Distinct (.float x)
  | str (s : PyStr) : Distinct (.str s)
  | list {items : List (PyValue R)} (h : ∀ v ∈ items, Distinct v) : Distinct (.list items)
  | dict {members : List (PyStr × PyValue R)} (hnodup : (members.map Prod.fst).Nodup)
    (h : ∀ m ∈ members, Distinct m.2) : Distinct (.dict members)

/-- What is known of a value that was read. -/
structure Read (repr : R → List Char) (readFloat : List Char → PyFloat R) (depth : Nat)
    (v : PyValue R) : Prop where
  fits : Fits repr readFloat depth v
  distinct : Distinct v

/-- `float.__repr__` prints every number that `float` reads, and `float` reads it back. -/
def ReprReads (repr : R → List Char) (readFloat : List Char → PyFloat R) : Prop :=
  ∀ text, Reprints repr readFloat (readFloat text)

theorem read_matchNumber (hrepr : ReprReads repr readFloat) {depth : Nat} {s rest : PyStr}
    {v : PyValue R} (h : matchNumber readFloat s = .ok (v, rest)) :
    Read repr readFloat depth v := by
  unfold matchNumber at h
  dsimp only at h
  split at h
  · cases h
  · next digits rest' hinteger =>
    have hdigits := areDigits_of_scanInteger hinteger
    split at h
    · split at h
      · cases h
      · next hlength =>
        have hfits : (Nat.toDigits 10 (ofDigits digits)).length ≤ intMaxStrDigits := by
          refine Nat.le_trans ?_ (Nat.le_of_not_lt hlength)
          exact (Nat.length_toDigits_le_iff (by decide)
            (List.length_pos_of_ne_nil hdigits.nonempty)).mpr (ofDigits_lt hdigits.digit)
        cases h
        refine ⟨.int ?_, .int _⟩
        split
        · exact hfits
        · rw [Int.natAbs_neg]
          exact hfits
    · cases h
      exact ⟨.float (hrepr _), .float _⟩

theorem read_scanConstant {depth : Nat} {s rest : PyStr} {v : PyValue R}
    (h : scanConstant s = some (v, rest)) : Read repr readFloat depth v := by
  rw [scanConstant, List.findSome?_eq_some_iff] at h
  obtain ⟨_, ⟨name, value⟩, _, hnames, hword, -⟩ := h
  obtain ⟨rest', -, heq⟩ := Option.map_eq_some_iff.mp hword
  obtain ⟨rfl, -⟩ := Prod.mk.inj heq
  have hall : ∀ c ∈ (namedConstants : List (List Char × PyValue R)),
      Read repr readFloat depth c.2 := by
    intro c hc
    simp only [namedConstants, List.mem_cons, List.not_mem_nil, or_false] at hc
    rcases hc with rfl | rfl | rfl | rfl | rfl | rfl
    · exact ⟨.null, .null⟩
    · exact ⟨.bool _, .bool _⟩
    · exact ⟨.bool _, .bool _⟩
    · exact ⟨.float trivial, .float _⟩
    · exact ⟨.float trivial, .float _⟩
    · exact ⟨.float trivial, .float _⟩
  exact hall (name, value) (hnames ▸ List.mem_append_right _ (List.mem_cons_self ..))

/-- With this fuel, what a scan returns can be printed. -/
structure ReadsPrintable (repr : R → List Char) (readFloat : List Char → PyFloat R) (fuel : Nat) :
    Prop where
  once : ∀ depth s v rest, scanOnce readFloat fuel depth s = .ok (v, rest) →
    Read repr readFloat depth v
  array : ∀ depth items s v rest, (∀ x ∈ items, Read repr readFloat depth x) →
    parseArray readFloat fuel depth items s = .ok (v, rest) → Read repr readFloat (depth + 1) v
  object : ∀ depth members s v rest, (members.map Prod.fst).Nodup →
    (∀ m ∈ members, Read repr readFloat depth m.2) →
    parseObject readFloat fuel depth members s = .ok (v, rest) → Read repr readFloat (depth + 1) v

section ReadsPrintable

variable {fuel depth : Nat} {s rest : PyStr} {v : PyValue R}

theorem read_list {items : List (PyValue R)} (h : ∀ x ∈ items, Read repr readFloat depth x) :
    Read repr readFloat (depth + 1) (.list items) :=
  ⟨.list (fun x hx ↦ (h x hx).fits), .list (fun x hx ↦ (h x hx).distinct)⟩

theorem read_dict {members : List (PyStr × PyValue R)} (hnodup : (members.map Prod.fst).Nodup)
    (h : ∀ m ∈ members, Read repr readFloat depth m.2) :
    Read repr readFloat (depth + 1) (.dict members) :=
  ⟨.dict (fun m hm ↦ (h m hm).fits), .dict hnodup (fun m hm ↦ (h m hm).distinct)⟩

/-- A scan that succeeds has a first part that does. -/
theorem ok_of_bind {α β : Type} {x : Except LoadsError α} {f : α → Except LoadsError β} {b : β}
    (h : (x >>= f) = .ok b) : ∃ a, x = .ok a ∧ f a = .ok b := by
  cases x with
  | error e => cases h
  | ok a => exact ⟨a, rfl, h⟩

variable (hrepr : ReprReads repr readFloat) (h : ReadsPrintable repr readFloat fuel)
include h

include hrepr in
theorem ReadsPrintable.scanOnce_succ
    (hscan : scanOnce readFloat (fuel + 1) depth s = .ok (v, rest)) :
    Read repr readFloat depth v := by
  unfold scanOnce at hscan
  split at hscan
  · obtain ⟨⟨chars, rest'⟩, -, hok⟩ := ok_of_bind hscan
    cases hok
    exact ⟨.str _, .str _⟩
  · split at hscan
    · split at hscan
      · cases hscan
      · split at hscan
        · cases hscan
          exact read_dict List.nodup_nil (fun m hm ↦ by cases hm)
        · exact h.object _ [] _ _ _ List.nodup_nil (fun m hm ↦ by cases hm) hscan
    · split at hscan
      · split at hscan
        · cases hscan
        · split at hscan
          · cases hscan
            exact read_list (fun x hx ↦ by cases hx)
          · exact h.array _ [] _ _ _ (fun x hx ↦ by cases hx) hscan
      · split at hscan
        · next result hconstant =>
          cases hscan
          exact read_scanConstant hconstant
        · exact read_matchNumber hrepr hscan

theorem ReadsPrintable.parseArray_succ {items : List (PyValue R)}
    (hitems : ∀ x ∈ items, Read repr readFloat depth x)
    (hscan : parseArray readFloat (fuel + 1) depth items s = .ok (v, rest)) :
    Read repr readFloat (depth + 1) v := by
  unfold parseArray at hscan
  obtain ⟨⟨item, rest'⟩, honce, hok⟩ := ok_of_bind hscan
  have hall : ∀ x ∈ items ++ [item], Read repr readFloat depth x := by
    intro x hx
    rcases List.mem_append.mp hx with hx | hx
    · exact hitems x hx
    · exact List.mem_singleton.mp hx ▸ h.once _ _ _ _ honce
  dsimp only at hok
  split at hok
  · cases hok
    exact read_list hall
  · split at hok
    · exact h.array _ _ _ _ _ hall hok
    · cases hok

theorem ReadsPrintable.parseObject_succ {members : List (PyStr × PyValue R)}
    (hnodup : (members.map Prod.fst).Nodup)
    (hmembers : ∀ m ∈ members, Read repr readFloat depth m.2)
    (hscan : parseObject readFloat (fuel + 1) depth members s = .ok (v, rest)) :
    Read repr readFloat (depth + 1) v := by
  unfold parseObject at hscan
  split at hscan
  · cases hscan
  · obtain ⟨⟨name, rest₁⟩, -, hscan⟩ := ok_of_bind hscan
    dsimp only at hscan
    split at hscan
    · cases hscan
    · obtain ⟨⟨value, rest₂⟩, honce, hok⟩ := ok_of_bind hscan
      have hnodup' := nodup_setItem (k := name) (v := value) hnodup
      have hall : ∀ m ∈ setItem name value members, Read repr readFloat depth m.2 := by
        intro m hm
        rcases mem_setItem hm with rfl | hm
        · exact h.once _ _ _ _ honce
        · exact hmembers m hm
      dsimp only at hok
      split at hok
      · cases hok
        exact read_dict hnodup' hall
      · split at hok
        · exact h.object _ _ _ _ _ hnodup' hall hok
        · cases hok

end ReadsPrintable

theorem readsPrintable (hrepr : ReprReads repr readFloat) (fuel : Nat) :
    ReadsPrintable repr readFloat fuel := by
  induction fuel with
  | zero =>
    refine ⟨?_, ?_, ?_⟩
    · intro depth s v rest h
      rw [scanOnce] at h
      cases h
    · intro depth items s v rest _ h
      rw [parseArray] at h
      cases h
    · intro depth members s v rest _ _ h
      rw [parseObject] at h
      cases h
  | succ fuel ih =>
    exact ⟨fun _ _ _ _ h ↦ ih.scanOnce_succ hrepr h, fun _ _ _ _ _ hi h ↦ ih.parseArray_succ hi h,
      fun _ _ _ _ _ hn hm h ↦ ih.parseObject_succ hn hm h⟩

/-- What `json.loads` returns can be printed. -/
theorem read_of_loads (hrepr : ReprReads repr readFloat) {depth : Nat} {bytes : List UInt8}
    {v : PyValue R} (h : loads readFloat depth bytes = .ok v) : Read repr readFloat depth v := by
  unfold loads at h
  split at h
  · cases h
  · next s _ =>
    unfold decode at h
    obtain ⟨⟨value, rest⟩, honce, hok⟩ := ok_of_bind h
    dsimp only at hok
    split at hok
    · cases hok
      exact (readsPrintable hrepr _).once _ _ _ _ honce
    · cases hok

/-! ### Printing it again -/

theorem Fits.mono {d : Nat} {v : PyValue R} (h : Fits repr readFloat d v) :
    Fits repr readFloat (d + 1) v := by
  induction h with
  | null => exact .null
  | bool b => exact .bool b
  | int hn => exact .int hn
  | float hx => exact .float hx
  | str s => exact .str s
  | list _ ih => exact .list ih
  | dict _ ih => exact .dict ih

/-- No string of the value has a leading surrogate before a trailing one. -/
inductive Joined : PyValue R → Prop where
  | null : Joined .null
  | bool (b : Bool) : Joined (.bool b)
  | int (n : Int) : Joined (.int n)
  | float (x : PyFloat R) : Joined (.float x)
  | str {s : PyStr} (h : s.joined = s) : Joined (.str s)
  | list {items : List (PyValue R)} (h : ∀ v ∈ items, Joined v) : Joined (.list items)
  | dict {members : List (PyStr × PyValue R)} (hnames : ∀ m ∈ members, m.1.joined = m.1)
    (h : ∀ m ∈ members, Joined m.2) : Joined (.dict members)

/-- Such a value is read back as it is. -/
theorem reread_eq_self {v : PyValue R} (h : Distinct v) (hjoined : Joined v) : reread v = v := by
  induction h with
  | null => rw [reread]
  | bool b => rw [reread]
  | int n => rw [reread]
  | float x => rw [reread]
  | str s =>
    cases hjoined with
    | str hs => rw [reread, hs]
  | @list items _ ih =>
    cases hjoined with
    | list hitems =>
      have hsame : items.map reread = items := by
        conv_rhs => rw [← List.map_id items]
        exact List.map_congr_left (fun x hx ↦ ih x hx (hitems x hx))
      rw [reread, rereadItems_eq, hsame]
  | @dict members hnodup _ ih =>
    cases hjoined with
    | dict hnames hmembers =>
      have hsame : members.map (fun m ↦ (m.1.joined, reread m.2)) = members := by
        conv_rhs => rw [← List.map_id members]
        refine List.map_congr_left ?_
        intro m hm
        rw [hnames m hm, ih m hm (hmembers m hm)]
        rfl
      rw [reread, rereadMembers_eq, hsame, dictOf_eq hnodup]

/-- The value of a member that was read. -/
theorem read_of_lookup {depth : Nat} {members : List (PyStr × PyValue R)} {name : PyStr}
    {v : PyValue R} (h : Read repr readFloat depth (.dict members))
    (hv : members.lookup name = some v) :
    Read repr readFloat depth v := by
  obtain ⟨before, rest, rfl, -⟩ := List.lookup_eq_some_iff.mp hv
  have hmem : (name, v) ∈ before ++ (name, v) :: rest :=
    List.mem_append_right _ (List.mem_cons_self ..)
  refine ⟨?_, ?_⟩
  · cases h.fits with
    | dict hfits => exact (hfits _ hmem).mono
  · cases h.distinct with
    | dict _ hdistinct => exact hdistinct _ hmem

end PyValue

end PotholeServer
