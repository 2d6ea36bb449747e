import Mathlib.Algebra.Order.BigOperators.Group.List
import Mathlib.Algebra.Order.Monoid.Unbundled.Pow
import Mathlib.Data.Fintype.Card
import Mathlib.Data.List.Induction
import Mathlib.Data.List.Nodup

/-!
# Tallies

Sums grouped by a label in a dictionary that keeps insertion order. The dictionary holds each
label of the items once, with the mass of that label, so it is the same up to order for every
order of the items. A maximum of a dictionary is the first entry of maximal value.
-/

namespace PotholeServer.Stats

variable {κ R : Type}

section Sums

variable [DecidableEq κ] [AddCommMonoid R]

/-- `d[c] = d.get(c, 0) + x` -/
def add (c : κ) (x : R) : List (κ × R) → List (κ × R)
  | [] => [(c, 0 + x)]
  | (d, y) :: rest => if d = c then (d, y + x) :: rest else (d, y) :: add c x rest

/-- The dictionary of all sums, filled item by item. -/
def tally (items : List (κ × R)) : List (κ × R) :=
  items.foldl (fun acc p ↦ add p.1 p.2 acc) []

/-- The sum of the items with a label. -/
def mass (items : List (κ × R)) (c : κ) : R :=
  ((items.filter (fun p ↦ p.1 = c)).map Prod.snd).sum

@[simp] theorem mass_nil (c : κ) : mass ([] : List (κ × R)) c = 0 := rfl

@[simp] theorem mass_cons (p : κ × R) (items : List (κ × R)) (c : κ) :
    mass (p :: items) c = (if p.1 = c then p.2 else 0) + mass items c := by
  unfold mass
  by_cases h : p.1 = c <;> simp [h]

theorem mass_eq_zero {items : List (κ × R)} {c : κ} (h : c ∉ items.map Prod.fst) :
    mass items c = 0 := by
  have hnone : items.filter (fun p ↦ p.1 = c) = [] := by
    rw [List.filter_eq_nil_iff]
    intro p hp hpc
    exact h (List.mem_map.mpr ⟨p, hp, by simpa using hpc⟩)
  rw [mass, hnone]
  rfl

/-- The mass of a label does not depend on the order of the items. -/
theorem mass_perm {items items' : List (κ × R)} (h : items.Perm items') (c : κ) :
    mass items c = mass items' c :=
  ((h.filter _).map Prod.snd).sum_eq

/-- Every item adds its value to the mass of its label alone. -/
theorem mass_add (c d : κ) (x : R) (acc : List (κ × R)) :
    mass (add c x acc) d = mass acc d + if c = d then x else 0 := by
  induction acc with
  | nil => simp [add]
  | cons p rest ih =>
    by_cases hc : p.1 = c
    · by_cases hd : p.1 = d
      · simp [add, ← hc, hd, add_right_comm]
      · simp [add, ← hc, hd]
    · simp [add, hc, ih, add_assoc]

theorem sum_add (c : κ) (x : R) (acc : List (κ × R)) :
    ((add c x acc).map Prod.snd).sum = (acc.map Prod.snd).sum + x := by
  induction acc with
  | nil => simp [add]
  | cons p rest ih =>
    by_cases hc : p.1 = c
    · simp [add, hc, add_right_comm]
    · simp [add, hc, ih, add_assoc]

theorem keys_add (c : κ) (x : R) (acc : List (κ × R)) :
    (add c x acc).map Prod.fst =
      if c ∈ acc.map Prod.fst then acc.map Prod.fst else acc.map Prod.fst ++ [c] := by
  induction acc with
  | nil => simp [add]
  | cons p rest ih =>
    by_cases hc : p.1 = c
    · simp [add, hc]
    · have hc' : ¬ c = p.1 := fun h ↦ hc h.symm
      by_cases hrest : c ∈ rest.map Prod.fst
      · simp [add, hc, hc', ih, hrest]
      · simp [add, hc, hc', ih, hrest]

theorem mem_keys_add {c d : κ} {x : R} {acc : List (κ × R)} :
    d ∈ (add c x acc).map Prod.fst ↔ d ∈ acc.map Prod.fst ∨ d = c := by
  rw [keys_add]
  split
  case isTrue hmem => exact ⟨.inl, fun h ↦ h.elim id (fun hd ↦ hd ▸ hmem)⟩
  case isFalse => simp

theorem nodup_keys_add {c : κ} {x : R} {acc : List (κ × R)} (h : (acc.map Prod.fst).Nodup) :
    ((add c x acc).map Prod.fst).Nodup := by
  rw [keys_add]
  split
  case isTrue => exact h
  case isFalse hmem => exact List.nodup_append_comm.mpr (List.nodup_cons.mpr ⟨hmem, h⟩)

theorem tally_concat (items : List (κ × R)) (p : κ × R) :
    tally (items ++ [p]) = add p.1 p.2 (tally items) := by
  simp [tally]

theorem nodup_keys_tally (items : List (κ × R)) : ((tally items).map Prod.fst).Nodup := by
  induction items using List.reverseRecOn with
  | nil => exact List.nodup_nil
  | append_singleton items p ih =>
    rw [tally_concat]
    exact nodup_keys_add ih

/-- The labels of a tally are those of its items. -/
theorem mem_keys_tally {items : List (κ × R)} {c : κ} :
    c ∈ (tally items).map Prod.fst ↔ c ∈ items.map Prod.fst := by
  induction items using List.reverseRecOn with
  | nil => rfl
  | append_singleton items p ih =>
    rw [tally_concat, mem_keys_add, ih]
    simp

/-- A tally keeps the mass of every label. -/
theorem mass_tally (items : List (κ × R)) (c : κ) : mass (tally items) c = mass items c := by
  induction items using List.reverseRecOn with
  | nil => rfl
  | append_singleton items p ih =>
    rw [tally_concat, mass_add, ih, mass_perm (List.perm_append_singleton p items), mass_cons,
      add_comm]

theorem sum_tally (items : List (κ × R)) :
    ((tally items).map Prod.snd).sum = (items.map Prod.snd).sum := by
  induction items using List.reverseRecOn with
  | nil => rfl
  | append_singleton items p ih =>
    rw [tally_concat, sum_add, ih]
    simp

/-- In a dictionary, an entry is its label with the mass of the label. -/
theorem mem_iff_mass {d : List (κ × R)} (hnodup : (d.map Prod.fst).Nodup) {c : κ} {x : R} :
    (c, x) ∈ d ↔ c ∈ d.map Prod.fst ∧ x = mass d c := by
  induction d with
  | nil => simp
  | cons p rest ih =>
    obtain ⟨e, y⟩ := p
    obtain ⟨he, hrest⟩ := List.nodup_cons.mp hnodup
    by_cases hc : e = c
    · subst hc
      have hother : (e, x) ∉ rest := fun h ↦ he (List.mem_map.mpr ⟨_, h, rfl⟩)
      rw [mass_cons, if_pos rfl, mass_eq_zero he, add_zero, List.mem_cons, or_iff_left hother]
      simp
    · have hne : (c, x) ≠ (e, y) := fun h ↦ hc (congrArg Prod.fst h).symm
      have hne' : ¬ c = e := fun h ↦ hc h.symm
      rw [mass_cons, if_neg hc, zero_add, List.mem_cons, or_iff_right hne, ih hrest,
        List.map_cons, List.mem_cons, or_iff_right hne']

theorem lookup_getD {d : List (κ × R)} (hnodup : (d.map Prod.fst).Nodup) (c : κ) :
    (d.lookup c).getD 0 = mass d c := by
  induction d with
  | nil => rfl
  | cons p rest ih =>
    obtain ⟨e, y⟩ := p
    obtain ⟨he, hrest⟩ := List.nodup_cons.mp hnodup
    by_cases hc : e = c
    · subst hc
      simp [mass_eq_zero he]
    · have hc' : (c == e) = false := beq_eq_false_iff_ne.mpr (fun h ↦ hc h.symm)
      simp [hc, hc', List.lookup_cons, ih hrest]

/-- Items in another order give the same dictionary in another order. -/
theorem tally_perm {items items' : List (κ × R)} (h : items.Perm items') :
    (tally items).Perm (tally items') := by
  rw [List.perm_ext_iff_of_nodup (List.Nodup.of_map _ (nodup_keys_tally items))
    (List.Nodup.of_map _ (nodup_keys_tally items'))]
  rintro ⟨c, x⟩
  rw [mem_iff_mass (nodup_keys_tally items), mem_iff_mass (nodup_keys_tally items'),
    mem_keys_tally, mem_keys_tally, mass_tally, mass_tally, (h.map Prod.fst).mem_iff,
    mass_perm h]

end Sums

section Order

variable [AddCommMonoid R] [LinearOrder R] [IsOrderedAddMonoid R]

/-- A dictionary over finitely many labels sums to at most the maximum, once for each label. -/
theorem sum_le_card_nsmul [Fintype κ] {d : List (κ × R)} (hnodup : (d.map Prod.fst).Nodup) {x : R}
    (hx : 0 ≤ x) (h : ∀ p ∈ d, p.2 ≤ x) : (d.map Prod.snd).sum ≤ Fintype.card κ • x := by
  have hlength : d.length ≤ Fintype.card κ := by
    simpa using hnodup.length_le_card
  have hsum : (d.map Prod.snd).sum ≤ (d.map Prod.snd).length • x := by
    apply List.sum_le_card_nsmul
    intro y hy
    obtain ⟨p, hp, rfl⟩ := List.mem_map.mp hy
    exact h p hp
  rw [List.length_map] at hsum
  exact hsum.trans (nsmul_le_nsmul_left hx hlength)

variable [DecidableEq κ]

theorem mass_nonneg {items : List (κ × R)} (h : ∀ p ∈ items, 0 ≤ p.2) (c : κ) :
    0 ≤ mass items c := by
  apply List.sum_nonneg
  intro x hx
  obtain ⟨p, hp, rfl⟩ := List.mem_map.mp hx
  exact h p (List.mem_of_mem_filter hp)

/-- The masses of two labels are parts of the whole. -/
theorem mass_add_mass_le {items : List (κ × R)} (h : ∀ p ∈ items, 0 ≤ p.2) {c d : κ}
    (hne : c ≠ d) : mass items c + mass items d ≤ (items.map Prod.snd).sum := by
  induction items with
  | nil => simp
  | cons p rest ih =>
    have hp : 0 ≤ p.2 := h p (List.mem_cons_self ..)
    have hrest := ih (fun q hq ↦ h q (List.mem_cons_of_mem _ hq))
    have hparts : (if p.1 = c then p.2 else 0) + (if p.1 = d then p.2 else 0) ≤ p.2 := by
      by_cases hc : p.1 = c
      · simp [hc, hne]
      · by_cases hd : p.1 = d <;> simp [hc, hd, hp, hne.symm]
    rw [mass_cons, mass_cons, List.map_cons, List.sum_cons, add_add_add_comm]
    exact add_le_add hparts hrest

end Order

section FirstMax

variable [LinearOrder R]

/-- `max(d, key=d.get)`: the label of the first entry of maximal value. -/
def firstMax (best : κ × R) : List (κ × R) → κ
  | [] => best.1
  | p :: rest => if best.2 < p.2 then firstMax p rest else firstMax best rest

theorem exists_firstMax (best : κ × R) (rest : List (κ × R)) :
    ∃ x, (firstMax best rest, x) ∈ best :: rest ∧ ∀ p ∈ best :: rest, p.2 ≤ x := by
  induction rest generalizing best with
  | nil => exact ⟨best.2, List.mem_singleton.mpr rfl, by simp⟩
  | cons p rest ih =>
    unfold firstMax
    split
    case isTrue hlt =>
      obtain ⟨x, hmem, hmax⟩ := ih p
      refine ⟨x, List.mem_cons_of_mem _ hmem, ?_⟩
      rintro q (_ | ⟨_, hq⟩)
      · exact hlt.le.trans (hmax p (List.mem_cons_self ..))
      · exact hmax q hq
    case isFalse hle =>
      obtain ⟨x, hmem, hmax⟩ := ih best
      have hbest : best.2 ≤ x := hmax best (List.mem_cons_self ..)
      refine ⟨x, ?_, ?_⟩
      · rcases List.mem_cons.mp hmem with h | h
        · rw [h]
          exact List.mem_cons_self ..
        · exact List.mem_cons_of_mem _ (List.mem_cons_of_mem _ h)
      · rintro q (_ | ⟨_, _ | ⟨_, hq⟩⟩)
        · exact hbest
        · exact (not_lt.mp hle).trans hbest
        · exact hmax q (List.mem_cons_of_mem _ hq)

/-- A label above all others is the maximum, wherever it stands. -/
theorem firstMax_eq {best : κ × R} {rest : List (κ × R)} {c : κ} {x : R}
    (hmem : (c, x) ∈ best :: rest) (habove : ∀ p ∈ best :: rest, p.1 ≠ c → p.2 < x) :
    firstMax best rest = c := by
  obtain ⟨y, hy, hmax⟩ := exists_firstMax best rest
  by_contra hne
  exact absurd (habove _ hy hne) (not_lt.mpr (hmax _ hmem))

end FirstMax

end PotholeServer.Stats
