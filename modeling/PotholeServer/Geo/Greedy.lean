import Mathlib.Data.List.Perm.Subperm
import Mathlib.Data.List.Nodup
import Mathlib.Data.List.Forall2
import Mathlib.Data.List.Induction

/-!
# Greedy matching

Positions choose in turn among the items that none before them has taken. When every item has a
place and a choice at a place always is an untaken item of that place, the choices at all the
places, in any order of equal ones, take every item once.
-/

namespace PotholeServer.Geo

variable {I P : Type}

/-- Each position in turn picks an item that is not taken yet, or none. -/
def greedy (pick : List I → P → Option I) (xs : List P) : List I :=
  xs.foldl (fun taken x ↦ taken ++ (pick taken x).toList) []

/-- A choice is an untaken item of its place, as long as there is one. -/
def PicksAtPlace (pick : List I → P → Option I) (places : List (I × P)) : Prop :=
  ∀ taken i x, (i, x) ∈ places → i ∉ taken →
    ∃ j, pick taken x = some j ∧ (j, x) ∈ places ∧ j ∉ taken

/-- The items are at these positions. -/
abbrev At (places : List (I × P)) (items : List I) (xs : List P) : Prop :=
  List.Forall₂ (fun i x ↦ (i, x) ∈ places) items xs

variable {pick : List I → P → Option I} {places : List (I × P)} {items : List I} {xs : List P}

theorem greedy_concat (xs : List P) (x : P) :
    greedy pick (xs ++ [x]) = greedy pick xs ++ (pick (greedy pick xs) x).toList := by
  rw [greedy, List.foldl_append]
  rfl

/-- An item has one place. -/
theorem eq_of_place (hnodup : (places.map Prod.fst).Nodup) {i : I} {x y : P}
    (hx : (i, x) ∈ places) (hy : (i, y) ∈ places) : x = y := by
  have hsame := List.inj_on_of_nodup_map hnodup hx hy rfl
  exact congrArg Prod.snd hsame

theorem At.mem (h : At places items xs) {i : I} (hi : i ∈ items) : i ∈ places.map Prod.fst := by
  induction h with
  | nil => cases hi
  | cons hplace _ ih =>
    rcases List.mem_cons.mp hi with rfl | hi
    · exact List.mem_map_of_mem (f := Prod.fst) hplace
    · exact ih hi

variable [DecidableEq I] [DecidableEq P]

/-- As many of the items are at a place as there are positions equal to it. -/
theorem At.length_filter (h : At places items xs) (hnodup : (places.map Prod.fst).Nodup) (x : P) :
    (items.filter (fun i ↦ (i, x) ∈ places)).length = xs.count x := by
  induction h with
  | nil => rfl
  | @cons i y items xs hplace _ ih =>
    by_cases hx : y = x
    · subst hx
      rw [List.filter_cons_of_pos (by simpa using hplace), List.count_cons_self, List.length_cons,
        ih]
    · have hout : (i, x) ∉ places := fun hi ↦ hx (eq_of_place hnodup hplace hi)
      rw [List.filter_cons_of_neg (by simpa using hout), List.count_cons_of_ne hx, ih]

/-- A place that is asked for less often than it has items has one left. -/
theorem exists_untaken (h : At places items xs) (hnodup : (places.map Prod.fst).Nodup) {x : P}
    (hcount : xs.count x < (places.map Prod.snd).count x) :
    ∃ i, (i, x) ∈ places ∧ i ∉ items := by
  by_contra hnone
  have hall : ∀ i, (i, x) ∈ places → i ∈ items := by
    intro i hi
    by_contra hout
    exact hnone ⟨i, hi, hout⟩
  set here := (places.filter (fun p ↦ p.2 = x)).map Prod.fst with hhere
  have hhereNodup : here.Nodup := (List.filter_sublist.map Prod.fst).nodup hnodup
  have hsub : here ⊆ items.filter (fun i ↦ (i, x) ∈ places) := by
    intro i hi
    obtain ⟨⟨i, y⟩, hp, rfl⟩ := List.mem_map.mp hi
    obtain ⟨hplace, hy⟩ := List.mem_filter.mp hp
    have hyx : y = x := of_decide_eq_true hy
    subst hyx
    exact List.mem_filter.mpr ⟨hall i hplace, decide_eq_true hplace⟩
  have hlength : here.length = (places.map Prod.snd).count x := by
    rw [hhere, List.length_map, List.count_eq_countP, List.countP_map, List.countP_eq_length_filter]
    congr 1
  have hle := (List.subperm_of_subset hhereNodup hsub).length_le
  rw [h.length_filter hnodup, hlength] at hle
  exact Nat.lt_irrefl _ (Nat.lt_of_lt_of_le hcount hle)

/-- As long as no place is asked for more often than it has items, every position takes an item of
its place, and no item is taken twice. -/
theorem greedy_at (hnodup : (places.map Prod.fst).Nodup) (hpick : PicksAtPlace pick places)
    (hcount : ∀ x, xs.count x ≤ (places.map Prod.snd).count x) :
    (greedy pick xs).Nodup ∧ At places (greedy pick xs) xs := by
  induction xs using List.reverseRec with
  | nil => exact ⟨List.nodup_nil, List.Forall₂.nil⟩
  | append_singleton xs x ih =>
    have hfewer : ∀ y, xs.count y ≤ (places.map Prod.snd).count y := by
      intro y
      have hmore := hcount y
      rw [List.count_append] at hmore
      exact Nat.le_of_add_right_le hmore
    obtain ⟨htaken, hat⟩ := ih hfewer
    have hroom : xs.count x < (places.map Prod.snd).count x := by
      refine Nat.lt_of_lt_of_le ?_ (hcount x)
      rw [List.count_append, List.count_singleton_self]
      exact Nat.lt_succ_self _
    obtain ⟨i, hi, hout⟩ := exists_untaken hat hnodup hroom
    obtain ⟨j, hj, hplace, hnew⟩ := hpick _ i x hi hout
    rw [greedy_concat, hj]
    constructor
    · rw [Option.toList_some, ← List.concat_eq_append]
      exact htaken.concat hnew
    · exact List.rel_append hat (.cons hplace .nil)

/-- Asked for all the places, greedy matching takes every item once. -/
theorem greedy_perm (hnodup : (places.map Prod.fst).Nodup) (hpick : PicksAtPlace pick places) :
    (greedy pick (places.map Prod.snd)).Perm (places.map Prod.fst) := by
  obtain ⟨htaken, hat⟩ := greedy_at hnodup hpick (fun _ ↦ Nat.le_refl _)
  refine (List.subperm_of_subset htaken (fun i hi ↦ hat.mem hi)).perm_of_length_le ?_
  have hlength := hat.length_eq
  rw [List.length_map] at hlength ⊢
  exact Nat.le_of_eq hlength.symm

omit [DecidableEq I] [DecidableEq P] in
/-- Different places have one item each. -/
theorem At.eq_map_fst (hplaces : (places.map Prod.snd).Nodup) {ps : List (I × P)}
    (hsub : ∀ p ∈ ps, p ∈ places) (h : At places items (ps.map Prod.snd)) :
    items = ps.map Prod.fst := by
  induction ps generalizing items with
  | nil => exact List.forall₂_nil_right_iff.mp h
  | cons p ps ih =>
    obtain ⟨i, items', hplace, hrest, rfl⟩ := List.forall₂_cons_right_iff.mp h
    have hsame : (i, p.2) = p :=
      List.inj_on_of_nodup_map hplaces hplace (hsub p (List.mem_cons_self ..)) rfl
    have hrest' := ih (fun q hq ↦ hsub q (List.mem_cons_of_mem _ hq)) hrest
    rw [hrest', List.map_cons, ← congrArg Prod.fst hsame]

/-- Asked for different places, greedy matching takes the items in their order. -/
theorem greedy_eq (hnodup : (places.map Prod.fst).Nodup) (hpick : PicksAtPlace pick places)
    (hplaces : (places.map Prod.snd).Nodup) :
    greedy pick (places.map Prod.snd) = places.map Prod.fst :=
  (greedy_at hnodup hpick (fun _ ↦ Nat.le_refl _)).2.eq_map_fst hplaces (fun _ hp ↦ hp)

end PotholeServer.Geo
