import PotholeServer.Sql.Query

/-!
# Ranks in a stable sort

`numpy.argsort(.., kind="stable")` orders the indices of a list by value and then by index. The
place of an index is the number of those before it, so among distinct values it does not depend
on the indices at all.
-/

namespace PotholeServer.Stats

open Sql

variable {α : Type} [LinearOrder α]

/-- The order of a stable sort on values with their indices. -/
def Before (a b : α × Nat) : Prop := a.1 < b.1 ∨ a.1 = b.1 ∧ a.2 < b.2

instance (a b : α × Nat) : Decidable (Before a b) := by
  unfold Before
  infer_instance

theorem Before.trans {a b c : α × Nat} (hab : Before a b) (hbc : Before b c) : Before a c := by
  rcases hab with hab | ⟨hab, hindex⟩
  · exact .inl (hab.trans_le (hbc.elim le_of_lt (fun h ↦ h.1.le)))
  · rcases hbc with hbc | ⟨hbc, hindex'⟩
    · exact .inl (hab.trans_lt hbc)
    · exact .inr ⟨hab.trans hbc, hindex.trans hindex'⟩

theorem Before.irrefl (a : α × Nat) : ¬ Before a a := by
  simp [Before]

theorem Before.asymm {a b : α × Nat} (hab : Before a b) : ¬ Before b a :=
  fun hba ↦ Before.irrefl a (hab.trans hba)

/-- Of two different indices, one comes before the other. -/
theorem Before.total {a b : α × Nat} (hne : a.2 ≠ b.2) : Before a b ∨ Before b a := by
  unfold Before
  rcases lt_trichotomy a.1 b.1 with h | h | h
  · exact .inl (.inl h)
  · rcases Nat.lt_or_gt_of_ne hne with hindex | hindex
    · exact .inl (.inr ⟨h, hindex⟩)
    · exact .inr (.inr ⟨h.symm, hindex⟩)
  · exact .inr (.inl h)

/-- The values with their indices, in the order of the values. -/
def stableSort (values : List α) : List (α × Nat) := orderBy Prod.fst values.zipIdx

/-- `numpy.argsort(values, kind="stable")` -/
def argsort (values : List α) : List Nat := (stableSort values).map Prod.snd

/-- The number of indices before one of value `x`. -/
def rank (x : α × Nat) (l : List (α × Nat)) : Nat := l.countP (fun y ↦ Before y x)

theorem rank_perm {l l' : List (α × Nat)} (h : l.Perm l') (x : α × Nat) : rank x l = rank x l' :=
  h.countP_eq _

theorem pairwise_orderedInsert {a : α × Nat} {l : List (α × Nat)} (hl : l.Pairwise Before)
    (hindex : ∀ b ∈ l, a.2 < b.2) :
    (l.orderedInsert (fun x y ↦ x.1 ≤ y.1) a).Pairwise Before := by
  induction l with
  | nil => simp
  | cons b rest ih =>
    obtain ⟨hb, hrest⟩ := List.pairwise_cons.mp hl
    have hab : a.2 < b.2 := hindex b (List.mem_cons_self ..)
    rw [List.orderedInsert_cons]
    split
    case isTrue hle =>
      have hbefore : Before a b := (lt_or_eq_of_le hle).imp_right (fun h ↦ ⟨h, hab⟩)
      apply List.Pairwise.cons _ hl
      intro c hc
      rcases List.mem_cons.mp hc with rfl | hc
      · exact hbefore
      · exact hbefore.trans (hb c hc)
    case isFalse hlt =>
      apply List.Pairwise.cons _ (ih hrest (fun c hc ↦ hindex c (List.mem_cons_of_mem _ hc)))
      intro c hc
      rcases (List.mem_orderedInsert _).mp hc with rfl | hc
      · exact .inl (not_le.mp hlt)
      · exact hb c hc

theorem pairwise_orderBy {l : List (α × Nat)} (hindex : l.Pairwise (fun a b ↦ a.2 < b.2)) :
    (orderBy Prod.fst l).Pairwise Before := by
  induction l with
  | nil => exact List.Pairwise.nil
  | cons a rest ih =>
    obtain ⟨ha, hrest⟩ := List.pairwise_cons.mp hindex
    apply pairwise_orderedInsert (ih hrest)
    intro b hb
    exact ha b (mem_orderBy.mp hb)

theorem pairwise_stableSort (values : List α) : (stableSort values).Pairwise Before := by
  apply pairwise_orderBy
  have hsnd : (values.zipIdx.map Prod.snd).Pairwise (· < ·) := by
    rw [List.zipIdx_map_snd]
    exact List.pairwise_lt_range'
  exact List.pairwise_map.mp hsnd

/-- In a sorted list, every element stands at its rank. -/
theorem getElem?_rank {l : List (α × Nat)} (hl : l.Pairwise Before) {x : α × Nat} (hx : x ∈ l) :
    l[rank x l]? = some x := by
  induction l with
  | nil => cases hx
  | cons a rest ih =>
    obtain ⟨ha, hrest⟩ := List.pairwise_cons.mp hl
    by_cases hax : a = x
    · subst hax
      have hzero : rank a (a :: rest) = 0 := by
        rw [rank, List.countP_eq_zero]
        intro b hb
        rcases List.mem_cons.mp hb with rfl | hb
        · simpa using Before.irrefl b
        · simpa using (ha b hb).asymm
      rw [hzero]
      rfl
    · have hmem : x ∈ rest := (List.mem_cons.mp hx).resolve_left (fun h ↦ hax h.symm)
      have hsucc : rank x (a :: rest) = rank x rest + 1 := by
        simp [rank, ha x hmem]
      rw [hsucc, List.getElem?_cons_succ]
      exact ih hrest hmem

/-- Every index stands at its rank in the sorted indices. -/
theorem getElem?_argsort {values : List α} {i : Nat} {x : α} (hx : values[i]? = some x) :
    (argsort values)[rank (x, i) values.zipIdx]? = some i := by
  have hmem : (x, i) ∈ values.zipIdx := List.mem_zipIdx_iff_getElem?.mpr hx
  rw [argsort, List.getElem?_map, rank_perm (orderBy_perm Prod.fst values.zipIdx).symm,
    ← stableSort, getElem?_rank (pairwise_stableSort values) (mem_orderBy.mpr hmem)]
  rfl

theorem nodup_argsort (values : List α) : (argsort values).Nodup := by
  have hperm : (argsort values).Perm (values.zipIdx.map Prod.snd) :=
    (orderBy_perm Prod.fst values.zipIdx).map Prod.snd
  rw [hperm.nodup_iff, List.zipIdx_map_snd]
  exact List.nodup_range'

/-- Among distinct values, a rank counts the smaller values. -/
theorem rank_eq_countP {values : List α} (hnodup : values.Nodup) {i : Nat} {x : α}
    (hx : values[i]? = some x) :
    rank (x, i) values.zipIdx = values.countP (fun y ↦ y < x) := by
  have hfst : values.countP (fun y ↦ y < x) =
      values.zipIdx.countP (fun p ↦ p.1 < x) := by
    conv_lhs => rw [← List.zipIdx_map_fst 0 values, List.countP_map]
    rfl
  rw [hfst, rank]
  apply List.countP_congr
  rintro ⟨y, j⟩ hy
  rw [List.mem_zipIdx_iff_getElem?] at hy
  have hindex : y = x → j = i := by
    rintro rfl
    exact (List.getElem?_inj (List.getElem?_eq_some_iff.mp hy).1 hnodup).mp (hy.trans hx.symm)
  rw [decide_eq_true_eq, decide_eq_true_eq]
  constructor
  · rintro (h | ⟨h, hlt⟩)
    · exact h
    · exact absurd (hindex h) hlt.ne
  · exact .inl

theorem mem_argsort {values : List α} {i : Nat} : i ∈ argsort values ↔ i < values.length := by
  have hperm : (argsort values).Perm (values.zipIdx.map Prod.snd) :=
    (orderBy_perm Prod.fst values.zipIdx).map Prod.snd
  rw [hperm.mem_iff, List.zipIdx_map_snd, List.mem_range'_1]
  omega

/-- An index that comes before another has no higher rank. -/
theorem rank_le_rank {a b : α × Nat} (hab : Before a b) (l : List (α × Nat)) :
    rank a l ≤ rank b l := by
  apply List.countP_mono_left
  intro c _ hc
  rw [decide_eq_true_eq] at hc ⊢
  exact hc.trans hab

omit [LinearOrder α] in
theorem eq_of_mem_zipIdx {values : List α} {i : Nat} {x : α} (hx : values[i]? = some x)
    {y : α × Nat} (hy : y ∈ values.zipIdx) (hi : y.2 = i) : y = (x, i) := by
  rw [List.mem_zipIdx_iff_getElem?, hi, hx] at hy
  exact Prod.ext (Option.some.inj hy).symm hi

/-- The index of the one smallest value has rank 0. -/
theorem rank_of_least {values : List α} {i : Nat} {x : α} (hx : values[i]? = some x)
    (hleast : ∀ y ∈ values.zipIdx, y.2 ≠ i → x < y.1) : rank (x, i) values.zipIdx = 0 := by
  rw [rank, List.countP_eq_zero]
  intro y hy
  rw [decide_eq_true_eq]
  by_cases hi : y.2 = i
  · rw [eq_of_mem_zipIdx hx hy hi]
    exact Before.irrefl _
  · exact Before.asymm (.inl (hleast y hy hi))

/-- The index of the one greatest value has the last rank. -/
theorem rank_of_greatest {values : List α} {i : Nat} {x : α} (hx : values[i]? = some x)
    (hgreatest : ∀ y ∈ values.zipIdx, y.2 ≠ i → y.1 < x) :
    rank (x, i) values.zipIdx + 1 = values.length := by
  have hmem : (x, i) ∈ values.zipIdx := List.mem_zipIdx_iff_getElem?.mpr hx
  have hnodup : values.zipIdx.Nodup := by
    have hsnd : (values.zipIdx.map Prod.snd).Nodup := by
      rw [List.zipIdx_map_snd]
      exact List.nodup_range'
    exact hsnd.of_map
  -- The index itself is the one that does not come before it.
  have hself : values.zipIdx.countP (fun y ↦ ¬decide (Before y (x, i)) = true) = 1 := by
    rw [← List.count_eq_one_of_mem hnodup hmem, List.count]
    apply List.countP_congr
    intro y hy
    rw [decide_eq_true_eq, decide_eq_true_eq, beq_iff_eq]
    constructor
    · intro hbefore
      by_contra hne
      have hi : y.2 ≠ i := fun hi ↦ hne (eq_of_mem_zipIdx hx hy hi)
      exact hbefore (.inl (hgreatest y hy hi))
    · rintro rfl
      exact Before.irrefl _
  have hsplit := List.length_eq_countP_add_countP (fun y ↦ decide (Before y (x, i)))
    (l := values.zipIdx)
  rw [hself, List.length_zipIdx] at hsplit
  exact hsplit.symm

/-- Three indices are ranked 0, 1 and 2 exactly when each comes before the next. -/
theorem rank_three {l : List (α × Nat)} {a b c : α × Nat} (hl : l.Perm [a, b, c])
    (hab : a.2 ≠ b.2) (hbc : b.2 ≠ c.2) :
    (rank a l = 0 ∧ rank b l = 1 ∧ 2 ≤ rank c l) ↔ Before a b ∧ Before b c := by
  rw [rank_perm hl, rank_perm hl, rank_perm hl]
  have hirrefl : ∀ x : α × Nat, decide (Before x x) = false := by simp [Before.irrefl]
  constructor
  · rintro ⟨ha, hb, -⟩
    have hba : ¬Before b a := by
      simp only [rank, List.countP_eq_zero, decide_eq_true_eq] at ha
      exact ha b (by simp)
    have hbefore : Before a b := (Before.total hab).resolve_right hba
    refine ⟨hbefore, (Before.total hbc).resolve_right (fun hcb ↦ ?_)⟩
    simp [rank, hirrefl, hbefore, hcb] at hb
  · rintro ⟨h, h'⟩
    have h'' := h.trans h'
    simp [rank, hirrefl, h, h', h'', h.asymm, h'.asymm, h''.asymm]

end PotholeServer.Stats
