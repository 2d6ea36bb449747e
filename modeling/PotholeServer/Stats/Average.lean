import Mathlib.Algebra.BigOperators.Ring.List
import Mathlib.Algebra.Order.BigOperators.Group.List
import Mathlib.Algebra.Order.Field.Basic
import Mathlib.Data.Nat.Cast.Order.Ring
import Mathlib.Order.Interval.Set.Defs
import Mathlib.Tactic.Linarith

/-!
# Averages between their values

A mean with positive weights has a value on each side of it; so it lies inside every bound on the
values, and a mean of points lies in their bounding box. The same for a plain mean and for a point
between two others.
-/

namespace PotholeServer.Stats

variable {α R : Type} [Field R] [LinearOrder R] {f w : α → R} {xs : List α} {c : R}

/-- The mean of `f` over the elements, each weighted by `w`. -/
def weightedAverage (f w : α → R) (xs : List α) : R :=
  (xs.map (fun x ↦ f x * w x)).sum / (xs.map w).sum

/-- The mean of the values. -/
def average (xs : List R) : R := xs.sum / xs.length

variable [IsStrictOrderedRing R]

theorem sum_weights_pos (hne : xs ≠ []) (hw : ∀ x ∈ xs, 0 < w x) : 0 < (xs.map w).sum := by
  apply List.sum_pos
  · intro y hy
    obtain ⟨x, hx, rfl⟩ := List.mem_map.mp hy
    exact hw x hx
  · simpa using hne

/-- Values above a bound have their mean above it. -/
theorem lt_weightedAverage (hne : xs ≠ []) (hw : ∀ x ∈ xs, 0 < w x) (h : ∀ x ∈ xs, c < f x) :
    c < weightedAverage f w xs := by
  rw [weightedAverage, lt_div_iff₀ (sum_weights_pos hne hw), ← List.sum_map_mul_left]
  apply List.sum_lt_sum_of_ne_nil hne
  intro x hx
  exact mul_lt_mul_of_pos_right (h x hx) (hw x hx)

/-- Values below a bound have their mean below it. -/
theorem weightedAverage_lt (hne : xs ≠ []) (hw : ∀ x ∈ xs, 0 < w x) (h : ∀ x ∈ xs, f x < c) :
    weightedAverage f w xs < c := by
  rw [weightedAverage, div_lt_iff₀ (sum_weights_pos hne hw), ← List.sum_map_mul_left]
  apply List.sum_lt_sum_of_ne_nil hne
  intro x hx
  exact mul_lt_mul_of_pos_right (h x hx) (hw x hx)

/-- Some value is at most the mean. -/
theorem exists_le_weightedAverage (hne : xs ≠ []) (hw : ∀ x ∈ xs, 0 < w x) :
    ∃ x ∈ xs, f x ≤ weightedAverage f w xs := by
  by_contra hnone
  push Not at hnone
  exact lt_irrefl _ (lt_weightedAverage hne hw hnone)

/-- Some value is at least the mean. -/
theorem exists_weightedAverage_le (hne : xs ≠ []) (hw : ∀ x ∈ xs, 0 < w x) :
    ∃ x ∈ xs, weightedAverage f w xs ≤ f x := by
  by_contra hnone
  push Not at hnone
  exact lt_irrefl _ (weightedAverage_lt hne hw hnone)

theorem average_mem_Icc {values : List R} {a b : R} (hne : values ≠ [])
    (h : ∀ x ∈ values, x ∈ Set.Icc a b) : average values ∈ Set.Icc a b := by
  have hlength : 0 < (values.length : R) := by
    rw [Nat.cast_pos]
    exact List.length_pos_iff.mpr hne
  constructor
  · rw [average, le_div_iff₀ hlength, mul_comm, ← nsmul_eq_mul]
    exact List.card_nsmul_le_sum values a (fun x hx ↦ (h x hx).1)
  · rw [average, div_le_iff₀ hlength, mul_comm, ← nsmul_eq_mul]
    exact List.sum_le_card_nsmul values b (fun x hx ↦ (h x hx).2)

/-- The midpoint of two values in an interval. -/
theorem midpoint_mem_Icc {x y a b : R} (hx : x ∈ Set.Icc a b) (hy : y ∈ Set.Icc a b) :
    x + (y - x) * (1 / 2) ∈ Set.Icc a b := by
  obtain ⟨hax, hxb⟩ := hx
  obtain ⟨hay, hyb⟩ := hy
  constructor
  · linarith
  · linarith

end PotholeServer.Stats
