import PotholeServer.Sql.Query

/-!
# Order statistics

The value in a place of a sorted list reaches a bound exactly if no more values than that are below
the bound. So it can be told from counts which of several values a median falls on, such as a
default that stands for missing values.
-/

namespace PotholeServer.Stats

open Sql

variable {α : Type} [LinearOrder α]

/-- In a sorted list the values below a bound come first. -/
theorem le_iff_countP_le {l : List α} (hl : l.Pairwise (· ≤ ·)) {i : Nat} {x : α}
    (hx : l[i]? = some x) (c : α) : c ≤ x ↔ l.countP (· < c) ≤ i := by
  induction l generalizing i with
  | nil => cases hx
  | cons a l ih =>
    obtain ⟨ha, hl⟩ := List.pairwise_cons.mp hl
    by_cases hac : a < c
    · have hcount : (a :: l).countP (· < c) = l.countP (· < c) + 1 := by simp [hac]
      rw [hcount]
      cases i with
      | zero =>
        obtain rfl : a = x := by simpa using hx
        simp [hac]
      | succ i =>
        rw [List.getElem?_cons_succ] at hx
        rw [ih hl hx, Nat.add_le_add_iff_right]
    · have hnone : (a :: l).countP (· < c) = 0 := by
        rw [List.countP_eq_zero]
        intro y hy
        rw [decide_eq_true_eq, not_lt]
        rcases List.mem_cons.mp hy with rfl | hy
        · exact not_lt.mp hac
        · exact (not_lt.mp hac).trans (ha y hy)
      have hcx : c ≤ x := by
        have hmem := List.countP_eq_zero.mp hnone x (List.mem_of_getElem? hx)
        simpa using hmem
      simp [hnone, hcx]

theorem getElem?_orderBy [Zero α] {xs : List α} {i : Nat} (hi : i < xs.length) :
    (orderBy id xs)[i]? = some ((orderBy id xs).getD i 0) := by
  have hlength : i < (orderBy id xs).length := by rwa [(orderBy_perm id xs).length_eq]
  rw [List.getD_eq_getElem?_getD, List.getElem?_eq_getElem hlength, Option.getD_some]

/-- The value in a place of `ORDER BY x`. -/
theorem le_getD_orderBy_iff [Zero α] {xs : List α} {i : Nat} (hi : i < xs.length) (c : α) :
    c ≤ (orderBy id xs).getD i 0 ↔ xs.countP (· < c) ≤ i := by
  rw [le_iff_countP_le (orderBy_pairwise id xs) (getElem?_orderBy hi),
    (orderBy_perm id xs).countP_eq]

theorem getD_orderBy_mem [Zero α] {xs : List α} {i : Nat} (hi : i < xs.length) :
    (orderBy id xs).getD i 0 ∈ xs :=
  mem_orderBy.mp (List.mem_of_getElem? (getElem?_orderBy hi))

/-- A value between two bounds counts below the higher one only. -/
theorem countP_lt_of_mem {xs : List α} {c d x : α} (hcd : c ≤ d) (hx : x ∈ xs) (hcx : c ≤ x)
    (hxd : x < d) : xs.countP (· < c) < xs.countP (· < d) := by
  have hmono : ∀ ys : List α, ys.countP (· < c) ≤ ys.countP (· < d) := by
    intro ys
    apply List.countP_mono_left
    intro y _ hy
    rw [decide_eq_true_eq] at hy ⊢
    exact hy.trans_le hcd
  obtain ⟨before, after, rfl⟩ := List.append_of_mem hx
  have hbefore := hmono before
  have hafter := hmono after
  simp only [List.countP_append, List.countP_cons, hcx.not_gt, hxd, decide_true, decide_false]
  simp only [if_true, Bool.false_eq_true, if_false]
  omega

end PotholeServer.Stats
