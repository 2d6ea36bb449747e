import Mathlib.Analysis.SpecialFunctions.Log.Basic
import Mathlib.Tactic.FieldSimp
import Mathlib.Tactic.Linarith

/-!
# Logistic opinion pools

The logistic function and the log-odds over any ordered field with an exponential and a logarithm.
Both are increasing and inverse to each other, so a weighted sum of log-odds is mapped back to a
probability that is increasing in every opinion, and that lies between the opinions when the
weights sum to 1.
-/

namespace PotholeServer.Stats

variable {R : Type} [Field R] [LinearOrder R] {exp log : R → R}

/-- An exponential function and its inverse on the positive numbers. -/
structure IsExpLog (exp log : R → R) : Prop where
  exp_pos : ∀ x, 0 < exp x
  exp_add : ∀ x y, exp (x + y) = exp x * exp y
  exp_strictMono : StrictMono exp
  exp_log : ∀ x, 0 < x → exp (log x) = x

theorem isExpLog_real : IsExpLog Real.exp Real.log where
  exp_pos := Real.exp_pos
  exp_add := Real.exp_add
  exp_strictMono := Real.exp_strictMono
  exp_log := fun _ ↦ Real.exp_log

namespace IsExpLog

variable (h : IsExpLog exp log)
include h

theorem exp_zero : exp 0 = 1 := by
  have hadd := h.exp_add 0 0
  rw [add_zero] at hadd
  exact (mul_eq_left₀ (h.exp_pos 0).ne').mp hadd.symm

theorem exp_neg (x : R) : exp (-x) = (exp x)⁻¹ := by
  have hadd := h.exp_add (-x) x
  rw [neg_add_cancel, h.exp_zero] at hadd
  exact eq_inv_of_mul_eq_one_left hadd.symm

theorem log_le_log {x y : R} (hx : 0 < x) (hxy : x ≤ y) : log x ≤ log y := by
  rw [← h.exp_strictMono.le_iff_le, h.exp_log x hx, h.exp_log y (hx.trans_le hxy)]
  exact hxy

variable [IsStrictOrderedRing R]

theorem log_one : log 1 = 0 := by
  apply h.exp_strictMono.injective
  rw [h.exp_log 1 one_pos, h.exp_zero]

end IsExpLog

/-- The logistic function. -/
def logistic (exp : R → R) (x : R) : R := exp x / (1 + exp x)

/-- The logarithm of the odds of a probability. -/
def logOdds (log : R → R) (p : R) : R := log (p / (1 - p))

section Logistic

theorem logistic_zero (h : IsExpLog exp log) : logistic exp 0 = 1 / 2 := by
  rw [logistic, h.exp_zero, one_add_one_eq_two]

variable [IsStrictOrderedRing R]

theorem logistic_pos (hexp : ∀ x, 0 < exp x) (x : R) : 0 < logistic exp x :=
  div_pos (hexp x) (add_pos one_pos (hexp x))

theorem logistic_lt_one (hexp : ∀ x, 0 < exp x) (x : R) : logistic exp x < 1 := by
  rw [logistic, div_lt_one (add_pos one_pos (hexp x))]
  exact lt_one_add _

theorem logistic_strictMono (h : IsExpLog exp log) : StrictMono (logistic exp) := by
  intro x y hxy
  have hx := h.exp_pos x
  have hy := h.exp_pos y
  have hlt : exp x < exp y := h.exp_strictMono hxy
  rw [logistic, logistic, div_lt_div_iff₀ (by linarith) (by linarith)]
  linarith

theorem logistic_mono (h : IsExpLog exp log) : Monotone (logistic exp) :=
  (logistic_strictMono h).monotone

theorem odds_pos {p : R} (hp : 0 < p) (hp' : p < 1) : 0 < p / (1 - p) :=
  div_pos hp (sub_pos.mpr hp')

theorem logistic_logOdds (h : IsExpLog exp log) {p : R} (hp : 0 < p) (hp' : p < 1) :
    logistic exp (logOdds log p) = p := by
  have hne : (1 - p) ≠ 0 := (sub_pos.mpr hp').ne'
  rw [logistic, logOdds, h.exp_log _ (odds_pos hp hp')]
  field_simp
  ring

theorem logOdds_mono (h : IsExpLog exp log) {p q : R} (hp : 0 < p) (hpq : p ≤ q) (hq : q < 1) :
    logOdds log p ≤ logOdds log q := by
  apply h.log_le_log (odds_pos hp (hpq.trans_lt hq))
  have hp' : 0 < 1 - p := sub_pos.mpr (hpq.trans_lt hq)
  have hq' : 0 < 1 - q := sub_pos.mpr hq
  rw [div_le_div_iff₀ hp' hq']
  linarith [mul_comm p q]

/-- The logistic function with the exponential of the negative. -/
theorem logistic_eq_one_div (h : IsExpLog exp log) (x : R) :
    logistic exp x = 1 / (1 + exp (-x)) := by
  have hx := h.exp_pos x
  rw [logistic, h.exp_neg]
  field_simp
  ring

theorem logistic_neg (h : IsExpLog exp log) (x : R) :
    logistic exp (-x) = 1 - logistic exp x := by
  have hx := h.exp_pos x
  have hne : 1 + exp x ≠ 0 := (add_pos one_pos hx).ne'
  rw [logistic_eq_one_div h, neg_neg, logistic, eq_sub_iff_add_eq, ← add_div, div_self hne]

theorem logOdds_logistic (h : IsExpLog exp log) (x : R) : logOdds log (logistic exp x) = x := by
  apply (logistic_strictMono h).injective
  exact logistic_logOdds h (logistic_pos h.exp_pos x) (logistic_lt_one h.exp_pos x)

theorem logOdds_monotoneOn (h : IsExpLog exp log) :
    MonotoneOn (logOdds log) (Set.Ioo (0 : R) 1) :=
  fun _ hp _ hq hpq ↦ logOdds_mono h hp.1 hpq hq.2

theorem logOdds_half (h : IsExpLog exp log) : logOdds log (1 / 2 : R) = 0 := by
  have hone : (1 / 2 : R) / (1 - 1 / 2) = 1 := by norm_num
  rw [logOdds, hone, h.log_one]

end Logistic

section Pool

variable [IsStrictOrderedRing R] {a b p q : R}

/-- A weighted mean lies between its two values. -/
theorem mean_mem_Icc (ha : 0 ≤ a) (hb : 0 ≤ b) (hab : a + b = 1) (x y : R) :
    a * x + b * y ∈ Set.Icc (min x y) (max x y) := by
  have hone : ∀ z : R, a * z + b * z = z := by
    intro z
    rw [← add_mul, hab, one_mul]
  constructor
  · calc
      min x y = a * min x y + b * min x y := (hone _).symm
      _ ≤ a * x + b * y := add_le_add (mul_le_mul_of_nonneg_left (min_le_left x y) ha)
          (mul_le_mul_of_nonneg_left (min_le_right x y) hb)
  · calc
      a * x + b * y ≤ a * max x y + b * max x y :=
        add_le_add (mul_le_mul_of_nonneg_left (le_max_left x y) ha)
          (mul_le_mul_of_nonneg_left (le_max_right x y) hb)
      _ = max x y := hone _

/-- The pool of two opinions, with weights that sum to 1, lies between them. -/
theorem pool_mem_Icc (h : IsExpLog exp log) (ha : 0 ≤ a) (hb : 0 ≤ b) (hab : a + b = 1)
    (hp : 0 < p) (hp' : p < 1) (hq : 0 < q) (hq' : q < 1) :
    logistic exp (a * logOdds log p + b * logOdds log q) ∈ Set.Icc (min p q) (max p q) := by
  obtain ⟨hlow, hhigh⟩ := mean_mem_Icc ha hb hab (logOdds log p) (logOdds log q)
  have hback : logistic exp (logOdds log p) = p := logistic_logOdds h hp hp'
  have hback' : logistic exp (logOdds log q) = q := logistic_logOdds h hq hq'
  have hmono := logistic_mono h
  constructor
  · have hle := hmono hlow
    rwa [hmono.map_min, hback, hback'] at hle
  · have hle := hmono hhigh
    rwa [hmono.map_max, hback, hback'] at hle

end Pool

end PotholeServer.Stats
