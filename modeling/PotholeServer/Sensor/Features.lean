import Mathlib.Algebra.Order.Field.Basic
import Mathlib.Order.Interval.Set.Defs

/-!
# Feature engineering

`app/sensor_model/features.py`: the ratio and gravity-bar features of one observation
and the speed-normalised severity proxy. A missing field counts as zero.
-/

namespace PotholeServer.Sensor

variable {R : Type} [Field R] [LinearOrder R]

/-- `compute_ratio`: peak magnitude over baseline noise; no usable noise floor gives 0. -/
def computeRatio (magnitude accelStd : Option R) : R :=
  match magnitude, accelStd with
  | some m, some a => if a ≤ 0 then 0 else m / a
  | _, _ => 0

/-- `classifier_features`: the vector `[ratio, gbar]`. -/
def classifierFeatures (magnitude accelStd gbarInMax : Option R) : R × R :=
  (computeRatio magnitude accelStd, gbarInMax.getD 0)

/-- `outlier_features`: the vector of the Isolation Forest gate. -/
def outlierFeatures (magnitude accelStd gbarInMax speedMps : Option R) : List R :=
  [computeRatio magnitude accelStd, gbarInMax.getD 0, magnitude.getD 0, accelStd.getD 0,
    speedMps.getD 0]

/-- `severity`: `clamp(scale * magnitude / max(speed, speed_ref), 0, 1)`. -/
def severity (magnitude speedMps : Option R) (speedRef scale : R) : R :=
  match magnitude with
  | none => 0
  | some m =>
    if m ≤ 0 then 0
    else
      let speed := match speedMps with
        | some v => if 0 < v then v else 0
        | none => 0
      let denom := max speed speedRef
      let raw := scale * m / denom
      max 0 (min 1 raw)

section Bounds

/-- A missing or non-positive speed counts as standing still. -/
def effectiveSpeed (speedMps : Option R) : R := max 0 (speedMps.getD 0)

theorem severity_eq (magnitude speedMps : Option R) (speedRef scale : R) :
    severity magnitude speedMps speedRef scale =
      if magnitude.getD 0 ≤ 0 then 0
      else max 0 (min 1 (scale * magnitude.getD 0 / max (effectiveSpeed speedMps) speedRef)) := by
  have hspeed : (match speedMps with
      | some v => if 0 < v then v else 0
      | none => 0) = effectiveSpeed speedMps := by
    cases speedMps with
    | none => simp [effectiveSpeed]
    | some v =>
      dsimp only [effectiveSpeed, Option.getD_some]
      split
      case isTrue hv => rw [max_eq_right hv.le]
      case isFalse hv => rw [max_eq_left (not_lt.mp hv)]
  cases magnitude with
  | none => simp [severity]
  | some m =>
    dsimp only [severity, Option.getD_some]
    rw [hspeed]

/-- The ratio as one quotient: without a usable noise floor it is 0. -/
theorem computeRatio_eq (magnitude accelStd : Option R) :
    computeRatio magnitude accelStd =
      if accelStd.getD 0 ≤ 0 then 0 else magnitude.getD 0 / accelStd.getD 0 := by
  cases accelStd with
  | none => simp [computeRatio]
  | some a =>
    cases magnitude with
    | none => simp [computeRatio]
    | some m => rfl

variable [IsStrictOrderedRing R]

theorem severity_mem_Icc (magnitude speedMps : Option R) (speedRef scale : R) :
    severity magnitude speedMps speedRef scale ∈ Set.Icc 0 1 := by
  rw [severity_eq]
  split
  · exact ⟨le_rfl, zero_le_one⟩
  · exact ⟨le_max_left _ _, max_le zero_le_one (min_le_left _ _)⟩

/-- A larger jolt is not less severe. -/
theorem severity_mono {magnitude magnitude' : Option R} {speedRef scale : R} (hscale : 0 ≤ scale)
    (href : 0 < speedRef) (speedMps : Option R) (hle : magnitude.getD 0 ≤ magnitude'.getD 0) :
    severity magnitude speedMps speedRef scale ≤ severity magnitude' speedMps speedRef scale := by
  have hdenom : 0 < max (effectiveSpeed speedMps) speedRef := href.trans_le (le_max_right _ _)
  have hnonneg := (severity_mem_Icc magnitude' speedMps speedRef scale).1
  rw [severity_eq] at hnonneg ⊢
  rw [severity_eq]
  split
  · exact hnonneg
  case isFalse hpos =>
    have hpos' : ¬magnitude'.getD 0 ≤ 0 := fun h ↦ hpos (hle.trans h)
    rw [if_neg hpos']
    have hraw : scale * magnitude.getD 0 / max (effectiveSpeed speedMps) speedRef ≤
        scale * magnitude'.getD 0 / max (effectiveSpeed speedMps) speedRef :=
      div_le_div_of_nonneg_right (mul_le_mul_of_nonneg_left hle hscale) hdenom.le
    exact max_le_max_left _ (min_le_min_left _ hraw)

/-- The same jolt at a higher speed is not more severe. -/
theorem severity_anti {speedMps speedMps' : Option R} {speedRef scale : R} (hscale : 0 ≤ scale)
    (href : 0 < speedRef) (magnitude : Option R)
    (hle : effectiveSpeed speedMps ≤ effectiveSpeed speedMps') :
    severity magnitude speedMps' speedRef scale ≤ severity magnitude speedMps speedRef scale := by
  have hdenom : 0 < max (effectiveSpeed speedMps) speedRef := href.trans_le (le_max_right _ _)
  rw [severity_eq, severity_eq]
  split
  · exact le_rfl
  case isFalse hpos =>
    have hraw : scale * magnitude.getD 0 / max (effectiveSpeed speedMps') speedRef ≤
        scale * magnitude.getD 0 / max (effectiveSpeed speedMps) speedRef :=
      div_le_div_of_nonneg_left (mul_nonneg hscale (not_le.mp hpos).le) hdenom
        (max_le_max_right _ hle)
    exact max_le_max_left _ (min_le_min_left _ hraw)

theorem computeRatio_mono {magnitude magnitude' : Option R} (accelStd : Option R)
    (hle : magnitude.getD 0 ≤ magnitude'.getD 0) :
    computeRatio magnitude accelStd ≤ computeRatio magnitude' accelStd := by
  rw [computeRatio_eq, computeRatio_eq]
  split
  · exact le_rfl
  case isFalse hpos => exact div_le_div_of_nonneg_right hle (not_le.mp hpos).le

/-- The same jolt over more noise is no higher ratio. -/
theorem computeRatio_anti {magnitude : Option R} (hmagnitude : 0 ≤ magnitude.getD 0) {a a' : R}
    (ha : 0 < a) (hle : a ≤ a') :
    computeRatio magnitude (some a') ≤ computeRatio magnitude (some a) := by
  rw [computeRatio_eq, computeRatio_eq, Option.getD_some, Option.getD_some,
    if_neg (not_le.mpr ha), if_neg (not_le.mpr (ha.trans_le hle))]
  exact div_le_div_of_nonneg_left hmagnitude ha hle

end Bounds

end PotholeServer.Sensor
