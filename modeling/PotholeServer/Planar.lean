import Mathlib.Algebra.Order.BigOperators.GroupWithZero.List
import Mathlib.Algebra.Order.Field.Rat
import Mathlib.Tactic.Positivity
import PotholeServer.Base
import PotholeServer.Geo.Dbscan

/-!
# Outside functions near the equator

A rational instance of `Externals`, for evaluating the programs on concrete inputs. The
inputs stay on a few hundred metres of a meridian at the equator, where a degree of latitude
is 110574 m on the ground and 111320 units of the Mercator projection.
-/

namespace PotholeServer

open Geo

/-- Metres between two points of one meridian (or of one parallel) near the equator. -/
def planarDistance (latMetres lonMetres : ℚ) (p q : Point ℚ) : ℚ :=
  latMetres * |p.lat - q.lat| + lonMetres * |p.lon - q.lon|

section Distance

variable {latMetres lonMetres : ℚ} (hlat : 0 < latMetres) (hlon : 0 < lonMetres)
include hlat hlon

theorem planarDistance_nonneg (p q : Point ℚ) : 0 ≤ planarDistance latMetres lonMetres p q := by
  unfold planarDistance
  positivity

theorem planarDistance_eq_zero {p q : Point ℚ} :
    planarDistance latMetres lonMetres p q = 0 ↔ p = q := by
  have hzero : ∀ {m x : ℚ}, 0 < m → (m * |x| = 0 ↔ x = 0) := by
    intro m x hm
    rw [mul_eq_zero, abs_eq_zero, or_iff_right hm.ne']
  rw [planarDistance, add_eq_zero_iff_of_nonneg (by positivity) (by positivity), hzero hlat,
    hzero hlon, sub_eq_zero, sub_eq_zero]
  constructor
  · rintro ⟨hpqLat, hpqLon⟩
    cases p
    cases q
    simp_all
  · rintro rfl
    exact ⟨rfl, rfl⟩

end Distance

/-- `exp` to second order on each side of 0; positive and increasing. -/
def planarExp (x : ℚ) : ℚ :=
  if 0 ≤ x then 1 + x + x ^ 2 / 2 else 1 / (1 - x + x ^ 2 / 2)

/-- The first term of a series of `log`; increasing and odd under inversion. -/
def planarLog (x : ℚ) : ℚ := 2 * (x - 1) / (x + 1)

/-- Equatorial stand-ins. `fromisoformat` knows the one timestamp
`2026-01-01T00:00:00+00:00`, and `pdf` is the product of triangular kernels. -/
def Externals.planar : Externals ℚ where
  fromisoformat := fun _ ↦ some ⟨1767225600000000, true⟩
  exp := planarExp
  log := planarLog
  cosRadians := fun _ ↦ 1
  pdf := fun z mean _ ↦ (List.zipWith (fun x m ↦ 1 / (1 + |x - m|)) z mean).prod
  stDistance := planarDistance 110574 111320
  stClusterDBSCAN := fun eps minPoints ↦
    dbscan (fun p q ↦ planarDistance 111320 111320 p q ≤ eps) minPoints

theorem pdf_planar_nonneg (z mean : List ℚ) (cov : List (List ℚ)) :
    0 ≤ Externals.planar.pdf z mean cov := by
  apply List.prod_nonneg
  intro x hx
  obtain ⟨y, -, rfl⟩ := List.mem_map.mp (List.map_uncurry_zip_eq_zipWith .. ▸ hx)
  dsimp only [Function.uncurry]
  positivity

theorem exp_planar_pos (x : ℚ) : 0 < Externals.planar.exp x := by
  change 0 < planarExp x
  unfold planarExp
  split
  · positivity
  next hx =>
    have hneg : 0 < -x := neg_pos.mpr (not_le.mp hx)
    have hdenom : 0 < 1 - x + x ^ 2 / 2 := by
      rw [sub_eq_add_neg]
      positivity
    exact one_div_pos.mpr hdenom

/-- Nothing is within a negative distance. -/
theorem stClusterDBSCAN_planar_of_neg {units : ℚ} (hunits : units < 0) (minPoints : Int)
    (pts : List (Point ℚ)) :
    ∀ l ∈ Externals.planar.stClusterDBSCAN units minPoints pts, l = none := by
  have hfar : ∀ p q : Point ℚ, decide (planarDistance 111320 111320 p q ≤ units) = false := by
    intro p q
    rw [decide_eq_false_iff_not, not_le]
    exact hunits.trans_le (planarDistance_nonneg (by norm_num) (by norm_num) p q)
  exact dbscan_eq_none hfar minPoints pts

end PotholeServer
