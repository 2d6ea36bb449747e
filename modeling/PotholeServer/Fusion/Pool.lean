import PotholeServer.Fusion.Engine
import PotholeServer.Stats.Logistic

/-!
# The engines as opinion pools

`sigmoid` and `logit` are the logistic function and the log-odds of a probability that is kept away
from 0 and 1. Each engine is then a pool of two opinions, which is increasing in both, and the
sensor opinion of the heuristic is itself increasing in the evidence.
-/

namespace PotholeServer.Fusion

open Sensor Stats

/-- `p` of `logit` after its clamp to `[_EPS, 1 - _EPS]`. -/
def clampEps {R : Type} [Field R] [LinearOrder R] (p : R) : R := min (1 - eps) (max eps p)

section Clamp

variable {R : Type} [Field R] [LinearOrder R]

theorem clampEps_mono : Monotone (clampEps : R → R) := by
  intro p q hpq
  exact min_le_min_left _ (max_le_max_left _ hpq)

variable [IsStrictOrderedRing R]

theorem eps_pos : (0 : R) < eps := by
  unfold eps
  positivity

theorem eps_lt_half : (eps : R) < 1 / 2 := by
  unfold eps
  norm_num

theorem eps_le_one_sub : (eps : R) ≤ 1 - eps := by
  linarith [eps_lt_half (R := R)]

theorem clampEps_mem (p : R) : clampEps p ∈ Set.Icc eps (1 - eps) :=
  ⟨le_min eps_le_one_sub (le_max_left _ _), min_le_left _ _⟩

theorem clampEps_pos (p : R) : 0 < clampEps p := eps_pos.trans_le (clampEps_mem p).1

theorem clampEps_lt_one (p : R) : clampEps p < 1 :=
  (clampEps_mem p).2.trans_lt (sub_lt_self 1 eps_pos)

/-- The clamp of an engine to `[0, 1]` does nothing before the one of `logit`. -/
theorem clampEps_clamp01 (p : R) : clampEps (clamp01 p) = clampEps p := by
  have hone : (1 - eps : R) ≤ 1 := sub_le_self 1 eps_pos.le
  rcases le_total p 0 with hp | hp
  · rw [clamp01, min_eq_right (hp.trans zero_le_one), max_eq_left hp, clampEps, clampEps,
      max_eq_left eps_pos.le, max_eq_left (hp.trans eps_pos.le)]
  · rcases le_total p 1 with hp' | hp'
    · rw [clamp01, min_eq_right hp', max_eq_right hp]
    · rw [clamp01, min_eq_left hp', max_eq_right zero_le_one, clampEps, clampEps,
        min_eq_left (hone.trans (le_max_right _ _)),
        min_eq_left ((hone.trans hp').trans (le_max_right _ _))]

theorem clampEps_half : clampEps (1 / 2 : R) = 1 / 2 := by
  have heps := eps_lt_half (R := R)
  rw [clampEps, max_eq_right heps.le, min_eq_right (by linarith)]

theorem clampEps_eps : clampEps (eps : R) = eps := by
  rw [clampEps, max_self, min_eq_right eps_le_one_sub]

theorem clampEps_one_sub_eps : clampEps (1 - eps : R) = 1 - eps := by
  rw [clampEps, max_eq_right eps_le_one_sub, min_self]

end Clamp

section Sigmoid

variable {R : Type} [Field R] [LinearOrder R] {ext : Externals R}

/-- The log-odds of an opinion; a missing one counts as 1/2. -/
def opinion (ext : Externals R) (p : Option R) : R := logit ext (clamp01 (p.getD half))

variable [IsStrictOrderedRing R]

/-- The logistic function has values strictly between 0 and 1. -/
theorem sigmoid_mem_Ioo (hexp : ∀ x, 0 < ext.exp x) (x : R) : sigmoid ext x ∈ Set.Ioo 0 1 := by
  unfold sigmoid
  split
  · have hz := hexp (-x)
    have hsum : 0 < 1 + ext.exp (-x) := by linarith
    exact ⟨div_pos one_pos hsum, (div_lt_one hsum).mpr (by linarith)⟩
  · exact ⟨logistic_pos hexp x, logistic_lt_one hexp x⟩

theorem sigmoid_eq (h : IsExpLog ext.exp ext.log) (x : R) :
    sigmoid ext x = logistic ext.exp x := by
  unfold sigmoid
  split
  · exact (logistic_eq_one_div h x).symm
  · rfl

omit [IsStrictOrderedRing R] in
theorem logit_eq_logOdds (p : R) : logit ext p = logOdds ext.log (clampEps p) := rfl

theorem logit_eq (p : R) : logit ext (clamp01 p) = logOdds ext.log (clampEps p) := by
  rw [logit_eq_logOdds, clampEps_clamp01]

theorem logit_mono (h : IsExpLog ext.exp ext.log) {p q : R} (hpq : p ≤ q) :
    logit ext (clamp01 p) ≤ logit ext (clamp01 q) := by
  rw [logit_eq, logit_eq]
  exact logOdds_mono h (clampEps_pos p) (clampEps_mono hpq) (clampEps_lt_one q)

theorem logit_half (h : IsExpLog ext.exp ext.log) : logit ext (clamp01 (1 / 2)) = 0 := by
  rw [logit_eq, clampEps_half, logOdds_half h]

theorem sigmoid_mono (h : IsExpLog ext.exp ext.log) : Monotone (sigmoid ext) := by
  intro x y hxy
  rw [sigmoid_eq h, sigmoid_eq h]
  exact logistic_mono h hxy

/-- `sigmoid` undoes `logit` up to its clamp. -/
theorem sigmoid_logit (h : IsExpLog ext.exp ext.log) (p : R) :
    sigmoid ext (logit ext p) = clampEps p := by
  rw [sigmoid_eq h, logit_eq_logOdds, logistic_logOdds h (clampEps_pos p) (clampEps_lt_one p)]

/-- `logit` undoes `sigmoid` between the log-odds of its two bounds. -/
theorem logit_sigmoid (h : IsExpLog ext.exp ext.log) (x : R) :
    logit ext (sigmoid ext x) = min (logit ext (1 - eps)) (max (logit ext eps) x) := by
  have hmono := logOdds_monotoneOn h
  have heps : (eps : R) ∈ Set.Ioo 0 1 := ⟨eps_pos, by linarith [eps_lt_half (R := R)]⟩
  have htop : (1 - eps : R) ∈ Set.Ioo 0 1 :=
    ⟨eps_pos.trans_le eps_le_one_sub, sub_lt_self 1 eps_pos⟩
  have hx : logistic ext.exp x ∈ Set.Ioo 0 1 :=
    ⟨logistic_pos h.exp_pos x, logistic_lt_one h.exp_pos x⟩
  have hmax : max eps (logistic ext.exp x) ∈ Set.Ioo 0 1 :=
    ⟨lt_max_of_lt_left heps.1, max_lt heps.2 hx.2⟩
  rw [logit_eq_logOdds, logit_eq_logOdds, logit_eq_logOdds, clampEps_eps, clampEps_one_sub_eps,
    sigmoid_eq h, clampEps, hmono.map_min htop hmax, hmono.map_max heps hx, logOdds_logistic h]

theorem opinion_none (h : IsExpLog ext.exp ext.log) : opinion ext none = 0 := logit_half h

end Sigmoid

section Engines

variable {R : Type} [Field R] [LinearOrder R] [IsStrictOrderedRing R] {ext : Externals R}
  {wS wV : R}

/-- The primary engine pools the two opinions. -/
theorem matlabPortV1Fuse_eq (h : IsExpLog ext.exp ext.log) (inp : FusionInput R) :
    (matlabPortV1Fuse ext wS wV inp).fusedConfidence =
      sigmoid ext
        (wS * opinion ext inp.sensorPPothole + wV * opinion ext inp.visualConfidence) := by
  have hhalf : sigmoid ext 0 = half := by
    rw [sigmoid_eq h, logistic_zero h, half]
  unfold matlabPortV1Fuse
  cases inp.sensorPPothole with
  | none =>
    cases inp.visualConfidence with
    | none => simp [opinion_none h, hhalf]
    | some v =>
      rw [opinion_none h]
      simp [opinion]
  | some p =>
    cases inp.visualConfidence with
    | none =>
      rw [opinion_none h]
      simp [opinion]
    | some v => simp [opinion]

/-- The heuristic pools the opinion on the standardized ratio and the visual one. -/
theorem pythonV1Fuse_eq (h : IsExpLog ext.exp ext.log) (ratioMean ratioStd speedRef scale : R)
    (inp : FusionInput R) :
    (pythonV1Fuse ext wS wV ratioMean ratioStd speedRef scale inp).fusedConfidence =
      sigmoid ext (wS * opinion ext (some (sigmoid ext
        ((computeRatio inp.magnitude inp.accelStd - ratioMean) / ratioStd))) +
          wV * opinion ext inp.visualConfidence) := by
  unfold pythonV1Fuse
  cases inp.visualConfidence with
  | none =>
    rw [opinion_none h]
    simp [opinion]
  | some v => simp [opinion]

theorem opinion_mono (h : IsExpLog ext.exp ext.log) {p q : R} (hpq : p ≤ q) :
    opinion ext (some p) ≤ opinion ext (some q) := logit_mono h hpq

/-- A pool with non-negative weights is increasing in the two opinions. -/
theorem pool_mono (h : IsExpLog ext.exp ext.log) (hS : 0 ≤ wS) (hV : 0 ≤ wV) {x x' y y' : R}
    (hx : x ≤ x') (hy : y ≤ y') :
    sigmoid ext (wS * x + wV * y) ≤ sigmoid ext (wS * x' + wV * y') :=
  sigmoid_mono h (add_le_add (mul_le_mul_of_nonneg_left hx hS) (mul_le_mul_of_nonneg_left hy hV))

end Engines

/-- `math.exp` and `math.log` in exact arithmetic. -/
structure ExactMath (ext : Externals ℝ) : Prop where
  exp_eq : ext.exp = Real.exp
  log_eq : ext.log = Real.log

theorem ExactMath.isExpLog {ext : Externals ℝ} (h : ExactMath ext) :
    IsExpLog ext.exp ext.log := by
  rw [h.exp_eq, h.log_eq]
  exact isExpLog_real

section Exact

variable {ext : Externals ℝ} {wS wV : ℝ}

/-- The primary rule is a weighted opinion pool: increasing in both inputs, with a missing one
standing for 1/2, and between the clamped inputs when the weights sum to 1. -/
theorem matlabPortV1_pool (hext : ExactMath ext) (hS : 0 ≤ wS) (hV : 0 ≤ wV)
    (inp : FusionInput ℝ) :
    let fused := fun sensor visual ↦ (matlabPortV1Fuse ext wS wV
      { inp with sensorPPothole := sensor, visualConfidence := visual }).fusedConfidence
    (∀ p p' v, p ≤ p' → fused (some p) v ≤ fused (some p') v) ∧
    (∀ p v v', v ≤ v' → fused p (some v) ≤ fused p (some v')) ∧
    (∀ v, fused none v = fused (some (1 / 2)) v) ∧
    (∀ p, fused p none = fused p (some (1 / 2))) ∧
    (wS + wV = 1 → ∀ p v,
      fused (some p) (some v) ∈
        Set.Icc (min (clampEps p) (clampEps v)) (max (clampEps p) (clampEps v)) ∧
      (clampEps p = clampEps v → fused (some p) (some v) = clampEps p)) := by
  have h := hext.isExpLog
  dsimp only
  simp only [matlabPortV1Fuse_eq h]
  refine ⟨?_, ?_, fun _ ↦ rfl, fun _ ↦ rfl, ?_⟩
  · intro p p' v hp
    exact pool_mono h hS hV (opinion_mono h hp) le_rfl
  · intro p v v' hv
    exact pool_mono h hS hV le_rfl (opinion_mono h hv)
  · intro hsum p v
    have hmem : sigmoid ext (wS * opinion ext (some p) + wV * opinion ext (some v)) ∈
        Set.Icc (min (clampEps p) (clampEps v)) (max (clampEps p) (clampEps v)) := by
      rw [sigmoid_eq h, opinion, opinion, Option.getD_some, Option.getD_some, logit_eq, logit_eq]
      exact pool_mem_Icc h hS hV hsum (clampEps_pos p) (clampEps_lt_one p) (clampEps_pos v)
        (clampEps_lt_one v)
    refine ⟨hmem, ?_⟩
    intro heq
    rw [← heq, min_self, max_self, Set.Icc_self] at hmem
    exact hmem

/-- Exact `math` functions; the engines call nothing else. -/
noncomputable def Externals.exactMath : Externals ℝ where
  fromisoformat := fun _ ↦ none
  exp := Real.exp
  log := Real.log
  cosRadians := fun _ ↦ 1
  pdf := fun _ _ _ ↦ 0
  stDistance := fun _ _ ↦ 0
  stClusterDBSCAN := fun _ _ pts ↦ pts.map (fun _ ↦ none)

theorem exactMath_exactMath : ExactMath Externals.exactMath := ⟨rfl, rfl⟩

/-- `sigmoid` and `logit` are inverse up to the clamp of `logit`. The two branches of `sigmoid` are
one function, increasing from 0 to 1 and symmetric about its centre. -/
theorem sigmoid_logit_inverse (hext : ExactMath ext) :
    (∀ p, sigmoid ext (logit ext p) = min (1 - 1 / 1000000) (max (1 / 1000000) p)) ∧
    (∀ x, 1 / (1 + Real.exp (-x)) = Real.exp x / (1 + Real.exp x) ∧
      sigmoid ext x = 1 / (1 + Real.exp (-x))) ∧
    StrictMono (sigmoid ext) ∧
    (∀ x, sigmoid ext x ∈ Set.Ioo 0 1) ∧
    (∀ x, sigmoid ext (-x) = 1 - sigmoid ext x) ∧
    ∀ x, logit ext (sigmoid ext x) =
      min (logit ext (1 - 1 / 1000000)) (max (logit ext (1 / 1000000)) x) := by
  have h := hext.isExpLog
  have hbranch : ∀ x, logistic ext.exp x = 1 / (1 + Real.exp (-x)) := by
    intro x
    rw [logistic_eq_one_div h, hext.exp_eq]
  refine ⟨sigmoid_logit h, ?_, ?_, sigmoid_mem_Ioo h.exp_pos, ?_, logit_sigmoid h⟩
  · intro x
    rw [sigmoid_eq h, ← hbranch, logistic, hext.exp_eq]
    exact ⟨rfl, rfl⟩
  · intro x y hxy
    rw [sigmoid_eq h, sigmoid_eq h]
    exact logistic_strictMono h hxy
  · intro x
    rw [sigmoid_eq h, sigmoid_eq h, logistic_neg h]

theorem sigmoid_logit_inverse_two :
    sigmoid Externals.exactMath (logit Externals.exactMath 2) = 1 - 1 / 1000000 := by
  rw [(sigmoid_logit_inverse exactMath_exactMath).1 2]
  norm_num

/-- An observation of a jolt, paired with a frame. -/
noncomputable def pairedJolt : FusionInput ℝ where
  magnitude := some 4
  accelStd := some 1
  gbarInMax := none
  speedMps := some 10
  sensorPPothole := some (9 / 10)
  sensorSeverity := some half
  visualConfidence := some (7 / 10)
  deltaMs := 0
  deltaM := 0

theorem matlabPortV1_pool_halves :
    (matlabPortV1Fuse Externals.exactMath (1 / 2) (1 / 2) pairedJolt).fusedConfidence ∈
      Set.Icc (min (clampEps (9 / 10)) (clampEps (7 / 10)))
        (max (clampEps (9 / 10)) (clampEps (7 / 10))) :=
  ((matlabPortV1_pool exactMath_exactMath (by norm_num) (by norm_num)
    pairedJolt).2.2.2.2 (by norm_num) (9 / 10) (7 / 10)).1

/-- The heuristic is monotone in the evidence: its confidence and severity do not fall with the
magnitude, its confidence does not fall with the visual one nor rise with the noise, and its
severity does not rise with the speed. -/
theorem pythonV1_monotone (hext : ExactMath ext) (hS : 0 ≤ wS) (hV : 0 ≤ wV)
    (ratioMean ratioStd : ℝ) {speedRef scale : ℝ} (href : 0 < speedRef) (hscale : 0 ≤ scale)
    (inp : FusionInput ℝ) :
    let fuse := (pythonV1Engine ext wS wV ratioMean ratioStd speedRef scale).fuse
    (∀ m m' : Option ℝ, m.getD 0 ≤ m'.getD 0 →
      (fuse { inp with magnitude := m }).fusedConfidence ≤
        (fuse { inp with magnitude := m' }).fusedConfidence ∧
      (fuse { inp with magnitude := m }).severity ≤
        (fuse { inp with magnitude := m' }).severity) ∧
    (∀ v v', v ≤ v' → (fuse { inp with visualConfidence := some v }).fusedConfidence ≤
      (fuse { inp with visualConfidence := some v' }).fusedConfidence) ∧
    (0 ≤ inp.magnitude.getD 0 → ∀ a a', 0 < a → a ≤ a' →
      (fuse { inp with accelStd := some a' }).fusedConfidence ≤
        (fuse { inp with accelStd := some a }).fusedConfidence) ∧
    (∀ s s' : Option ℝ, effectiveSpeed s ≤ effectiveSpeed s' →
      (fuse { inp with speedMps := s' }).severity ≤
        (fuse { inp with speedMps := s }).severity) := by
  have h := hext.isExpLog
  have hstd : 0 < if 0 < ratioStd then ratioStd else 1 := by
    split
    · assumption
    · exact one_pos
  -- The sensor opinion is increasing in the ratio.
  have hratio : ∀ {x y : ℝ} (visual : Option ℝ), x ≤ y →
      sigmoid ext (wS * opinion ext (some (sigmoid ext ((x - ratioMean) /
          if 0 < ratioStd then ratioStd else 1))) + wV * opinion ext visual) ≤
        sigmoid ext (wS * opinion ext (some (sigmoid ext ((y - ratioMean) /
          if 0 < ratioStd then ratioStd else 1))) + wV * opinion ext visual) := by
    intro x y visual hxy
    have hz := div_le_div_of_nonneg_right (sub_le_sub_right hxy ratioMean) hstd.le
    exact pool_mono h hS hV (opinion_mono h (sigmoid_mono h hz)) le_rfl
  dsimp only [pythonV1Engine]
  simp only [pythonV1Fuse_eq h]
  refine ⟨?_, ?_, ?_, ?_⟩
  · intro m m' hm
    exact ⟨hratio _ (computeRatio_mono _ hm), severity_mono hscale href _ hm⟩
  · intro v v' hv
    exact pool_mono h hS hV le_rfl (opinion_mono h hv)
  · intro hmagnitude a a' ha hle
    exact hratio _ (computeRatio_anti hmagnitude ha hle)
  · intro s s' hs
    exact severity_anti hscale href _ hs

theorem pythonV1_monotone_jolt :
    let fuse := (pythonV1Engine Externals.exactMath (1 / 2) (1 / 2) 3 1 5 2).fuse
    (fuse pairedJolt).fusedConfidence ≤
        (fuse { pairedJolt with magnitude := some 8 }).fusedConfidence ∧
      (fuse pairedJolt).severity ≤ (fuse { pairedJolt with magnitude := some 8 }).severity :=
  (pythonV1_monotone exactMath_exactMath (by norm_num) (by norm_num) 3 1
    (by norm_num) (by norm_num) pairedJolt).1 (some 4) (some 8)
    (by rw [Option.getD_some, Option.getD_some]; norm_num)

end Exact

end PotholeServer.Fusion
