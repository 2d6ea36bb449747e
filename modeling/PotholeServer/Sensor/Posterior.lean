import Mathlib.Tactic.Linarith
import PotholeServer.Planar
import PotholeServer.Sensor.Score
import PotholeServer.Stats.Tally

/-!
# Class posteriors

The dictionary of `_class_posteriors` is the tally of the component densities, each under the
class of its index and divided by the total. The posteriors are a distribution, and the
reported class and `p_pothole` are read off the same dictionary.
-/

namespace PotholeServer.Sensor

open Sql Stats

instance : Fintype SensorClass where
  elems := {.not, .crack, .pothole}
  complete := by rintro (_ | _ | _) <;> decide

theorem argmaxClass_eq {R : Type} [LinearOrder R] (best : SensorClass × R)
    (rest : Posteriors R) : argmaxClass best rest = firstMax best rest := by
  induction rest generalizing best with
  | nil => rfl
  | cons p rest ih => simp only [argmaxClass, firstMax, ih]

/-- The class map holds every index of a list of components. -/
def Covers (classMap : List (Nat × SensorClass)) (n : Nat) : Prop :=
  ∀ i < n, (classMap.lookup i).isSome = true

/-- The class of an index that the map holds. -/
def classAt (classMap : List (Nat × SensorClass)) (i : Nat) : SensorClass :=
  (classMap.lookup i).getD .not

section Dictionary

variable {R : Type} [Field R]

theorem addPosterior_eq (cls : SensorClass) (x : R) (acc : Posteriors R) :
    addPosterior cls x acc = add cls x acc := by
  induction acc with
  | nil => rfl
  | cons p rest ih => simp only [addPosterior, add, ih]

/-- The densities from index `i` on, under their classes and divided by the total. -/
def shares (classMap : List (Nat × SensorClass)) (total : R) (i : Nat) (densities : List R) :
    List (SensorClass × R) :=
  (densities.zipIdx i).map (fun x ↦ (classAt classMap x.2, x.1 / total))

theorem groupPosteriors_eq {classMap : List (Nat × SensorClass)} {total : R} :
    ∀ {densities : List R} {i : Nat} {acc : Posteriors R},
      (∀ j, i ≤ j → j < i + densities.length → (classMap.lookup j).isSome = true) →
      groupPosteriors classMap total i densities acc =
        .ok ((shares classMap total i densities).foldl (fun acc p ↦ add p.1 p.2 acc) acc)
  | [], _, _, _ => rfl
  | dens :: rest, i, acc, h => by
    obtain ⟨cls, hcls⟩ := Option.isSome_iff_exists.mp (h i le_rfl (by simp))
    have hrest : ∀ j, i + 1 ≤ j → j < i + 1 + rest.length → (classMap.lookup j).isSome = true := by
      intro j hij hj
      exact h j (by omega) (by simp only [List.length_cons]; omega)
    rw [groupPosteriors, hcls]
    dsimp only
    rw [groupPosteriors_eq hrest, addPosterior_eq]
    simp [shares, classAt, hcls]

theorem sum_shares (classMap : List (Nat × SensorClass)) (total : R) (i : Nat)
    (densities : List R) :
    ((shares classMap total i densities).map Prod.snd).sum = densities.sum / total := by
  induction densities generalizing i with
  | nil => simp [shares]
  | cons dens rest ih =>
    have hrest := ih (i + 1)
    simp only [shares, List.zipIdx_cons, List.map_cons, List.sum_cons] at hrest ⊢
    rw [hrest, add_div]

end Dictionary

section Scoring

variable {R : Type} [Field R] [LinearOrder R] {ext : Externals R} {model : SensorModel R}
  {z : List R}

/-- The weighted density of every component at `z`. -/
def componentDensities (ext : Externals R) (model : SensorModel R) (z : List R) : List R :=
  model.components.map (fun comp ↦ comp.weight * ext.pdf z comp.mu comp.sigma)

/-- `total` of `_class_posteriors`. -/
def totalDensity (ext : Externals R) (model : SensorModel R) (z : List R) : R :=
  (componentDensities ext model z).sum

/-- The point at which a model scores an observation. -/
def zScores (model : SensorModel R) (magnitude accelStd gbarInMax : Option R) : List R :=
  model.standardization.transform (computeRatio magnitude accelStd) (gbarInMax.getD 0)

/-- `is_outlier` before the check for usable posteriors. -/
def outlierFlag (model : SensorModel R) (magnitude accelStd gbarInMax speedMps : Option R) : Bool :=
  match model.iforest with
  | none => false
  | some predict => predict (outlierFeatures magnitude accelStd gbarInMax speedMps) == -1

/-- The posteriors of an observation when the total density is positive. -/
def posteriorsAt (ext : Externals R) (model : SensorModel R) (z : List R) : Posteriors R :=
  tally (shares model.classMap (totalDensity ext model z) 0 (componentDensities ext model z))

theorem classPosteriors_of_nonpos (h : totalDensity ext model z ≤ 0) :
    classPosteriors ext model z = .ok [] := if_pos h

theorem classPosteriors_of_pos (hcovers : Covers model.classMap model.components.length)
    (h : 0 < totalDensity ext model z) :
    classPosteriors ext model z = .ok (posteriorsAt ext model z) := by
  have hlookup : ∀ j, 0 ≤ j → j < 0 + (componentDensities ext model z).length →
      (model.classMap.lookup j).isSome = true := by
    intro j _ hj
    exact hcovers j (by simpa [componentDensities] using hj)
  exact (if_neg (not_le.mpr h)).trans (groupPosteriors_eq hlookup)

theorem sum_posteriorsAt (h : 0 < totalDensity ext model z) :
    ((posteriorsAt ext model z).map Prod.snd).sum = 1 := by
  rw [posteriorsAt, sum_tally, sum_shares]
  exact div_self h.ne'

variable {magnitude accelStd gbarInMax speedMps : Option R}

/-- Without a usable posterior, the observation is a non-pothole outlier. -/
theorem scoreObservation_of_nonpos
    (h : totalDensity ext model (zScores model magnitude accelStd gbarInMax) ≤ 0) :
    scoreObservation ext model magnitude accelStd gbarInMax speedMps = .ok {
      sensorClass := .not
      pPothole := 0
      severity := severity magnitude speedMps model.severityCalib.speedRef model.severityCalib.scale
      isOutlier := true } := by
  have hpost := classPosteriors_of_nonpos h
  simp only [zScores] at hpost
  simp only [scoreObservation, classifierFeatures, hpost]

/-- Otherwise the class is the first maximum of the posteriors, and `p_pothole` is the mass of the
class `pothole`. -/
theorem scoreObservation_of_pos (speedMps : Option R)
    (hcovers : Covers model.classMap model.components.length)
    (h : 0 < totalDensity ext model (zScores model magnitude accelStd gbarInMax)) :
    ∃ best rest, posteriorsAt ext model (zScores model magnitude accelStd gbarInMax) =
        best :: rest ∧
      scoreObservation ext model magnitude accelStd gbarInMax speedMps = .ok {
        sensorClass := firstMax best rest
        pPothole := mass (best :: rest) .pothole
        severity :=
          severity magnitude speedMps model.severityCalib.speedRef model.severityCalib.scale
        isOutlier := outlierFlag model magnitude accelStd gbarInMax speedMps } := by
  have hpost := classPosteriors_of_pos hcovers h
  have hsum := sum_posteriorsAt h
  have hnodup := nodup_keys_tally (shares model.classMap
    (totalDensity ext model (zScores model magnitude accelStd gbarInMax)) 0
    (componentDensities ext model (zScores model magnitude accelStd gbarInMax)))
  rw [← posteriorsAt] at hnodup
  generalize posteriorsAt ext model (zScores model magnitude accelStd gbarInMax) = posteriors
    at hpost hsum hnodup ⊢
  cases posteriors with
  | nil => exact absurd hsum (by simp)
  | cons best rest =>
    refine ⟨best, rest, rfl, ?_⟩
    simp only [zScores] at hpost
    simp only [scoreObservation, classifierFeatures, hpost, argmaxClass_eq, lookup_getD hnodup]
    rfl

end Scoring

section Consistency

variable {R : Type} [Field R] [LinearOrder R] [IsStrictOrderedRing R] {ext : Externals R}
  {model : SensorModel R}

/-- Non-negative numbers under distinct classes that sum to 1. -/
structure IsDistribution (posteriors : Posteriors R) : Prop where
  nodup : (posteriors.map Prod.fst).Nodup
  nonneg : ∀ p ∈ posteriors, 0 ≤ p.2
  sum_eq_one : (posteriors.map Prod.snd).sum = 1

theorem componentDensities_nonneg (hpdf : ∀ z mu sigma, 0 ≤ ext.pdf z mu sigma)
    (hweight : ∀ comp ∈ model.components, 0 ≤ comp.weight) (z : List R) :
    ∀ dens ∈ componentDensities ext model z, 0 ≤ dens := by
  intro dens hdens
  obtain ⟨comp, hcomp, rfl⟩ := List.mem_map.mp hdens
  exact mul_nonneg (hweight comp hcomp) (hpdf _ _ _)

theorem isDistribution_posteriorsAt {z : List R}
    (hdensities : ∀ dens ∈ componentDensities ext model z, 0 ≤ dens)
    (h : 0 < totalDensity ext model z) : IsDistribution (posteriorsAt ext model z) where
  nodup := nodup_keys_tally _
  nonneg := by
    rintro ⟨cls, x⟩ hp
    obtain ⟨-, rfl⟩ := (mem_iff_mass (nodup_keys_tally _)).mp hp
    rw [mass_tally]
    apply mass_nonneg
    intro q hq
    obtain ⟨y, hy, rfl⟩ := List.mem_map.mp hq
    exact div_nonneg (hdensities _ (List.fst_mem_of_mem_zipIdx hy)) h.le
  sum_eq_one := sum_posteriorsAt h

/-- A class with more than half of a distribution is its maximum. -/
theorem firstMax_eq_of_half {best : SensorClass × R} {rest : Posteriors R}
    (h : IsDistribution (best :: rest)) {cls : SensorClass}
    (hhalf : 1 / 2 < mass (best :: rest) cls) : firstMax best rest = cls := by
  obtain ⟨x, hmem, hmax⟩ := exists_firstMax best rest
  by_contra hne
  have hx : x = mass (best :: rest) (firstMax best rest) := ((mem_iff_mass h.nodup).mp hmem).2
  have hparts := mass_add_mass_le h.nonneg hne
  rw [h.sum_eq_one, ← hx] at hparts
  have hcls : mass (best :: rest) cls ≤ x := by
    by_cases hkey : cls ∈ (best :: rest).map Prod.fst
    · exact hmax _ ((mem_iff_mass h.nodup).mpr ⟨hkey, rfl⟩)
    · rw [mass_eq_zero hkey]
      exact h.nonneg _ hmem
  linarith

/-- The maximum of a distribution over three classes has at least a third of it. -/
theorem third_le_firstMax {best : SensorClass × R} {rest : Posteriors R}
    (h : IsDistribution (best :: rest)) : 1 / 3 ≤ mass (best :: rest) (firstMax best rest) := by
  obtain ⟨x, hmem, hmax⟩ := exists_firstMax best rest
  have hx : x = mass (best :: rest) (firstMax best rest) := ((mem_iff_mass h.nodup).mp hmem).2
  have hsum := sum_le_card_nsmul h.nodup (h.nonneg _ hmem) hmax
  have hcard : Fintype.card SensorClass = 3 := rfl
  rw [h.sum_eq_one, hcard, nsmul_eq_mul] at hsum
  rw [← hx]
  push_cast at hsum
  linarith

/-- With a positive total density, the posteriors are a distribution and the reported class has a
maximal one; `p_pothole` above a half makes it `pothole`, which needs at least a third. Otherwise
the observation is a non-pothole outlier. -/
theorem posteriors_consistent (hpdf : ∀ z mu sigma, 0 ≤ ext.pdf z mu sigma)
    (hweight : ∀ comp ∈ model.components, 0 ≤ comp.weight)
    (hcovers : Covers model.classMap model.components.length)
    (magnitude accelStd gbarInMax speedMps : Option R) :
    (0 < totalDensity ext model (zScores model magnitude accelStd gbarInMax) →
      ∃ posteriors res,
        classPosteriors ext model (zScores model magnitude accelStd gbarInMax) = .ok posteriors ∧
        scoreObservation ext model magnitude accelStd gbarInMax speedMps = .ok res ∧
        IsDistribution posteriors ∧
        (∃ x, (res.sensorClass, x) ∈ posteriors ∧ ∀ p ∈ posteriors, p.2 ≤ x) ∧
        (1 / 2 < res.pPothole → res.sensorClass = .pothole) ∧
        (res.sensorClass = .pothole → 1 / 3 ≤ res.pPothole)) ∧
    (totalDensity ext model (zScores model magnitude accelStd gbarInMax) ≤ 0 →
      ∃ res, scoreObservation ext model magnitude accelStd gbarInMax speedMps = .ok res ∧
        res.sensorClass = .not ∧ res.pPothole = 0 ∧ res.isOutlier = true) := by
  constructor
  · intro hpos
    have hdist := isDistribution_posteriorsAt (componentDensities_nonneg hpdf hweight _) hpos
    obtain ⟨best, rest, hpost, hscore⟩ :=
      scoreObservation_of_pos speedMps hcovers hpos
    have hclass := classPosteriors_of_pos hcovers hpos
    rw [hpost] at hdist hclass
    refine ⟨best :: rest, _, hclass, hscore, hdist, exists_firstMax best rest,
      firstMax_eq_of_half hdist, ?_⟩
    intro hpothole
    have hthird := third_le_firstMax hdist
    exact hpothole ▸ hthird
  · intro hnonpos
    exact ⟨_, scoreObservation_of_nonpos hnonpos, rfl, rfl, rfl⟩

end Consistency

/-- Two kernels, of the classes `not` and `pothole`. -/
def twoKernels : SensorModel ℚ where
  modelVersion := "sensor_gmm_v1_two"
  standardization := ⟨1, 1, 1, 1⟩
  classMap := [(0, .not), (1, .pothole)]
  severityCalib := ⟨5, 2⟩
  k := 2
  nObservations := 2
  iforest := none
  components := [⟨[0, 0], [[1, 0], [0, 1]], 1 / 4⟩, ⟨[4, 2], [[1, 0], [0, 1]], 3 / 4⟩]

theorem twoKernels_consistent :
    ∃ posteriors res,
      classPosteriors .planar twoKernels (zScores twoKernels (some 6) (some 1) (some 3)) =
        .ok posteriors ∧
      scoreObservation .planar twoKernels (some 6) (some 1) (some 3) (some 10) = .ok res ∧
      IsDistribution posteriors ∧
      (∃ x, (res.sensorClass, x) ∈ posteriors ∧ ∀ p ∈ posteriors, p.2 ≤ x) ∧
      (1 / 2 < res.pPothole → res.sensorClass = .pothole) ∧
      (res.sensorClass = .pothole → 1 / 3 ≤ res.pPothole) :=
  (posteriors_consistent pdf_planar_nonneg (by decide +kernel) (by unfold Covers; decide)
    (some 6) (some 1) (some 3) (some 10)).1 (by decide +kernel)

end PotholeServer.Sensor
