import PotholeServer.Sensor.Posterior

/-!
# The range of a score

A model whose weights and densities are not negative gives every observation that it can score a
probability and a severity between 0 and 1. Whether the class map holds every component is not
asked: an observation that needs a missing one is not scored.
-/

namespace PotholeServer.Sensor

open Sql Stats

variable {R : Type} [Field R] [LinearOrder R]

/-- A model that may be activated: a positive reference speed, and components with non-negative
weights and densities. -/
structure Usable (ext : Externals R) (model : SensorModel R) : Prop where
  speedRef_pos : 0 < model.severityCalib.speedRef
  weight_nonneg : ∀ comp ∈ model.components, 0 ≤ comp.weight
  pdf_nonneg : ∀ comp ∈ model.components, ∀ z, 0 ≤ ext.pdf z comp.mu comp.sigma

section Covers

variable {ext : Externals R} {model : SensorModel R} {z : List R} {posteriors : Posteriors R}

omit [LinearOrder R] in
/-- The loop ends only when it has found every index. -/
theorem lookup_of_groupPosteriors {classMap : List (Nat × SensorClass)} {total : R} {i : Nat}
    {densities : List R} {acc : Posteriors R}
    (h : groupPosteriors classMap total i densities acc = .ok posteriors) {j : Nat} (hij : i ≤ j)
    (hj : j < i + densities.length) : (classMap.lookup j).isSome = true := by
  induction densities generalizing i acc with
  | nil => exact absurd hj (by simpa using hij)
  | cons dens rest ih =>
    rw [groupPosteriors] at h
    cases hcls : classMap.lookup i with
    | none =>
      rw [hcls] at h
      cases h
    | some cls =>
      rw [hcls] at h
      rcases hij.eq_or_lt with rfl | hlt
      · rw [hcls]
        rfl
      · rw [List.length_cons] at hj
        exact ih h hlt (by omega)

theorem covers_of_classPosteriors (hpos : 0 < totalDensity ext model z)
    (h : classPosteriors ext model z = .ok posteriors) :
    Covers model.classMap model.components.length := by
  have hgroup : groupPosteriors model.classMap (totalDensity ext model z) 0
      (componentDensities ext model z) [] = .ok posteriors :=
    (if_neg (not_le.mpr hpos)).symm.trans h
  intro i hi
  apply lookup_of_groupPosteriors hgroup (Nat.zero_le i)
  simpa [componentDensities] using hi

end Covers

section Range

variable [IsStrictOrderedRing R] {ext : Externals R} {model : SensorModel R}

theorem IsDistribution.mass_mem_Icc {posteriors : Posteriors R} (h : IsDistribution posteriors)
    (cls : SensorClass) : mass posteriors cls ∈ Set.Icc 0 1 := by
  have hother : ∃ cls', cls ≠ cls' := by
    cases cls with
    | not => exact ⟨.pothole, by decide⟩
    | crack | pothole => exact ⟨.not, by decide⟩
  obtain ⟨cls', hne⟩ := hother
  have hparts := mass_add_mass_le h.nonneg hne
  rw [h.sum_eq_one] at hparts
  refine ⟨mass_nonneg h.nonneg cls, ?_⟩
  exact (le_add_of_nonneg_right (mass_nonneg h.nonneg cls')).trans hparts

theorem Usable.densities_nonneg (h : Usable ext model) (z : List R) :
    ∀ dens ∈ componentDensities ext model z, 0 ≤ dens := by
  intro dens hdens
  obtain ⟨comp, hcomp, rfl⟩ := List.mem_map.mp hdens
  exact mul_nonneg (h.weight_nonneg comp hcomp) (h.pdf_nonneg comp hcomp z)

/-- The scores of an observation lie between 0 and 1. -/
theorem Usable.score_mem_Icc (h : Usable ext model)
    {magnitude accelStd gbarInMax speedMps : Option R} {res : ScoreResult R}
    (hres : scoreObservation ext model magnitude accelStd gbarInMax speedMps = .ok res) :
    res.pPothole ∈ Set.Icc 0 1 ∧ res.severity ∈ Set.Icc 0 1 := by
  rcases le_or_gt (totalDensity ext model (zScores model magnitude accelStd gbarInMax)) 0
    with hnonpos | hpos
  · rw [scoreObservation_of_nonpos hnonpos] at hres
    cases hres
    exact ⟨⟨le_rfl, zero_le_one⟩, severity_mem_Icc _ _ _ _⟩
  · have hcovers : Covers model.classMap model.components.length := by
      cases hpost : classPosteriors ext model (zScores model magnitude accelStd gbarInMax) with
      | ok posteriors => exact covers_of_classPosteriors hpos hpost
      | error e =>
        simp only [zScores] at hpost
        simp only [scoreObservation, classifierFeatures, hpost] at hres
        cases hres
    have hdist := isDistribution_posteriorsAt (h.densities_nonneg _) hpos
    obtain ⟨best, rest, hpost, hscore⟩ := scoreObservation_of_pos speedMps hcovers hpos
    rw [hpost] at hdist
    rw [hscore] at hres
    cases hres
    exact ⟨hdist.mass_mem_Icc .pothole, severity_mem_Icc _ _ _ _⟩

end Range

end PotholeServer.Sensor
