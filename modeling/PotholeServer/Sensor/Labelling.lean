import PotholeServer.Ingest.Events
import PotholeServer.Sensor.Fit
import PotholeServer.Sensor.Posterior
import PotholeServer.Stats.Ranking

/-!
# The energy rule

`_energy_order` and the class map of `fit_sensor_model`. The class of a component is the class of
its rank by the norm of its mean, ties by index, so a list of components of distinct norms scores
every observation as any permutation of it does.
-/

namespace PotholeServer.Sensor

open Sql Db Stats

section EnergyRule

variable {R : Type}

/-- The norms of the component means. -/
def energies (sk : Sklearn R) (components : List (Component R)) : List R :=
  components.map (fun comp ↦ sk.norm comp.mu)

theorem energies_perm (sk : Sklearn R) {components components' : List (Component R)}
    (hperm : components.Perm components') :
    (energies sk components).Perm (energies sk components') :=
  hperm.map _

theorem getElem?_energies (sk : Sklearn R) {components : List (Component R)} {i : Nat}
    {comp : Component R} (hcomp : components[i]? = some comp) :
    (energies sk components)[i]? = some (sk.norm comp.mu) := by
  rw [energies, List.getElem?_map, hcomp]
  rfl

variable [LinearOrder R]

theorem energyOrder_eq (sk : Sklearn R) (components : List (Component R)) :
    energyOrder sk (components.map Component.mu) = argsort (energies sk components) := by
  rw [energyOrder, List.map_map]
  rfl

/-- In a map from the entries of a list to classes by place, an entry has the class of its
place. -/
theorem lookup_zipIdx {order : List Nat} (hnodup : order.Nodup) :
    ∀ {n k i : Nat}, order[k]? = some i →
      ((order.zipIdx n).map (fun x ↦ (x.1, classOfRank x.2))).lookup i =
        some (classOfRank (n + k)) := by
  induction order with
  | nil => simp
  | cons j rest ih =>
    obtain ⟨hj, hrest⟩ := List.nodup_cons.mp hnodup
    intro n k i hk
    cases k with
    | zero =>
      obtain rfl : j = i := by simpa using hk
      simp
    | succ k =>
      rw [List.getElem?_cons_succ] at hk
      have hne : (i == j) = false := by
        rw [beq_eq_false_iff_ne]
        rintro rfl
        exact hj (List.mem_of_getElem? hk)
      rw [List.zipIdx_cons, List.map_cons, List.lookup_cons, hne, ih hrest hk, Nat.add_right_comm]
      rfl

/-- The class map gives a component the class of its rank. -/
theorem lookup_classMapOf {sk : Sklearn R} {components : List (Component R)} {i : Nat}
    {comp : Component R} (hcomp : components[i]? = some comp) :
    (classMapOf sk components).lookup i =
      some (classOfRank (rank (sk.norm comp.mu, i) (energies sk components).zipIdx)) := by
  rw [classMapOf, energyOrder_eq,
    lookup_zipIdx (nodup_argsort _) (getElem?_argsort (getElem?_energies sk hcomp)), Nat.zero_add]

/-- The energy rule names a class for every component. -/
theorem covers_classMapOf (sk : Sklearn R) (components : List (Component R)) :
    Covers (classMapOf sk components) components.length := by
  intro i hi
  rw [lookup_classMapOf (List.getElem?_eq_getElem hi)]
  rfl

end EnergyRule

section FixedPoint

/-- The square root of a natural number below `4 ^ n`, rounded down. -/
def floorSqrt : Nat → Nat → Nat
  | 0, _ => 0
  | n + 1, x =>
    let r := 2 * floorSqrt n (x / 4)
    if (r + 1) * (r + 1) ≤ x then r + 1 else r

/-- A square root to nine decimals. -/
def fixedSqrt (x : ℚ) : ℚ := floorSqrt 64 (x * 10 ^ 18).floor.toNat / 10 ^ 9

/-- numpy to nine decimals. A mixture has one narrow component at each different point, which is
what an EM fit of as many points as components converges to. -/
def Sklearn.fixedPoint : Sklearn ℚ where
  std := fun xs ↦ fixedSqrt (columnMean (xs.map (fun x ↦ (x - columnMean xs) ^ 2)))
  allcloseZero := fun xs ↦ xs.all (fun x ↦ |x| ≤ 1 / 10 ^ 8)
  norm := fun v ↦ fixedSqrt (v.map (fun x ↦ x ^ 2)).sum
  gaussianMixture := fun k _ zc ↦
    if (zc.dedup.length : Int) = k then
      some (zc.dedup.map (fun z ↦
        ⟨z, [[1 / 10 ^ 6, 0], [0, 1 / 10 ^ 6]], zc.count z / zc.length⟩))
    else none
  isolationForest := fun _ _ _ ↦ some (fun _ ↦ 1)

theorem length_fixedPoint (k seed : Int) (zc : List (List ℚ)) (comps : List (Component ℚ))
    (h : Sklearn.fixedPoint.gaussianMixture k seed zc = some comps) : (comps.length : Int) = k := by
  dsimp only [Sklearn.fixedPoint] at h
  split at h
  · cases h
    simpa
  · cases h

end FixedPoint

section Permutation

variable {R : Type} [Field R] [LinearOrder R] {sk : Sklearn R}
  {components components' : List (Component R)}

/-- A model with these components and their classes by the energy rule. -/
def energyLabelled (sk : Sklearn R) (model : SensorModel R) (components : List (Component R)) :
    SensorModel R :=
  { model with
    classMap := classMapOf sk components
    components := components }

/-- Among distinct norms, the class of a component is found without its index. -/
theorem shares_energyLabelled (hdistinct : (energies sk components).Nodup) (total : R)
    (dens : Component R → R) :
    shares (classMapOf sk components) total 0 (components.map dens) =
      components.map (fun comp ↦
        (classOfRank ((energies sk components).countP (fun y ↦ y < sk.norm comp.mu)),
          dens comp / total)) := by
  apply List.ext_getElem?
  intro i
  rw [shares, List.getElem?_map, List.getElem?_zipIdx, List.getElem?_map, List.getElem?_map]
  cases hcomp : components[i]? with
  | none => rfl
  | some comp =>
    simp only [Option.map_some, Nat.zero_add, classAt, lookup_classMapOf hcomp, Option.getD_some,
      rank_eq_countP hdistinct (getElem?_energies sk hcomp)]

theorem totalDensity_perm (ext : Externals R) (sk : Sklearn R) (model : SensorModel R)
    (hperm : components.Perm components') (z : List R) :
    totalDensity ext (energyLabelled sk model components) z =
      totalDensity ext (energyLabelled sk model components') z :=
  (hperm.map _).sum_eq

/-- The components in another order give the same posteriors in another order. -/
theorem posteriorsAt_perm (ext : Externals R) (model : SensorModel R)
    (hdistinct : (energies sk components).Nodup) (hperm : components.Perm components')
    (z : List R) :
    (posteriorsAt ext (energyLabelled sk model components) z).Perm
      (posteriorsAt ext (energyLabelled sk model components') z) := by
  have henergies := energies_perm sk hperm
  have hdistinct' : (energies sk components').Nodup := henergies.nodup_iff.mp hdistinct
  unfold posteriorsAt
  apply tally_perm
  rw [totalDensity_perm ext sk model hperm]
  unfold componentDensities
  dsimp only [energyLabelled]
  rw [shares_energyLabelled hdistinct, shares_energyLabelled hdistinct']
  have hcount : ∀ y, (energies sk components).countP (fun x ↦ x < y) =
      (energies sk components').countP (fun x ↦ x < y) := fun y ↦ henergies.countP_eq _
  simp only [hcount]
  exact hperm.map _

/-- Two models score an observation alike: the same posteriors, `p_pothole`, severity and outlier
flag, and the same class whenever its posterior is above all others. -/
def ScoresAlike (ext : Externals R) (model model' : SensorModel R)
    (magnitude accelStd gbarInMax speedMps : Option R) : Prop :=
  ∃ posteriors posteriors' res res',
    classPosteriors ext model (zScores model magnitude accelStd gbarInMax) = .ok posteriors ∧
    classPosteriors ext model' (zScores model' magnitude accelStd gbarInMax) = .ok posteriors' ∧
    posteriors.Perm posteriors' ∧
    scoreObservation ext model magnitude accelStd gbarInMax speedMps = .ok res ∧
    scoreObservation ext model' magnitude accelStd gbarInMax speedMps = .ok res' ∧
    res.pPothole = res'.pPothole ∧ res.severity = res'.severity ∧ res.isOutlier = res'.isOutlier ∧
    ((∃ cls x, (cls, x) ∈ posteriors ∧ ∀ p ∈ posteriors, p.1 ≠ cls → p.2 < x) →
      res.sensorClass = res'.sensorClass)

/-- Scoring does not depend on the order in which the fit numbers the components. -/
theorem scoring_permuted (ext : Externals R) (model : SensorModel R)
    (hdistinct : (energies sk components).Nodup) (hperm : components.Perm components')
    (magnitude accelStd gbarInMax speedMps : Option R) :
    ScoresAlike ext (energyLabelled sk model components) (energyLabelled sk model components')
      magnitude accelStd gbarInMax speedMps := by
  have hz : ∀ comps, zScores (energyLabelled sk model comps) magnitude accelStd gbarInMax =
      zScores model magnitude accelStd gbarInMax := fun _ ↦ rfl
  have htotal := totalDensity_perm ext sk model hperm (zScores model magnitude accelStd gbarInMax)
  by_cases hpos : 0 < totalDensity ext (energyLabelled sk model components)
      (zScores model magnitude accelStd gbarInMax)
  · have hpos' := htotal ▸ hpos
    obtain ⟨best, rest, hpost, hscore⟩ := scoreObservation_of_pos speedMps
      (covers_classMapOf sk components) hpos
    obtain ⟨best', rest', hpost', hscore'⟩ := scoreObservation_of_pos speedMps
      (covers_classMapOf sk components') hpos'
    rw [hz] at hpost hpost'
    have hposteriors := posteriorsAt_perm ext model hdistinct hperm
      (zScores model magnitude accelStd gbarInMax)
    rw [hpost, hpost'] at hposteriors
    refine ⟨_, _, _, _, classPosteriors_of_pos (covers_classMapOf sk components) hpos,
      classPosteriors_of_pos (covers_classMapOf sk components') hpos', hpost ▸ hpost' ▸ hposteriors,
      hscore, hscore', mass_perm hposteriors _, rfl, rfl, ?_⟩
    rintro ⟨cls, x, hmem, habove⟩
    rw [hz, hpost] at hmem habove
    have hfirst : firstMax best rest = cls := firstMax_eq hmem habove
    have hfirst' : firstMax best' rest' = cls := by
      apply firstMax_eq (hposteriors.mem_iff.mp hmem)
      intro p hp
      exact habove p (hposteriors.mem_iff.mpr hp)
    exact hfirst.trans hfirst'.symm
  · have hnonpos := not_lt.mp hpos
    have hnonpos' := htotal ▸ hnonpos
    exact ⟨[], [], _, _, classPosteriors_of_nonpos hnonpos, classPosteriors_of_nonpos hnonpos',
      .nil, scoreObservation_of_nonpos hnonpos, scoreObservation_of_nonpos hnonpos', rfl, rfl, rfl,
      fun _ ↦ rfl⟩

/-- Three kernels at the distances 0, 5 and 10 from the mean of the data. -/
def threeMeans : List (Component ℚ) :=
  [⟨[0, 0], [[1, 0], [0, 1]], 1 / 2⟩, ⟨[3, 4], [[1, 0], [0, 1]], 1 / 4⟩,
    ⟨[6, 8], [[1, 0], [0, 1]], 1 / 4⟩]

theorem threeMeans_reversed :
    ScoresAlike .planar (energyLabelled .fixedPoint twoKernels threeMeans)
      (energyLabelled .fixedPoint twoKernels threeMeans.reverse) (some 6) (some 1) (some 3)
      (some 10) :=
  scoring_permuted .planar twoKernels (by decide +kernel) (List.reverse_perm _).symm _ _ _ _

end Permutation

section Signal

variable {R : Type} [Field R] [LinearOrder R] {sk : Sklearn R} {model : SensorModel R}

/-- The mean of a component in the units of the features, `[ratio, gbar]`. -/
def rawMean (s : Standardization R) (comp : Component R) : R × R :=
  (comp.mu.getD 0 0 * (if 0 < s.ratioStd then s.ratioStd else 1) + s.ratioMean,
    comp.mu.getD 1 0 * (if 0 < s.gbarStd then s.gbarStd else 1) + s.gbarMean)

/-- Component `i` has a smaller mean than component `j` in both features. -/
def SignalBelow (model : SensorModel R) (i j : Nat) : Prop :=
  ∃ x ∈ model.components[i]?, ∃ y ∈ model.components[j]?,
    (rawMean model.standardization x).1 < (rawMean model.standardization y).1 ∧
    (rawMean model.standardization x).2 < (rawMean model.standardization y).2

/-- Component `i` comes before component `j` in `_energy_order`. -/
def EnergyBelow (sk : Sklearn R) (model : SensorModel R) (i j : Nat) : Prop :=
  ∃ x ∈ model.components[i]?, ∃ y ∈ model.components[j]?,
    Before (sk.norm x.mu, i) (sk.norm y.mu, j)

/-- What an EM fit of z-scored data gives: positive weights that sum to 1, and component means
whose weighted mean is 0. -/
structure IsFittedMixture (components : List (Component R)) : Prop where
  weight_pos : ∀ comp ∈ components, 0 < comp.weight
  sum_weight : (components.map Component.weight).sum = 1
  ratio_mean : (components.map (fun comp ↦ comp.weight * comp.mu.getD 0 0)).sum = 0
  gbar_mean : (components.map (fun comp ↦ comp.weight * comp.mu.getD 1 0)).sum = 0

/-- Of three components ordered by the signal, the lowest is `not`, the middle one `crack` and the
highest `pothole`. -/
def LabelledBySignal (model : SensorModel R) (a b c : Nat) : Prop :=
  model.classMap.lookup a = some .not ∧ model.classMap.lookup b = some .crack ∧
    model.classMap.lookup c = some .pothole

theorem classOfRank_eq_not {k : Nat} : classOfRank k = .not ↔ k = 0 := by
  rcases k with _ | _ | k <;> simp [classOfRank]

theorem classOfRank_eq_crack {k : Nat} : classOfRank k = .crack ↔ k = 1 := by
  rcases k with _ | _ | k <;> simp [classOfRank]

theorem classOfRank_eq_pothole {k : Nat} : classOfRank k = .pothole ↔ 2 ≤ k := by
  rcases k with _ | _ | k <;> simp [classOfRank]

theorem ne_of_signalBelow {i j : Nat} (h : SignalBelow model i j) : i ≠ j := by
  rintro rfl
  obtain ⟨x, hx, y, hy, hlt, -⟩ := h
  obtain rfl : x = y := Option.some.inj (hx.symm.trans hy)
  exact hlt.false

instance (i j : Nat) : Decidable (SignalBelow model i j) := by
  unfold SignalBelow
  infer_instance

instance (i j : Nat) : Decidable (EnergyBelow sk model i j) := by
  unfold EnergyBelow
  infer_instance

instance (a b c : Nat) : Decidable (LabelledBySignal model a b c) := by
  unfold LabelledBySignal
  infer_instance

theorem SignalBelow.trans {i j k : Nat} (hij : SignalBelow model i j)
    (hjk : SignalBelow model j k) : SignalBelow model i k := by
  obtain ⟨x, hx, y, hy, hratio, hgbar⟩ := hij
  obtain ⟨y', hy', z, hz, hratio', hgbar'⟩ := hjk
  obtain rfl : y = y' := Option.some.inj (hy.symm.trans hy')
  exact ⟨x, hx, z, hz, hratio.trans hratio', hgbar.trans hgbar'⟩

/-- Three different indices of a list of three values are all of them. -/
theorem zipIdx_perm_three {α : Type} {l : List α} (hlength : l.length = 3) {a b c : Nat}
    {x y z : α} (hx : l[a]? = some x) (hy : l[b]? = some y) (hz : l[c]? = some z) (hab : a ≠ b)
    (hbc : b ≠ c) (hac : a ≠ c) : l.zipIdx.Perm [(x, a), (y, b), (z, c)] := by
  have hsubset : [(x, a), (y, b), (z, c)] ⊆ l.zipIdx := by
    simp [List.mem_zipIdx_iff_getElem?, hx, hy, hz]
  have hnodup : [(x, a), (y, b), (z, c)].Nodup := by
    simp [hab, hbc, hac]
  exact (hnodup.subperm hsubset |>.perm_of_length_le (by simp [hlength])).symm

/-- In a fit of three components that the signal orders, the labels follow the signal exactly when
the components lie in this order by the distance of their means from the mean of the data. -/
theorem labelled_by_signal_iff
    (hgmm : ∀ k seed zc comps, sk.gaussianMixture k seed zc = some comps → (comps.length : Int) = k)
    {settings : FitSettings R} {hex : String} {rows : List (AssetObservation R)}
    (hfit : fitSensorModel sk settings hex rows = .ok model)
    (hthree : settings.sensorFitKDefault = 3) {a b c : Nat} (hab : SignalBelow model a b)
    (hbc : SignalBelow model b c) :
    LabelledBySignal model a b c ↔ EnergyBelow sk model a b ∧ EnergyBelow sk model b c := by
  obtain ⟨⟨zc, hcomps⟩, hclassMap, hk, -⟩ := fitted_of_ok sk hfit
  have hlength : model.components.length = 3 := by
    have hk := hgmm _ _ _ _ hcomps
    omega
  have hne := ne_of_signalBelow hab
  have hne' := ne_of_signalBelow hbc
  have hne'' := ne_of_signalBelow (hab.trans hbc)
  obtain ⟨x, hx, y, hy, -⟩ := hab
  obtain ⟨-, -, z, hz, -⟩ := hbc
  have hperm := zipIdx_perm_three (by simpa [energies] using hlength) (getElem?_energies sk hx)
    (getElem?_energies sk hy) (getElem?_energies sk hz) hne hne' hne''
  have hlabels : LabelledBySignal model a b c ↔
      rank (sk.norm x.mu, a) (energies sk model.components).zipIdx = 0 ∧
      rank (sk.norm y.mu, b) (energies sk model.components).zipIdx = 1 ∧
      2 ≤ rank (sk.norm z.mu, c) (energies sk model.components).zipIdx := by
    simp only [LabelledBySignal, hclassMap, lookup_classMapOf hx, lookup_classMapOf hy,
      lookup_classMapOf hz, Option.some.injEq, classOfRank_eq_not, classOfRank_eq_crack,
      classOfRank_eq_pothole]
  have horder : EnergyBelow sk model a b ∧ EnergyBelow sk model b c ↔
      Before (sk.norm x.mu, a) (sk.norm y.mu, b) ∧ Before (sk.norm y.mu, b) (sk.norm z.mu, c) := by
    simp [EnergyBelow, Option.mem_def.mp hx, Option.mem_def.mp hy, Option.mem_def.mp hz]
  rw [hlabels, horder]
  exact rank_three hperm hne hne'

end Signal

section Blobs

/-- The settings of a fit of three components. -/
def threeComponents : FitSettings ℚ where
  sensorFitMinObservations := 3
  sensorFitKDefault := 3
  sensorIforestContamination := 1 / 10
  sensorRandomState := 42
  severitySpeedRef := 5
  severityScale := 2

/-- Reports whose two features are both the given number. -/
def blobs (xs : List ℚ) : List (AssetObservation ℚ) :=
  xs.zipIdx.map (fun x ↦ Ingest.newObservation "device"
    { Ingest.report (toString x.2) none with magnitude := x.1, gbarInMax := some x.1 } 0 0)

instance (components : List (Component ℚ)) : Decidable (IsFittedMixture components) :=
  decidable_of_iff ((∀ comp ∈ components, 0 < comp.weight) ∧
      (components.map Component.weight).sum = 1 ∧
      (components.map (fun comp ↦ comp.weight * comp.mu.getD 0 0)).sum = 0 ∧
      (components.map (fun comp ↦ comp.weight * comp.mu.getD 1 0)).sum = 0)
    ⟨fun h ↦ ⟨h.1, h.2.1, h.2.2.1, h.2.2.2⟩,
      fun h ↦ ⟨h.weight_pos, h.sum_weight, h.ratio_mean, h.gbar_mean⟩⟩

/-- What a check finds of the value of a computation. -/
theorem exists_ok_of_any {ε α : Type} {x : Except ε α} {p : α → Bool}
    (h : x.toOption.any p = true) : ∃ a, x = .ok a ∧ p a = true := by
  cases x with
  | error e => cases h
  | ok a => exact ⟨a, rfl, h⟩

/-- Mostly quiet driving: the means are at -1, 2 and 6 deviations times a constant, and the labels
follow the signal. -/
theorem labelled_by_signal_quiet : ∃ model,
    fitSensorModel .fixedPoint threeComponents "0" (blobs [1, 1, 1, 1, 1, 1, 1, 1, 4, 8]) =
      .ok model ∧
    LabelledBySignal model 0 1 2 := by
  obtain ⟨model, hfit, hcheck⟩ : ∃ model,
      fitSensorModel .fixedPoint threeComponents "0" (blobs [1, 1, 1, 1, 1, 1, 1, 1, 4, 8]) =
        .ok model ∧
      decide (SignalBelow model 0 1 ∧ SignalBelow model 1 2 ∧
        EnergyBelow .fixedPoint model 0 1 ∧ EnergyBelow .fixedPoint model 1 2) = true :=
    exists_ok_of_any (by decide +kernel)
  obtain ⟨hab, hbc, henergy⟩ := of_decide_eq_true hcheck
  exact ⟨model, hfit, (labelled_by_signal_iff length_fixedPoint hfit rfl hab hbc).mpr henergy⟩

/-- As many reports of each kind: the middle mean is next to the mean of the data, and is labelled
`not`. -/
theorem labels_against_signal : ¬∀ (settings : FitSettings ℚ) (hex : String)
    (rows : List (AssetObservation ℚ)) (model : SensorModel ℚ),
    fitSensorModel .fixedPoint settings hex rows = .ok model →
    settings.sensorFitKDefault = 3 → IsFittedMixture model.components →
    ∀ a b c, SignalBelow model a b → SignalBelow model b c → LabelledBySignal model a b c := by
  intro h
  obtain ⟨model, hfit, hcheck⟩ : ∃ model,
      fitSensorModel .fixedPoint threeComponents "0" (blobs [1, 4, 8]) = .ok model ∧
      decide (IsFittedMixture model.components ∧ SignalBelow model 0 1 ∧ SignalBelow model 1 2 ∧
        model.classMap.lookup 1 = some .not) = true :=
    exists_ok_of_any (by decide +kernel)
  obtain ⟨hmixture, hab, hbc, hnot⟩ := of_decide_eq_true hcheck
  have hcrack := (h _ _ _ model hfit rfl hmixture 0 1 2 hab hbc).2.1
  rw [hnot] at hcrack
  cases hcrack

end Blobs

section Levels

variable {R : Type} [Field R] [LinearOrder R] {sk : Sklearn R} {model : SensorModel R}

/-- The place of a class in `CLASSES`. -/
def SensorClass.level : SensorClass → Nat
  | .not => 0
  | .crack => 1
  | .pothole => 2

/-- Component `i` alone has the smallest norm. -/
def LowestEnergy (sk : Sklearn R) (model : SensorModel R) (i : Nat) : Prop :=
  ∃ x ∈ model.components[i]?, ∀ y ∈ model.components.zipIdx, y.2 ≠ i →
    sk.norm x.mu < sk.norm y.1.mu

/-- Component `i` alone has the largest norm. -/
def HighestEnergy (sk : Sklearn R) (model : SensorModel R) (i : Nat) : Prop :=
  ∃ x ∈ model.components[i]?, ∀ y ∈ model.components.zipIdx, y.2 ≠ i →
    sk.norm y.1.mu < sk.norm x.mu

/-- The energy rule: every component has a class, the lowest `not`, the highest `pothole`, and one
of a smaller norm no higher class. -/
structure LabelledByEnergy (sk : Sklearn R) (model : SensorModel R) (lowest highest : Nat) :
    Prop where
  defined : ∀ i, (model.classMap.lookup i).isSome = true ↔ i < model.k
  lowest : model.classMap.lookup lowest = some .not
  highest : model.classMap.lookup highest = some .pothole
  monotone : ∀ i j x y, model.components[i]? = some x → model.components[j]? = some y →
    sk.norm x.mu < sk.norm y.mu → ∀ c ∈ model.classMap.lookup i, ∀ d ∈ model.classMap.lookup j,
      c.level ≤ d.level

instance (i : Nat) : Decidable (LowestEnergy sk model i) := by
  unfold LowestEnergy
  infer_instance

instance (i : Nat) : Decidable (HighestEnergy sk model i) := by
  unfold HighestEnergy
  infer_instance

/-- The highest ranks are clamped to the top class. -/
theorem level_classOfRank (k : Nat) : (classOfRank k).level = min k 2 := by
  rcases k with _ | _ | k
  · rfl
  · rfl
  · exact (Nat.min_eq_right (Nat.le_add_left 2 k)).symm

omit [Field R] in
theorem isSome_lookup_classMapOf {components : List (Component R)} {i : Nat} :
    ((classMapOf sk components).lookup i).isSome = true ↔ i < components.length := by
  constructor
  · intro h
    obtain ⟨p, hp, hi⟩ := List.lookup_isSome_iff.mp h
    obtain ⟨q, hq, rfl⟩ := List.mem_map.mp hp
    have hmem : q.1 ∈ argsort (energies sk components) := by
      rw [← energyOrder_eq]
      exact List.fst_mem_of_mem_zipIdx hq
    rw [beq_iff_eq.mp hi]
    simpa [energies] using mem_argsort.mp hmem
  · intro hi
    exact covers_classMapOf sk components i hi

/-- A fit labels its components by the energy rule exactly if there are three or more: of two the
highest is a `crack`. -/
theorem labelled_by_energy_iff
    (hgmm : ∀ k seed zc comps, sk.gaussianMixture k seed zc = some comps → (comps.length : Int) = k)
    {settings : FitSettings R} {hex : String} {rows : List (AssetObservation R)}
    (hfit : fitSensorModel sk settings hex rows = .ok model) {lowest highest : Nat}
    (hlowest : LowestEnergy sk model lowest) (hhighest : HighestEnergy sk model highest) :
    LabelledByEnergy sk model lowest highest ↔ 3 ≤ settings.sensorFitKDefault := by
  obtain ⟨⟨zc, hcomps⟩, hclassMap, hk, -⟩ := fitted_of_ok sk hfit
  have hlength : (model.components.length : Int) = settings.sensorFitKDefault :=
    hgmm _ _ _ _ hcomps
  obtain ⟨x, hx, hleast⟩ := hlowest
  obtain ⟨y, hy, hgreatest⟩ := hhighest
  have henergy : ∀ e ∈ (energies sk model.components).zipIdx,
      ∃ comp, (comp, e.2) ∈ model.components.zipIdx ∧ e.1 = sk.norm comp.mu := by
    intro e he
    rw [List.mem_zipIdx_iff_getElem?, energies, List.getElem?_map, Option.map_eq_some_iff] at he
    obtain ⟨comp, hcomp, hnorm⟩ := he
    exact ⟨comp, List.mem_zipIdx_iff_getElem?.mpr hcomp, hnorm.symm⟩
  have hfirst : rank (sk.norm x.mu, lowest) (energies sk model.components).zipIdx = 0 := by
    apply rank_of_least (getElem?_energies sk hx)
    intro e he hne
    obtain ⟨comp, hcomp, hnorm⟩ := henergy e he
    exact hnorm ▸ hleast _ hcomp hne
  have hlast : rank (sk.norm y.mu, highest) (energies sk model.components).zipIdx + 1 =
      model.components.length := by
    rw [rank_of_greatest (getElem?_energies sk hy), energies, List.length_map]
    intro e he hne
    obtain ⟨comp, hcomp, hnorm⟩ := henergy e he
    exact hnorm ▸ hgreatest _ hcomp hne
  constructor
  · intro h
    have htop := h.highest
    rw [hclassMap, lookup_classMapOf hy, Option.some_inj, classOfRank_eq_pothole] at htop
    omega
  · intro hthree
    refine ⟨?_, ?_, ?_, ?_⟩
    · intro i
      rw [hclassMap, isSome_lookup_classMapOf, hk]
      omega
    · rw [hclassMap, lookup_classMapOf hx, hfirst]
      rfl
    · rw [hclassMap, lookup_classMapOf hy, Option.some_inj, classOfRank_eq_pothole]
      omega
    · intro i j z z' hz hz' hlt c hc d hd
      rw [hclassMap, lookup_classMapOf hz] at hc
      rw [hclassMap, lookup_classMapOf hz'] at hd
      obtain rfl := Option.some.inj hc
      obtain rfl := Option.some.inj hd
      rw [level_classOfRank, level_classOfRank]
      exact min_le_min_right 2 (rank_le_rank (.inl hlt) _)

/-- The settings of a fit of two components. -/
def twoComponents : FitSettings ℚ := { threeComponents with sensorFitKDefault := 2 }

theorem labelled_by_energy_quiet : ∃ model,
    fitSensorModel .fixedPoint threeComponents "0" (blobs [1, 1, 1, 1, 1, 1, 1, 1, 4, 8]) =
      .ok model ∧
    LabelledByEnergy .fixedPoint model 0 2 := by
  obtain ⟨model, hfit, hcheck⟩ : ∃ model,
      fitSensorModel .fixedPoint threeComponents "0" (blobs [1, 1, 1, 1, 1, 1, 1, 1, 4, 8]) =
        .ok model ∧
      decide (LowestEnergy .fixedPoint model 0 ∧ HighestEnergy .fixedPoint model 2) = true :=
    exists_ok_of_any (by decide +kernel)
  obtain ⟨hlowest, hhighest⟩ := of_decide_eq_true hcheck
  exact ⟨model, hfit,
    (labelled_by_energy_iff length_fixedPoint hfit hlowest hhighest).mpr (by decide)⟩

/-- Of two components the highest is labelled `crack`. -/
theorem highest_is_crack : ¬∀ (settings : FitSettings ℚ) (hex : String)
    (rows : List (AssetObservation ℚ)) (model : SensorModel ℚ),
    fitSensorModel .fixedPoint settings hex rows = .ok model → 2 ≤ settings.sensorFitKDefault →
    ∀ lowest highest, LowestEnergy .fixedPoint model lowest →
      HighestEnergy .fixedPoint model highest →
      LabelledByEnergy .fixedPoint model lowest highest := by
  intro h
  obtain ⟨model, hfit, hcheck⟩ : ∃ model,
      fitSensorModel .fixedPoint twoComponents "0" (blobs [1, 1, 4]) = .ok model ∧
      decide (LowestEnergy .fixedPoint model 0 ∧ HighestEnergy .fixedPoint model 1 ∧
        model.classMap.lookup 1 = some .crack) = true :=
    exists_ok_of_any (by decide +kernel)
  obtain ⟨hlowest, hhighest, hcrack⟩ := of_decide_eq_true hcheck
  have hpothole := (h _ _ _ model hfit (by decide) 0 1 hlowest hhighest).highest
  rw [hcrack] at hpothole
  cases hpothole

end Levels

end PotholeServer.Sensor
