import Mathlib.Tactic.Positivity
import PotholeServer.Cluster.Ranges
import PotholeServer.Fusion.Ranges

/-!
# The formulas with a checked division

In a field a quotient by zero is 0; in Python and in SQL it is an error. The formulas of the
pipeline again, with a division that has no result for a zero divisor: with positive reference
speeds and a positive exponential every one has its result, for every input.
-/

namespace PotholeServer.Checked

open Sql Db Sensor Fusion Cluster

variable {R : Type} [Field R] [LinearOrder R]

/-- `x / y`; a zero divisor is an error. -/
def divide (x y : R) : Option R := if y = 0 then none else some (x / y)

theorem divide_of_ne {x y : R} (h : y ≠ 0) : divide x y = some (x / y) := if_neg h

theorem mapM_eq_some_map {α β : Type} {f : α → Option β} {g : α → β} {xs : List α}
    (h : ∀ x ∈ xs, f x = some (g x)) : xs.mapM f = some (xs.map g) := by
  induction xs with
  | nil => rfl
  | cons x xs ih =>
    have hrest := ih (fun y hy ↦ h y (List.mem_cons_of_mem _ hy))
    rw [List.mapM_cons, h x (List.mem_cons_self ..), hrest]
    rfl

/-! ### Scoring -/

section Sensor

/-- `compute_ratio` -/
def computeRatio (magnitude accelStd : Option R) : Option R :=
  match magnitude, accelStd with
  | some m, some a => if a ≤ 0 then some 0 else divide m a
  | _, _ => some 0

/-- `severity` -/
def severity (magnitude speedMps : Option R) (speedRef scale : R) : Option R :=
  match magnitude with
  | none => some 0
  | some m =>
    if m ≤ 0 then some 0
    else
      let speed := match speedMps with
        | some v => if 0 < v then v else 0
        | none => 0
      let denom := max speed speedRef
      (divide (scale * m) denom).map (fun raw ↦ max 0 (min 1 raw))

/-- `Standardization.transform` -/
def transform (s : Standardization R) (ratio gbar : R) : Option (List R) := do
  let rs := if 0 < s.ratioStd then s.ratioStd else 1
  let gs := if 0 < s.gbarStd then s.gbarStd else 1
  let x ← divide (ratio - s.ratioMean) rs
  let y ← divide (gbar - s.gbarMean) gs
  some [x, y]

/-- `outlier_features` -/
def outlierFeatures (magnitude accelStd gbarInMax speedMps : Option R) : Option (List R) :=
  (computeRatio magnitude accelStd).map (fun ratio ↦
    [ratio, gbarInMax.getD 0, magnitude.getD 0, accelStd.getD 0, speedMps.getD 0])

/-- The loop over `enumerate(densities)`, from index `i` on. -/
def groupPosteriors (classMap : List (Nat × SensorClass)) (total : R) :
    Nat → List R → Posteriors R → Option (Except Exn (Posteriors R))
  | _, [], acc => some (.ok acc)
  | i, dens :: rest, acc =>
    match classMap.lookup i with
    | none => some (.error .keyError)
    | some cls => (divide dens total).bind (fun share ↦
      groupPosteriors classMap total (i + 1) rest (addPosterior cls share acc))

/-- `_class_posteriors` -/
def classPosteriors (ext : Externals R) (model : SensorModel R) (z : List R) :
    Option (Except Exn (Posteriors R)) :=
  let densities := model.components.map (fun comp ↦ comp.weight * ext.pdf z comp.mu comp.sigma)
  let total := densities.sum
  if total ≤ 0 then some (.ok []) else groupPosteriors model.classMap total 0 densities []

/-- `score_observation` -/
def scoreObservation (ext : Externals R) (model : SensorModel R)
    (magnitude accelStd gbarInMax speedMps : Option R) : Option (Except Exn (ScoreResult R)) := do
  let ratio ← computeRatio magnitude accelStd
  let z ← transform model.standardization ratio (gbarInMax.getD 0)
  match ← classPosteriors ext model z with
  | .error e => some (.error e)
  | .ok posteriors => do
    let sev ← severity magnitude speedMps model.severityCalib.speedRef model.severityCalib.scale
    let isOutlier ← match model.iforest with
      | none => some false
      | some predict =>
        (outlierFeatures magnitude accelStd gbarInMax speedMps).map (fun xo ↦ predict xo == -1)
    match posteriors with
    | [] => some (.ok { sensorClass := .not, pPothole := 0, severity := sev, isOutlier := true })
    | p :: rest => some (.ok {
        sensorClass := argmaxClass p rest
        pPothole := ((p :: rest).lookup .pothole).getD 0
        severity := sev
        isOutlier := isOutlier })

theorem computeRatio_eq (magnitude accelStd : Option R) :
    computeRatio magnitude accelStd = some (Sensor.computeRatio magnitude accelStd) := by
  cases magnitude with
  | none => rfl
  | some m =>
    cases accelStd with
    | none => rfl
    | some a =>
      by_cases ha : a ≤ 0
      · simp [computeRatio, Sensor.computeRatio, ha]
      · simp [computeRatio, Sensor.computeRatio, ha, divide_of_ne (not_le.mp ha).ne']

theorem severity_eq {speedRef : R} (href : 0 < speedRef) (magnitude speedMps : Option R)
    (scale : R) : severity magnitude speedMps speedRef scale =
      some (Sensor.severity magnitude speedMps speedRef scale) := by
  cases magnitude with
  | none => rfl
  | some m =>
    -- the reference speed keeps the divisor positive
    have hdenom : ∀ speed : R, max speed speedRef ≠ 0 :=
      fun speed ↦ (href.trans_le (le_max_right speed speedRef)).ne'
    by_cases hm : m ≤ 0
    · simp [severity, Sensor.severity, hm]
    · cases speedMps <;> simp [severity, Sensor.severity, hm, divide_of_ne (hdenom _)]

theorem outlierFeatures_eq (magnitude accelStd gbarInMax speedMps : Option R) :
    outlierFeatures magnitude accelStd gbarInMax speedMps =
      some (Sensor.outlierFeatures magnitude accelStd gbarInMax speedMps) := by
  rw [outlierFeatures, computeRatio_eq]
  rfl

theorem groupPosteriors_eq {total : R} (htotal : 0 < total)
    (classMap : List (Nat × SensorClass)) (i : Nat) (densities : List R) (acc : Posteriors R) :
    groupPosteriors classMap total i densities acc =
      some (Sensor.groupPosteriors classMap total i densities acc) := by
  induction densities generalizing i acc with
  | nil => rfl
  | cons dens rest ih =>
    rw [groupPosteriors, Sensor.groupPosteriors]
    cases classMap.lookup i with
    | none => rfl
    | some cls =>
      dsimp only
      rw [divide_of_ne htotal.ne', Option.bind_some, ih]

theorem classPosteriors_eq (ext : Externals R) (model : SensorModel R) (z : List R) :
    classPosteriors ext model z = some (Sensor.classPosteriors ext model z) := by
  unfold classPosteriors Sensor.classPosteriors
  dsimp only
  split
  · rfl
  next hpos => exact groupPosteriors_eq (not_le.mp hpos) _ _ _ _

variable [IsStrictOrderedRing R]

theorem deviation_ne_zero (std : R) : (if 0 < std then std else 1) ≠ 0 := by
  split
  next hpos => exact hpos.ne'
  · exact one_ne_zero

theorem transform_eq (s : Standardization R) (ratio gbar : R) :
    transform s ratio gbar = some (s.transform ratio gbar) := by
  rw [transform, divide_of_ne (deviation_ne_zero _), divide_of_ne (deviation_ne_zero _)]
  rfl

/-- A model with a positive reference speed scores every observation. -/
theorem scoreObservation_eq {ext : Externals R} {model : SensorModel R}
    (href : 0 < model.severityCalib.speedRef)
    (magnitude accelStd gbarInMax speedMps : Option R) :
    scoreObservation ext model magnitude accelStd gbarInMax speedMps =
      some (Sensor.scoreObservation ext model magnitude accelStd gbarInMax speedMps) := by
  simp only [scoreObservation, Sensor.scoreObservation, classifierFeatures, computeRatio_eq,
    transform_eq, classPosteriors_eq, severity_eq href, outlierFeatures_eq, Option.bind_eq_bind,
    Option.bind_some, Option.map_some]
  cases Sensor.classPosteriors ext model _ with
  | error e => rfl
  | ok posteriors =>
    cases model.iforest <;> cases posteriors <;> rfl

end Sensor

/-! ### Fusing -/

section Engines

/-- `sigmoid` -/
def sigmoid (ext : Externals R) (x : R) : Option R :=
  if 0 ≤ x then
    let z := ext.exp (-x)
    divide 1 (1 + z)
  else
    let z := ext.exp x
    divide z (1 + z)

/-- `logit` -/
def logit (ext : Externals R) (p : R) : Option R :=
  let p := min (1 - eps) (max eps p)
  (divide p (1 - p)).map ext.log

/-- `w * logit(clamp01(p))`, when there is an opinion. -/
def term (ext : Externals R) (w : R) : Option R → Option (List R)
  | some p => (logit ext (clamp01 p)).map (fun l ↦ [w * l])
  | none => some []

/-- `MatlabPortV1Engine.fuse` -/
def matlabPortV1Fuse (ext : Externals R) (wS wV : R) (inp : FusionInput R) :
    Option (FusionOutput R) := do
  let sensorTerm ← term ext wS inp.sensorPPothole
  let visualTerm ← term ext wV inp.visualConfidence
  let terms := sensorTerm ++ visualTerm
  let fused ← (if terms.isEmpty then some half else sigmoid ext terms.sum)
  some { fusedConfidence := fused, severity := inp.sensorSeverity.getD 0 }

/-- `PythonV1Engine.fuse` -/
def pythonV1Fuse (ext : Externals R) (wS wV ratioMean ratioStd severitySpeedRef severityScale : R)
    (inp : FusionInput R) : Option (FusionOutput R) := do
  let ratio ← computeRatio inp.magnitude inp.accelStd
  let z ← divide (ratio - ratioMean) ratioStd
  let pSensor ← sigmoid ext z
  let sensorLogit ← logit ext (clamp01 pSensor)
  let visualTerm ← term ext wV inp.visualConfidence
  let fused ← sigmoid ext (wS * sensorLogit :: visualTerm).sum
  let sev ← severity inp.magnitude inp.speedMps severitySpeedRef severityScale
  some { fusedConfidence := fused, severity := sev }

/-- `get_engine(model).fuse` -/
def fuse (ext : Externals R) (settings : Settings R) (model : Option (SensorModel R))
    (inp : FusionInput R) : Option (FusionOutput R) :=
  if model.isSome ∧ settings.fusionEngineVersion = matlabV1 then
    matlabPortV1Fuse ext settings.fusionWS settings.fusionWV inp
  else
    let ratioStd := if 0 < settings.fallbackRatioStd then settings.fallbackRatioStd else 1
    pythonV1Fuse ext settings.fusionWS settings.fusionWV settings.fallbackRatioMean ratioStd
      settings.severitySpeedRef settings.severityScale inp

variable [IsStrictOrderedRing R] {ext : Externals R}

/-- The clamp keeps the divisor positive. -/
theorem logit_eq (p : R) : logit ext p = some (Fusion.logit ext p) := by
  have hodds : 1 - clampEps p ≠ 0 := (sub_pos.mpr (clampEps_lt_one p)).ne'
  change (divide (clampEps p) (1 - clampEps p)).map ext.log = _
  rw [divide_of_ne hodds]
  rfl

theorem term_eq (w : R) (p : Option R) : term ext w p = some (match p with
    | some p => [w * Fusion.logit ext (clamp01 p)]
    | none => []) := by
  cases p with
  | none => rfl
  | some p => rw [term, logit_eq, Option.map_some]

variable (hexp : ∀ x, 0 < ext.exp x)
include hexp

theorem sigmoid_eq (x : R) : sigmoid ext x = some (Fusion.sigmoid ext x) := by
  have hdenom : ∀ y, 1 + ext.exp y ≠ 0 := fun y ↦ (add_pos one_pos (hexp y)).ne'
  unfold sigmoid Fusion.sigmoid
  split
  · exact divide_of_ne (hdenom _)
  · exact divide_of_ne (hdenom _)

theorem matlabPortV1Fuse_eq (wS wV : R) (inp : FusionInput R) :
    matlabPortV1Fuse ext wS wV inp = some (Fusion.matlabPortV1Fuse ext wS wV inp) := by
  have hfused : ∀ terms : List R, (if terms.isEmpty then some half else sigmoid ext terms.sum) =
      some (if terms.isEmpty then half else Fusion.sigmoid ext terms.sum) := by
    intro terms
    split
    · rfl
    · exact sigmoid_eq hexp _
  simp only [matlabPortV1Fuse, term_eq, hfused, Option.bind_eq_bind, Option.bind_some]
  rfl

theorem pythonV1Fuse_eq {ratioStd severitySpeedRef : R} (hstd : ratioStd ≠ 0)
    (href : 0 < severitySpeedRef) (wS wV ratioMean severityScale : R) (inp : FusionInput R) :
    pythonV1Fuse ext wS wV ratioMean ratioStd severitySpeedRef severityScale inp =
      some (Fusion.pythonV1Fuse ext wS wV ratioMean ratioStd severitySpeedRef severityScale
        inp) := by
  simp only [pythonV1Fuse, computeRatio_eq, divide_of_ne hstd, sigmoid_eq hexp, logit_eq, term_eq,
    severity_eq href, Option.bind_eq_bind, Option.bind_some]
  rfl

/-- Either engine fuses every input. -/
theorem fuse_eq {settings : Settings R} (href : 0 < settings.severitySpeedRef)
    (model : Option (SensorModel R)) (inp : FusionInput R) :
    fuse ext settings model inp = some ((getEngine ext settings model).fuse inp) := by
  unfold fuse getEngine
  split
  · exact matlabPortV1Fuse_eq hexp _ _ inp
  · exact pythonV1Fuse_eq hexp (deviation_ne_zero _) href _ _ _ _ inp

end Engines

/-! ### Clustering -/

section Clustering

/-- `avg(x)` -/
def avg (xs : List R) : Option (Option R) :=
  if xs.isEmpty then some none else (divide xs.sum xs.length).map some

/-- `_MEMBER_STATS_SQL` -/
def memberStats (ext : Externals R) (settings : Settings R) (now : DateTime) (db : Database R) :
    Option (MemberStats R) := do
  let ms := members ext settings now db
  let meanLat ← avg (ms.map (fun m ↦ m.geom.lat))
  some { n := ms.length, meanLat := meanLat }

/-- `eps_m / max(math.cos(math.radians(mean_lat)), 1e-6)` -/
def epsUnits (ext : Externals R) (epsM meanLat : R) : Option R :=
  divide epsM (max (ext.cosRadians meanLat) (1 / ((1000000 : ℕ) : R)))

/-- `SUM(x * w) / SUM(w)` -/
def weightedMean (f : Member R → R) (ms : List (Member R)) : Option R :=
  divide (ms.map (fun m ↦ f m * m.weight)).sum (ms.map Member.weight).sum

/-- The aggregates of one group; its two arrays need no division. -/
def computedCluster (ms : List (Member R)) : Option (ComputedCluster R) := do
  let lon ← weightedMean (fun m ↦ m.geom.lon) ms
  let lat ← weightedMean (fun m ↦ m.geom.lat) ms
  let confidence ← avg (ms.map Member.confidence)
  some { Cluster.computedCluster ms with
    summary :=
      { centroid := ⟨lon, lat⟩
        severity := median (ms.map Member.severity)
        confidence := confidence.getD 0
        observationCount := ms.length
        distinctDevices := (ms.map Member.deviceId).dedup.length
        lastSeen := ((ms.map Member.tsUtc).max?).getD 0 } }

/-- `_CLUSTER_SQL` -/
def clusters (ext : Externals R) (settings : Settings R) (now : DateTime) (epsUnits : R)
    (db : Database R) : Option (List (ComputedCluster R)) := do
  let groups := labelGroups ext epsUnits settings.clusterMinPoints (members ext settings now db)
  let cs ← groups.mapM (fun g ↦ computedCluster (g.map Prod.fst))
  some (orderBy ComputedCluster.sortKey cs)

variable [IsStrictOrderedRing R]

theorem avg_eq (xs : List R) : avg xs = some (Cluster.avg xs) := by
  unfold avg Cluster.avg
  split
  · rfl
  next hne =>
    have hlength : (xs.length : R) ≠ 0 := by simpa using hne
    rw [divide_of_ne hlength]
    rfl

theorem memberStats_eq (ext : Externals R) (settings : Settings R) (now : DateTime)
    (db : Database R) :
    memberStats ext settings now db = some (Cluster.memberStats ext settings now db) := by
  simp only [memberStats, avg_eq]
  rfl

theorem epsUnits_eq (ext : Externals R) (epsM meanLat : R) :
    epsUnits ext epsM meanLat = some (Cluster.epsUnits ext epsM meanLat) := by
  have hfloor : (0 : R) < 1 / ((1000000 : ℕ) : R) := by positivity
  have hsame : (1 / ((1000000 : ℕ) : R)) = 1 / (1000 * 1000) := by norm_num
  rw [epsUnits, divide_of_ne (hfloor.trans_le (le_max_right _ _)).ne', hsame]
  rfl

theorem weightedMean_eq (f : Member R → R) {ms : List (Member R)} (hne : ms ≠ []) :
    weightedMean f ms = some (Cluster.weightedMean f ms) :=
  divide_of_ne (Stats.sum_weights_pos hne (fun m _ ↦ m.weight_pos)).ne'

theorem computedCluster_eq {ms : List (Member R)} (hne : ms ≠ []) :
    computedCluster ms = some (Cluster.computedCluster ms) := by
  simp only [computedCluster, weightedMean_eq _ hne, avg_eq, Option.bind_eq_bind, Option.bind_some]
  rfl

/-- Every group has its aggregates: no group is empty, and no weight is zero. -/
theorem clusters_eq (ext : Externals R) (settings : Settings R) (now : DateTime) (units : R)
    (db : Database R) :
    clusters ext settings now units db = some (Cluster.clusters ext settings now units db) := by
  have hgroups : ∀ g ∈ labelGroups ext units settings.clusterMinPoints
      (members ext settings now db), computedCluster (g.map Prod.fst) =
        some (Cluster.computedCluster (g.map Prod.fst)) := by
    intro g hg
    apply computedCluster_eq
    rw [Ne, List.map_eq_nil_iff]
    exact ne_nil_of_mem_groupBy hg
  simp only [clusters, mapM_eq_some_map hgroups]
  rfl

end Clustering

/-! ### The jobs -/

/-- No formula that a job evaluates on what it has read from this state divides by zero. -/
structure NoZeroDivision (ext : Externals R) (settings : Settings R) (db : Database R) : Prop where
  score : ∀ model, loadActiveModel db = some model → ∀ magnitude accelStd gbarInMax speedMps,
    scoreObservation ext model magnitude accelStd gbarInMax speedMps =
      some (Sensor.scoreObservation ext model magnitude accelStd gbarInMax speedMps)
  fuse : ∀ model inp,
    fuse ext settings model inp = some ((getEngine ext settings model).fuse inp)
  memberStats : ∀ now,
    memberStats ext settings now db = some (Cluster.memberStats ext settings now db)
  epsUnits : ∀ meanLat,
    epsUnits ext settings.clusterEpsM meanLat =
      some (Cluster.epsUnits ext settings.clusterEpsM meanLat)
  clusters : ∀ now units,
    clusters ext settings now units db = some (Cluster.clusters ext settings now units db)

theorem noZeroDivision [IsStrictOrderedRing R] {ext : Externals R} (hexp : ∀ x, 0 < ext.exp x)
    {settings : Settings R} (href : 0 < settings.severitySpeedRef) {db : Database R}
    (h : Ranged ext db) : NoZeroDivision ext settings db where
  score := fun _ hload ↦ scoreObservation_eq (h.usable_of_loaded hload).speedRef_pos
  fuse := fuse_eq hexp href
  memberStats := fun now ↦ memberStats_eq ext settings now db
  epsUnits := epsUnits_eq ext settings.clusterEpsM
  clusters := fun now units ↦ clusters_eq ext settings now units db

end PotholeServer.Checked
