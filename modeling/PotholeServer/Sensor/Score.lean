import PotholeServer.Base
import PotholeServer.Sensor.Features
import PotholeServer.Sensor.Model
import PotholeServer.Sql.Prog

/-!
# Scoring one observation

`app/sensor_model/score.py`: component densities grouped into class posteriors, the
reported class, the severity and the outlier flag. A component index that the class map
does not hold is a `KeyError`.
-/

namespace PotholeServer.Sensor

open Sql

variable {R : Type} [Field R] [LinearOrder R]

/-- `ScoreResult` -/
structure ScoreResult (R : Type) where
  sensorClass : SensorClass
  pPothole : R
  severity : R
  isOutlier : Bool
  deriving DecidableEq, Repr

/-- A dictionary of class posteriors, in insertion order. -/
abbrev Posteriors (R : Type) := List (SensorClass × R)

/-- `posteriors[cls] = posteriors.get(cls, 0.0) + x` -/
def addPosterior (cls : SensorClass) (x : R) : Posteriors R → Posteriors R
  | [] => [(cls, 0 + x)]
  | (c, y) :: rest => if c = cls then (c, y + x) :: rest else (c, y) :: addPosterior cls x rest

/-- The loop over `enumerate(densities)`, from index `i` on. -/
def groupPosteriors (classMap : List (Nat × SensorClass)) (total : R) :
    Nat → List R → Posteriors R → Except Exn (Posteriors R)
  | _, [], acc => .ok acc
  | i, dens :: rest, acc =>
    match classMap.lookup i with
    | none => .error .keyError
    | some cls => groupPosteriors classMap total (i + 1) rest (addPosterior cls (dens / total) acc)

/-- `_class_posteriors`: empty when the total density is not positive. -/
def classPosteriors (ext : Externals R) (model : SensorModel R) (z : List R) :
    Except Exn (Posteriors R) :=
  let densities := model.components.map (fun comp ↦ comp.weight * ext.pdf z comp.mu comp.sigma)
  let total := densities.sum
  if total ≤ 0 then .ok [] else groupPosteriors model.classMap total 0 densities []

/-- `max(posteriors, key=posteriors.get)`: the first class of maximal posterior. -/
def argmaxClass (best : SensorClass × R) : Posteriors R → SensorClass
  | [] => best.1
  | p :: rest => if best.2 < p.2 then argmaxClass p rest else argmaxClass best rest

/-- `score_observation` -/
def scoreObservation (ext : Externals R) (model : SensorModel R)
    (magnitude accelStd gbarInMax speedMps : Option R) : Except Exn (ScoreResult R) :=
  let (ratio, gbar) := classifierFeatures magnitude accelStd gbarInMax
  let z := model.standardization.transform ratio gbar
  match classPosteriors ext model z with
  | .error e => .error e
  | .ok posteriors =>
    let sev := severity magnitude speedMps model.severityCalib.speedRef model.severityCalib.scale
    let isOutlier := match model.iforest with
      | none => false
      | some predict => predict (outlierFeatures magnitude accelStd gbarInMax speedMps) == -1
    match posteriors with
    | [] => .ok { sensorClass := .not, pPothole := 0, severity := sev, isOutlier := true }
    | p :: rest => .ok {
        sensorClass := argmaxClass p rest
        pPothole := ((p :: rest).lookup .pothole).getD 0
        severity := sev
        isOutlier := isOutlier }

end PotholeServer.Sensor
