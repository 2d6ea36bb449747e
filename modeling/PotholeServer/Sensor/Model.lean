import Mathlib.Algebra.Order.Field.Basic

/-!
# The sensor model

`app/sensor_model/model.py`: a fitted, versioned classifier. The forest of the joblib blob
is represented by its `predict`, and the class map by its items in insertion order.
-/

namespace PotholeServer.Sensor

/-- `CLASSES`, in ascending energy order. -/
inductive SensorClass where
  | not
  | crack
  | pothole
  deriving DecidableEq, Repr

/-- Mean and deviation of each classifier feature. -/
structure Standardization (R : Type) where
  ratioMean : R
  ratioStd : R
  gbarMean : R
  gbarStd : R
  deriving DecidableEq, Repr

/-- `Standardization.transform`: z-scores; a non-positive deviation divides by 1. -/
def Standardization.transform {R : Type} [Field R] [LinearOrder R] (s : Standardization R)
    (ratio gbar : R) : List R :=
  let rs := if 0 < s.ratioStd then s.ratioStd else 1
  let gs := if 0 < s.gbarStd then s.gbarStd else 1
  [(ratio - s.ratioMean) / rs, (gbar - s.gbarMean) / gs]

/-- The constants of the severity proxy. -/
structure SeverityCalibration (R : Type) where
  speedRef : R
  scale : R
  deriving DecidableEq, Repr

/-- One Gaussian component of the mixture. -/
structure Component (R : Type) where
  mu : List R
  sigma : List (List R)
  weight : R
  deriving DecidableEq, Repr

/-- A fitted, versioned sensor classifier. -/
structure SensorModel (R : Type) where
  modelVersion : String
  standardization : Standardization R
  classMap : List (Nat × SensorClass)
  severityCalib : SeverityCalibration R
  k : Nat
  nObservations : Nat
  iforest : Option (List R → Int)
  components : List (Component R)

end PotholeServer.Sensor
