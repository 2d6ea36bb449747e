import PotholeServer.Base
import PotholeServer.Sensor.Features
import PotholeServer.Sensor.Model

/-!
# Fusion engines

`app/fusion/engine.py`, the primary engine of `matlab_port_v1.py`, the cold-start heuristic
of `python_v1.py` and the selection of `registry.py`. `runtime_ms` and the debug record
are not stored by any caller and are left out.
-/

namespace PotholeServer.Fusion

open Sensor

variable {R : Type} [Field R] [LinearOrder R]

/-- `_EPS` -/
def eps : R := 1 / 1000000

/-- `sigmoid`: the numerically stable logistic. -/
def sigmoid (ext : Externals R) (x : R) : R :=
  if 0 ≤ x then
    let z := ext.exp (-x)
    1 / (1 + z)
  else
    let z := ext.exp x
    z / (1 + z)

/-- `logit`: inverse sigmoid, clamped to stay finite. -/
def logit (ext : Externals R) (p : R) : R :=
  let p := min (1 - eps) (max eps p)
  ext.log (p / (1 - p))

/-- `clamp01` -/
def clamp01 (x : R) : R := max 0 (min 1 x)

/-- `FusionInput`: one candidate pairing with the scored sensor signal. -/
structure FusionInput (R : Type) where
  magnitude : Option R
  accelStd : Option R
  gbarInMax : Option R
  speedMps : Option R
  sensorPPothole : Option R
  sensorSeverity : Option R
  visualConfidence : Option R
  deltaMs : Int
  deltaM : R

/-- `FusionOutput`, the fields a caller stores. -/
structure FusionOutput (R : Type) where
  fusedConfidence : R
  severity : R
  deriving DecidableEq, Repr

/-- `FusionEngine`: the protocol of `engine.py`. -/
structure FusionEngine (R : Type) where
  version : String
  weights : List (String × R)
  fuse : FusionInput R → FusionOutput R

/-- `VERSION` of `matlab_port_v1.py` -/
def matlabV1 : String := "fusion.matlab_port_v1"

/-- `VERSION` of `python_v1.py` -/
def pythonV1 : String := "fusion.python_v1"

/-- `MatlabPortV1Engine.fuse`: a missing term is dropped, and severity defaults to 0. -/
def matlabPortV1Fuse (ext : Externals R) (wS wV : R) (inp : FusionInput R) : FusionOutput R :=
  let sensorTerm := match inp.sensorPPothole with
    | some p => [wS * logit ext (clamp01 p)]
    | none => []
  let visualTerm := match inp.visualConfidence with
    | some v => [wV * logit ext (clamp01 v)]
    | none => []
  let terms := sensorTerm ++ visualTerm
  { fusedConfidence := if terms.isEmpty then half else sigmoid ext terms.sum
    severity := inp.sensorSeverity.getD 0 }

/-- `MatlabPortV1Engine` -/
def matlabPortV1Engine (ext : Externals R) (wS wV : R) : FusionEngine R where
  version := matlabV1
  weights := [("w_s", wS), ("w_v", wV)]
  fuse := matlabPortV1Fuse ext wS wV

/-- `PythonV1Engine.fuse`: the sensor term comes from the standardized ratio. -/
def pythonV1Fuse (ext : Externals R) (wS wV ratioMean ratioStd severitySpeedRef severityScale : R)
    (inp : FusionInput R) : FusionOutput R :=
  let ratio := computeRatio inp.magnitude inp.accelStd
  let z := (ratio - ratioMean) / ratioStd
  let pSensor := sigmoid ext z
  let visualTerm := match inp.visualConfidence with
    | some v => [wV * logit ext (clamp01 v)]
    | none => []
  let terms := wS * logit ext (clamp01 pSensor) :: visualTerm
  { fusedConfidence := sigmoid ext terms.sum
    severity := severity inp.magnitude inp.speedMps severitySpeedRef severityScale }

/-- `PythonV1Engine`; the constructor replaces a non-positive `ratio_std` by 1. -/
def pythonV1Engine (ext : Externals R)
    (wS wV ratioMean ratioStd severitySpeedRef severityScale : R) : FusionEngine R :=
  let ratioStd := if 0 < ratioStd then ratioStd else 1
  { version := pythonV1
    weights := [("w_s", wS), ("w_v", wV), ("ratio_mean", ratioMean), ("ratio_std", ratioStd)]
    fuse := pythonV1Fuse ext wS wV ratioMean ratioStd severitySpeedRef severityScale }

/-- `get_engine`: the primary engine with an active model, otherwise the heuristic. -/
def getEngine (ext : Externals R) (settings : Settings R) (model : Option (SensorModel R)) :
    FusionEngine R :=
  if model.isSome ∧ settings.fusionEngineVersion = matlabV1 then
    matlabPortV1Engine ext settings.fusionWS settings.fusionWV
  else
    pythonV1Engine ext settings.fusionWS settings.fusionWV settings.fallbackRatioMean
      settings.fallbackRatioStd settings.severitySpeedRef settings.severityScale

end PotholeServer.Fusion
