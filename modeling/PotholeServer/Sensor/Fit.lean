import PotholeServer.Db.Schema
import PotholeServer.Sensor.Features
import PotholeServer.Sql.Query

/-!
# Fitting the sensor model

`app/sensor_model/fit.py: fit_sensor_model`. What numpy and scikit-learn compute is the record
`Sklearn`; the model counts the rows it was fitted on.
-/

namespace PotholeServer.Sensor

open Sql Db

/-- Functions of numpy and scikit-learn that the fit calls. -/
structure Sklearn (R : Type) where
  /-- `x.std(axis=0, ddof=0)`, of one column. -/
  std : List R → R
  /-- `np.allclose(x, 0.0)` -/
  allcloseZero : List R → Bool
  /-- `np.linalg.norm` -/
  norm : List R → R
  /-- `GaussianMixture(n_components, .., random_state).fit(zc)`; `none` when it raises. -/
  gaussianMixture : Int → Int → List (List R) → Option (List (Component R))
  /-- `IsolationForest(contamination, random_state).fit(xo).predict`; `none` when it raises. -/
  isolationForest : R → Int → List (List R) → Option (List R → Int)

/-- The settings of the fit in `app/config.py`. -/
structure FitSettings (R : Type) where
  sensorFitMinObservations : Int
  sensorFitKDefault : Int
  sensorIforestContamination : R
  sensorRandomState : Int
  severitySpeedRef : R
  severityScale : R

/-- Why a fit gives no model: a `FitError`, or another exception of the libraries. -/
inductive FitFailure where
  | fitError (message : String)
  | raised
  deriving DecidableEq, Repr

/-- `CLASSES[min(rank, len(CLASSES) - 1)]` -/
def classOfRank : Nat → SensorClass
  | 0 => .not
  | 1 => .crack
  | _ => .pothole

variable {R : Type} [Field R] [LinearOrder R] (sk : Sklearn R)

/-- `x.mean(axis=0)`, of one column. -/
def columnMean (xs : List R) : R := xs.sum / xs.length

/-- `_energy_order`: the indices of the components by ascending norm of their means. -/
def energyOrder (means : List (List R)) : List Nat :=
  (orderBy Prod.fst ((means.map sk.norm).zipIdx)).map Prod.snd

/-- The components and their classes, by rank. -/
def classMapOf (components : List (Component R)) : List (Nat × SensorClass) :=
  (energyOrder sk (components.map Component.mu)).zipIdx.map (fun x ↦ (x.1, classOfRank x.2))

/-- The mean and deviation of both classifier features. -/
def standardizationOf (xc : List (R × R)) : Standardization R where
  ratioMean := columnMean (xc.map Prod.fst)
  ratioStd := sk.std (xc.map Prod.fst)
  gbarMean := columnMean (xc.map Prod.snd)
  gbarStd := sk.std (xc.map Prod.snd)

/-- `fit_sensor_model`; `hex` comes from `uuid4`. -/
def fitSensorModel (settings : FitSettings R) (hex : String) (rows : List (AssetObservation R)) :
    Except FitFailure (SensorModel R) :=
  let kDefault := settings.sensorFitKDefault
  if rows.length < kDefault then
    .error (.fitError s!"need >= {kDefault} observations, got {rows.length}")
  else
    let xc := rows.map (fun o ↦ classifierFeatures o.magnitude o.accelStd o.gbarInMax)
    let xo := rows.map (fun o ↦ outlierFeatures o.magnitude o.accelStd o.gbarInMax o.speedMps)
    let std := standardizationOf sk xc
    let zc := xc.map (fun x ↦ std.transform x.1 x.2)
    if sk.allcloseZero [sk.std (zc.map (·.getD 0 0)), sk.std (zc.map (·.getD 1 0))] then
      .error (.fitError "features have zero variance; cannot fit GMM")
    else
      match sk.gaussianMixture kDefault settings.sensorRandomState zc,
        sk.isolationForest settings.sensorIforestContamination settings.sensorRandomState xo with
      | some components, some predict => .ok {
          modelVersion := "sensor_gmm_v1_" ++ hex
          standardization := std
          classMap := classMapOf sk components
          severityCalib := ⟨settings.severitySpeedRef, settings.severityScale⟩
          k := kDefault.toNat
          nObservations := rows.length
          iforest := some predict
          components := components }
      | _, _ => .error .raised

/-- What a fit gives: the components of the mixture, labelled by the energy rule, and the numbers
of components and of rows. -/
structure Fitted (settings : FitSettings R) (rows : List (AssetObservation R))
    (model : SensorModel R) : Prop where
  components : ∃ zc, sk.gaussianMixture settings.sensorFitKDefault settings.sensorRandomState zc =
    some model.components
  classMap : model.classMap = classMapOf sk model.components
  k : model.k = settings.sensorFitKDefault.toNat
  nObservations : model.nObservations = rows.length

theorem fitted_of_ok {settings : FitSettings R} {hex : String} {rows : List (AssetObservation R)}
    {model : SensorModel R} (h : fitSensorModel sk settings hex rows = .ok model) :
    Fitted sk settings rows model := by
  unfold fitSensorModel at h
  dsimp only at h
  split at h
  · cases h
  · split at h
    · cases h
    · split at h
      next hgmm _ =>
        cases h
        exact ⟨⟨_, hgmm⟩, rfl, rfl, rfl⟩
      · cases h

end PotholeServer.Sensor
