import Mathlib.Algebra.Order.Field.Basic
import Mathlib.Data.Rat.Defs

/-!
# Base types, settings and outside functions

Numbers are elements of an arbitrary ordered field `R`: the columns and parameters the
source keeps in floats are read in exact arithmetic. Settings follow `app/config.py`.
What the repository calls but does not contain (PostGIS, `math`, scipy, sklearn,
`datetime.fromisoformat`) is the record `Externals`; every result is about all its values.
-/

namespace PotholeServer

/-- A `TIMESTAMPTZ`: microseconds since the epoch. -/
abbrev DateTime := Int

/-- The literal `0.5`. -/
def half {R : Type} [Field R] : R := 1 / 2

/-- A `GEOGRAPHY(POINT, 4326)` in degrees. -/
structure Point (R : Type) where
  lon : R
  lat : R
  deriving DecidableEq, Repr

/-- What `datetime.fromisoformat` returns: an instant, and whether it carries a zone. -/
structure IsoDateTime where
  instant : DateTime
  aware : Bool
  deriving DecidableEq, Repr

/-- Functions of Python, PostGIS and scipy that the repository calls. -/
structure Externals (R : Type) where
  /-- `datetime.fromisoformat`; `none` is its `ValueError`. -/
  fromisoformat : String → Option IsoDateTime
  /-- `math.exp` -/
  exp : R → R
  /-- `math.log` -/
  log : R → R
  /-- `math.cos(math.radians(x))` -/
  cosRadians : R → R
  /-- `scipy.stats.multivariate_normal.pdf(z, mean, cov)` -/
  pdf : List R → List R → List (List R) → R
  /-- `ST_Distance` on geographies, in metres. -/
  stDistance : Point R → Point R → R
  /-- `ST_ClusterDBSCAN(ST_Transform(geom, 3857), eps, minpoints) OVER ()`: one label for
  each row in turn, `none` for noise. -/
  stClusterDBSCAN : R → Int → List (Point R) → List (Option Nat)

/-- `app/config.py: Settings`, the fields the modelled code reads. -/
structure Settings (R : Type) where
  databaseUsePooler : Bool
  rateLimitEventsPerHour : Int
  rateLimitFramesPerHour : Int
  fusionEngineVersion : String
  fusionBatchSize : Int
  fusionWindowMs : Int
  fusionWindowM : R
  fusionWS : R
  fusionWV : R
  severitySpeedRef : R
  severityScale : R
  fallbackRatioMean : R
  fallbackRatioStd : R
  clusterEpsM : R
  clusterMinPoints : Int
  clusterWindowDays : Int
  clusterMemberMinConfidence : R

/-- The defaults of `app/config.py`. -/
def Settings.default (R : Type) [Field R] : Settings R where
  databaseUsePooler := false
  rateLimitEventsPerHour := 100
  rateLimitFramesPerHour := 100
  fusionEngineVersion := "fusion.matlab_port_v1"
  fusionBatchSize := 500
  fusionWindowMs := 3000
  fusionWindowM := 25
  fusionWS := half
  fusionWV := half
  severitySpeedRef := 5
  severityScale := 2
  fallbackRatioMean := 3
  fallbackRatioStd := 1
  clusterEpsM := 25
  clusterMinPoints := 3
  clusterWindowDays := 30
  clusterMemberMinConfidence := half

end PotholeServer
