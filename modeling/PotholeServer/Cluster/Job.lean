import Mathlib.Data.List.MinMax
import Mathlib.Data.Prod.Lex
import Mathlib.Data.String.Basic
import PotholeServer.Db.Schema
import PotholeServer.Sql.Query

/-!
# The clustering job

`app/fusion/service.py: run_cluster_job` with its queries. A run selects the members, groups
them by the label of `ST_ClusterDBSCAN`, and in one transaction gives each group the nearest
unrepaired cluster that no other group has taken, or a new one, and rebuilds the links of that
cluster. `text` columns are ordered by code points, days have 24 hours.
-/

namespace PotholeServer.Cluster

open Sql Db

variable {R : Type} [Field R] [LinearOrder R]

/-! ### Members -/

/-- A row of `members`. -/
structure Member (R : Type) where
  clientId : String
  deviceId : String
  geom : Point R
  tsUtc : DateTime
  severity : R
  confidence : R
  deriving DecidableEq, Repr

/-- `max(fused_confidence)` over the pairs of an observation. -/
def maxFused (db : Database R) (clientId : String) : Option R :=
  ((db.fusionPair.rows.filter (fun p ↦ p.eventClientId = clientId)).map
    (fun p ↦ p.fusedConfidence)).max?

/-- `make_interval(days => n)` in microseconds. -/
def intervalDays (n : Int) : Int := n * 86400000000

/-- A nearby cluster that was repaired no earlier than the observation explains it. -/
def explainedBy (ext : Externals R) (epsM : R) (o : AssetObservation R) (c : AssetCluster R) :
    Bool :=
  (∃ r ∈ c.repairedAt, o.tsUtc ≤ r) ∧ ext.stDistance c.centroid o.geom ≤ epsM

/-- The subquery of `NOT EXISTS`. -/
def explained (ext : Externals R) (epsM : R) (db : Database R) (o : AssetObservation R) : Bool :=
  db.assetCluster.rows.any (explainedBy ext epsM o)

/-- The `WHERE` of `_MEMBERS_CTE`. -/
def isMember (ext : Externals R) (settings : Settings R) (now : DateTime) (db : Database R)
    (o : AssetObservation R) : Bool :=
  now - intervalDays settings.clusterWindowDays < o.receivedAt ∧
    ((o.sensorClass = some .pothole ∧ o.sensorIsOutlier ≠ some true) ∨
      settings.clusterMemberMinConfidence ≤ (maxFused db o.clientId).getD 0) ∧
    explained ext settings.clusterEpsM db o = false

/-- The columns of `_MEMBERS_CTE`. -/
def member (db : Database R) (o : AssetObservation R) : Member R where
  clientId := o.clientId
  deviceId := o.deviceId
  geom := o.geom
  tsUtc := o.tsUtc
  severity := o.sensorSeverity.getD 0
  confidence := max (o.sensorPPothole.getD 0) ((maxFused db o.clientId).getD 0)

/-- `_MEMBERS_CTE` -/
def members (ext : Externals R) (settings : Settings R) (now : DateTime) (db : Database R) :
    List (Member R) :=
  (db.assetObservation.rows.filter (isMember ext settings now db)).map (member db)

/-- A row of `_MEMBER_STATS_SQL`. -/
structure MemberStats (R : Type) where
  n : Nat
  meanLat : Option R

/-- `avg(x)`, `NULL` over no rows. -/
def avg (xs : List R) : Option R :=
  if xs.isEmpty then none else some (xs.sum / xs.length)

/-- `_MEMBER_STATS_SQL` -/
def memberStats (ext : Externals R) (settings : Settings R) (now : DateTime) (db : Database R) :
    MemberStats R where
  n := (members ext settings now db).length
  meanLat := avg ((members ext settings now db).map (fun m ↦ m.geom.lat))

/-! ### Groups -/

/-- A row of `_CLUSTER_SQL`; its two arrays have an entry for each member. -/
structure ComputedCluster (R : Type) where
  summary : ClusterSummary R
  memberIds : List String
  memberConfidences : List R
  sameLength : memberIds.length = memberConfidences.length
  deriving DecidableEq, Repr

/-- `GREATEST(confidence, 0.001)` -/
def Member.weight (m : Member R) : R := max m.confidence (1 / 1000)

/-- `SUM(x * w) / SUM(w)` -/
def weightedMean (f : Member R → R) (ms : List (Member R)) : R :=
  (ms.map (fun m ↦ f m * m.weight)).sum / (ms.map Member.weight).sum

/-- `percentile_cont(0.5) WITHIN GROUP (ORDER BY x)` -/
def median (xs : List R) : R :=
  let sorted := orderBy id xs
  let lower := sorted.getD ((sorted.length - 1) / 2) 0
  let upper := sorted.getD (sorted.length / 2) 0
  lower + (upper - lower) * half

/-- The aggregates of one group. -/
def computedCluster (ms : List (Member R)) : ComputedCluster R where
  summary :=
    { centroid := ⟨weightedMean (fun m ↦ m.geom.lon) ms, weightedMean (fun m ↦ m.geom.lat) ms⟩
      severity := median (ms.map Member.severity)
      confidence := (avg (ms.map Member.confidence)).getD 0
      observationCount := ms.length
      distinctDevices := (ms.map Member.deviceId).dedup.length
      lastSeen := ((ms.map Member.tsUtc).max?).getD 0 }
  memberIds := (orderBy Member.clientId ms).map Member.clientId
  memberConfidences := (orderBy Member.clientId ms).map Member.confidence
  sameLength := by simp

/-- `min(client_id)`: the first of the ordered members. -/
def ComputedCluster.sortKey (c : ComputedCluster R) : String := c.memberIds.headD ""

/-- The members with a label, by label. -/
def labelGroups (ext : Externals R) (epsUnits : R) (minPoints : Int) (ms : List (Member R)) :
    List (List (Member R × Option Nat)) :=
  let labels := ext.stClusterDBSCAN epsUnits minPoints (ms.map Member.geom)
  groupBy Prod.snd ((ms.zip labels).filter (fun x ↦ x.2.isSome))

/-- `_CLUSTER_SQL` -/
def clusters (ext : Externals R) (settings : Settings R) (now : DateTime) (epsUnits : R)
    (db : Database R) : List (ComputedCluster R) :=
  orderBy ComputedCluster.sortKey
    ((labelGroups ext epsUnits settings.clusterMinPoints (members ext settings now db)).map
      (fun g ↦ computedCluster (g.map Prod.fst)))

/-! ### Matching -/

/-- The unrepaired clusters near a centroid that no group has taken. -/
def matchable (ext : Externals R) (epsM : R) (matched : List String) (centroid : Point R)
    (db : Database R) : List (AssetCluster R) :=
  db.assetCluster.rows.filter (fun c ↦ c.repairedAt = none ∧ c.clusterId ∉ matched ∧
    ext.stDistance c.centroid centroid ≤ epsM)

/-- `_FIND_EXISTING_SQL` -/
def findExisting (ext : Externals R) (epsM : R) (matched : List String) (centroid : Point R)
    (db : Database R) : Option String :=
  (orderBy (fun c ↦ toLex (ext.stDistance c.centroid centroid, c.clusterId))
    (matchable ext epsM matched centroid db)).head?.map AssetCluster.clusterId

/-- The row `_INSERT_CLUSTER_SQL` inserts. -/
def newCluster (clusterId : String) (s : ClusterSummary R) (now : DateTime) : AssetCluster R where
  clusterId := clusterId
  assetType := "pothole"
  centroid := s.centroid
  severity := s.severity
  confidence := s.confidence
  observationCount := s.observationCount
  distinctDevices := s.distinctDevices
  lastSeen := s.lastSeen
  source := "crowd"
  repairedAt := none
  createdAt := now
  updatedAt := now

/-- `_INSERT_CLUSTER_SQL` -/
def insertCluster (row : AssetCluster R) (db : Database R) : Except PgError (List (Write R)) :=
  if db.assetCluster.HasKey row.clusterId then .error uniqueViolation
  else .ok [.insertCluster row]

/-- The row `_INSERT_CLUSTER_RUN_SQL` inserts. -/
def newClusterRun (runId : String) (params : ClusterParams R) (inputs : Nat) (now : DateTime) :
    ClusterRun R where
  runId := runId
  startedAt := now
  completedAt := none
  inputsCount := inputs
  outputsCount := none
  params := params

/-- `_INSERT_CLUSTER_RUN_SQL` -/
def insertClusterRun (row : ClusterRun R) (db : Database R) : Except PgError (List (Write R)) :=
  if db.clusterRun.HasKey row.runId then .error uniqueViolation else .ok [.insertClusterRun row]

/-- The row `_INSERT_LINK_SQL` inserts. -/
def newLink (clusterId : String) (m : String × R) : ObservationClusterLink R :=
  ⟨clusterId, m.1, .observation, m.2⟩

/-! ### The job -/

/-- What one run draws from outside: whether the lock was granted, the id of the run, `now()` of
its two queries and of its transaction, and the `uuid4` of the group in each position. -/
structure ClusterTick where
  locked : Bool
  runId : String
  statsNow : DateTime
  clusterNow : DateTime
  now : DateTime
  newIds : Nat → String

/-- `eps_m / max(math.cos(math.radians(mean_lat)), 1e-6)` -/
def epsUnits (ext : Externals R) (epsM meanLat : R) : R :=
  epsM / max (ext.cosRadians meanLat) (1 / (1000 * 1000))

section Programs

variable (ext : Externals R) (settings : Settings R) (tick : ClusterTick)

omit [Field R] [LinearOrder R] in
/-- The inner loop: `_INSERT_LINK_SQL` for each member. -/
def insertLinks (clusterId : String) : List (String × R) → DbProg R Unit
  | [] => pure ()
  | m :: rest => do
    Prog.execute .insertLink (fun _ ↦ .ok [.insertLink (newLink clusterId m)])
    insertLinks clusterId rest

/-- `_FIND_EXISTING_SQL`, then `_UPDATE_CLUSTER_SQL` or `_INSERT_CLUSTER_SQL`. -/
def upsertCluster (matched : List String) (k : Nat) (c : ComputedCluster R) : DbProg R String := do
  let existing ← Prog.fetch .findExisting
    (fun db ↦ .ok (findExisting ext settings.clusterEpsM matched c.summary.centroid db))
  match existing with
  | some clusterId => do
    Prog.execute .updateCluster (fun _ ↦ .ok [.updateCluster clusterId c.summary tick.now])
    pure clusterId
  | none => do
    let clusterId := "clu_" ++ tick.newIds k
    Prog.execute .insertCluster (insertCluster (newCluster clusterId c.summary tick.now))
    pure clusterId

/-- The loop over the groups, from position `k` on. -/
def upsertClusters (matched : List String) (k : Nat) : List (ComputedCluster R) → DbProg R Unit
  | [] => pure ()
  | c :: rest => do
    let clusterId ← upsertCluster ext settings tick matched k c
    Prog.execute .deleteLinks (fun _ ↦ .ok [.deleteLinks clusterId])
    insertLinks clusterId (c.memberIds.zip c.memberConfidences)
    upsertClusters (matched ++ [clusterId]) (k + 1) rest

/-- The transaction of `run_cluster_job`. -/
def clusterTransaction (stats : MemberStats R) (meanLat : R) (cs : List (ComputedCluster R)) :
    DbProg R Unit := do
  Prog.execute .insertClusterRun (insertClusterRun (newClusterRun tick.runId
    { epsM := settings.clusterEpsM
      epsUnits3857 := epsUnits ext settings.clusterEpsM meanLat
      minPoints := settings.clusterMinPoints
      windowDays := settings.clusterWindowDays
      memberMinConfidence := settings.clusterMemberMinConfidence
      meanLat := meanLat } stats.n tick.now))
  upsertClusters ext settings tick [] 0 cs
  Prog.execute .updateClusterRun (fun _ ↦ .ok [.updateClusterRun tick.runId cs.length tick.now])

/-- The `try` block of `run_cluster_job`. -/
def clusterBody : DbProg R Nat := do
  let stats ← Prog.fetch .memberStats (fun db ↦ .ok (memberStats ext settings tick.statsNow db))
  if (stats.n : Int) < settings.clusterMinPoints then
    pure 0
  else
    match stats.meanLat with
    | none => Prog.raise .typeError
    | some meanLat => do
      let cs ← Prog.fetch .cluster (fun db ↦ .ok (clusters ext settings tick.clusterNow
        (epsUnits ext settings.clusterEpsM meanLat) db))
      Prog.transaction (clusterTransaction ext settings tick stats meanLat cs)
      pure cs.length

/-- `run_cluster_job` -/
def runClusterJob : DbProg R Nat := do
  Prog.execute .tryAdvisoryLock (fun _ ↦ .ok [])
  if tick.locked then
    Prog.tryFinally (clusterBody ext settings tick)
      (Prog.execute .advisoryUnlock (fun _ ↦ .ok []))
  else
    pure 0

end Programs

end PotholeServer.Cluster
