import PotholeServer.Cluster.Consistent
import PotholeServer.Fusion.Provenance
import PotholeServer.Pipeline.Checked

/-!
# The ranges of the whole pipeline

Uploads, activated models, repairs, fusion ticks with either engine and runs of the clustering job,
in any order, with arrivals and failures between the statements of a job. Every job reads values in
their ranges, so none of its formulas divides by zero and what it writes is in range again; and
every cluster stays in the bounding box of the observations that are linked to it.
-/

namespace PotholeServer.Pipeline

open Sql Db Sensor Fusion Cluster Checked

variable {R : Type} [Field R] [LinearOrder R]

/-- Settings with a positive reference speed. -/
abbrev Configuration (R : Type) [Field R] [LinearOrder R] :=
  {settings : Settings R // 0 < settings.severitySpeedRef}

/-- What arrives from others: an upload, a `save_model` of a usable model, or a repair. -/
inductive Arrival (ext : Externals R) where
  | upload (u : Ingest.Upload R)
  | activate (model : SensorModel R) (h : Usable ext model)
  | repaired (clusterId : String) (time : DateTime)

/-- A tick of the fusion job, or a run of the clustering job. -/
inductive Job where
  | fusion (t : Tick)
  | clustering (tick : ClusterTick)

/-- One step of a history: an arrival, or a job with all that happens while it runs. -/
inductive Step (ext : Externals R) where
  | arrival (u : Arrival ext)
  | ran (settings : Configuration R) (job : Job) (sch : Schedule (Arrival ext))

section Steps

variable {ext : Externals R}

/-- The state after an arrival. -/
def Arrival.apply : Arrival ext → Database R → Database R
  | .upload u, db => db.write u.write
  | .activate model _, db => Fusion.saveModel model db
  | .repaired clusterId time, db => markRepaired clusterId time db

instance : Effect (Arrival ext) (Database R) := ⟨Arrival.apply⟩

/-- The connection that a job leaves. -/
def Job.conn (settings : Settings R) (sch : Schedule (Arrival ext)) (db : Database R) :
    Job → DbConn R
  | .fusion t => ((runFusionJob ext settings t).run sch (.fresh db)).conn
  | .clustering tick => ((runClusterJob ext settings tick).run sch (.fresh db)).conn

/-- The state after a step. -/
def Step.next (db : Database R) : Step ext → Database R
  | .arrival u => Effect.apply u db
  | .ran settings job sch => (job.conn settings.1 sch db).store

/-! ### Arrivals -/

omit [Field R] [LinearOrder R] in
theorem elsewhere_saveModel (model : SensorModel R) (s : Database R) :
    Elsewhere s (Fusion.saveModel model s) := by
  unfold Fusion.saveModel
  split
  · exact .refl s
  · exact ⟨fun o ho ↦ ⟨o, ho, .refl o⟩, fun _ ↦ Iff.rfl, fun c hc ↦ ⟨c, hc, rfl, rfl⟩, rfl⟩

instance : Aside R (Arrival ext) where
  elsewhere := by
    intro u s
    cases u with
    | upload u => exact elsewhere_write (ofClusters_upload u) s
    | activate model _ => exact elsewhere_saveModel model s
    | repaired clusterId time => exact elsewhere_markRepaired clusterId time s

omit [Field R] [LinearOrder R] in
theorem mem_of_mem_saveModel {model : SensorModel R} {db : Database R} {r : SensorModelRow R}
    (hr : r ∈ (Fusion.saveModel model db).sensorModel) :
    r.model = model ∨ ∃ r' ∈ db.sensorModel, r.model = r'.model := by
  unfold Fusion.saveModel at hr
  split at hr
  · exact .inr ⟨r, hr, rfl⟩
  · rcases Table.mem_insertNew.mp hr with hr | ⟨rfl, _⟩
    · obtain ⟨r', hr', rfl⟩ := Table.mem_update.mp hr
      refine .inr ⟨r', hr', ?_⟩
      split <;> rfl
    · exact .inl rfl

/-- An uploaded observation has no scores yet. -/
theorem inRange_upload (u : Ingest.Upload R) : u.write.InRange := by
  cases u with
  | event => exact ⟨fun _ h ↦ (by cases h), fun _ h ↦ (by cases h)⟩
  | frame => trivial

theorem ranged_apply (u : Arrival ext) {db : Database R} (h : Ranged ext db) :
    Ranged ext (Effect.apply u db) := by
  cases u with
  | upload u => exact h.write (inRange_upload u)
  | activate model husable =>
    constructor
    · have hin := h.inRange
      change (Fusion.saveModel model db).InRange
      unfold Fusion.saveModel
      split
      · exact hin
      · exact ⟨hin.observation, hin.pair, hin.cluster, hin.link⟩
    · intro r hr
      rcases mem_of_mem_saveModel hr with hmodel | ⟨r', hr', hmodel⟩
      · exact hmodel ▸ husable
      · exact hmodel ▸ h.usable r' hr'
  | repaired clusterId time =>
    have hin := h.inRange
    refine ⟨⟨hin.observation, hin.pair, ?_, hin.link⟩, h.usable⟩
    intro c hc
    obtain ⟨c', hc', rfl⟩ := mem_markRepaired.mp hc
    have hin' := hin.cluster c' hc'
    split
    · exact ⟨hin'.severity, hin'.confidence⟩
    · exact hin'

end Steps

/-! ### Runs -/

/-- Every value is in its range, and every cluster in the box of its members. -/
structure InOrder (db : Database R) : Prop where
  inRange : db.InRange
  boxed : ∀ c ∈ db.assetCluster,
    InBox c.centroid ((linkedObservations db c.clusterId).map AssetObservation.geom)

/-- What every step keeps. -/
structure Kept (ext : Externals R) (db : Database R) : Prop where
  ranged : Ranged ext db
  summarized : Summarized db

section Runs

variable {ext : Externals R} {db : Database R}

theorem kept_empty (ext : Externals R) : Kept ext Database.empty where
  ranged := ranged_empty ext
  summarized := fun c h ↦ absurd h (Table.not_mem_empty c)

/-- A job keeps its clusters with their links. -/
theorem Job.follows (job : Job) (settings : Settings R) (sch : Schedule (Arrival ext))
    (db : Database R) : Follows Keeps (.fresh db) (job.conn settings sch db) := by
  cases job with
  | fusion t => exact spec_runFusionJob_keeps ext settings t rfl sch
  | clustering tick => exact (spec_runClusterJob ext settings tick rfl rfl sch).1

variable [IsStrictOrderedRing R]

theorem Kept.inOrder (h : Kept ext db) : InOrder db where
  inRange := h.ranged.inRange
  boxed := by
    intro c hc
    obtain ⟨ms, hbacked⟩ := h.summarized c hc
    exact hbacked.centroid_inBox

variable (hexp : ∀ x, 0 < ext.exp x)
include hexp

/-- A job reads and leaves states with values in range only. -/
theorem Job.safe (job : Job) (settings : Settings R) (sch : Schedule (Arrival ext))
    (h : Ranged ext db) : Prog.Safe (Ranged ext) Write.InRange (job.conn settings sch db) := by
  have hfresh : Prog.Safe (Ranged ext) Write.InRange (.fresh db : DbConn R) := by
    refine ⟨h, ?_, ?_, ?_⟩
    · intro p hp
      cases hp
    · intro l v ws hmem
      cases hmem
    · intro s hmem
      cases hmem
  have hwrite : ∀ s (w : Write R), w.InRange → Ranged ext s → Ranged ext (Effect.apply w s) :=
    fun s w hw hs ↦ hs.write hw
  have harrival : ∀ (u : Arrival ext) s, Ranged ext s → Ranged ext (Effect.apply u s) :=
    fun u s hs ↦ ranged_apply u hs
  cases job with
  | fusion t => exact (guarded_runFusionJob hexp settings t).run hwrite harrival sch hfresh
  | clustering tick =>
    exact (guarded_runClusterJob settings tick).run hwrite harrival sch hfresh

/-- Every state that a job commits is kept. -/
theorem Kept.commit (h : Kept ext db) (job : Job) (settings : Settings R)
    (sch : Schedule (Arrival ext)) {s : Database R}
    (hs : .commit s ∈ (job.conn settings sch db).trace) : Kept ext s := by
  refine ⟨(job.safe hexp settings sch h.ranged).trace.2 s hs, ?_⟩
  rcases (job.follows settings sch db).commits s hs with hs | hs
  · cases hs
  · exact hs h.summarized

theorem Kept.next (h : Kept ext db) (a : Step ext) : Kept ext (a.next db) := by
  cases a with
  | arrival u => exact ⟨ranged_apply u h.ranged, (Aside.elsewhere u db).keeps h.summarized⟩
  | ran settings job sch =>
    exact ⟨(job.safe hexp settings.1 sch h.ranged).store,
      (job.follows settings.1 sch db).store h.summarized⟩

end Runs

/-- In every history from the empty database all values are in their ranges and all clusters in the
boxes of their members, between the steps and in the states that a job commits; and what a job reads
is in range and never makes one of its formulas divide by zero. -/
theorem values_in_range [IsStrictOrderedRing R] (ext : Externals R)
    (hexp : ∀ x, 0 < ext.exp x) (db : Database R)
    (h : Reaches (fun db (a : Step ext) ↦ some (a.next db)) (fun _ _ ↦ True) Database.empty db) :
    InOrder db ∧ ∀ (settings : Configuration R) (job : Job) (sch : Schedule (Arrival ext)),
      (∀ s, .commit s ∈ (job.conn settings.1 sch db).trace → InOrder s) ∧
      ∀ l v ws, .stmt l v ws ∈ (job.conn settings.1 sch db).trace →
        v.InRange ∧ NoZeroDivision ext settings.1 v := by
  have hkept : Kept ext db := by
    refine h.invariant (Kept ext) (kept_empty ext) ?_
    intro s a s' hs _ hstep
    cases hstep
    exact hs.next hexp a
  refine ⟨hkept.inOrder, fun settings job sch ↦ ⟨?_, ?_⟩⟩
  · intro s hs
    exact (hkept.commit hexp job settings.1 sch hs).inOrder
  · intro l v ws hv
    have hread := (job.safe hexp settings.1 sch hkept.ranged).trace.1 l v ws hv
    exact ⟨hread.inRange, noZeroDivision hexp settings.2 hread⟩

/-! ### A certain pothole -/

/-- A model whose whole weight is on the class `pothole`. -/
def certainModel : SensorModel ℚ where
  modelVersion := "certain"
  standardization := ⟨1, 1, 1, 1⟩
  classMap := [(0, .not), (1, .pothole)]
  severityCalib := ⟨5, 2⟩
  k := 2
  nObservations := 3
  iforest := none
  components := [⟨[0, 0], [[1, 0], [0, 1]], 0⟩, ⟨[4, 2], [[1, 0], [0, 1]], 1⟩]

theorem usable_certainModel : Usable .planar certainModel where
  speedRef_pos := by decide +kernel
  weight_nonneg := by decide +kernel
  pdf_nonneg := fun _ _ _ ↦ pdf_planar_nonneg _ _ _

/-- The default settings. -/
def defaults : Configuration ℚ := ⟨Settings.default ℚ, by decide +kernel⟩

/-- A pothole is reported three times, once with a frame; a tick scores the reports and fuses the
frame, and a run makes a cluster of them. -/
def certainPothole : List (Step .planar) :=
  ["a", "b", "c"].map (fun id ↦ .arrival (.upload (Ingest.reportAt id 0 Ingest.reportTime))) ++
    [.arrival (.upload (Ingest.frameAt "frame" 0 Ingest.reportTime)),
      .arrival (.activate certainModel usable_certainModel),
      .ran defaults (.fusion ⟨true, "run", Ingest.reportTime, Ingest.reportTime⟩) quiet,
      .ran defaults (.clustering (laneTick "first")) quiet]

/-- The database after that. -/
def afterCertain : Database ℚ := certainPothole.foldl Step.next Database.empty

theorem reaches_afterCertain :
    Reaches (fun db (a : Step .planar) ↦ some (a.next db)) (fun _ _ ↦ True) Database.empty
      afterCertain :=
  Reaches.start.foldl certainPothole (fun _ _ _ ↦ trivial)

theorem values_in_range_certain :
    afterCertain.fusionPair.rows.length = 1 ∧ afterCertain.assetCluster.rows.length = 1 ∧
      InOrder afterCertain :=
  ⟨by decide +kernel, by decide +kernel,
    (values_in_range .planar exp_planar_pos afterCertain reaches_afterCertain).1⟩

/-- The confidence that a link records is that of its member, and it can be 1. -/
theorem certain_link : ∃ db : Database ℚ,
    Reaches (fun db (a : Step .planar) ↦ some (a.next db)) (fun _ _ ↦ True) Database.empty db ∧
    ∃ l ∈ db.observationClusterLink, l.fusedConfidence = 1 ∧
      l.fusedConfidence ∉ Set.Ioo (0 : ℚ) 1 := by
  have hlink : ∃ l ∈ afterCertain.observationClusterLink.rows, l.fusedConfidence = 1 := by
    decide +kernel
  obtain ⟨l, hl, hone⟩ := hlink
  exact ⟨afterCertain, reaches_afterCertain, l, hl, hone, fun h ↦ h.2.ne hone⟩

end PotholeServer.Pipeline
