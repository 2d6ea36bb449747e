import PotholeServer.Cluster.Summary
import PotholeServer.Fusion.Ranges
import PotholeServer.Stats.Average

/-!
# A clustering run writes values in their ranges

The confidence and the severity of a member come from stored scores and pairs, where a missing one
counts as 0. The median of the severities, the mean of the confidences and the confidence of each
link are then between 0 and 1, and the centroid has a member on each side.
-/

namespace PotholeServer.Cluster

open Sql Db Fusion Stats

variable {R : Type} [Field R] [LinearOrder R]

/-- The columns of a member that are aggregated. -/
structure Member.InRange (m : Member R) : Prop where
  severity : m.severity ∈ Set.Icc 0 1
  confidence : m.confidence ∈ Set.Icc 0 1

/-- Points in the bounding box of others: on each side there is one of them. -/
structure InBox (p : Point R) (ps : List (Point R)) : Prop where
  west : ∃ q ∈ ps, q.lon ≤ p.lon
  east : ∃ q ∈ ps, p.lon ≤ q.lon
  south : ∃ q ∈ ps, q.lat ≤ p.lat
  north : ∃ q ∈ ps, p.lat ≤ q.lat

/-- What a run writes for a group is in its range. -/
structure ComputedCluster.InRange (g : ComputedCluster R) : Prop where
  summary : g.summary.InRange
  memberConfidences : ∀ x ∈ g.memberConfidences, x ∈ Set.Icc 0 1

omit [Field R] in
theorem InBox.mono {p : Point R} {ps qs : List (Point R)} (h : InBox p ps)
    (hsub : ∀ q ∈ ps, q ∈ qs) : InBox p qs := by
  obtain ⟨⟨w, hw, hwest⟩, ⟨e, he, heast⟩, ⟨s, hs, hsouth⟩, ⟨n, hn, hnorth⟩⟩ := h
  exact ⟨⟨w, hsub w hw, hwest⟩, ⟨e, hsub e he, heast⟩, ⟨s, hsub s hs, hsouth⟩,
    ⟨n, hsub n hn, hnorth⟩⟩

variable [IsStrictOrderedRing R] {ext : Externals R} {db : Database R}

/-! ### Members -/

theorem getD_mem_Icc {x : Option R} (h : ∀ y, x = some y → y ∈ Set.Icc 0 1) :
    x.getD 0 ∈ Set.Icc 0 1 := by
  cases x with
  | none => exact ⟨le_rfl, zero_le_one⟩
  | some y => exact h y rfl

theorem maxFused_getD_mem_Icc (h : db.InRange) (clientId : String) :
    (maxFused db clientId).getD 0 ∈ Set.Icc 0 1 := by
  apply getD_mem_Icc
  intro x hx
  obtain ⟨p, hp, rfl⟩ := List.mem_map.mp (List.max?_eq_some_iff.mp hx).1
  have hfused := (h.pair p (List.mem_filter.mp hp).1).fusedConfidence
  exact ⟨hfused.1.le, hfused.2.le⟩

theorem member_inRange (h : db.InRange) {o : AssetObservation R} (ho : o ∈ db.assetObservation) :
    (member db o).InRange where
  severity := getD_mem_Icc (h.observation o ho).sensorSeverity
  confidence := by
    have hsensor := getD_mem_Icc (h.observation o ho).sensorPPothole
    have hfused := maxFused_getD_mem_Icc h o.clientId
    exact ⟨hsensor.1.trans (le_max_left _ _), max_le hsensor.2 hfused.2⟩

/-! ### Aggregates -/

theorem median_mem_Icc {xs : List R} (h : ∀ x ∈ xs, x ∈ Set.Icc 0 1) :
    median xs ∈ Set.Icc 0 1 := by
  have hget : ∀ i, (orderBy id xs).getD i 0 ∈ Set.Icc 0 1 := by
    intro i
    rw [List.getD_eq_getElem?_getD]
    apply getD_mem_Icc
    intro x hx
    exact h x (mem_orderBy.mp (List.mem_of_getElem? hx))
  exact midpoint_mem_Icc (hget _) (hget _)

theorem avg_getD_mem_Icc {xs : List R} (h : ∀ x ∈ xs, x ∈ Set.Icc 0 1) :
    (avg xs).getD 0 ∈ Set.Icc 0 1 := by
  apply getD_mem_Icc
  intro x hx
  unfold avg at hx
  split at hx
  · cases hx
  next hne =>
  cases hx
  exact average_mem_Icc (by simpa using hne) h

theorem computedCluster_inRange {ms : List (Member R)} (h : ∀ m ∈ ms, m.InRange) :
    (computedCluster ms).InRange where
  summary := by
    refine ⟨median_mem_Icc ?_, avg_getD_mem_Icc ?_⟩
    · intro x hx
      obtain ⟨m, hm, rfl⟩ := List.mem_map.mp hx
      exact (h m hm).severity
    · intro x hx
      obtain ⟨m, hm, rfl⟩ := List.mem_map.mp hx
      exact (h m hm).confidence
  memberConfidences := by
    intro x hx
    obtain ⟨m, hm, rfl⟩ := List.mem_map.mp hx
    exact (h m (mem_orderBy.mp hm)).confidence

theorem clusters_inRange (h : db.InRange) {settings : Settings R} {now : DateTime} {units : R}
    {g : ComputedCluster R} (hg : g ∈ clusters ext settings now units db) : g.InRange := by
  obtain ⟨ms, _, _, hmembers, rfl⟩ := exists_members_of_clusters hg
  apply computedCluster_inRange
  intro m hm
  obtain ⟨o, ho, _, rfl⟩ := mem_members.mp (hmembers m hm)
  exact member_inRange h ho

theorem Member.weight_pos (m : Member R) : 0 < m.weight :=
  (one_div_pos.mpr (by norm_num)).trans_le (le_max_right _ _)

/-- The weighted mean of the members lies in their bounding box. -/
theorem centroid_inBox {ms : List (Member R)} (hne : ms ≠ []) :
    InBox (computedCluster ms).summary.centroid (ms.map Member.geom) := by
  have hweight : ∀ m ∈ ms, 0 < m.weight := fun m _ ↦ m.weight_pos
  obtain ⟨w, hw, hwest⟩ := exists_le_weightedAverage (f := fun m ↦ m.geom.lon) hne hweight
  obtain ⟨e, he, heast⟩ := exists_weightedAverage_le (f := fun m ↦ m.geom.lon) hne hweight
  obtain ⟨s, hs, hsouth⟩ := exists_le_weightedAverage (f := fun m ↦ m.geom.lat) hne hweight
  obtain ⟨n, hn, hnorth⟩ := exists_weightedAverage_le (f := fun m ↦ m.geom.lat) hne hweight
  exact ⟨⟨_, List.mem_map_of_mem hw, hwest⟩, ⟨_, List.mem_map_of_mem he, heast⟩,
    ⟨_, List.mem_map_of_mem hs, hsouth⟩, ⟨_, List.mem_map_of_mem hn, hnorth⟩⟩

/-- A cluster lies in the bounding box of the observations that are linked to it. -/
theorem Backed.centroid_inBox {c : AssetCluster R} {ms : List (Member R)} (h : Backed db c ms) :
    InBox c.centroid ((linkedObservations db c.clusterId).map AssetObservation.geom) := by
  have hcentroid : c.centroid = (computedCluster ms).summary.centroid :=
    congrArg ClusterSummary.centroid h.summary
  rw [hcentroid]
  apply (Cluster.centroid_inBox h.nonempty).mono
  intro q hq
  exact (h.mem_map_iff (fun _ _ hreport ↦ hreport.geom)).mpr hq

/-! ### The run -/

section Run

variable (settings : Settings R) (tick : ClusterTick)

omit [IsStrictOrderedRing R] in
theorem guarded_insertLinks (id : String) {ms : List (String × R)}
    (hms : ∀ m ∈ ms, m.2 ∈ Set.Icc 0 1) :
    (insertLinks id ms).Guarded (Ranged ext) Write.InRange (fun _ ↦ True) := by
  induction ms with
  | nil => exact Prog.guarded_pure trivial
  | cons m rest ih =>
    rw [insertLinks]
    have hfirst : (newLink id m).InRange := hms m (List.mem_cons_self ..)
    exact Prog.guarded_bind (Prog.guarded_effect hfirst)
      (fun _ _ ↦ ih (fun m' hm' ↦ hms m' (List.mem_cons_of_mem _ hm')))

omit [IsStrictOrderedRing R] in
theorem guarded_upsertCluster (matched : List String) (k : Nat) {g : ComputedCluster R}
    (hg : g.InRange) : (upsertCluster ext settings tick matched k g).Guarded (Ranged ext)
      Write.InRange (fun _ ↦ True) := by
  rw [upsertCluster]
  refine Prog.guarded_bind (Prog.guarded_fetch (Q := fun _ ↦ True) (fun _ _ _ _ ↦ trivial)) ?_
  intro existing _
  cases existing with
  | some id =>
    exact Prog.guarded_bind (Prog.guarded_effect hg.summary) (fun _ _ ↦ Prog.guarded_pure trivial)
  | none =>
    refine Prog.guarded_bind (Prog.guarded_execute ?_) (fun _ _ ↦ Prog.guarded_pure trivial)
    intro s ws _ hws w hw
    rw [insertCluster] at hws
    split at hws
    · cases hws
    · cases hws
      cases List.mem_singleton.mp hw
      exact ⟨hg.summary.severity, hg.summary.confidence⟩

omit [IsStrictOrderedRing R] in
theorem guarded_upsertClusters (matched : List String) (k : Nat) {cs : List (ComputedCluster R)}
    (hcs : ∀ g ∈ cs, g.InRange) : (upsertClusters ext settings tick matched k cs).Guarded
      (Ranged ext) Write.InRange (fun _ ↦ True) := by
  induction cs generalizing matched k with
  | nil => exact Prog.guarded_pure trivial
  | cons g rest ih =>
    have hg := hcs g (List.mem_cons_self ..)
    rw [upsertClusters]
    refine Prog.guarded_bind (guarded_upsertCluster settings tick matched k hg) (fun id _ ↦ ?_)
    refine Prog.guarded_bind (Prog.guarded_effect trivial) (fun _ _ ↦ ?_)
    refine Prog.guarded_bind (guarded_insertLinks id ?_)
      (fun _ _ ↦ ih _ _ (fun g' hg' ↦ hcs g' (List.mem_cons_of_mem _ hg')))
    intro m hm
    exact hg.memberConfidences m.2 (List.of_mem_zip hm).2

omit [IsStrictOrderedRing R] in
theorem guarded_clusterTransaction (stats : MemberStats R) (meanLat : R)
    {cs : List (ComputedCluster R)} (hcs : ∀ g ∈ cs, g.InRange) :
    (clusterTransaction ext settings tick stats meanLat cs).Guarded (Ranged ext) Write.InRange
      (fun _ ↦ True) := by
  rw [clusterTransaction]
  refine Prog.guarded_bind (Prog.guarded_execute ?_) (fun _ _ ↦ ?_)
  · intro s ws _ hws w hw
    rw [insertClusterRun] at hws
    split at hws
    · cases hws
    · cases hws
      cases List.mem_singleton.mp hw
      trivial
  exact Prog.guarded_bind (guarded_upsertClusters settings tick [] 0 hcs)
    (fun _ _ ↦ Prog.guarded_effect trivial)

theorem guarded_clusterBody :
    (clusterBody ext settings tick).Guarded (Ranged ext) Write.InRange (fun _ ↦ True) := by
  rw [clusterBody]
  refine Prog.guarded_bind (Prog.guarded_fetch (Q := fun _ ↦ True) (fun _ _ _ _ ↦ trivial)) ?_
  intro stats _
  split
  · exact Prog.guarded_pure trivial
  split
  · exact Prog.guarded_raise _
  next meanLat _ =>
  refine Prog.guarded_bind (Prog.guarded_fetch (Q := fun cs ↦ ∀ g ∈ cs, g.InRange) ?_) ?_
  · intro s cs hs hq g hg
    cases hq
    exact clusters_inRange hs.inRange hg
  intro cs hcs
  exact Prog.guarded_bind (Prog.guarded_transaction
    (guarded_clusterTransaction settings tick stats meanLat hcs))
    (fun _ _ ↦ Prog.guarded_pure trivial)

/-- On states with values in range a run writes values in their ranges. -/
theorem guarded_runClusterJob :
    (runClusterJob ext settings tick).Guarded (Ranged ext) Write.InRange (fun _ ↦ True) := by
  rw [runClusterJob]
  refine Prog.guarded_bind Prog.guarded_nothing (fun _ _ ↦ ?_)
  split
  · exact Prog.guarded_tryFinally (guarded_clusterBody settings tick) Prog.guarded_nothing
  · exact Prog.guarded_pure trivial

end Run

end PotholeServer.Cluster
