import Mathlib.Data.List.Pairwise
import PotholeServer.Cluster.History
import PotholeServer.Planar

/-!
# One live cluster for each detection

A run rebuilds the links of the clusters that its groups take. An unrepaired cluster that no
group takes keeps its links, also to observations that now belong to a group: where groups merge
or grow, the new centroid can be further than `cluster_eps_m` from the cluster that linked the
same observations before. In a run in which every such cluster is claimed, each observation keeps
at most one live cluster.
-/

namespace PotholeServer.Cluster

open Sql Db Ingest

variable {R : Type}

/-- Each observation is linked to at most one cluster that is not repaired. -/
def OneLiveCluster (db : Database R) : Prop :=
  ∀ o c c', linked db o c = true → linked db o c' = true → live db c = true →
    live db c' = true → c = c'

variable [Field R] [LinearOrder R] (ext : Externals R) (settings : Settings R)

/-- Every live cluster that is linked to a member of a computed cluster is claimed by one of the
computed centroids. -/
def ClaimsLinked (tick : ClusterTick) (db : Database R) : Prop :=
  ∀ g ∈ computedClusters ext settings tick db, ∀ o ∈ g.memberIds, ∀ c ∈ db.assetCluster,
    c.repairedAt = none → linked db o c.clusterId = true →
      c.clusterId ∈ claims ext settings.clusterEpsM db
        ((computedClusters ext settings tick db).map (fun g ↦ g.summary.centroid))

/-- The condition on a step: a run of the job claims the linked clusters. -/
def Covered (db : Database R) : Event R → Prop
  | .clustered tick => ClaimsLinked ext settings tick db
  | _ => True

variable {ext settings} {db db' : Database R} {tick : ClusterTick}

/-! ### Steps other than runs -/

omit [Field R] [LinearOrder R] in
/-- Steps that keep the links and make no cluster live keep the property. -/
theorem OneLiveCluster.of_same (h : OneLiveCluster db)
    (hlinks : db'.observationClusterLink = db.observationClusterLink)
    (hlive : ∀ c, live db' c = true → live db c = true) : OneLiveCluster db' := by
  have hlinked : ∀ o c, linked db' o c = linked db o c := by
    intro o c
    rw [linked, linked, hlinks]
  intro o c c' hc hc' hcl hcl'
  rw [hlinked] at hc hc'
  exact h o c c' hc hc' (hlive c hcl) (hlive c' hcl')

omit [Field R] [LinearOrder R] in
/-- A repair makes no cluster live. -/
theorem live_of_markRepaired {clusterId : String} {time : DateTime} {c : String}
    (h : live (markRepaired clusterId time db) c = true) : live db c = true := by
  obtain ⟨r, hr, rfl, hnone⟩ := live_iff.mp h
  obtain ⟨u, hu, rfl⟩ := mem_markRepaired.mp hr
  by_cases hid : u.clusterId = clusterId
  · simp [hid] at hnone
  · rw [if_neg (by simpa using hid)] at hnone ⊢
    exact live_iff.mpr ⟨u, hu, rfl, hnone⟩

/-! ### Runs -/

theorem computedClusters_disjoint (ext : Externals R) (settings : Settings R) (tick : ClusterTick)
    (db : Database R) : (computedClusters ext settings tick db).Pairwise
      (fun c d ↦ c.memberIds.Disjoint d.memberIds) := by
  rw [computedClusters]
  split
  · split
    · exact clusters_disjoint ..
    · exact List.Pairwise.nil
  · exact List.Pairwise.nil

section Rebuilt

variable {taken : List (String × ComputedCluster R)} {o c : String}

omit [Field R] in
/-- A cluster that no group took is live after the run exactly if it was before. -/
theorem Rebuilt.live_iff (h : Rebuilt ext settings db taken db') (hc : c ∉ taken.map Prod.fst) :
    live db' c = true ↔ live db c = true := by
  have hmem : ∀ r : AssetCluster R, r.clusterId = c →
      (r ∈ db'.assetCluster ↔ r ∈ db.assetCluster) := by
    intro r hr
    have hothers := congrArg (r ∈ ·) h.others
    simp only [mem_others, hr, hc, not_false_eq_true, and_true, eq_iff_iff] at hothers
    exact hothers
  rw [Cluster.live_iff, Cluster.live_iff]
  constructor
  · rintro ⟨r, hr, hid, hnone⟩
    exact ⟨r, (hmem r hid).mp hr, hid, hnone⟩
  · rintro ⟨r, hr, hid, hnone⟩
    exact ⟨r, (hmem r hid).mpr hr, hid, hnone⟩

omit [Field R] in
/-- A cluster that no group took keeps its links. -/
theorem Rebuilt.linked_iff (h : Rebuilt ext settings db taken db') (hc : c ∉ taken.map Prod.fst) :
    linked db' o c = true ↔ linked db o c = true := by
  rw [Cluster.linked_iff, Cluster.linked_iff]
  constructor
  · rintro ⟨l, hl, rfl, hrest⟩
    exact ⟨l, (h.otherLinks l hc).mp hl, rfl, hrest⟩
  · rintro ⟨l, hl, rfl, hrest⟩
    exact ⟨l, (h.otherLinks l hc).mpr hl, rfl, hrest⟩

omit [Field R] in
/-- A cluster that a group took is linked to members of the group only. -/
theorem Rebuilt.exists_group (h : Rebuilt ext settings db taken db') (hc : c ∈ taken.map Prod.fst)
    (hlinked : linked db' o c = true) : ∃ g, (c, g) ∈ taken ∧ o ∈ g.memberIds := by
  obtain ⟨l, hl, rfl, rfl, _⟩ := Cluster.linked_iff.mp hlinked
  exact h.links l hl hc

omit [Field R] in
/-- A cluster that a group took is live and linked to the members of the group. -/
theorem Rebuilt.of_group (h : Rebuilt ext settings db taken db') {g : ComputedCluster R}
    (hg : (c, g) ∈ taken) (ho : o ∈ g.memberIds) : linked db' o c = true ∧ live db' c = true := by
  obtain ⟨l, hl, hkey⟩ := Table.hasKey_iff.mp (h.allLinked _ hg o ho)
  have hid : l.clusterId = c := congrArg Prod.fst hkey
  have hmember : l.memberId = o := congrArg (fun k ↦ k.2.1) hkey
  have hkind : l.kind = .observation := congrArg (fun k ↦ k.2.2) hkey
  exact ⟨Cluster.linked_iff.mpr ⟨l, hl, hid, hmember, hkind⟩,
    Cluster.live_iff.mpr (h.allLive c (List.mem_map.mpr ⟨_, hg, rfl⟩))⟩

omit [Field R] in
/-- The groups took the clusters of the state before that they claim. -/
theorem Rebuilt.mem_claims (h : Rebuilt ext settings db taken db') :
    c ∈ Cluster.claims ext settings.clusterEpsM db (taken.map (fun d ↦ d.2.summary.centroid)) ↔
      c ∈ taken.map Prod.fst ∧ db.assetCluster.HasKey c := by
  rw [h.claims, List.mem_filter, decide_eq_true_eq]

/-- Two clusters that groups with a common member took are one: the groups have none in common. -/
theorem eq_of_common_member
    (hcomputed : taken.map Prod.snd = computedClusters ext settings tick db) {c' : String}
    {g g' : ComputedCluster R} (hg : (c, g) ∈ taken) (hg' : (c', g') ∈ taken)
    (ho : o ∈ g.memberIds) (ho' : o ∈ g'.memberIds) : c = c' := by
  have hpair := computedClusters_disjoint ext settings tick db
  rw [← hcomputed, List.pairwise_map] at hpair
  have hsymm : Std.Symm (fun d d' : String × ComputedCluster R ↦
      d.2.memberIds.Disjoint d'.2.memberIds) := ⟨fun _ _ hd ↦ hd.symm⟩
  by_contra hne
  have hdisj := hpair.forall hg hg' (fun heq ↦ hne (congrArg Prod.fst heq))
  exact hdisj ho ho'

/-- Where the run claims the linked clusters, a live cluster that is linked to a member of a group
was taken. -/
theorem Rebuilt.mem_taken (h : Rebuilt ext settings db taken db')
    (hcomputed : taken.map Prod.snd = computedClusters ext settings tick db)
    (hclaims : ClaimsLinked ext settings tick db) {k : String} {g : ComputedCluster R}
    (hg : (k, g) ∈ taken) (ho : o ∈ g.memberIds) (hlinked : linked db' o c = true)
    (hlive : live db' c = true) : c ∈ taken.map Prod.fst := by
  by_contra hout
  obtain ⟨r, hr, rfl, hnone⟩ := Cluster.live_iff.mp ((h.live_iff hout).mp hlive)
  have hcomp : g ∈ computedClusters ext settings tick db :=
    hcomputed ▸ List.mem_map.mpr ⟨(k, g), hg, rfl⟩
  have hmem := hclaims g hcomp o ho r hr hnone ((h.linked_iff hout).mp hlinked)
  rw [← hcomputed, List.map_map] at hmem
  exact hout (h.mem_claims.mp hmem).1

end Rebuilt

/-- A run that writes keeps the property exactly if it claims the linked clusters: a cluster that
a group took has links of this group only, any other one keeps those it had. -/
theorem OneLiveCluster.clustered_iff (h : OneLiveCluster db)
    {taken : List (String × ComputedCluster R)}
    (hcomputed : taken.map Prod.snd = computedClusters ext settings tick db)
    (hrebuilt : Rebuilt ext settings db taken db') :
    OneLiveCluster db' ↔ ClaimsLinked ext settings tick db := by
  constructor
  · intro hone g hg o ho c hc hnone hlinked
    have hlive : live db c.clusterId = true := live_iff.mpr ⟨c, hc, rfl, hnone⟩
    rw [← hcomputed, List.map_map]
    apply hrebuilt.mem_claims.mpr ⟨?_, Table.hasKey_of_mem hc⟩
    -- a linked live cluster that no group took would be live besides the one of the member's group
    by_contra hout
    obtain ⟨⟨k, g'⟩, hd, rfl⟩ := List.mem_map.mp (hcomputed ▸ hg)
    obtain ⟨hlinked', hlive'⟩ := hrebuilt.of_group hd ho
    have hsame := hone o c.clusterId k ((hrebuilt.linked_iff hout).mpr hlinked) hlinked'
      ((hrebuilt.live_iff hout).mpr hlive) hlive'
    exact hout (List.mem_map.mpr ⟨_, hd, hsame.symm⟩)
  · intro hclaims o c c' hc hc' hlive hlive'
    by_cases hmem : c ∈ taken.map Prod.fst
    · obtain ⟨g, hg, ho⟩ := hrebuilt.exists_group hmem hc
      have hmem' := hrebuilt.mem_taken hcomputed hclaims hg ho hc' hlive'
      obtain ⟨g', hg', ho'⟩ := hrebuilt.exists_group hmem' hc'
      exact eq_of_common_member hcomputed hg hg' ho ho'
    by_cases hmem' : c' ∈ taken.map Prod.fst
    · obtain ⟨g', hg', ho'⟩ := hrebuilt.exists_group hmem' hc'
      exact absurd (hrebuilt.mem_taken hcomputed hclaims hg' ho' hc hlive) hmem
    · exact h o c c' ((hrebuilt.linked_iff hmem).mp hc) ((hrebuilt.linked_iff hmem').mp hc')
        ((hrebuilt.live_iff hmem).mp hlive) ((hrebuilt.live_iff hmem').mp hlive')

/-- Every covered step keeps the property. -/
theorem OneLiveCluster.next (h : OneLiveCluster db) (e : Event R)
    (hok : Covered ext settings db e) : OneLiveCluster (e.next ext settings db) := by
  cases e with
  | uploaded u =>
    cases u with
    | event => exact h.of_same rfl (fun _ hc ↦ hc)
    | frame => exact h.of_same rfl (fun _ hc ↦ hc)
  | scored => exact h.of_same rfl (fun _ hc ↦ hc)
  | paired => exact h.of_same rfl (fun _ hc ↦ hc)
  | repaired => exact h.of_same rfl (fun _ hc ↦ live_of_markRepaired hc)
  | clustered tick =>
    show OneLiveCluster (clusterRun ext settings tick db).conn.store
    rcases (clusterRun_result ext settings tick db).1 with heq | ⟨taken, hcomputed, hrebuilt⟩
    · rw [heq]
      exact h
    · exact (h.clustered_iff hcomputed hrebuilt).mpr hok

variable (ext settings)

/-- From a database without links, in a history whose runs claim every live cluster that is linked
to one of their members, each observation has at most one live cluster at all times. -/
theorem one_live_cluster (init db : Database R) (hinit : ∀ l, l ∉ init.observationClusterLink)
    (h : Reaches (fun db e ↦ some (Event.next ext settings db e)) (Covered ext settings) init db) :
    OneLiveCluster db := by
  apply h.invariant OneLiveCluster
  · intro o c c' hc
    obtain ⟨l, hl, _⟩ := linked_iff.mp hc
    exact absurd hl (hinit l)
  · intro s e s' hs hok hstep
    cases hstep
    exact hs.next e hok

/-- Two runs over one pothole: the second one finds the cluster of the first. -/
theorem one_live_cluster_onePothole : ∃ db : Database ℚ, OneLiveCluster db ∧
    db.observationClusterLink.rows.length = 3 ∧ db.assetCluster.rows.length = 1 := by
  have hstart : Reaches (fun db e ↦ some (Event.next Externals.planar (Settings.default ℚ) db e))
      (Covered Externals.planar (Settings.default ℚ)) Database.empty Database.empty := .start
  have hdetected := hstart.foldl onePothole
    (forall_onePothole (fun _ _ ↦ trivial) (fun _ _ _ _ ↦ trivial))
  have hfirst := hdetected.next (.clustered (laneTick "first")) (by
    show ClaimsLinked _ _ _ _
    unfold ClaimsLinked
    decide +kernel) rfl
  have hsecond := hfirst.next (.clustered (laneTick "second")) (by
    show ClaimsLinked _ _ _ _
    unfold ClaimsLinked
    decide +kernel) rfl
  exact ⟨_, one_live_cluster Externals.planar (Settings.default ℚ) Database.empty _
    (fun l ↦ Table.not_mem_empty l) hsecond, by decide +kernel, by decide +kernel⟩

/-- A pothole is clustered, then the detections along the lane join it: the centroid of all is
30 m from the old cluster, which stays live and keeps its links. -/
def mergedPotholes : List (Event ℚ) :=
  onePothole ++ [.clustered (laneTick "first")] ++ alongLane ++ [.clustered (laneTick "second")]

/-- The database after the merge. -/
def afterMerge : Database ℚ :=
  mergedPotholes.foldl (Event.next Externals.planar (Settings.default ℚ)) Database.empty

/-- After the merge the first detections are linked to two live clusters. -/
theorem merge_leaves_two_live : ¬∀ db : Database ℚ,
    Reaches (fun db e ↦ some (Event.next Externals.planar (Settings.default ℚ) db e))
      (fun _ _ ↦ True) Database.empty db → OneLiveCluster db := by
  intro h
  have hone := h _ (Reaches.start.foldl mergedPotholes (fun _ _ _ ↦ trivial))
  have hlinks : ∀ c ∈ ["clu_first0", "clu_second0"],
      linked afterMerge "a" c = true ∧ live afterMerge c = true := by
    decide +kernel
  obtain ⟨hfirst, hliveFirst⟩ := hlinks "clu_first0" (by decide)
  obtain ⟨hsecond, hliveSecond⟩ := hlinks "clu_second0" (by decide)
  have hsame := hone "a" "clu_first0" "clu_second0" hfirst hsecond hliveFirst hliveSecond
  exact absurd hsame (by decide)

end PotholeServer.Cluster
