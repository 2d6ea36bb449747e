import PotholeServer.Cluster.Job

/-!
# What the queries of the clustering job return

Members are observations that no repaired cluster explains; the groups are made of members and
have none in common; the row that `_FIND_EXISTING_SQL` picks is an unrepaired cluster that no
group has taken.
-/

namespace PotholeServer.Cluster

open Sql Db

variable {R : Type}

/-- Labelling the rows repeats none. -/
theorem zip_fst_sublist {α β : Type} (xs : List α) (ys : List β) :
    ((xs.zip ys).map Prod.fst).Sublist xs := by
  induction xs generalizing ys with
  | nil => simp
  | cons x xs ih =>
    cases ys with
    | nil => simp
    | cons y ys =>
      rw [List.zip_cons_cons, List.map_cons]
      exact (ih ys).cons_cons x

variable [Field R] [LinearOrder R] {ext : Externals R} {settings : Settings R} {now : DateTime}
  {eps : R} {db : Database R}

/-! ### Members -/

theorem mem_members {m : Member R} : m ∈ members ext settings now db ↔
    ∃ o ∈ db.assetObservation, isMember ext settings now db o = true ∧ member db o = m := by
  simp only [members, List.mem_map, List.mem_filter, and_assoc]
  rfl

/-- A member is not explained by a repaired cluster. -/
theorem not_explained_of_isMember {o : AssetObservation R}
    (h : isMember ext settings now db o = true) :
    explained ext settings.clusterEpsM db o = false := by
  rw [isMember, decide_eq_true_eq] at h
  exact h.2.2

theorem members_ids_nodup (ext : Externals R) (settings : Settings R) (now : DateTime)
    (db : Database R) : ((members ext settings now db).map Member.clientId).Nodup := by
  rw [members, List.map_map]
  exact (List.filter_sublist.map AssetObservation.clientId).nodup db.assetObservation.keysNodup

/-! ### Groups -/

omit [Field R] [LinearOrder R] in
/-- A row of a group is a member. -/
theorem mem_of_mem_labelGroups {units : R} {minPoints : Int} {ms : List (Member R)}
    {g : List (Member R × Option Nat)} (hg : g ∈ labelGroups ext units minPoints ms)
    {x : Member R × Option Nat} (hx : x ∈ g) : x ∈ ms.zip (ext.stClusterDBSCAN units minPoints
      (ms.map Member.geom)) := by
  have hrow := mem_of_mem_groupBy hg hx
  exact (List.mem_filter.mp hrow).1

theorem mem_memberIds {ms : List (Member R)} {id : String} :
    id ∈ (computedCluster ms).memberIds ↔ ∃ m ∈ ms, m.clientId = id := by
  show id ∈ (orderBy Member.clientId ms).map Member.clientId ↔ _
  simp only [List.mem_map, mem_orderBy]

/-- Every id of a computed cluster is the id of a member. -/
theorem exists_member_of_clusters {c : ComputedCluster R}
    (hc : c ∈ clusters ext settings now eps db) {id : String} (hid : id ∈ c.memberIds) :
    ∃ m ∈ members ext settings now db, m.clientId = id := by
  rw [clusters, mem_orderBy] at hc
  obtain ⟨g, hg, rfl⟩ := List.mem_map.mp hc
  obtain ⟨m, hm, rfl⟩ := mem_memberIds.mp hid
  obtain ⟨x, hx, rfl⟩ := List.mem_map.mp hm
  exact ⟨x.1, (List.of_mem_zip (mem_of_mem_labelGroups hg hx)).1, rfl⟩

/-- A computed cluster aggregates a group of members. -/
theorem exists_members_of_clusters {c : ComputedCluster R}
    (hc : c ∈ clusters ext settings now eps db) : ∃ ms, ms ≠ [] ∧
      (ms.map Member.clientId).Nodup ∧ (∀ m ∈ ms, m ∈ members ext settings now db) ∧
      c = computedCluster ms := by
  rw [clusters, mem_orderBy] at hc
  obtain ⟨g, hg, rfl⟩ := List.mem_map.mp hc
  have hsub : (g.map Prod.fst).Sublist (members ext settings now db) :=
    (((sublist_of_mem_groupBy hg).trans List.filter_sublist).map Prod.fst).trans
      (zip_fst_sublist _ _)
  refine ⟨g.map Prod.fst, ?_, ?_, fun m hm ↦ hsub.mem hm, rfl⟩
  · rw [Ne, List.map_eq_nil_iff]
    exact ne_nil_of_mem_groupBy hg
  · exact (hsub.map Member.clientId).nodup (members_ids_nodup ext settings now db)

/-- No id is in two computed clusters: an id belongs to one member, and a member has one label. -/
theorem clusters_disjoint (ext : Externals R) (settings : Settings R) (now : DateTime) (eps : R)
    (db : Database R) : (clusters ext settings now eps db).Pairwise
      (fun c d ↦ c.memberIds.Disjoint d.memberIds) := by
  have hsymm : ∀ {c d : ComputedCluster R}, c.memberIds.Disjoint d.memberIds →
      d.memberIds.Disjoint c.memberIds := fun h ↦ h.symm
  rw [clusters, (orderBy_perm _ _).pairwise_iff hsymm, List.pairwise_map]
  set ms := members ext settings now db with hms
  set labels := ext.stClusterDBSCAN eps settings.clusterMinPoints (ms.map Member.geom) with hlabels
  have hids : ((ms.zip labels).map (fun x ↦ x.1.clientId)).Nodup := by
    have hsub := (zip_fst_sublist ms labels).map Member.clientId
    rw [List.map_map] at hsub
    exact hsub.nodup (members_ids_nodup ext settings now db)
  have hgroups : (labelGroups ext eps settings.clusterMinPoints ms).Pairwise List.Disjoint :=
    groupBy_pairwise _ _
  apply hgroups.imp_of_mem
  intro g g' hg hg' hdisj id hid hid'
  obtain ⟨m, hm, hmid⟩ := mem_memberIds.mp hid
  obtain ⟨m', hm', hmid'⟩ := mem_memberIds.mp hid'
  obtain ⟨x, hx, rfl⟩ := List.mem_map.mp hm
  obtain ⟨x', hx', rfl⟩ := List.mem_map.mp hm'
  have heq : x = x' := List.inj_on_of_nodup_map hids (mem_of_mem_labelGroups hg hx)
    (mem_of_mem_labelGroups hg' hx') (hmid.trans hmid'.symm)
  exact hdisj hx (heq ▸ hx')

/-! ### The existing cluster of a group -/

variable {matched : List String} {centroid : Point R} {id : String}

omit [Field R] in
theorem mem_matchable {c : AssetCluster R} : c ∈ matchable ext eps matched centroid db ↔
    c ∈ db.assetCluster ∧ c.repairedAt = none ∧ c.clusterId ∉ matched ∧
      ext.stDistance c.centroid centroid ≤ eps := by
  rw [matchable, List.mem_filter, decide_eq_true_eq]
  rfl

omit [Field R] in
theorem exists_of_findExisting (h : findExisting ext eps matched centroid db = some id) :
    ∃ c ∈ db.assetCluster, c.clusterId = id ∧ c.repairedAt = none ∧ id ∉ matched := by
  rw [findExisting, Option.map_eq_some_iff] at h
  obtain ⟨c, hhead, rfl⟩ := h
  have hc := mem_matchable.mp (mem_orderBy.mp (List.mem_of_head? hhead))
  exact ⟨c, hc.1, rfl, hc.2.1, hc.2.2.1⟩

omit [Field R] in
/-- Where a cluster can be matched, the pick is one at least as near, of the smallest id among
equally near ones. -/
theorem exists_nearest_of_matchable {c : AssetCluster R}
    (hc : c ∈ matchable ext eps matched centroid db) :
    ∃ d ∈ matchable ext eps matched centroid db,
      findExisting ext eps matched centroid db = some d.clusterId ∧
      toLex (ext.stDistance d.centroid centroid, d.clusterId) ≤
        toLex (ext.stDistance c.centroid centroid, c.clusterId) := by
  obtain ⟨d, hd, hhead, hle⟩ := exists_least_orderBy
    (k := fun c : AssetCluster R ↦ toLex (ext.stDistance c.centroid centroid, c.clusterId)) hc
  exact ⟨d, hd, by rw [findExisting, hhead, Option.map_some], hle⟩

omit [Field R] in
/-- The pick depends on the matchable rows only. -/
theorem findExisting_congr {db' : Database R} {matched' : List String}
    (h : matchable ext eps matched centroid db = matchable ext eps matched' centroid db') :
    findExisting ext eps matched centroid db = findExisting ext eps matched' centroid db' := by
  rw [findExisting, h, findExisting]

end PotholeServer.Cluster
