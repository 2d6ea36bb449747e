import Mathlib.Data.Multiset.Basic
import Mathlib.Tactic.Positivity
import PotholeServer.Cluster.Repair
import PotholeServer.Cluster.Summary
import PotholeServer.Geo.Greedy

/-!
# A second run

A run that finds what the last one has left computes the same clusters. The row that a computed
cluster took is at its centroid, and no row that the first run left behind comes before it there,
so the second run takes the same rows: in the same order, when the centroids are different.
-/

namespace PotholeServer.Cluster

open Sql Db Geo

variable {R : Type}

/-- The cluster that an effect inserts. -/
def insertedCluster : Write R → Option String
  | .insertCluster row => some row.clusterId
  | _ => none

/-- The clusters that the effects insert. -/
def insertedClusters (ws : List (Write R)) : List String := ws.filterMap insertedCluster

theorem insertedClusters_append (ws ws' : List (Write R)) :
    insertedClusters (ws ++ ws') = insertedClusters ws ++ insertedClusters ws' :=
  List.filterMap_append

/-- The aggregates of a cluster and its linked members. -/
def clusterRecord (db : Database R) (c : AssetCluster R) :
    ClusterSummary R × Multiset (String × LinkKind × R) :=
  (summaryOf c, ((linksOf db c.clusterId).map
    (fun l ↦ (l.memberId, l.kind, l.fusedConfidence)) : List (String × LinkKind × R)))

/-- The records of the clusters with these ids. -/
def clusterRecords (db : Database R) (ids : List String) :
    Multiset (ClusterSummary R × Multiset (String × LinkKind × R)) :=
  ((db.assetCluster.rows.filter (fun c ↦ c.clusterId ∈ ids)).map (clusterRecord db) : List _)

/-- The record of a cluster that has just been rebuilt. -/
def ComputedCluster.record (g : ComputedCluster R) :
    ClusterSummary R × Multiset (String × LinkKind × R) :=
  (g.summary, ((g.memberIds.zip g.memberConfidences).map
    (fun m ↦ (m.1, LinkKind.observation, m.2)) : List (String × LinkKind × R)))

/-- Nobody has touched the observations, the pairs, the clusters and the links. -/
structure Undisturbed (s s' : Database R) : Prop where
  assetObservation : s'.assetObservation = s.assetObservation
  fusionPair : s'.fusionPair = s.fusionPair
  assetCluster : s'.assetCluster = s.assetCluster
  observationClusterLink : s'.observationClusterLink = s.observationClusterLink

/-- After a run the records of the taken clusters are those of the groups. -/
theorem Upserted.clusterRecords {s v : Database R} {done : List (String × ComputedCluster R)}
    (h : Upserted s done v) :
    clusterRecords v (done.map Prod.fst) =
      ((done.map Prod.snd).map ComputedCluster.record : List _) := by
  have hrecord : ∀ c ∈ v.assetCluster, ∀ d ∈ done, c.clusterId = d.1 →
      clusterRecord v c = d.2.record := by
    intro c hc d hd hid
    have hlinks := (h.links d hd).map
      (fun l : ObservationClusterLink R ↦ (l.memberId, l.kind, l.fusedConfidence))
    rw [List.map_map] at hlinks
    rw [clusterRecord, ComputedCluster.record, h.taken d hd c hc hid, hid]
    exact congrArg (Prod.mk _) (Multiset.coe_eq_coe.mpr hlinks)
  have hperm : ((v.assetCluster.rows.filter (fun c ↦ c.clusterId ∈ done.map Prod.fst)).map
      (fun c ↦ (c.clusterId, clusterRecord v c))).Perm (done.map (fun d ↦ (d.1, d.2.record))) := by
    rw [List.perm_ext_iff_of_nodup]
    · intro x
      simp only [List.mem_map, List.mem_filter, decide_eq_true_eq]
      constructor
      · rintro ⟨c, ⟨hc, d, hd, hid⟩, rfl⟩
        exact ⟨d, hd, by rw [hrecord c hc d hd hid.symm, hid]⟩
      · rintro ⟨d, hd, rfl⟩
        obtain ⟨c, hc, hid⟩ := Table.hasKey_iff.mp ((h.hasKey d.1).mpr
          (.inr (List.mem_map_of_mem hd)))
        have hid : c.clusterId = d.1 := hid
        exact ⟨c, ⟨hc, d, hd, hid.symm⟩, by rw [hrecord c hc d hd hid, hid]⟩
    · apply List.Nodup.of_map Prod.fst
      rw [List.map_map]
      exact (List.filter_sublist.map AssetCluster.clusterId).nodup v.assetCluster.keysNodup
    · apply List.Nodup.of_map Prod.fst
      rw [List.map_map]
      exact h.nodup
  have hsnd := hperm.map Prod.snd
  rw [List.map_map, List.map_map] at hsnd
  rw [Cluster.clusterRecords, List.map_map]
  exact Multiset.coe_eq_coe.mpr hsnd

variable [Field R] [LinearOrder R] {ext : Externals R} {settings : Settings R} {tick : ClusterTick}
  {db db' v : Database R} {done taken : List (String × ComputedCluster R)} {p ws : List (Write R)}

/-! ### What a run has collected -/

section Collects

omit [Field R] in
theorem Assigns.upserts {now : DateTime} {matched : List String} {c : ComputedCluster R}
    {id : String} (h : Assigns ext settings now v matched c id ws) : Upserts now v c id ws := by
  cases h with
  | existing hfind =>
    obtain ⟨r, hr, hid, _⟩ := exists_of_findExisting hfind
    exact .update (hid ▸ Table.hasKey_of_mem hr)
  | new _ hfree => exact .insert hfree

omit [Field R] in
/-- The groups have got their aggregates and links. -/
theorem Collects.upserted (h : Collects ext settings tick db done p)
    (hnodup : ∀ d ∈ done, d.2.memberIds.Nodup) : Upserted db done (applyAll p db) := by
  induction h with
  | start row => exact .start db _
  | @step done p ws id c h ha _ ih =>
    rw [applyAll_append, applyAll_append]
    have hlast : (id, c) ∈ done ++ [(id, c)] := by simp
    exact (ih (fun d hd ↦ hnodup d (List.mem_append_left _ hd))).step (h.rebuilt.not_mem ha)
      ha.upserts (hnodup _ hlast)

omit [Field R] [LinearOrder R] in
theorem writtenClusters_linkWrites (id : String) (c : ComputedCluster R) :
    writtenClusters (linkWrites id c) = [] ∧ insertedClusters (linkWrites id c) = [] := by
  rw [linkWrites]
  generalize c.memberIds.zip c.memberConfidences = ms
  induction ms with
  | nil => exact ⟨rfl, rfl⟩
  | cons m ms ih => exact ih

omit [Field R] in
theorem Collects.writtenClusters (h : Collects ext settings tick db done p) :
    writtenClusters p = done.map Prod.fst := by
  induction h with
  | start row => rfl
  | @step done p ws id c _ ha _ ih =>
    have hws : Cluster.writtenClusters ws = [id] := by cases ha <;> rfl
    rw [writtenClusters_append, writtenClusters_append, (writtenClusters_linkWrites id c).1, ih,
      hws, List.append_nil, List.map_append]
    rfl

omit [Field R] in
/-- The inserted clusters are taken ones that were not there. -/
theorem Collects.insertedClusters (h : Collects ext settings tick db done p) {id : String}
    (hid : id ∈ insertedClusters p) :
    id ∈ done.map Prod.fst ∧ ¬db.assetCluster.HasKey id := by
  induction h with
  | start row => cases hid
  | @step done p ws id' c h ha _ ih =>
    rw [insertedClusters_append, insertedClusters_append, (writtenClusters_linkWrites id' c).2,
      List.append_nil, List.mem_append] at hid
    rw [List.map_append, List.mem_append]
    rcases hid with hid | hid
    · exact ⟨.inl (ih hid).1, (ih hid).2⟩
    · cases ha with
      | existing => cases hid
      | new _ hfree =>
        cases List.mem_singleton.mp hid
        exact ⟨.inr (List.mem_singleton.mpr rfl), fun hk ↦ hfree (h.rebuilt.kept _ hk)⟩

omit [Field R] in
/-- No row is created twice. -/
theorem Collects.createdAt (h : Collects ext settings tick db done p) {c : AssetCluster R}
    (hc : c ∈ db.assetCluster) : ∃ c' ∈ (applyAll p db).assetCluster,
      c'.clusterId = c.clusterId ∧ c'.createdAt = c.createdAt := by
  induction h with
  | start row => exact ⟨c, hc, rfl, rfl⟩
  | step _ ha _ ih =>
    obtain ⟨c₁, hc₁, hid₁, hat₁⟩ := ih
    obtain ⟨c₂, hc₂, hid₂, _, hat₂⟩ := ha.kept hc₁
    rw [applyAll_append, applyAll_append, (linkWrites_frame _ _ _).1]
    exact ⟨c₂, hc₂, hid₂.trans hid₁, hat₂.trans hat₁⟩

omit [Field R] [LinearOrder R] in
theorem fusionPair_linkWrites (id : String) (c : ComputedCluster R) (v : Database R) :
    (applyAll (linkWrites id c) v).fusionPair = v.fusionPair := by
  rw [linkWrites, applyAll_cons]
  have hdelete : (v.write (.deleteLinks id)).fusionPair = v.fusionPair := rfl
  rw [apply_write, ← hdelete]
  generalize v.write (.deleteLinks id) = w
  generalize c.memberIds.zip c.memberConfidences = ms
  induction ms generalizing w with
  | nil => rfl
  | cons m ms ih => exact ih (w.write (.insertLink (newLink id m)))

omit [Field R] in
theorem Collects.fusionPair (h : Collects ext settings tick db done p) :
    (applyAll p db).fusionPair = db.fusionPair := by
  induction h with
  | start row => rfl
  | @step done p ws id c _ ha _ ih =>
    have hws : (applyAll ws (applyAll p db)).fusionPair = (applyAll p db).fusionPair := by
      cases ha <;> rfl
    rw [applyAll_append, applyAll_append, fusionPair_linkWrites, hws, ih]

end Collects

/-! ### Rows at a centroid -/

section Distance

variable {eps : R}

/-- A row at a centroid is matched with a row there, of the smallest id. -/
theorem exists_findExisting_at (hdist : ∀ p q, 0 ≤ ext.stDistance p q)
    (hzero : ∀ p q, ext.stDistance p q = 0 ↔ p = q) (heps : 0 ≤ eps) {matched : List String}
    {c : AssetCluster R} (hc : c ∈ db.assetCluster) (hlive : c.repairedAt = none)
    (hout : c.clusterId ∉ matched) :
    ∃ d ∈ db.assetCluster, findExisting ext eps matched c.centroid db = some d.clusterId ∧
      d.clusterId ∉ matched ∧ d.repairedAt = none ∧ d.centroid = c.centroid ∧
      d.clusterId ≤ c.clusterId := by
  have hself : ext.stDistance c.centroid c.centroid = 0 := (hzero _ _).mpr rfl
  have hmatchable : c ∈ matchable ext eps matched c.centroid db :=
    mem_matchable.mpr ⟨hc, hlive, hout, hself ▸ heps⟩
  obtain ⟨d, hd, hfind, hle⟩ := exists_nearest_of_matchable hmatchable
  obtain ⟨hmem, hnone, hnew, _⟩ := mem_matchable.mp hd
  rw [hself, Prod.Lex.toLex_le_toLex] at hle
  rcases hle with hlt | ⟨hdistance, hid⟩
  · exact absurd hlt (not_lt.mpr (hdist _ _))
  · exact ⟨d, hmem, hfind, hnew, hnone, (hzero _ _).mp hdistance, hid⟩

/-- A row that a run leaves behind comes after those taken at its place. -/
theorem Collects.lt_of_left_behind (hdist : ∀ p q, 0 ≤ ext.stDistance p q)
    (hzero : ∀ p q, ext.stDistance p q = 0 ↔ p = q) (heps : 0 ≤ settings.clusterEpsM)
    (h : Collects ext settings tick db done p) {c : AssetCluster R} (hc : c ∈ db.assetCluster)
    (hlive : c.repairedAt = none) (hout : c.clusterId ∉ done.map Prod.fst)
    {d : String × ComputedCluster R} (hd : d ∈ done)
    (hplace : d.2.summary.centroid = c.centroid) : d.1 < c.clusterId := by
  induction h with
  | start row => cases hd
  | @step done p ws id g h ha _ ih =>
    rw [List.map_append, List.mem_append, not_or] at hout
    rcases List.mem_append.mp hd with hd | hd
    · exact ih hout.1 hd
    · cases List.mem_singleton.mp hd
      have hother : c ∈ Cluster.others (done.map Prod.fst) (applyAll p db).assetCluster := by
        rw [h.rebuilt.others]
        exact mem_others.mpr ⟨hc, hout.1⟩
      obtain ⟨e, _, hfind, _, _, _, hle⟩ := exists_findExisting_at hdist hzero heps
        (mem_others.mp hother).1 hlive hout.1
      rw [← hplace] at hfind
      have hne : id ≠ c.clusterId := fun heq ↦ hout.2 (List.mem_singleton.mpr heq.symm)
      cases ha with
      | existing hfind' =>
        have hid : id = e.clusterId := Option.some.inj (hfind'.symm.trans hfind)
        exact lt_of_le_of_ne (hid ▸ hle) hne
      | new hfind' =>
        rw [hfind'] at hfind
        cases hfind

end Distance

/-! ### What a run leaves -/

section Written

omit [Field R] in
theorem Written.upserted (h : Written ext settings tick db taken ws)
    (hnodup : ∀ d ∈ taken, d.2.memberIds.Nodup) : Upserted db taken (applyAll ws db) := by
  cases h with
  | nothing => exact .start db _
  | groups h =>
    rw [applyAll_append]
    exact (h.upserted hnodup).withRuns _

omit [Field R] in
theorem Written.writtenClusters (h : Written ext settings tick db taken ws) :
    writtenClusters ws = taken.map Prod.fst := by
  cases h with
  | nothing => rfl
  | groups h =>
    rw [writtenClusters_append, h.writtenClusters]
    exact List.append_nil _

omit [Field R] in
theorem Written.insertedClusters (h : Written ext settings tick db taken ws) {id : String}
    (hid : id ∈ insertedClusters ws) : id ∈ taken.map Prod.fst ∧ ¬db.assetCluster.HasKey id := by
  cases h with
  | nothing => cases hid
  | groups h =>
    rw [insertedClusters_append] at hid
    exact h.insertedClusters ((List.append_nil _).subst hid)

omit [Field R] in
theorem Written.createdAt (h : Written ext settings tick db taken ws) {c : AssetCluster R}
    (hc : c ∈ db.assetCluster) : ∃ c' ∈ (applyAll ws db).assetCluster,
      c'.clusterId = c.clusterId ∧ c'.createdAt = c.createdAt := by
  cases h with
  | nothing => exact ⟨c, hc, rfl, rfl⟩
  | groups h =>
    rw [applyAll_append]
    exact h.createdAt hc

omit [Field R] in
theorem Written.fusionPair (h : Written ext settings tick db taken ws) :
    (applyAll ws db).fusionPair = db.fusionPair := by
  cases h with
  | nothing => rfl
  | groups h =>
    rw [applyAll_append]
    exact h.fusionPair

/-- At the place of a taken row the next run picks a row that is taken there. -/
theorem Written.picksAtPlace (hdist : ∀ p q, 0 ≤ ext.stDistance p q)
    (hzero : ∀ p q, ext.stDistance p q = 0 ↔ p = q) (heps : 0 ≤ settings.clusterEpsM)
    (h : Written ext settings tick db taken ws) (hnodup : ∀ d ∈ taken, d.2.memberIds.Nodup)
    (hsame : db'.assetCluster = (applyAll ws db).assetCluster) :
    PicksAtPlace (fun matched x ↦ findExisting ext settings.clusterEpsM matched x db')
      (taken.map (fun d ↦ (d.1, d.2.summary.centroid))) := by
  intro matched i x hplace hout
  obtain ⟨d, hd, heq⟩ := List.mem_map.mp hplace
  cases heq
  have hupserted := h.upserted hnodup
  obtain ⟨r, hr, hid, hlive⟩ := h.rebuilt.allLive d.1 (List.mem_map_of_mem hd)
  have hcentroid : r.centroid = d.2.summary.centroid :=
    congrArg ClusterSummary.centroid (hupserted.taken d hd r hr hid)
  have hnew : r.clusterId ∉ matched := hid ▸ hout
  have hr' : r ∈ db'.assetCluster := hsame ▸ hr
  obtain ⟨e, he, hfind, henew, helive, hecentroid, hle⟩ := exists_findExisting_at hdist hzero heps
    hr' hlive hnew
  rw [hcentroid] at hfind
  refine ⟨e.clusterId, hfind, ?_, henew⟩
  rw [hsame] at he
  by_cases hmem : e.clusterId ∈ taken.map Prod.fst
  · obtain ⟨d', hd', hid'⟩ := List.mem_map.mp hmem
    have hplace' : e.centroid = d'.2.summary.centroid :=
      congrArg ClusterSummary.centroid (hupserted.taken d' hd' e he hid'.symm)
    refine List.mem_map.mpr ⟨d', hd', ?_⟩
    rw [hid', ← hplace', hecentroid, hcentroid]
  · have hold : e ∈ db.assetCluster := hupserted.others e he hmem
    cases h with
    | nothing => cases hd
    | groups h =>
      have hlt := h.lt_of_left_behind hdist hzero heps hold helive hmem hd
        (hcentroid.symm.trans hecentroid.symm)
      rw [hid] at hle
      exact absurd hle (not_le.mpr hlt)

end Written

/-! ### The same groups -/

section Groups

omit [Field R] in
/-- A run repairs no cluster and moves no repaired one. -/
theorem Rebuilt.explained_eq (h : Rebuilt ext settings db taken v) {eps : R}
    (o : AssetObservation R) : explained ext eps v o = explained ext eps db o := by
  rw [Bool.eq_iff_iff]
  constructor
  · intro hv
    obtain ⟨c, hc, hby⟩ := explained_iff.mp hv
    have hrepaired : c.repairedAt ≠ none := by
      intro hnone
      simp [explainedBy, hnone] at hby
    have hout : c.clusterId ∉ taken.map Prod.fst := by
      intro hmem
      obtain ⟨r, hr, hid, hnone⟩ := h.allLive c.clusterId hmem
      have hrc : r = c := Table.eq_of_key hr hc hid
      exact hrepaired (hrc ▸ hnone)
    have hother : c ∈ Cluster.others (taken.map Prod.fst) db.assetCluster := by
      rw [← h.others]
      exact mem_others.mpr ⟨hc, hout⟩
    exact explained_iff.mpr ⟨c, (mem_others.mp hother).1, hby⟩
  · exact explained_of_kept (fun _ hc hrepaired ↦ h.kept_repaired hc hrepaired) rfl rfl

/-- The members at another time on a state with the same observations, pairs and repairs. -/
theorem members_congr {now now' : DateTime} (hobs : db'.assetObservation = db.assetObservation)
    (hpairs : db'.fusionPair = db.fusionPair)
    (hexplained : ∀ o, explained ext settings.clusterEpsM db' o =
      explained ext settings.clusterEpsM db o)
    (hwindow : ∀ o ∈ db.assetObservation, isMember ext settings now' db o =
      isMember ext settings now db o) :
    members ext settings now' db' = members ext settings now db := by
  have hfused : maxFused db' = maxFused db := by
    funext id
    rw [maxFused, hpairs, maxFused]
  have hmember : member db' = member db := by
    funext o
    rw [member, hfused, member]
  have hisMember : ∀ o, isMember ext settings now' db' o = isMember ext settings now' db o := by
    intro o
    rw [isMember, hfused, hexplained, isMember]
  rw [members, members, hobs, hmember]
  congr 1
  apply List.filter_congr
  intro o ho
  rw [hisMember, hwindow o ho]

/-- The computed clusters depend on the members at the two times. -/
theorem computedClusters_congr {tick' : ClusterTick} (hlocked : tick'.locked = tick.locked)
    (hstats : members ext settings tick'.statsNow db' = members ext settings tick.statsNow db)
    (hcluster : members ext settings tick'.clusterNow db' =
      members ext settings tick.clusterNow db) :
    computedClusters ext settings tick' db' = computedClusters ext settings tick db := by
  have hmemberStats : memberStats ext settings tick'.statsNow db' =
      memberStats ext settings tick.statsNow db := by
    rw [memberStats, hstats, memberStats]
  have hclusters : ∀ units, clusters ext settings tick'.clusterNow units db' =
      clusters ext settings tick.clusterNow units db := by
    intro units
    rw [clusters, hcluster, clusters]
  rw [computedClusters, computedClusters, hmemberStats, hlocked]
  simp only [hclusters]

theorem computedClusters_nodup {g : ComputedCluster R}
    (hg : g ∈ computedClusters ext settings tick db) : g.memberIds.Nodup := by
  obtain ⟨-, units, hclusters⟩ := clusters_of_computedClusters hg
  obtain ⟨ms, _, hnodup, _, rfl⟩ := exists_members_of_clusters hclusters
  exact ((orderBy_perm Member.clientId ms).map Member.clientId).nodup_iff.mpr hnodup

/-- A negative distance groups nothing. -/
theorem computedClusters_of_neg [IsStrictOrderedRing R]
    (hdbscan : ∀ units minPoints pts, units < 0 →
      ∀ l ∈ ext.stClusterDBSCAN units minPoints pts, l = none)
    (heps : settings.clusterEpsM < 0) : computedClusters ext settings tick db = [] := by
  have hclusters : ∀ now meanLat, clusters ext settings now
      (epsUnits ext settings.clusterEpsM meanLat) db = [] := by
    intro now meanLat
    have hunits : epsUnits ext settings.clusterEpsM meanLat < 0 := by
      have hfloor : (0 : R) < 1 / (1000 * 1000) := by positivity
      exact div_neg_of_neg_of_pos heps (lt_max_of_lt_right hfloor)
    have hgroups : ∀ ms : List (Member R), labelGroups ext
        (epsUnits ext settings.clusterEpsM meanLat) settings.clusterMinPoints ms = [] := by
      intro ms
      have hnone : (ms.zip (ext.stClusterDBSCAN (epsUnits ext settings.clusterEpsM meanLat)
          settings.clusterMinPoints (ms.map Member.geom))).filter (fun x ↦ x.2.isSome) = [] := by
        rw [List.filter_eq_nil_iff]
        intro x hx
        rw [hdbscan _ _ _ hunits x.2 (List.of_mem_zip hx).2]
        simp
      rw [labelGroups, hnone]
      rfl
    rw [clusters, hgroups]
    rfl
  rw [computedClusters]
  split
  · split
    · exact hclusters _ _
    · rfl
  · rfl

end Groups

/-! ### The second run -/

section SecondRun

variable {tick₁ tick₂ : ClusterTick} {taken₁ taken₂ : List (String × ComputedCluster R)}
  {ws₁ ws₂ : List (Write R)}

/-- When the next run computes the same clusters they take the same rows. -/
theorem Written.again (hdist : ∀ p q, 0 ≤ ext.stDistance p q)
    (hzero : ∀ p q, ext.stDistance p q = 0 ↔ p = q) (heps : 0 ≤ settings.clusterEpsM)
    (h₁ : Written ext settings tick₁ db taken₁ ws₁)
    (hnodup : ∀ d ∈ taken₁, d.2.memberIds.Nodup)
    (h₂ : Written ext settings tick₂ db' taken₂ ws₂)
    (hsame : db'.assetCluster = (applyAll ws₁ db).assetCluster)
    (hgroups : taken₂.map Prod.snd = taken₁.map Prod.snd) :
    (taken₂.map Prod.fst).Perm (taken₁.map Prod.fst) ∧
      (∀ id ∈ taken₂.map Prod.fst, db'.assetCluster.HasKey id) ∧
      ((taken₁.map (fun d ↦ d.2.summary.centroid)).Nodup → taken₂ = taken₁) := by
  have hpicks := h₁.picksAtPlace hdist hzero heps hnodup hsame
  set places := taken₁.map (fun d ↦ (d.1, d.2.summary.centroid)) with hplaces
  have hfst : places.map Prod.fst = taken₁.map Prod.fst := by
    rw [hplaces, List.map_map]
    rfl
  have hsnd : places.map Prod.snd = taken₁.map (fun d ↦ d.2.summary.centroid) := by
    rw [hplaces, List.map_map]
    rfl
  have hcentroids : taken₂.map (fun d ↦ d.2.summary.centroid) =
      taken₁.map (fun d ↦ d.2.summary.centroid) := by
    have hmap := congrArg (List.map (fun g : ComputedCluster R ↦ g.summary.centroid)) hgroups
    rwa [List.map_map, List.map_map] at hmap
  have hids : (places.map Prod.fst).Nodup := by
    rw [hfst]
    exact h₁.rebuilt.nodup
  have hclaims : greedy (fun matched x ↦ findExisting ext settings.clusterEpsM matched x db')
      (places.map Prod.snd) =
        (taken₂.map Prod.fst).filter (fun id ↦ db'.assetCluster.HasKey id) := by
    rw [hsnd, ← hcentroids]
    exact h₂.rebuilt.claims
  have hperm := greedy_perm hids hpicks
  rw [hclaims, hfst] at hperm
  have hlength : (taken₂.map Prod.fst).length = (taken₁.map Prod.fst).length := by
    have hcount := congrArg List.length hgroups
    rw [List.length_map, List.length_map] at hcount ⊢
    exact hcount
  have hall := List.length_filter_eq_length_iff.mp (hperm.length_eq.trans hlength.symm)
  have hfilter : (taken₂.map Prod.fst).filter (fun id ↦ db'.assetCluster.HasKey id) =
      taken₂.map Prod.fst := List.filter_eq_self.mpr hall
  rw [hfilter] at hclaims hperm
  refine ⟨hperm, fun id hid ↦ of_decide_eq_true (hall id hid), ?_⟩
  intro hdistinct
  have heq := greedy_eq hids hpicks (hsnd ▸ hdistinct)
  rw [hclaims, hfst] at heq
  rw [List.zip_of_prod heq hgroups, ← List.zip_of_prod rfl rfl]

end SecondRun

variable (ext settings)

/-- The clusters that a run touches, in the order of the computed ones. -/
def touchedClusters (tick : ClusterTick) (db : Database R) : List String :=
  writtenClusters (Prog.logged (clusterRun ext settings tick db).conn.trace)

/-- The computed clusters with the ids that they take. -/
def assignedClusters (tick : ClusterTick) (db : Database R) : List (String × ComputedCluster R) :=
  (touchedClusters ext settings tick db).zip (computedClusters ext settings tick db)

/-- Two runs with nothing but time between them. The second inserts no cluster and touches those
that the first has touched, with the same records; and when the computed centroids are different
every computed cluster keeps its id and the row that it had. -/
theorem clustering_idempotent [IsStrictOrderedRing R] (hdist : ∀ p q, 0 ≤ ext.stDistance p q)
    (hzero : ∀ p q, ext.stDistance p q = 0 ↔ p = q)
    (hdbscan : ∀ units minPoints pts, units < 0 →
      ∀ l ∈ ext.stClusterDBSCAN units minPoints pts, l = none)
    (tick₁ tick₂ : ClusterTick) (db db' : Database R)
    (hlocked₁ : tick₁.locked = true) (hlocked₂ : tick₂.locked = true)
    (hfresh₁ : FreshIds tick₁ db) (hfresh₂ : FreshIds tick₂ db')
    (hbetween : Undisturbed (clusterRun ext settings tick₁ db).conn.store db')
    (hwindow : ∀ o ∈ db.assetObservation,
      isMember ext settings tick₂.statsNow db o = isMember ext settings tick₁.statsNow db o ∧
      isMember ext settings tick₂.clusterNow db o = isMember ext settings tick₁.clusterNow db o) :
    insertedClusters (Prog.logged (clusterRun ext settings tick₂ db').conn.trace) = [] ∧
    (touchedClusters ext settings tick₂ db').Perm (touchedClusters ext settings tick₁ db) ∧
    clusterRecords (clusterRun ext settings tick₂ db').conn.store
        (touchedClusters ext settings tick₂ db') =
      clusterRecords (clusterRun ext settings tick₁ db).conn.store
        (touchedClusters ext settings tick₁ db) ∧
    (((computedClusters ext settings tick₂ db').map (fun g ↦ g.summary.centroid)).Nodup →
      (assignedClusters ext settings tick₂ db').map Prod.snd =
        computedClusters ext settings tick₂ db' ∧
      assignedClusters ext settings tick₂ db' = assignedClusters ext settings tick₁ db ∧
      ∀ d ∈ assignedClusters ext settings tick₂ db',
        ∃ c ∈ (clusterRun ext settings tick₁ db).conn.store.assetCluster,
        ∃ c' ∈ (clusterRun ext settings tick₂ db').conn.store.assetCluster,
          c.clusterId = d.1 ∧ c'.clusterId = d.1 ∧ c'.createdAt = c.createdAt ∧
          summaryOf c = d.2.summary ∧ summaryOf c' = d.2.summary) := by
  obtain ⟨taken₁, hgroups₁, hstore₁, hw₁⟩ := clusterRun_written ext settings tick₁ db hlocked₁
    hfresh₁
  obtain ⟨taken₂, hgroups₂, hstore₂, hw₂⟩ := clusterRun_written ext settings tick₂ db' hlocked₂
    hfresh₂
  obtain ⟨hobs, hpairs, hclusters, hlinks⟩ := hbetween
  rw [hstore₁] at hobs hpairs hclusters hlinks
  have hrebuilt₁ := hw₁.rebuilt
  -- Both runs compute the same clusters.
  have hobs' : db'.assetObservation = db.assetObservation := hobs.trans hrebuilt₁.assetObservation
  have hpairs' : db'.fusionPair = db.fusionPair := hpairs.trans hw₁.fusionPair
  have hexplained : ∀ o, explained ext settings.clusterEpsM db' o =
      explained ext settings.clusterEpsM db o := by
    intro o
    rw [← hrebuilt₁.explained_eq o, explained, hclusters, explained]
  have hcomputed :
      computedClusters ext settings tick₂ db' = computedClusters ext settings tick₁ db :=
    computedClusters_congr (hlocked₂.trans hlocked₁.symm)
      (members_congr hobs' hpairs' hexplained (fun o ho ↦ (hwindow o ho).1))
      (members_congr hobs' hpairs' hexplained (fun o ho ↦ (hwindow o ho).2))
  have hgroups : taken₂.map Prod.snd = taken₁.map Prod.snd := by
    rw [hgroups₂, hgroups₁, hcomputed]
  have hnodup₁ : ∀ d ∈ taken₁, d.2.memberIds.Nodup := fun d hd ↦
    computedClusters_nodup (hgroups₁ ▸ List.mem_map_of_mem hd)
  have hnodup₂ : ∀ d ∈ taken₂, d.2.memberIds.Nodup := fun d hd ↦
    computedClusters_nodup (hgroups₂ ▸ List.mem_map_of_mem hd)
  -- They take the same rows.
  have hagain : (taken₂.map Prod.fst).Perm (taken₁.map Prod.fst) ∧
      (∀ id ∈ taken₂.map Prod.fst, db'.assetCluster.HasKey id) ∧
      ((taken₁.map (fun d ↦ d.2.summary.centroid)).Nodup → taken₂ = taken₁) := by
    by_cases heps : 0 ≤ settings.clusterEpsM
    · exact hw₁.again hdist hzero heps hnodup₁ hw₂ hclusters hgroups
    · have hnil₁ : taken₁ = [] := List.map_eq_nil_iff.mp
        (hgroups₁.trans (computedClusters_of_neg hdbscan (not_le.mp heps)))
      have hnil₂ : taken₂ = [] := List.map_eq_nil_iff.mp
        (hgroups₂.trans (computedClusters_of_neg hdbscan (not_le.mp heps)))
      subst hnil₁ hnil₂
      exact ⟨.refl _, fun _ h ↦ absurd h List.not_mem_nil, fun _ ↦ rfl⟩
  obtain ⟨hperm, hkeys, hsame⟩ := hagain
  have htouched₁ : touchedClusters ext settings tick₁ db = taken₁.map Prod.fst :=
    hw₁.writtenClusters
  have htouched₂ : touchedClusters ext settings tick₂ db' = taken₂.map Prod.fst :=
    hw₂.writtenClusters
  have hassigned₁ : assignedClusters ext settings tick₁ db = taken₁ := by
    rw [assignedClusters, htouched₁]
    exact (List.zip_of_prod rfl hgroups₁).symm
  have hassigned₂ : assignedClusters ext settings tick₂ db' = taken₂ := by
    rw [assignedClusters, htouched₂]
    exact (List.zip_of_prod rfl hgroups₂).symm
  have hupserted₁ := hw₁.upserted hnodup₁
  have hupserted₂ := hw₂.upserted hnodup₂
  rw [htouched₁, htouched₂, hassigned₁, hassigned₂, hstore₁, hstore₂]
  refine ⟨?_, hperm, ?_, ?_⟩
  · rw [List.eq_nil_iff_forall_not_mem]
    intro id hid
    obtain ⟨htaken, hnew⟩ := hw₂.insertedClusters hid
    exact hnew (hkeys id htaken)
  · rw [hupserted₂.clusterRecords, hupserted₁.clusterRecords, hgroups]
  · intro hdistinct
    rw [hcomputed, ← hgroups₁, List.map_map] at hdistinct
    refine ⟨hgroups₂, hsame hdistinct, ?_⟩
    intro d hd
    obtain ⟨c, hc, hid⟩ := Table.hasKey_iff.mp (hkeys d.1 (List.mem_map_of_mem hd))
    obtain ⟨c', hc', hid', hat⟩ := hw₂.createdAt hc
    have hid : c.clusterId = d.1 := hid
    have hd₁ : d ∈ taken₁ := hsame hdistinct ▸ hd
    rw [hclusters] at hc
    exact ⟨c, hc, c', hc', hid, hid'.trans hid, hat, hupserted₁.taken d hd₁ c hc hid,
      hupserted₂.taken d hd c' hc' (hid'.trans hid)⟩

/-- A run some time after the reports, with ids of its own. -/
def potholeTick (runId : String) (later : Int) : ClusterTick :=
  { laneTick runId with
    statsNow := Ingest.reportTime + later
    clusterNow := Ingest.reportTime + later
    newIds := fun k ↦ runId ++ String.ofList (List.replicate k 'x') }

theorem freshIds_potholeTick {runId : String} {later : Int} {db : Database ℚ}
    (hrun : ¬db.clusterRun.HasKey runId)
    (hkeys : ∀ c ∈ db.assetCluster, ¬("clu_" ++ runId).toList <+: c.clusterId.toList) :
    FreshIds (potholeTick runId later) db where
  run := hrun
  injective := by
    intro j k h
    have hchars := congrArg String.toList ((String.append_right_inj _).mp h)
    rw [String.toList_ofList, String.toList_ofList] at hchars
    simpa using congrArg List.length hchars
  clusters := by
    intro k hkey
    obtain ⟨c, hc, hid⟩ := Table.hasKey_iff.mp hkey
    have hid : c.clusterId = "clu_" ++ (runId ++ String.ofList (List.replicate k 'x')) := hid
    refine hkeys c hc ⟨(String.ofList (List.replicate k 'x')).toList, ?_⟩
    rw [hid, ← String.toList_append, String.append_assoc]

/-- Two potholes and two clusters at the place of the first, of which a run leaves one behind. -/
def stalePotholes : Database ℚ :=
  let db := (onePothole ++ detected "p" 5 ++ detected "q" 5 ++ detected "r" 5).foldl
    (Event.next Externals.planar (Settings.default ℚ)) Database.empty
  let summary : ClusterSummary ℚ := ⟨⟨0, onLane 0⟩, 1, 1, 3, 1, Ingest.reportTime⟩
  (db.write (.insertCluster (newCluster "clu_b" summary Ingest.reportTime))).write
    (.insertCluster (newCluster "clu_a" summary Ingest.reportTime))

/-- The state between the two runs. -/
def clusteredPotholes : Database ℚ :=
  (clusterRun Externals.planar (Settings.default ℚ) (potholeTick "first" 0)
    stalePotholes).conn.store

/-- The second run, a minute later, takes `clu_a` again, and not `clu_b`. -/
theorem clustering_idempotent_stalePotholes :
    touchedClusters Externals.planar (Settings.default ℚ) (potholeTick "first" 0) stalePotholes =
      ["clu_a", "clu_firstx"] ∧
    (touchedClusters Externals.planar (Settings.default ℚ) (potholeTick "second" 60000000)
      clusteredPotholes).Perm
        (touchedClusters Externals.planar (Settings.default ℚ) (potholeTick "first" 0)
          stalePotholes) := by
  have hfresh₁ : FreshIds (potholeTick "first" 0) stalePotholes :=
    freshIds_potholeTick (by decide +kernel) (by
      change ∀ c ∈ stalePotholes.assetCluster.rows, _
      decide +kernel)
  have hfresh₂ : FreshIds (potholeTick "second" 60000000) clusteredPotholes :=
    freshIds_potholeTick (by decide +kernel) (by
      change ∀ c ∈ clusteredPotholes.assetCluster.rows, _
      decide +kernel)
  refine ⟨by decide +kernel, (clustering_idempotent Externals.planar (Settings.default ℚ)
    (planarDistance_nonneg (by norm_num) (by norm_num))
    (fun _ _ ↦ planarDistance_eq_zero (by norm_num) (by norm_num))
    (fun _ minPoints pts hunits ↦ stClusterDBSCAN_planar_of_neg hunits minPoints pts)
    (potholeTick "first" 0) (potholeTick "second" 60000000) stalePotholes clusteredPotholes rfl rfl
    hfresh₁ hfresh₂ ⟨rfl, rfl, rfl, rfl⟩ ?_).2.1⟩
  change ∀ o ∈ stalePotholes.assetObservation.rows, _
  decide +kernel

end PotholeServer.Cluster
