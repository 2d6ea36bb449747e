import PotholeServer.Cluster.Groups

/-!
# Rebuilding clusters and links

What the loop over the groups preserves. Every group takes one cluster, new or existing; the
other clusters and their links stay as they were before the run, so the existing clusters that
the groups take are those that their centroids claim in turn from the state before it.
-/

namespace PotholeServer.Cluster

open Sql Db

variable {R : Type}

/-! ### The rows of other clusters -/

/-- The clusters whose id is not in the list. -/
def others (ids : List String) (t : Table (AssetCluster R)) : List (AssetCluster R) :=
  t.rows.filter (fun c ↦ c.clusterId ∉ ids)

section Others

variable {ids : List String} {id : String} {t : Table (AssetCluster R)}

theorem mem_others {c : AssetCluster R} : c ∈ others ids t ↔ c ∈ t ∧ c.clusterId ∉ ids := by
  rw [others, List.mem_filter, decide_eq_true_eq]
  rfl

theorem others_concat :
    others (ids ++ [id]) t = (others ids t).filter (fun c ↦ c.clusterId ≠ id) := by
  rw [others, others, List.filter_filter]
  apply List.filter_congr
  intro c _
  simp [not_or, and_comm]

theorem others_update {f : AssetCluster R → AssetCluster R} (hf : ∀ c, key (f c) = key c)
    (hid : id ∈ ids) : others ids (t.update (fun c ↦ c.clusterId = id) f hf) = others ids t := by
  have hkey : ∀ c, (if decide (c.clusterId = id) then f c else c).clusterId = c.clusterId := by
    intro c
    split
    · exact hf c
    · rfl
  have hpred : ((fun c : AssetCluster R ↦ decide (c.clusterId ∉ ids)) ∘
      fun c ↦ if decide (c.clusterId = id) then f c else c) =
        fun c ↦ decide (c.clusterId ∉ ids) := by
    funext c
    show decide ((if decide (c.clusterId = id) then f c else c).clusterId ∉ ids) = _
    rw [hkey]
  rw [others, others, Table.rows_update, List.filter_map, hpred]
  have hself : ∀ c ∈ t.rows.filter (fun c ↦ c.clusterId ∉ ids),
      (if decide (c.clusterId = id) then f c else c) = c := by
    intro c hc
    have hout : c.clusterId ∉ ids := by simpa using (List.mem_filter.mp hc).2
    rw [if_neg]
    simpa using fun h : c.clusterId = id ↦ hout (h ▸ hid)
  rw [List.map_congr_left hself, List.map_id']

theorem others_insertNew {c : AssetCluster R} (hid : c.clusterId ∈ ids) :
    others ids (t.insertNew c) = others ids t := by
  by_cases h : t.HasKey (key c)
  · rw [Table.insertNew_of_hasKey h]
  · rw [others, Table.rows_insertNew h, List.filter_append]
    simp [others, hid]

end Others

/-! ### The links of a cluster -/

/-- The effects that rebuild the links of a cluster. -/
def linkWrites (id : String) (c : ComputedCluster R) : List (Write R) :=
  .deleteLinks id :: (c.memberIds.zip c.memberConfidences).map (fun m ↦ .insertLink (newLink id m))

section Links

variable {id : String} {l : ObservationClusterLink R} {v : Database R}

/-- A link is there after an upsert of another one if it was, up to its confidence. -/
theorem mem_write_insertLink {row : ObservationClusterLink R}
    (h : l ∈ (v.write (.insertLink row)).observationClusterLink) :
    l ∈ v.observationClusterLink ∨ key l = key row := by
  rcases Table.mem_upsert.mp h with ⟨hl, _⟩ | ⟨u, _, hk, rfl⟩ | ⟨rfl, _⟩
  · exact .inl hl
  · exact .inr hk
  · exact .inr rfl

theorem mem_write_insertLink_of_ne {row : ObservationClusterLink R}
    (hne : l.clusterId ≠ row.clusterId) :
    l ∈ (v.write (.insertLink row)).observationClusterLink ↔ l ∈ v.observationClusterLink := by
  have hkey : ∀ u : ObservationClusterLink R, key u = key row → u.clusterId = row.clusterId :=
    fun u hu ↦ congrArg Prod.fst hu
  constructor
  · intro h
    exact (mem_write_insertLink h).resolve_right (fun hk ↦ hne (hkey l hk))
  · intro h
    exact Table.mem_upsert.mpr (.inl ⟨h, fun hk ↦ hne (hkey l hk)⟩)

theorem mem_insertLinks_of_ne {ms : List (String × R)} (hne : l.clusterId ≠ id) :
    l ∈ (applyAll (ms.map (fun m ↦ Write.insertLink (newLink id m))) v).observationClusterLink ↔
      l ∈ v.observationClusterLink := by
  induction ms generalizing v with
  | nil => rfl
  | cons m ms ih =>
    rw [List.map_cons, applyAll_cons, ih]
    exact mem_write_insertLink_of_ne hne

/-- The links of a cluster after inserts into it: an old one, or one of a member. -/
theorem mem_insertLinks {ms : List (String × R)}
    (h : l ∈ (applyAll (ms.map (fun m ↦ Write.insertLink (newLink id m)))
      v).observationClusterLink) :
    l ∈ v.observationClusterLink ∨ l.memberId ∈ ms.map Prod.fst := by
  induction ms generalizing v with
  | nil => exact .inl h
  | cons m ms ih =>
    rw [List.map_cons, applyAll_cons] at h
    rcases ih h with h | h
    · rcases mem_write_insertLink h with h | h
      · exact .inl h
      · have hid : l.memberId = m.1 := congrArg (fun k ↦ k.2.1) h
        rw [hid]
        exact .inr (List.mem_cons_self ..)
    · exact .inr (List.mem_cons_of_mem _ h)

theorem mem_linkWrites_of_ne {c : ComputedCluster R} (hne : l.clusterId ≠ id) :
    l ∈ (applyAll (linkWrites id c) v).observationClusterLink ↔ l ∈ v.observationClusterLink := by
  rw [linkWrites, applyAll_cons, mem_insertLinks_of_ne hne]
  simp [Database.write, hne]

/-- After the rebuild a cluster is linked to members of its group only. -/
theorem memberId_of_mem_linkWrites {c : ComputedCluster R}
    (h : l ∈ (applyAll (linkWrites id c) v).observationClusterLink) (hid : l.clusterId = id) :
    l.memberId ∈ c.memberIds := by
  rw [linkWrites, applyAll_cons] at h
  rcases mem_insertLinks h with h | h
  · simp [Database.write, hid] at h
  · obtain ⟨m, hm, hfst⟩ := List.mem_map.mp h
    rw [← hfst]
    exact (List.of_mem_zip hm).1

theorem hasKey_insertLinks {ms : List (String × R)} {k : String × String × LinkKind} :
    (applyAll (ms.map (fun m ↦ Write.insertLink (newLink id m)))
        v).observationClusterLink.HasKey k ↔
      v.observationClusterLink.HasKey k ∨ ∃ m ∈ ms, k = (id, m.1, .observation) := by
  induction ms generalizing v with
  | nil => simp
  | cons m ms ih =>
    have hupsert : (v.write (.insertLink (newLink id m))).observationClusterLink.HasKey k ↔
        v.observationClusterLink.HasKey k ∨ k = (id, m.1, .observation) := Table.hasKey_upsert
    rw [List.map_cons, applyAll_cons, ih, apply_write, hupsert, or_assoc, List.exists_mem_cons_iff]

/-- After the rebuild a cluster is linked to every member of its group. -/
theorem hasKey_linkWrites {c : ComputedCluster R} {o : String} (ho : o ∈ c.memberIds) :
    (applyAll (linkWrites id c) v).observationClusterLink.HasKey (id, o, .observation) := by
  have hzip : o ∈ (c.memberIds.zip c.memberConfidences).map Prod.fst := by
    rw [List.map_fst_zip (Nat.le_of_eq c.sameLength)]
    exact ho
  obtain ⟨m, hm, rfl⟩ := List.mem_map.mp hzip
  rw [linkWrites, applyAll_cons, hasKey_insertLinks]
  exact .inr ⟨m, hm, rfl⟩

theorem linkWrites_frame (id : String) (c : ComputedCluster R) (v : Database R) :
    (applyAll (linkWrites id c) v).assetCluster = v.assetCluster ∧
      (applyAll (linkWrites id c) v).assetObservation = v.assetObservation := by
  rw [linkWrites, applyAll_cons]
  generalize c.memberIds.zip c.memberConfidences = ms
  have hdelete : (v.write (.deleteLinks id)).assetCluster = v.assetCluster ∧
      (v.write (.deleteLinks id)).assetObservation = v.assetObservation := ⟨rfl, rfl⟩
  rw [apply_write, ← hdelete.1, ← hdelete.2]
  generalize v.write (.deleteLinks id) = w
  induction ms generalizing w with
  | nil => exact ⟨rfl, rfl⟩
  | cons m ms ih => exact ih (w.write (.insertLink (newLink id m)))

end Links

/-! ### Claims -/

variable [LinearOrder R] (ext : Externals R) (epsM : R)

/-- The next centroid claims the nearest cluster of `db` that is not claimed yet. -/
def claim (db : Database R) (claimed : List String) (centroid : Point R) : List String :=
  claimed ++ (findExisting ext epsM claimed centroid db).toList

/-- The clusters of `db` that centroids claim in turn. -/
def claims (db : Database R) (centroids : List (Point R)) : List String :=
  centroids.foldl (claim ext epsM db) []

theorem claims_concat (db : Database R) (centroids : List (Point R)) (centroid : Point R) :
    claims ext epsM db (centroids ++ [centroid]) =
      claim ext epsM db (claims ext epsM db centroids) centroid := by
  rw [claims, List.foldl_append]
  rfl

/-- Only the ids of clusters of the state matter for a claim. -/
theorem findExisting_filter (db : Database R) (matched : List String) (centroid : Point R) :
    findExisting ext epsM (matched.filter (fun id ↦ db.assetCluster.HasKey id)) centroid db =
      findExisting ext epsM matched centroid db := by
  apply findExisting_congr
  rw [matchable, matchable]
  apply List.filter_congr
  intro c hc
  have hkey : db.assetCluster.HasKey c.clusterId := Table.hasKey_of_mem hc
  simp [hkey]

/-- States with the same other clusters offer the same ones. -/
theorem findExisting_of_others {db v : Database R} {matched : List String} (centroid : Point R)
    (h : others matched v.assetCluster = others matched db.assetCluster) :
    findExisting ext epsM matched centroid v = findExisting ext epsM matched centroid db := by
  have hothers : ∀ w : Database R, matchable ext epsM matched centroid w =
      (others matched w.assetCluster).filter (fun c ↦ c.repairedAt = none ∧
        ext.stDistance c.centroid centroid ≤ epsM) := by
    intro w
    rw [matchable, others, List.filter_filter]
    apply List.filter_congr
    intro c _
    simp [Bool.and_comm, Bool.and_left_comm]
  apply findExisting_congr
  rw [hothers, hothers, h]

/-! ### The loop -/

variable (settings : Settings R)

/-- What a group finds on a view when it takes the cluster `id`, and the effects on that row. -/
inductive Assigns (now : DateTime) (v : Database R) (matched : List String)
    (c : ComputedCluster R) : String → List (Write R) → Prop where
  | existing {id : String}
    (h : findExisting ext settings.clusterEpsM matched c.summary.centroid v = some id) :
    Assigns now v matched c id [.updateCluster id c.summary now]
  | new {id : String}
    (h : findExisting ext settings.clusterEpsM matched c.summary.centroid v = none)
    (hfree : ¬v.assetCluster.HasKey id) :
    Assigns now v matched c id [.insertCluster (newCluster id c.summary now)]

/-- Relates the state before a run to a view of its transaction, after the groups `done` have
taken their clusters. -/
structure Rebuilt (db : Database R) (done : List (String × ComputedCluster R)) (v : Database R) :
    Prop where
  assetObservation : v.assetObservation = db.assetObservation
  others : others (done.map Prod.fst) v.assetCluster = others (done.map Prod.fst) db.assetCluster
  kept : ∀ id, db.assetCluster.HasKey id → v.assetCluster.HasKey id
  present : ∀ id ∈ done.map Prod.fst, v.assetCluster.HasKey id
  nodup : (done.map Prod.fst).Nodup
  unrepaired : ∀ c ∈ db.assetCluster, c.clusterId ∈ done.map Prod.fst → c.repairedAt = none
  claims : claims ext settings.clusterEpsM db (done.map (fun d ↦ d.2.summary.centroid)) =
    (done.map Prod.fst).filter (fun id ↦ db.assetCluster.HasKey id)
  otherLinks : ∀ l, l.clusterId ∉ done.map Prod.fst →
    (l ∈ v.observationClusterLink ↔ l ∈ db.observationClusterLink)
  links : ∀ l ∈ v.observationClusterLink, l.clusterId ∈ done.map Prod.fst →
    ∃ c, (l.clusterId, c) ∈ done ∧ l.memberId ∈ c.memberIds
  allLinked : ∀ d ∈ done, ∀ o ∈ d.2.memberIds,
    v.observationClusterLink.HasKey (d.1, o, .observation)
  allLive : ∀ id ∈ done.map Prod.fst, ∃ c ∈ v.assetCluster, c.clusterId = id ∧ c.repairedAt = none

variable {ext settings} {now : DateTime} {db v : Database R} {matched : List String}
  {done : List (String × ComputedCluster R)} {c : ComputedCluster R} {id : String}
  {ws : List (Write R)}

/-- Taking a cluster touches its row only. -/
theorem Assigns.frame (h : Assigns ext settings now v matched c id ws) :
    (applyAll ws v).assetObservation = v.assetObservation ∧
      (applyAll ws v).observationClusterLink = v.observationClusterLink := by
  cases h with
  | existing => exact ⟨rfl, rfl⟩
  | new => exact ⟨rfl, rfl⟩

theorem Assigns.others (h : Assigns ext settings now v matched c id ws) {ids : List String}
    (hid : id ∈ ids) : others ids (applyAll ws v).assetCluster = others ids v.assetCluster := by
  cases h with
  | existing =>
    exact others_update (f := fun r ↦ r.setSummary c.summary now) (fun _ ↦ rfl) hid
  | new => exact others_insertNew hid

theorem Assigns.hasKey (h : Assigns ext settings now v matched c id ws) {k : String} :
    (applyAll ws v).assetCluster.HasKey k ↔ v.assetCluster.HasKey k ∨ k = id := by
  cases h with
  | existing h =>
    obtain ⟨r, hr, rfl, _⟩ := exists_of_findExisting h
    have hrow : v.assetCluster.HasKey r.clusterId := Table.hasKey_of_mem hr
    have hupdate := Table.hasKey_update (t := v.assetCluster) (k := k)
      (p := fun c ↦ c.clusterId = r.clusterId) (f := fun r ↦ r.setSummary c.summary now)
      (fun _ ↦ rfl)
    constructor
    · intro hk
      exact .inl (hupdate.mp hk)
    · rintro (hk | rfl)
      · exact hupdate.mpr hk
      · exact hupdate.mpr hrow
  | new => exact Table.hasKey_insertNew

/-- No row is lost, repaired or taken out of repair when a group takes a cluster. -/
theorem Assigns.kept (h : Assigns ext settings now v matched c id ws) {r : AssetCluster R}
    (hr : r ∈ v.assetCluster) : ∃ r' ∈ (applyAll ws v).assetCluster,
      r'.clusterId = r.clusterId ∧ r'.repairedAt = r.repairedAt ∧ r'.createdAt = r.createdAt := by
  cases h with
  | existing h =>
    have hmem := Table.mem_update_of_mem (p := fun r ↦ r.clusterId = id)
      (f := fun r ↦ r.setSummary c.summary now) (fun _ ↦ rfl) hr
    refine ⟨_, hmem, ?_⟩
    split
    · exact ⟨rfl, rfl, rfl⟩
    · exact ⟨rfl, rfl, rfl⟩
  | new => exact ⟨r, Table.mem_insertNew_of_mem _ hr, rfl, rfl, rfl⟩

/-- The taken cluster is live. -/
theorem Assigns.live (h : Assigns ext settings now v matched c id ws) :
    ∃ r ∈ (applyAll ws v).assetCluster, r.clusterId = id ∧ r.repairedAt = none := by
  have hkeeps : ∀ r ∈ v.assetCluster, ∃ r' ∈ (applyAll ws v).assetCluster,
      r'.clusterId = r.clusterId ∧ r'.repairedAt = r.repairedAt ∧ r'.createdAt = r.createdAt :=
    fun _ hr ↦ h.kept hr
  cases h with
  | existing hfind =>
    obtain ⟨r, hr, hid, hnone, _⟩ := exists_of_findExisting hfind
    obtain ⟨r', hr', hid', hsame, _⟩ := hkeeps r hr
    exact ⟨r', hr', hid'.trans hid, hsame.trans hnone⟩
  | new _ hfree => exact ⟨_, Table.mem_insertNew.mpr (.inr ⟨rfl, hfree⟩), rfl, rfl⟩

/-- The taken cluster is new to the groups before it. -/
theorem Rebuilt.not_mem (h : Rebuilt ext settings db done v)
    (ha : Assigns ext settings now v (done.map Prod.fst) c id ws) : id ∉ done.map Prod.fst := by
  cases ha with
  | existing hfind =>
    obtain ⟨_, _, _, _, hout⟩ := exists_of_findExisting hfind
    exact hout
  | new _ hfree => exact fun hid ↦ hfree (h.present id hid)

/-- The taken cluster is not one that was repaired before the run. -/
theorem Rebuilt.unrepaired_taken (h : Rebuilt ext settings db done v)
    (ha : Assigns ext settings now v (done.map Prod.fst) c id ws) {r : AssetCluster R}
    (hr : r ∈ db.assetCluster) (hid : r.clusterId = id) : r.repairedAt = none := by
  cases ha with
  | existing hfind =>
    obtain ⟨u, hu, huid, hlive, hout⟩ := exists_of_findExisting hfind
    have hother : u ∈ Cluster.others (done.map Prod.fst) db.assetCluster := by
      rw [← h.others]
      exact mem_others.mpr ⟨hu, huid ▸ hout⟩
    have hsame : r = u := Table.eq_of_key hr (mem_others.mp hother).1 (hid.trans huid.symm)
    rw [hsame]
    exact hlive
  | new _ hfree => exact absurd (h.kept id (hid ▸ Table.hasKey_of_mem hr)) hfree

/-- The claims go on with the taken cluster, unless it is a new one. -/
theorem Rebuilt.claim_taken (h : Rebuilt ext settings db done v)
    (ha : Assigns ext settings now v (done.map Prod.fst) c id ws) :
    Cluster.claims ext settings.clusterEpsM db
        ((done ++ [(id, c)]).map (fun d ↦ d.2.summary.centroid)) =
      ((done ++ [(id, c)]).map Prod.fst).filter (fun id ↦ db.assetCluster.HasKey id) := by
  rw [List.map_append, List.map_append, List.filter_append, List.map_singleton, List.map_singleton,
    claims_concat, h.claims, claim, findExisting_filter, ← findExisting_of_others ext _ _ h.others]
  congr 1
  cases ha with
  | existing hfind =>
    obtain ⟨u, hu, huid, _, hout⟩ := exists_of_findExisting hfind
    have hother : u ∈ Cluster.others (done.map Prod.fst) db.assetCluster := by
      rw [← h.others]
      exact mem_others.mpr ⟨hu, huid ▸ hout⟩
    have hkey : db.assetCluster.HasKey id := huid ▸ Table.hasKey_of_mem (mem_others.mp hother).1
    simp [hfind, hkey]
  | new hfind hfree =>
    have hkey : ¬db.assetCluster.HasKey id := fun hk ↦ hfree (h.kept id hk)
    simp [hfind, hkey]

/-- One group more. -/
theorem Rebuilt.step (h : Rebuilt ext settings db done v)
    (ha : Assigns ext settings now v (done.map Prod.fst) c id ws) :
    Rebuilt ext settings db (done ++ [(id, c)]) (applyAll (linkWrites id c) (applyAll ws v)) := by
  have hids : (done ++ [(id, c)]).map Prod.fst = done.map Prod.fst ++ [id] := by simp
  obtain ⟨hcluster, hobservation⟩ := linkWrites_frame id c (applyAll ws v)
  refine ⟨?_, ?_, ?_, ?_, ?_, ?_, h.claim_taken ha, ?_, ?_, ?_, ?_⟩
  · rw [hobservation, ha.frame.1, h.assetObservation]
  · rw [hids, hcluster, ha.others (by simp), others_concat, others_concat, h.others]
  · intro k hk
    rw [hcluster, ha.hasKey]
    exact .inl (h.kept k hk)
  · intro k hk
    rw [hcluster, ha.hasKey]
    rw [hids, List.mem_append, List.mem_singleton] at hk
    exact hk.imp_left (h.present k)
  · rw [hids, ← List.concat_eq_append]
    exact h.nodup.concat (h.not_mem ha)
  · intro r hr hid
    rw [hids, List.mem_append, List.mem_singleton] at hid
    rcases hid with hid | hid
    · exact h.unrepaired r hr hid
    · exact h.unrepaired_taken ha hr hid
  · intro l hl
    rw [hids, List.mem_append, List.mem_singleton, not_or] at hl
    rw [mem_linkWrites_of_ne hl.2, ha.frame.2]
    exact h.otherLinks l hl.1
  · intro l hl hid
    by_cases hnew : l.clusterId = id
    · exact ⟨c, by simp [hnew], memberId_of_mem_linkWrites hl hnew⟩
    · rw [hids, List.mem_append, List.mem_singleton] at hid
      rw [mem_linkWrites_of_ne hnew, ha.frame.2] at hl
      obtain ⟨d, hd, hm⟩ := h.links l hl (hid.resolve_right hnew)
      exact ⟨d, List.mem_append_left _ hd, hm⟩
  · intro d hd o ho
    rcases List.mem_append.mp hd with hd | hd
    · have hne : d.1 ≠ id := fun heq ↦ h.not_mem ha (heq ▸ List.mem_map_of_mem hd)
      obtain ⟨l, hl, hkey⟩ := Table.hasKey_iff.mp (h.allLinked d hd o ho)
      have hlid : l.clusterId ≠ id := fun heq ↦ hne ((congrArg Prod.fst hkey).symm.trans heq)
      apply Table.hasKey_iff.mpr ⟨l, ?_, hkey⟩
      rw [mem_linkWrites_of_ne hlid, ha.frame.2]
      exact hl
    · cases List.mem_singleton.mp hd
      exact hasKey_linkWrites ho
  · intro k hk
    rw [hcluster]
    rw [hids, List.mem_append, List.mem_singleton] at hk
    rcases hk with hk | rfl
    · obtain ⟨r, hr, hrid, hnone⟩ := h.allLive k hk
      obtain ⟨r', hr', hid', hsame, _⟩ := ha.kept hr
      exact ⟨r', hr', hid'.trans hrid, hsame.trans hnone⟩
    · exact ha.live

/-- Before the first group. -/
theorem Rebuilt.start (db : Database R) (runs : Table (ClusterRun R)) :
    Rebuilt ext settings db [] { db with clusterRun := runs } where
  assetObservation := rfl
  others := rfl
  kept := fun _ h ↦ h
  present := fun _ h ↦ absurd h List.not_mem_nil
  nodup := List.nodup_nil
  unrepaired := fun _ _ h ↦ absurd h List.not_mem_nil
  claims := rfl
  otherLinks := fun _ _ ↦ Iff.rfl
  links := fun _ _ h ↦ absurd h List.not_mem_nil
  allLinked := fun _ h ↦ absurd h List.not_mem_nil
  allLive := fun _ h ↦ absurd h List.not_mem_nil

/-- The audit row is not part of what the groups rebuild. -/
theorem Rebuilt.withRuns (h : Rebuilt ext settings db done v) (runs : Table (ClusterRun R)) :
    Rebuilt ext settings db done { v with clusterRun := runs } where
  assetObservation := h.assetObservation
  others := h.others
  kept := h.kept
  present := h.present
  nodup := h.nodup
  unrepaired := h.unrepaired
  claims := h.claims
  otherLinks := h.otherLinks
  links := h.links
  allLinked := h.allLinked
  allLive := h.allLive

end PotholeServer.Cluster
