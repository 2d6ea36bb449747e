import Mathlib.Algebra.BigOperators.Group.List.Basic
import PotholeServer.Cluster.History
import PotholeServer.Fusion.Pairing

/-!
# Clusters and their links

The aggregate columns of a cluster are those of its links and of the observations that they name.
Both come from one group of members: what other jobs do keeps the links, the aggregates and the
device and time of every observation, and what a run does gives each taken cluster the aggregates
and the links of its group.
-/

namespace PotholeServer.Cluster

open Sql Db Fusion

variable {R : Type}

/-- The aggregate columns of a cluster. -/
def summaryOf (c : AssetCluster R) : ClusterSummary R where
  centroid := c.centroid
  severity := c.severity
  confidence := c.confidence
  observationCount := c.observationCount
  distinctDevices := c.distinctDevices
  lastSeen := c.lastSeen

/-- The links of a cluster. -/
def linksOf (db : Database R) (clusterId : String) : List (ObservationClusterLink R) :=
  db.observationClusterLink.rows.filter (fun l ↦ l.clusterId = clusterId)

/-- The observations linked to a cluster. -/
def linkedObservations (db : Database R) (clusterId : String) : List (AssetObservation R) :=
  db.assetObservation.rows.filter (fun o ↦ linked db o.clientId clusterId)

theorem mem_linksOf {db : Database R} {clusterId : String} {l : ObservationClusterLink R} :
    l ∈ linksOf db clusterId ↔ l ∈ db.observationClusterLink ∧ l.clusterId = clusterId := by
  rw [linksOf, List.mem_filter, decide_eq_true_eq]
  rfl

theorem linksOf_nodup (db : Database R) (clusterId : String) : (linksOf db clusterId).Nodup :=
  db.observationClusterLink.rows_nodup.filter _

/-! ### The links of a rebuilt cluster -/

section Rebuild

variable {id : String} {v : Database R}

/-- A link with a new key is added at the end. -/
theorem linksOf_write_insertLink {m : String × R}
    (hfree : ¬v.observationClusterLink.HasKey (id, m.1, .observation)) :
    linksOf (v.write (.insertLink (newLink id m))) id = linksOf v id ++ [newLink id m] := by
  have hkey : ¬v.observationClusterLink.HasKey (key (newLink id m)) := hfree
  have hrows : (v.write (.insertLink (newLink id m))).observationClusterLink.rows =
      v.observationClusterLink.rows ++ [newLink id m] := by
    change (v.observationClusterLink.upsert _ _ _).rows = _
    rw [Table.upsert_of_not_hasKey hkey, Table.rows_insertNew hkey]
  rw [linksOf, hrows, List.filter_append]
  simp [linksOf, newLink]

/-- Links with different new keys are added in order. -/
theorem linksOf_insertLinks {ms : List (String × R)} (hnodup : (ms.map Prod.fst).Nodup)
    (hfree : ∀ m ∈ ms, ¬v.observationClusterLink.HasKey (id, m.1, .observation)) :
    linksOf (applyAll (ms.map (fun m ↦ Write.insertLink (newLink id m))) v) id =
      linksOf v id ++ ms.map (newLink id) := by
  induction ms generalizing v with
  | nil => simp
  | cons m ms ih =>
    rw [List.map_cons, List.nodup_cons] at hnodup
    have hfirst := hfree m (List.mem_cons_self ..)
    rw [List.map_cons, applyAll_cons, ih hnodup.2, apply_write, linksOf_write_insertLink hfirst,
      List.append_assoc]
    · rfl
    · intro m' hm' hkey
      rcases Table.hasKey_upsert.mp hkey with hkey | hkey
      · exact hfree m' (List.mem_cons_of_mem _ hm') hkey
      · have hid : m'.1 = m.1 := congrArg (fun k ↦ k.2.1) hkey
        exact hnodup.1 (hid ▸ List.mem_map_of_mem hm')

/-- After the rebuild the links of the cluster are those of the group. -/
theorem linksOf_linkWrites {c : ComputedCluster R} (hnodup : c.memberIds.Nodup) :
    linksOf (applyAll (linkWrites id c) v) id =
      (c.memberIds.zip c.memberConfidences).map (newLink id) := by
  have hempty : linksOf (v.write (.deleteLinks id)) id = [] := by
    rw [List.eq_nil_iff_forall_not_mem]
    intro l hl
    obtain ⟨hmem, hid⟩ := mem_linksOf.mp hl
    simp [Database.write, hid] at hmem
  rw [linkWrites, applyAll_cons, apply_write, linksOf_insertLinks, hempty, List.nil_append]
  · rw [List.map_fst_zip (Nat.le_of_eq c.sameLength)]
    exact hnodup
  · intro m _ hkey
    obtain ⟨l, hl, hk⟩ := Table.hasKey_iff.mp hkey
    have hmem : l ∈ linksOf (v.write (.deleteLinks id)) id :=
      mem_linksOf.mpr ⟨hl, congrArg Prod.fst hk⟩
    rw [hempty] at hmem
    cases hmem

end Rebuild

/-! ### Other jobs -/

/-- The effect is one of the statements of `run_cluster_job`. -/
def ofClusters : Write R → Bool
  | .insertClusterRun _ | .updateCluster .. | .insertCluster _ | .deleteLinks _ | .insertLink _
  | .updateClusterRun .. => true
  | _ => false

/-- What others commit: a row effect of an upload, a scoring or a fusion tick, or a repair. -/
inductive Other (R : Type) where
  | effect (w : Write R) (h : ofClusters w = false)
  | repaired (clusterId : String) (time : DateTime)

/-- The state after it. -/
def Other.apply : Other R → Database R → Database R
  | .effect w _, db => db.write w
  | .repaired clusterId time, db => markRepaired clusterId time db

instance : Effect (Other R) (Database R) := ⟨Other.apply⟩

/-- From one database to a later one only others have committed. -/
structure Elsewhere (s s' : Database R) : Prop where
  observationKept : ∀ o ∈ s.assetObservation, ∃ o' ∈ s'.assetObservation, SameReport o o'
  hasKey : ∀ k, s'.assetCluster.HasKey k ↔ s.assetCluster.HasKey k
  cluster : ∀ c' ∈ s'.assetCluster, ∃ c ∈ s.assetCluster, c'.clusterId = c.clusterId ∧
    summaryOf c' = summaryOf c
  links : s'.observationClusterLink = s.observationClusterLink

section Elsewhere

variable {s s' s'' : Database R}

theorem Elsewhere.refl (s : Database R) : Elsewhere s s where
  observationKept := fun o ho ↦ ⟨o, ho, .refl o⟩
  hasKey := fun _ ↦ Iff.rfl
  cluster := fun c hc ↦ ⟨c, hc, rfl, rfl⟩
  links := rfl

theorem Elsewhere.trans (h : Elsewhere s s') (h' : Elsewhere s' s'') : Elsewhere s s'' where
  observationKept := by
    intro o ho
    obtain ⟨o', ho', hsame⟩ := h.observationKept o ho
    obtain ⟨o'', ho'', hsame'⟩ := h'.observationKept o' ho'
    exact ⟨o'', ho'', hsame.trans hsame'⟩
  hasKey := fun k ↦ (h'.hasKey k).trans (h.hasKey k)
  cluster := by
    intro c'' hc''
    obtain ⟨c', hc', hid', hsummary'⟩ := h'.cluster c'' hc''
    obtain ⟨c, hc, hid, hsummary⟩ := h.cluster c' hc'
    exact ⟨c, hc, hid'.trans hid, hsummary'.trans hsummary⟩
  links := h'.links.trans h.links

theorem elsewhere_write {w : Write R} (hw : ofClusters w = false) (s : Database R) :
    Elsewhere s (s.write w) := by
  have hrest : ∀ t : Database R, t.assetCluster = s.assetCluster →
      t.observationClusterLink = s.observationClusterLink →
      (∀ o ∈ s.assetObservation, ∃ o' ∈ t.assetObservation, SameReport o o') →
      Elsewhere s t := by
    intro t hcluster hlinks hobs
    refine ⟨hobs, fun k ↦ by rw [hcluster], ?_, hlinks⟩
    intro c hc
    exact ⟨c, hcluster ▸ hc, rfl, rfl⟩
  cases w with
  | insertObservation row =>
    exact hrest _ rfl rfl (fun o ho ↦ ⟨o, Table.mem_insertNew_of_mem _ ho, .refl o⟩)
  | updateScored clientId scores now =>
    refine hrest _ rfl rfl ?_
    intro o ho
    have hmem := Table.mem_update_of_mem (p := fun r ↦ r.clientId = clientId)
      (f := AssetObservation.setScores scores now) (fun _ ↦ rfl) ho
    refine ⟨_, hmem, ?_⟩
    split
    · exact ⟨rfl, rfl, rfl, rfl⟩
    · exact .refl o
  | insertFrame | insertRun | upsertPair | markProcessed | updateRun =>
    exact hrest _ rfl rfl (fun o ho ↦ ⟨o, ho, .refl o⟩)
  | _ => cases hw

theorem elsewhere_markRepaired (clusterId : String) (time : DateTime) (s : Database R) :
    Elsewhere s (markRepaired clusterId time s) := by
  refine ⟨fun o ho ↦ ⟨o, ho, .refl o⟩, ?_, ?_, rfl⟩
  · intro k
    exact Table.hasKey_update (t := s.assetCluster) (p := fun c ↦ c.clusterId = clusterId)
      (f := fun c ↦ { c with repairedAt := some time }) (fun _ ↦ rfl)
  · intro c hc
    obtain ⟨u, hu, rfl⟩ := mem_markRepaired.mp hc
    refine ⟨u, hu, ?_⟩
    split <;> exact ⟨rfl, rfl⟩

theorem elsewhere_apply (u : Other R) (s : Database R) : Elsewhere s (Effect.apply u s) := by
  cases u with
  | effect w h => exact elsewhere_write h s
  | repaired clusterId time => exact elsewhere_markRepaired clusterId time s

/-- What arrives leaves clusters and links to the clustering job. -/
class Aside (R : Type) (U : Type) [Effect U (Database R)] : Prop where
  elsewhere : ∀ (u : U) (s : Database R), Elsewhere s (Effect.apply u s)

instance : Aside R (Other R) := ⟨elsewhere_apply⟩

theorem elsewhere_of_arrived {U : Type} [Effect U (Database R)] [Aside R U]
    (h : Arrived U s s') : Elsewhere s s' := by
  refine h.invariant (I := Elsewhere s) ?_ (Elsewhere.refl s)
  intro u t ht
  exact ht.trans (Aside.elsewhere u t)

theorem elsewhere_applyAll {ws : List (Write R)} (hws : ∀ w ∈ ws, ofClusters w = false)
    (s : Database R) : Elsewhere s (applyAll ws s) := by
  induction ws generalizing s with
  | nil => exact .refl s
  | cons w ws ih =>
    exact (elsewhere_write (hws w (List.mem_cons_self ..)) s).trans
      (ih (fun w' hw' ↦ hws w' (List.mem_cons_of_mem _ hw')) _)

end Elsewhere

/-! ### Aggregates -/

variable [Field R] [LinearOrder R]

/-- The aggregates of a cluster are those of its links and of the linked observations. -/
structure Agrees (db : Database R) (c : AssetCluster R) : Prop where
  observationCount : c.observationCount = (linksOf db c.clusterId).length
  distinctDevices : c.distinctDevices =
    ((linkedObservations db c.clusterId).map AssetObservation.deviceId).dedup.length
  lastSeen : ((linkedObservations db c.clusterId).map AssetObservation.tsUtc).max? =
    some c.lastSeen
  confidence : avg ((linksOf db c.clusterId).map ObservationClusterLink.fusedConfidence) =
    some c.confidence

/-- The member is a row of the observation. -/
structure OfReport (o : AssetObservation R) (m : Member R) : Prop where
  clientId : o.clientId = m.clientId
  deviceId : o.deviceId = m.deviceId
  tsUtc : o.tsUtc = m.tsUtc
  geom : o.geom = m.geom

/-- The aggregates and the links of a cluster come from these members. -/
structure Backed (db : Database R) (c : AssetCluster R) (ms : List (Member R)) : Prop where
  nonempty : ms ≠ []
  observed : ∀ m ∈ ms, ∃ o ∈ db.assetObservation, OfReport o m
  links : (linksOf db c.clusterId).Perm
    (ms.map (fun m ↦ newLink c.clusterId (m.clientId, m.confidence)))
  summary : summaryOf c = (computedCluster ms).summary

omit [LinearOrder R] in
/-- The mean does not depend on the order. -/
theorem avg_perm {xs ys : List R} (h : xs.Perm ys) : avg xs = avg ys := by
  rw [avg, avg, h.sum_eq, h.length_eq, h.isEmpty_eq]

section Backed

variable {db : Database R} {c : AssetCluster R} {ms : List (Member R)}

omit [Field R] [LinearOrder R] in
/-- The columns of a report never change. -/
theorem OfReport.later {o o' : AssetObservation R} {m : Member R} (h : OfReport o m)
    (hsame : SameReport o o') : OfReport o' m :=
  ⟨hsame.clientId.trans h.clientId, hsame.deviceId.trans h.deviceId, hsame.tsUtc.trans h.tsUtc,
    hsame.geom.trans h.geom⟩

theorem Backed.linked_iff (h : Backed db c ms) {id : String} :
    linked db id c.clusterId = true ↔ ∃ m ∈ ms, m.clientId = id := by
  rw [Cluster.linked_iff]
  constructor
  · rintro ⟨l, hl, hid, rfl, _⟩
    obtain ⟨m, hm, rfl⟩ := List.mem_map.mp (h.links.mem_iff.mp (mem_linksOf.mpr ⟨hl, hid⟩))
    exact ⟨m, hm, rfl⟩
  · rintro ⟨m, hm, rfl⟩
    have hmem := h.links.mem_iff.mpr (List.mem_map_of_mem hm)
    exact ⟨_, (mem_linksOf.mp hmem).1, rfl, rfl, rfl⟩

/-- The linked observations have the devices, times and places of the members, and no others. -/
theorem Backed.mem_map_iff {β : Type} (h : Backed db c ms) {f : AssetObservation R → β}
    {g : Member R → β} (hfg : ∀ o m, OfReport o m → f o = g m) {x : β} :
    x ∈ (linkedObservations db c.clusterId).map f ↔ x ∈ ms.map g := by
  simp only [List.mem_map]
  constructor
  · rintro ⟨o, ho, rfl⟩
    obtain ⟨hmem, hlinked⟩ := List.mem_filter.mp ho
    obtain ⟨m, hm, hid⟩ := h.linked_iff.mp hlinked
    obtain ⟨o', ho', hreport⟩ := h.observed m hm
    have hsame : o' = o := Table.eq_of_key ho' hmem (hreport.clientId.trans hid)
    subst hsame
    exact ⟨m, hm, (hfg o' m hreport).symm⟩
  · rintro ⟨m, hm, rfl⟩
    obtain ⟨o, ho, hreport⟩ := h.observed m hm
    have hlinked := h.linked_iff.mpr ⟨m, hm, hreport.clientId.symm⟩
    exact ⟨o, List.mem_filter.mpr ⟨ho, hlinked⟩, hfg o m hreport⟩

/-- Others change nothing of this. -/
theorem Backed.elsewhere {db' : Database R} {c' : AssetCluster R} (h : Backed db c ms)
    (hs : Elsewhere db db') (hid : c'.clusterId = c.clusterId)
    (hsummary : summaryOf c' = summaryOf c) : Backed db' c' ms where
  nonempty := h.nonempty
  observed := by
    intro m hm
    obtain ⟨o, ho, hreport⟩ := h.observed m hm
    obtain ⟨o', ho', hsame⟩ := hs.observationKept o ho
    exact ⟨o', ho', hreport.later hsame⟩
  links := by
    rw [linksOf, hs.links, hid]
    exact h.links
  summary := hsummary.trans h.summary

/-- A cluster that comes from a group of members agrees with its links. -/
theorem Backed.agrees (h : Backed db c ms) : Agrees db c where
  observationCount := by
    rw [h.links.length_eq, List.length_map]
    exact congrArg ClusterSummary.observationCount h.summary
  distinctDevices := by
    have hsame : ((linkedObservations db c.clusterId).map AssetObservation.deviceId).dedup.Perm
        (ms.map Member.deviceId).dedup := by
      rw [List.perm_ext_iff_of_nodup (List.nodup_dedup _) (List.nodup_dedup _)]
      intro x
      rw [List.mem_dedup, List.mem_dedup]
      exact h.mem_map_iff (fun _ _ hreport ↦ hreport.deviceId)
    rw [hsame.length_eq]
    exact congrArg ClusterSummary.distinctDevices h.summary
  lastSeen := by
    have hsome : (ms.map Member.tsUtc).max? = some c.lastSeen := by
      have hlast : c.lastSeen = ((ms.map Member.tsUtc).max?).getD 0 :=
        congrArg ClusterSummary.lastSeen h.summary
      cases hmax : (ms.map Member.tsUtc).max? with
      | none => exact absurd (List.map_eq_nil_iff.mp (List.max?_eq_none_iff.mp hmax)) h.nonempty
      | some t => rw [hlast, hmax, Option.getD_some]
    have hmem : ∀ t, t ∈ (linkedObservations db c.clusterId).map AssetObservation.tsUtc ↔
        t ∈ ms.map Member.tsUtc := fun t ↦ h.mem_map_iff (fun _ _ hreport ↦ hreport.tsUtc)
    rw [List.max?_eq_some_iff] at hsome ⊢
    exact ⟨(hmem _).mpr hsome.1, fun t ht ↦ hsome.2 t ((hmem t).mp ht)⟩
  confidence := by
    have hperm : ((linksOf db c.clusterId).map ObservationClusterLink.fusedConfidence).Perm
        (ms.map Member.confidence) := by
      have hmap := h.links.map ObservationClusterLink.fusedConfidence
      rwa [List.map_map] at hmap
    have hne : ms.map Member.confidence ≠ [] := fun hnil ↦
      h.nonempty (List.map_eq_nil_iff.mp hnil)
    have hmean : avg (ms.map Member.confidence) = some c.confidence := by
      have hconfidence : c.confidence = (avg (ms.map Member.confidence)).getD 0 :=
        congrArg ClusterSummary.confidence h.summary
      rw [hconfidence, avg, if_neg (by simpa using hne), Option.getD_some]
    rw [avg_perm hperm]
    exact hmean

end Backed

/-! ### What a run writes -/

/-- The row effect by which a group takes a cluster, on a state that has it or not. -/
inductive Upserts (now : DateTime) (v : Database R) (c : ComputedCluster R) :
    String → List (Write R) → Prop where
  | update {id : String} (hkey : v.assetCluster.HasKey id) :
    Upserts now v c id [.updateCluster id c.summary now]
  | insert {id : String} (hfree : ¬v.assetCluster.HasKey id) :
    Upserts now v c id [.insertCluster (newCluster id c.summary now)]

/-- Relates the state before the effects of a transaction to the one after them, when the groups
`done` have taken their clusters. -/
structure Upserted (s : Database R) (done : List (String × ComputedCluster R))
    (v : Database R) : Prop where
  assetObservation : v.assetObservation = s.assetObservation
  hasKey : ∀ k, v.assetCluster.HasKey k ↔ s.assetCluster.HasKey k ∨ k ∈ done.map Prod.fst
  nodup : (done.map Prod.fst).Nodup
  others : ∀ c ∈ v.assetCluster, c.clusterId ∉ done.map Prod.fst → c ∈ s.assetCluster
  taken : ∀ d ∈ done, ∀ c ∈ v.assetCluster, c.clusterId = d.1 → summaryOf c = d.2.summary
  otherLinks : ∀ l, l.clusterId ∉ done.map Prod.fst →
    (l ∈ v.observationClusterLink ↔ l ∈ s.observationClusterLink)
  links : ∀ d ∈ done, (linksOf v d.1).Perm
    ((d.2.memberIds.zip d.2.memberConfidences).map (newLink d.1))

section Upserted

omit [Field R] [LinearOrder R]

variable {now : DateTime} {s v : Database R} {done : List (String × ComputedCluster R)}
  {c : ComputedCluster R} {id : String} {ws : List (Write R)}

theorem Upserts.frame (h : Upserts now v c id ws) :
    (applyAll ws v).assetObservation = v.assetObservation ∧
      (applyAll ws v).observationClusterLink = v.observationClusterLink := by
  cases h with
  | update => exact ⟨rfl, rfl⟩
  | insert => exact ⟨rfl, rfl⟩

theorem Upserts.hasKey (h : Upserts now v c id ws) {k : String} :
    (applyAll ws v).assetCluster.HasKey k ↔ v.assetCluster.HasKey k ∨ k = id := by
  cases h with
  | update hkey =>
    have hupdate := Table.hasKey_update (t := v.assetCluster) (k := k)
      (p := fun c ↦ c.clusterId = id) (f := fun r ↦ r.setSummary c.summary now) (fun _ ↦ rfl)
    refine hupdate.trans ?_
    constructor
    · exact .inl
    · rintro (hk | rfl)
      · exact hk
      · exact hkey
  | insert => exact Table.hasKey_insertNew

/-- The row of the taken cluster has the aggregates of the group; the others stay. -/
theorem Upserts.mem (h : Upserts now v c id ws) {r : AssetCluster R}
    (hr : r ∈ (applyAll ws v).assetCluster) :
    (r ∈ v.assetCluster ∧ r.clusterId ≠ id) ∨ (r.clusterId = id ∧ summaryOf r = c.summary) := by
  cases h with
  | update =>
    obtain ⟨u, hu, rfl⟩ := List.mem_map.mp hr
    by_cases hid : u.clusterId = id
    · rw [if_pos (decide_eq_true hid)]
      exact .inr ⟨hid, rfl⟩
    · rw [if_neg (by simpa using hid)]
      exact .inl ⟨hu, hid⟩
  | insert hfree =>
    rcases Table.mem_insertNew.mp hr with hold | ⟨rfl, _⟩
    · refine .inl ⟨hold, ?_⟩
      intro heq
      exact hfree (heq ▸ Table.hasKey_of_mem hold)
    · exact .inr ⟨rfl, rfl⟩

/-- Two states with the same links of a cluster. -/
theorem linksOf_perm {v w : Database R} (h : ∀ l, l.clusterId = id →
    (l ∈ v.observationClusterLink ↔ l ∈ w.observationClusterLink)) :
    (linksOf v id).Perm (linksOf w id) := by
  rw [List.perm_ext_iff_of_nodup (linksOf_nodup v id) (linksOf_nodup w id)]
  intro l
  rw [mem_linksOf, mem_linksOf]
  exact and_congr_left (h l)

/-- One group more. -/
theorem Upserted.step (h : Upserted s done v) (hout : id ∉ done.map Prod.fst)
    (hrow : Upserts now v c id ws) (hnodup : c.memberIds.Nodup) :
    Upserted s (done ++ [(id, c)]) (applyAll (linkWrites id c) (applyAll ws v)) := by
  have hids : (done ++ [(id, c)]).map Prod.fst = done.map Prod.fst ++ [id] := by simp
  obtain ⟨hcluster, hobservation⟩ := linkWrites_frame id c (applyAll ws v)
  have hne : ∀ d ∈ done, d.1 ≠ id := fun d hd heq ↦ hout (heq ▸ List.mem_map_of_mem hd)
  refine ⟨?_, ?_, ?_, ?_, ?_, ?_, ?_⟩
  · rw [hobservation, hrow.frame.1, h.assetObservation]
  · intro k
    rw [hcluster, hrow.hasKey, h.hasKey, hids, List.mem_append, List.mem_singleton, or_assoc]
  · rw [hids, ← List.concat_eq_append]
    exact h.nodup.concat hout
  · intro r hr hid
    rw [hids, List.mem_append, List.mem_singleton, not_or] at hid
    rcases hrow.mem (hcluster ▸ hr) with ⟨hr, _⟩ | ⟨heq, _⟩
    · exact h.others r hr hid.1
    · exact absurd heq hid.2
  · intro d hd r hr hid
    rcases List.mem_append.mp hd with hd | hd
    · rcases hrow.mem (hcluster ▸ hr) with ⟨hr, _⟩ | ⟨heq, _⟩
      · exact h.taken d hd r hr hid
      · exact absurd (hid.symm.trans heq) (hne d hd)
    · cases List.mem_singleton.mp hd
      rcases hrow.mem (hcluster ▸ hr) with ⟨_, hother⟩ | ⟨_, hsummary⟩
      · exact absurd hid hother
      · exact hsummary
  · intro l hl
    rw [hids, List.mem_append, List.mem_singleton, not_or] at hl
    rw [mem_linkWrites_of_ne hl.2, hrow.frame.2]
    exact h.otherLinks l hl.1
  · intro d hd
    rcases List.mem_append.mp hd with hd | hd
    · refine (linksOf_perm ?_).trans (h.links d hd)
      intro l hl
      rw [mem_linkWrites_of_ne (hl ▸ hne d hd), hrow.frame.2]
    · cases List.mem_singleton.mp hd
      exact .of_eq (linksOf_linkWrites hnodup)

/-- Before the first group. -/
theorem Upserted.start (s : Database R) (runs : Table (ClusterRun R)) :
    Upserted s [] { s with clusterRun := runs } where
  assetObservation := rfl
  hasKey := fun _ ↦ ⟨.inl, fun h ↦ h.resolve_right List.not_mem_nil⟩
  nodup := List.nodup_nil
  others := fun _ h _ ↦ h
  taken := fun _ h ↦ absurd h List.not_mem_nil
  otherLinks := fun _ _ ↦ Iff.rfl
  links := fun _ h ↦ absurd h List.not_mem_nil

theorem Upserted.withRuns (h : Upserted s done v) (runs : Table (ClusterRun R)) :
    Upserted s done { v with clusterRun := runs } where
  assetObservation := h.assetObservation
  hasKey := h.hasKey
  nodup := h.nodup
  others := h.others
  taken := h.taken
  otherLinks := h.otherLinks
  links := h.links

end Upserted

end PotholeServer.Cluster
