import PotholeServer.Cluster.History
import PotholeServer.Planar

/-!
# Repaired defects

A run leaves out observations near a repaired cluster, whichever cluster they were linked to.
Members of a cluster that is longer than `cluster_eps_m` can lie further than that from its
centroid: a repair does not exclude them. When every repair covers the observations linked to
the cluster, none of them is linked again.
-/

namespace PotholeServer.Cluster

open Sql Db Ingest

variable {R : Type}

/-! ### What a run links -/

/-- The observation that an effect links. -/
def linkedBy : Write R → Option String
  | .insertLink row => some row.memberId
  | _ => none

/-- The effects of a trace entry. -/
def effectsOf : Entry (Database R) (Write R) Statement → List (Write R)
  | .stmt _ _ ws => ws
  | .commit _ => []

/-- The observations that a run has linked: those of its statements, if it did not fail. -/
def linkedInRun {U α : Type} (out : Outcome (Database R) (Write R) Statement U α) : List String :=
  match out.result with
  | .ok _ => (out.conn.trace.flatMap effectsOf).filterMap linkedBy
  | .error _ => []

theorem mem_of_linkedInRun {U α : Type} {out : Outcome (Database R) (Write R) Statement U α}
    {ids : List String} (h : StmtsIn (LinksOnly ids) out.conn.trace) {o : String}
    (ho : o ∈ linkedInRun out) : o ∈ ids := by
  rw [linkedInRun] at ho
  split at ho
  · obtain ⟨w, hw, hlinked⟩ := List.mem_filterMap.mp ho
    obtain ⟨entry, hentry, hmem⟩ := List.mem_flatMap.mp hw
    cases entry with
    | commit => cases hmem
    | stmt l v ws =>
      cases w with
      | insertLink row =>
        cases hlinked
        exact h l v ws hentry row hmem
      | _ => cases hlinked
  · cases ho

/-! ### Histories with their repaired observations -/

/-- A state, and the observations that were linked to a cluster when it was marked repaired. -/
structure RepairState (R : Type) where
  db : Database R
  repairedMembers : List String

/-- The repair of the cluster is about the observation: it is linked to it, and not newer. -/
def concerns (clusterId : String) (time : DateTime) (db : Database R) (o : AssetObservation R) :
    Bool :=
  db.assetCluster.HasKey clusterId ∧ linked db o.clientId clusterId = true ∧ o.tsUtc ≤ time

variable [Field R] [LinearOrder R] (ext : Externals R) (settings : Settings R)

/-- A step, with the observations that it repairs. -/
def RepairState.next (s : RepairState R) (e : Event R) : RepairState R where
  db := e.next ext settings s.db
  repairedMembers := match e with
    | .repaired clusterId time => s.repairedMembers ++
        (s.db.assetObservation.rows.filter (concerns clusterId time s.db)).map
          AssetObservation.clientId
    | _ => s.repairedMembers

/-- The condition on a step: a repair explains every observation that it is about, and leaves none
unexplained that was explained before it. -/
def Explains (s : RepairState R) : Event R → Prop
  | .repaired clusterId time => ∀ o ∈ s.db.assetObservation,
      concerns clusterId time s.db o = true ∨ explained ext settings.clusterEpsM s.db o = true →
        explained ext settings.clusterEpsM (markRepaired clusterId time s.db) o = true
  | _ => True

/-- The observation of that id is explained. -/
def ExplainedId (db : Database R) (id : String) : Prop :=
  ∃ o ∈ db.assetObservation, o.clientId = id ∧ explained ext settings.clusterEpsM db o = true

variable {ext settings} {db db' : Database R} {id : String}

omit [Field R] in
theorem explained_iff {epsM : R} {o : AssetObservation R} : explained ext epsM db o = true ↔
    ∃ c ∈ db.assetCluster, explainedBy ext epsM o c = true := by
  rw [explained, List.any_eq_true]
  rfl

omit [Field R] in
/-- An observation stays explained by the repaired clusters that stay. -/
theorem explained_of_kept {epsM : R} {o o' : AssetObservation R}
    (hkept : ∀ c ∈ db.assetCluster, c.repairedAt ≠ none → c ∈ db'.assetCluster)
    (hts : o'.tsUtc = o.tsUtc) (hgeom : o'.geom = o.geom)
    (h : explained ext epsM db o = true) : explained ext epsM db' o' = true := by
  obtain ⟨c, hc, hby⟩ := explained_iff.mp h
  have hrepaired : c.repairedAt ≠ none := by
    intro hnone
    simp [explainedBy, hnone] at hby
  refine explained_iff.mpr ⟨c, hkept c hc hrepaired, ?_⟩
  rw [explainedBy, hts, hgeom]
  exact hby

omit [Field R] in
/-- A run moves no repaired cluster. -/
theorem Rebuilt.kept_repaired {taken : List (String × ComputedCluster R)}
    (h : Rebuilt ext settings db taken db') {c : AssetCluster R} (hc : c ∈ db.assetCluster)
    (hrepaired : c.repairedAt ≠ none) : c ∈ db'.assetCluster := by
  have hout : c.clusterId ∉ taken.map Prod.fst :=
    fun hmem ↦ hrepaired (h.unrepaired c hc hmem)
  have hother : c ∈ Cluster.others (taken.map Prod.fst) db'.assetCluster := by
    rw [h.others]
    exact mem_others.mpr ⟨hc, hout⟩
  exact (mem_others.mp hother).1

/-- Explained observations stay explained in every step but a repair. -/
theorem ExplainedId.next (h : ExplainedId ext settings db id) (e : Event R)
    (he : ∀ clusterId time, e ≠ .repaired clusterId time) :
    ExplainedId ext settings (e.next ext settings db) id := by
  obtain ⟨o, ho, hid, hexplained⟩ := h
  cases e with
  | uploaded u =>
    cases u with
    | event =>
      exact ⟨o, Table.mem_insertNew_of_mem _ ho, hid,
        explained_of_kept (fun _ hc _ ↦ hc) rfl rfl hexplained⟩
    | frame => exact ⟨o, ho, hid, explained_of_kept (fun _ hc _ ↦ hc) rfl rfl hexplained⟩
  | scored clientId scores now =>
    have hmem := Table.mem_update_of_mem (p := fun o ↦ o.clientId = clientId)
      (f := fun o : AssetObservation R ↦ o.setScores scores now) (fun _ ↦ rfl) ho
    refine ⟨_, hmem, ?_, explained_of_kept (fun _ hc _ ↦ hc) ?_ ?_ hexplained⟩
    · split
      · exact hid
      · exact hid
    · split
      · rfl
      · rfl
    · split
      · rfl
      · rfl
  | paired p => exact ⟨o, ho, hid, explained_of_kept (fun _ hc _ ↦ hc) rfl rfl hexplained⟩
  | repaired clusterId time => exact absurd rfl (he clusterId time)
  | clustered tick =>
    rcases (clusterRun_result ext settings tick db).1 with heq | ⟨taken, _, hrebuilt⟩
    · refine ⟨o, ?_, hid, ?_⟩
      · show o ∈ (clusterRun ext settings tick db).conn.store.assetObservation
        rw [heq]
        exact ho
      · show explained ext settings.clusterEpsM (clusterRun ext settings tick db).conn.store o = _
        rw [heq]
        exact hexplained
    · refine ⟨o, ?_, hid, explained_of_kept (fun _ ↦ hrebuilt.kept_repaired) rfl rfl hexplained⟩
      show o ∈ (clusterRun ext settings tick db).conn.store.assetObservation
      rw [hrebuilt.assetObservation]
      exact ho

/-- Every repaired observation is explained. -/
def MembersExplained (ext : Externals R) (settings : Settings R) (s : RepairState R) : Prop :=
  ∀ id ∈ s.repairedMembers, ExplainedId ext settings s.db id

theorem MembersExplained.next {s : RepairState R} (h : MembersExplained ext settings s)
    (e : Event R) (hok : Explains ext settings s e) :
    MembersExplained ext settings (s.next ext settings e) := by
  intro id hid
  by_cases he : ∃ clusterId time, e = .repaired clusterId time
  · obtain ⟨clusterId, time, rfl⟩ := he
    rcases List.mem_append.mp hid with hid | hid
    · obtain ⟨o, ho, hoid, hexplained⟩ := h id hid
      exact ⟨o, ho, hoid, hok o ho (.inr hexplained)⟩
    · obtain ⟨o, ho, hoid⟩ := List.mem_map.mp hid
      have hmem := List.mem_filter.mp ho
      exact ⟨o, hmem.1, hoid, hok o hmem.1 (.inl hmem.2)⟩
  · have hplain : ∀ clusterId time, e ≠ .repaired clusterId time := fun clusterId time heq ↦
      he ⟨clusterId, time, heq⟩
    have hsame : (s.next ext settings e).repairedMembers = s.repairedMembers := by
      cases e with
      | repaired clusterId time => exact absurd rfl (hplain clusterId time)
      | _ => rfl
    rw [hsame] at hid
    exact (h id hid).next e hplain

/-! ### Runs -/

/-- An explained observation is in no computed cluster. -/
theorem not_mem_clusteredIds (h : ExplainedId ext settings db id) (tick : ClusterTick) :
    id ∉ clusteredIds ext settings tick db := by
  intro hid
  obtain ⟨c, hc, hmem⟩ := List.mem_flatMap.mp hid
  obtain ⟨o, ho, hoid, hexplained⟩ := h
  obtain ⟨-, units, hclusters⟩ := clusters_of_computedClusters hc
  obtain ⟨m, hm, hmid⟩ := exists_member_of_clusters hclusters hmem
  obtain ⟨o', ho', hisMember, rfl⟩ := mem_members.mp hm
  have hsame : o' = o := Table.eq_of_key ho' ho (hmid.trans hoid.symm)
  have hnot := not_explained_of_isMember hisMember
  rw [hsame, hexplained] at hnot
  cases hnot

variable (ext settings)

/-- In a history whose repairs explain the observations that they are about, no run links an
observation that was linked to a cluster when this was marked repaired and is not newer. -/
theorem no_resurrection (init : Database R) (s : RepairState R)
    (h : Reaches (fun s e ↦ some (RepairState.next ext settings s e)) (Explains ext settings)
      ⟨init, []⟩ s) (tick : ClusterTick) :
    ∀ o ∈ s.repairedMembers, o ∉ linkedInRun (clusterRun ext settings tick s.db) := by
  have hexplained : MembersExplained ext settings s := by
    apply h.invariant (MembersExplained ext settings)
    · exact fun _ hid ↦ absurd hid List.not_mem_nil
    · intro s e s' hs hok hstep
      cases hstep
      exact hs.next e hok
  intro o ho hlinked
  have hmem := mem_of_linkedInRun (clusterRun_result ext settings tick s.db).2 hlinked
  exact not_mem_clusteredIds (hexplained o ho) tick hmem

/-- A cluster of one pothole is repaired: none of its three detections is linked again. -/
theorem no_resurrection_onePothole : ∃ s : RepairState ℚ, s.repairedMembers = ["a", "b", "c"] ∧
    ∀ o ∈ s.repairedMembers, o ∉ linkedInRun
      (clusterRun Externals.planar (Settings.default ℚ) (laneTick "second") s.db) := by
  have hstart : Reaches (fun s e ↦ some
      (RepairState.next Externals.planar (Settings.default ℚ) s e))
      (Explains Externals.planar (Settings.default ℚ)) ⟨Database.empty, []⟩
      ⟨Database.empty, []⟩ := .start
  have hdetected := hstart.foldl onePothole
    (forall_onePothole (fun _ _ ↦ trivial) (fun _ _ _ _ ↦ trivial))
  have hclustered := hdetected.next (Event.clustered (laneTick "first")) True.intro rfl
  have hrepaired := hclustered.next (.repaired "clu_first0" (reportTime + 120000000)) (by
    unfold Explains
    decide +kernel) rfl
  exact ⟨_, by decide +kernel, no_resurrection Externals.planar (Settings.default ℚ)
    Database.empty _ hrepaired (laneTick "second")⟩

/-- A pothole and the detections along the lane are clustered together, and repaired: the ends of
the cluster are 30 m from its centroid. -/
def longCluster : List (Event ℚ) :=
  onePothole ++ alongLane ++ [.clustered (laneTick "first"),
    .repaired "clu_first0" (reportTime + 120000000)]

/-- The state after its repair. -/
def afterLongCluster : RepairState ℚ :=
  longCluster.foldl (RepairState.next Externals.planar (Settings.default ℚ)) ⟨Database.empty, []⟩

/-- After the repair of the long cluster the next run links its ends again. -/
theorem long_cluster_resurrected : ¬∀ s : RepairState ℚ,
    Reaches (fun s e ↦ some (RepairState.next Externals.planar (Settings.default ℚ) s e))
      (fun _ _ ↦ True) ⟨Database.empty, []⟩ s → ∀ tick, ∀ o ∈ s.repairedMembers,
        o ∉ linkedInRun (clusterRun Externals.planar (Settings.default ℚ) tick s.db) := by
  intro h
  have hnone := h _ (Reaches.start.foldl longCluster (fun _ _ _ ↦ trivial)) (laneTick "second")
  have hlinked : ∃ o ∈ afterLongCluster.repairedMembers, o ∈ linkedInRun
      (clusterRun Externals.planar (Settings.default ℚ) (laneTick "second")
        afterLongCluster.db) := by
    decide +kernel
  obtain ⟨o, ho, hmem⟩ := hlinked
  exact hnone o ho hmem

end PotholeServer.Cluster
