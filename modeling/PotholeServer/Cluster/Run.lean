import PotholeServer.Cluster.Rebuild
import PotholeServer.Sql.Effects

/-!
# One run of the clustering job

A run that nothing interrupts leaves the database as it was, or gives every computed cluster a
row and its links; with fresh ids it always does the second. Whatever it writes on the way, it
links members of computed clusters only.
-/

namespace PotholeServer.Cluster

open Sql Db

variable {R : Type} [Field R] [LinearOrder R] (ext : Externals R) (settings : Settings R)
  (tick : ClusterTick)

/-- The clusters that a run computes and writes. -/
def computedClusters (db : Database R) : List (ComputedCluster R) :=
  let stats := memberStats ext settings tick.statsNow db
  if tick.locked ∧ settings.clusterMinPoints ≤ stats.n then
    match stats.meanLat with
    | some meanLat =>
      clusters ext settings tick.clusterNow (epsUnits ext settings.clusterEpsM meanLat) db
    | none => []
  else []

variable {ext settings tick} in
/-- A computed cluster is a group of the second query of a run that has the lock. -/
theorem clusters_of_computedClusters {db : Database R} {g : ComputedCluster R}
    (hg : g ∈ computedClusters ext settings tick db) :
    tick.locked = true ∧ ∃ units, g ∈ clusters ext settings tick.clusterNow units db := by
  rw [computedClusters] at hg
  split at hg
  next hgate =>
    split at hg
    · exact ⟨hgate.1, _, hg⟩
    · cases hg
  · cases hg

/-- A run that nothing interrupts. -/
def clusterRun (db : Database R) : Outcome (Database R) (Write R) Statement Empty Nat :=
  (runClusterJob ext settings tick).run quiet (.fresh db)

omit [Field R] [LinearOrder R] in
/-- A statement inserts links of these observations only. -/
def LinksOnly (ids : List String) (_ : Statement) (ws : List (Write R)) : Prop :=
  ∀ row, .insertLink row ∈ ws → row.memberId ∈ ids

/-- Nobody else commits. -/
abbrev alone : Nat → List Empty := fun _ ↦ []

section Statements

variable {ids : List String} {l : Statement}

omit [Field R] [LinearOrder R] in
theorem linksOnly_nil : LinksOnly (R := R) ids l [] := fun _ h ↦ absurd h List.not_mem_nil

omit [Field R] [LinearOrder R] in
/-- A statement whose one effect is no link. -/
theorem linksOnly_singleton {w : Write R} (hw : ∀ row, w ≠ .insertLink row) :
    LinksOnly ids l [w] := by
  intro row hrow
  exact absurd (List.mem_singleton.mp hrow).symm (hw row)

end Statements

/-! ### What the transaction collects -/

section Collects

omit [Field R] [LinearOrder R] in
/-- The cluster whose row an effect writes. -/
def writtenCluster : Write R → Option String
  | .updateCluster id _ _ => some id
  | .insertCluster row => some row.clusterId
  | _ => none

omit [Field R] [LinearOrder R] in
/-- The clusters whose rows the effects write, in order. -/
def writtenClusters (ws : List (Write R)) : List String := ws.filterMap writtenCluster

omit [Field R] [LinearOrder R] in
theorem writtenClusters_append (ws ws' : List (Write R)) :
    writtenClusters (ws ++ ws') = writtenClusters ws ++ writtenClusters ws' :=
  List.filterMap_append

/-- The ids that a run draws are new. -/
structure FreshIds (db : Database R) : Prop where
  run : ¬db.clusterRun.HasKey tick.runId
  injective : Function.Injective tick.newIds
  clusters : ∀ k, ¬db.assetCluster.HasKey ("clu_" ++ tick.newIds k)

/-- What the transaction has collected on `db` when the groups `done` have taken their clusters. -/
inductive Collects (db : Database R) :
    List (String × ComputedCluster R) → List (Write R) → Prop where
  | start (row : ClusterRun R) : Collects db [] [.insertClusterRun row]
  | step {done : List (String × ComputedCluster R)} {p ws : List (Write R)} {id : String}
    {c : ComputedCluster R} (h : Collects db done p)
    (ha : Assigns ext settings tick.now (applyAll p db) (done.map Prod.fst) c id ws)
    (hid : (applyAll p db).assetCluster.HasKey id ∨ id = "clu_" ++ tick.newIds done.length) :
    Collects db (done ++ [(id, c)]) (p ++ ws ++ linkWrites id c)

variable {ext settings tick} {db : Database R} {done : List (String × ComputedCluster R)}
  {p : List (Write R)}

omit [Field R] in
theorem Collects.rebuilt (h : Collects ext settings tick db done p) :
    Rebuilt ext settings db done (applyAll p db) := by
  induction h with
  | start row => exact .start db _
  | step _ ha _ ih =>
    rw [applyAll_append, applyAll_append]
    exact ih.step ha

omit [Field R] in
/-- The clusters of a view are old or have a new id. -/
theorem Collects.hasKey (h : Collects ext settings tick db done p) {id : String}
    (hid : (applyAll p db).assetCluster.HasKey id) :
    db.assetCluster.HasKey id ∨ ∃ j < done.length, id = "clu_" ++ tick.newIds j := by
  induction h with
  | start row => exact .inl hid
  | @step done p ws id' c _ ha hnew ih =>
    have hlater : (∃ j < done.length, id = "clu_" ++ tick.newIds j) →
        ∃ j < (done ++ [(id', c)]).length, id = "clu_" ++ tick.newIds j := by
      rintro ⟨j, hj, heq⟩
      refine ⟨j, ?_, heq⟩
      rw [List.length_append]
      omega
    rw [applyAll_append, applyAll_append, (linkWrites_frame _ _ _).1, ha.hasKey] at hid
    rcases hid with hid | rfl
    · exact (ih hid).imp_right hlater
    · rcases hnew with hold | heq
      · exact (ih hold).imp_right hlater
      · refine .inr ⟨done.length, ?_, heq⟩
        rw [List.length_append]
        exact Nat.lt_succ_self _

omit [Field R] in
/-- The next fresh id is not taken. -/
theorem FreshIds.not_hasKey (hfresh : FreshIds tick db)
    (h : Collects ext settings tick db done p) :
    ¬(applyAll p db).assetCluster.HasKey ("clu_" ++ tick.newIds done.length) := by
  intro hkey
  rcases h.hasKey hkey with hold | ⟨j, hj, heq⟩
  · exact hfresh.clusters _ hold
  · have hsame := hfresh.injective ((String.append_right_inj _).mp heq)
    omega

end Collects

/-! ### The loop -/

section Loop

variable {ids : List String} {db s : Database R}

omit [Field R] [LinearOrder R] in
theorem runs_insertLinks (clusterId : String) {ms : List (String × R)} (hms : ∀ m ∈ ms, m.1 ∈ ids)
    (n : Nat) (p : List (Write R)) :
    ∃ n', Runs (LinksOnly ids) alone (insertLinks clusterId ms) n s (.active p) (.ok ()) n' s
      (.active (p ++ ms.map (fun m ↦ .insertLink (newLink clusterId m)))) := by
  induction ms generalizing n p with
  | nil =>
    refine ⟨n, ?_⟩
    rw [List.map_nil, List.append_nil]
    exact runs_ret _
  | cons m ms ih =>
    have hlink : LinksOnly ids .insertLink [.insertLink (newLink clusterId m)] := by
      intro row hrow
      cases List.mem_singleton.mp hrow
      exact hms m (List.mem_cons_self ..)
    obtain ⟨n', hrun⟩ := ih (fun m' hm' ↦ hms m' (List.mem_cons_of_mem _ hm')) (n + 1)
      (p ++ [.insertLink (newLink clusterId m)])
    rw [List.append_assoc, List.singleton_append] at hrun
    exact ⟨n', runs_bind (runs_execute_active rfl hlink) hrun⟩

omit [Field R] in
/-- A group takes a cluster, unless the id of a new one is taken. -/
theorem runs_upsertCluster (matched : List String) (k : Nat) (c : ComputedCluster R) (n : Nat)
    (p : List (Write R)) :
    (∃ id ws, Assigns ext settings tick.now (applyAll p s) matched c id ws ∧
      ((applyAll p s).assetCluster.HasKey id ∨ id = "clu_" ++ tick.newIds k) ∧
      Runs (LinksOnly ids) alone (upsertCluster ext settings tick matched k c) n s (.active p)
        (.ok id) (n + 2) s (.active (p ++ ws))) ∨
      (applyAll p s).assetCluster.HasKey ("clu_" ++ tick.newIds k) ∧
        ∃ e, Runs (LinksOnly ids) alone (upsertCluster ext settings tick matched k c) n s
          (.active p) (.error e) (n + 2) s .aborted := by
  rw [upsertCluster]
  have hfetch : Runs (LinksOnly (R := R) ids) alone (Prog.fetch .findExisting
      (fun db ↦ .ok (findExisting ext settings.clusterEpsM matched c.summary.centroid db)) :
        DbProg R _) n s (.active p)
      (.ok (findExisting ext settings.clusterEpsM matched c.summary.centroid (applyAll p s)))
      (n + 1) s (.active p) := runs_fetch_active rfl linksOnly_nil
  cases hfind : findExisting ext settings.clusterEpsM matched c.summary.centroid (applyAll p s) with
  | some id =>
    have hupdate : LinksOnly ids .updateCluster [.updateCluster id c.summary tick.now] :=
      linksOnly_singleton (fun _ h ↦ by cases h)
    obtain ⟨r, hr, hrid, _⟩ := exists_of_findExisting hfind
    refine .inl ⟨id, _, .existing hfind, .inl (hrid ▸ Table.hasKey_of_mem hr), ?_⟩
    rw [hfind] at hfetch
    apply runs_bind hfetch
    exact runs_bind (runs_execute_active rfl hupdate) (runs_ret _)
  | none =>
    rw [hfind] at hfetch
    by_cases hfree : (applyAll p s).assetCluster.HasKey ("clu_" ++ tick.newIds k)
    · refine .inr ⟨hfree, .postgresError uniqueViolation, ?_⟩
      apply runs_bind hfetch
      exact runs_bind_error (runs_execute_error (if_pos hfree))
    · have hinsert : LinksOnly ids .insertCluster
          [.insertCluster (newCluster ("clu_" ++ tick.newIds k) c.summary tick.now)] :=
        linksOnly_singleton (fun _ h ↦ by cases h)
      refine .inl ⟨_, _, .new hfind hfree, .inr rfl, ?_⟩
      apply runs_bind hfetch
      exact runs_bind (runs_execute_active (if_neg hfree) hinsert) (runs_ret _)

omit [Field R] in
/-- The loop takes a cluster for every group, unless the id of a new one is taken. -/
theorem runs_upsertClusters {cs : List (ComputedCluster R)}
    (hcs : ∀ c ∈ cs, ∀ id ∈ c.memberIds, id ∈ ids) {done : List (String × ComputedCluster R)}
    {p : List (Write R)} (h : Collects ext settings tick s done p) (n : Nat) :
    (∃ n' p' taken, taken.map Prod.snd = cs ∧ Collects ext settings tick s (done ++ taken) p' ∧
      Runs (LinksOnly ids) alone
        (upsertClusters ext settings tick (done.map Prod.fst) done.length cs) n s (.active p)
        (.ok ()) n' s (.active p')) ∨
      ¬FreshIds tick s ∧ ∃ e n' t', Runs (LinksOnly ids) alone
        (upsertClusters ext settings tick (done.map Prod.fst) done.length cs) n s (.active p)
        (.error e) n' s t' := by
  induction cs generalizing done p n with
  | nil =>
    refine .inl ⟨n, p, [], rfl, ?_, runs_ret _⟩
    rw [List.append_nil]
    exact h
  | cons c cs ih =>
    rw [upsertClusters]
    rcases runs_upsertCluster ext settings tick (done.map Prod.fst) done.length c n p with
      ⟨id, ws, hassigns, hid, hrun⟩ | ⟨hkey, e, hrun⟩
    · have hzip : ∀ m ∈ c.memberIds.zip c.memberConfidences, m.1 ∈ ids := fun m hm ↦
        hcs c (List.mem_cons_self ..) m.1 (List.of_mem_zip hm).1
      have hdelete : LinksOnly (R := R) ids .deleteLinks [.deleteLinks id] :=
        linksOnly_singleton (fun _ h ↦ by cases h)
      obtain ⟨n₁, hlinks⟩ := runs_insertLinks (s := s) id hzip (n + 3)
        (p ++ ws ++ [.deleteLinks id])
      have hstep := h.step hassigns hid
      have hids : (done ++ [(id, c)]).map Prod.fst = done.map Prod.fst ++ [id] := by simp
      have hlength : (done ++ [(id, c)]).length = done.length + 1 := by simp
      have hpending : p ++ ws ++ [.deleteLinks id] ++
          (c.memberIds.zip c.memberConfidences).map (fun m ↦ .insertLink (newLink id m)) =
            p ++ ws ++ linkWrites id c := by
        rw [List.append_assoc]
        rfl
      rw [hpending] at hlinks
      rcases ih (fun d hd ↦ hcs d (List.mem_cons_of_mem _ hd)) hstep n₁ with
        ⟨n₂, p', taken, htaken, hcollects, hrest⟩ | ⟨hfresh, e, n₂, t', hrest⟩
      · rw [hids, hlength] at hrest
        refine .inl ⟨n₂, p', (id, c) :: taken, ?_, ?_, ?_⟩
        · rw [List.map_cons, htaken]
        · rw [List.append_assoc, List.singleton_append] at hcollects
          exact hcollects
        · exact runs_bind hrun (runs_bind (runs_execute_active rfl hdelete)
            (runs_bind hlinks hrest))
      · rw [hids, hlength] at hrest
        exact .inr ⟨hfresh, e, n₂, t', runs_bind hrun (runs_bind
          (runs_execute_active rfl hdelete) (runs_bind hlinks hrest))⟩
    · exact .inr ⟨fun hfresh ↦ hfresh.not_hasKey h hkey, e, _, _, runs_bind_error hrun⟩

/-- The transaction takes a cluster for every group, unless an id is taken. -/
theorem runs_clusterTransaction (stats : MemberStats R) (meanLat : R)
    {cs : List (ComputedCluster R)} (hcs : ∀ c ∈ cs, ∀ id ∈ c.memberIds, id ∈ ids) (n : Nat) :
    (∃ n' p taken, taken.map Prod.snd = cs ∧ Collects ext settings tick s taken p ∧
      Runs (LinksOnly ids) alone (clusterTransaction ext settings tick stats meanLat cs) n s
        (.active []) (.ok ()) n' s
        (.active (p ++ [.updateClusterRun tick.runId cs.length tick.now]))) ∨
      ¬FreshIds tick s ∧ ∃ e n' t', Runs (LinksOnly ids) alone
        (clusterTransaction ext settings tick stats meanLat cs) n s (.active []) (.error e) n' s
        t' := by
  rw [clusterTransaction]
  generalize hrow : newClusterRun tick.runId _ stats.n tick.now = row
  have hrunId : row.runId = tick.runId := congrArg ClusterRun.runId hrow.symm
  by_cases htaken : s.clusterRun.HasKey row.runId
  · exact .inr ⟨fun hfresh ↦ hfresh.run (hrunId ▸ htaken), _, _, _,
      runs_bind_error (runs_execute_error (e := uniqueViolation) (if_pos htaken))⟩
  · have hinsert : LinksOnly ids .insertClusterRun [.insertClusterRun row] :=
      linksOnly_singleton (fun _ h ↦ by cases h)
    have hrun : Runs (LinksOnly ids) alone
        (Prog.execute .insertClusterRun (insertClusterRun row) : DbProg R Unit) n s (.active [])
        (.ok ()) (n + 1) s (.active [.insertClusterRun row]) :=
      runs_execute_active (if_neg htaken) hinsert
    have hupdate : LinksOnly (R := R) ids .updateClusterRun
        [.updateClusterRun tick.runId cs.length tick.now] :=
      linksOnly_singleton (fun _ h ↦ by cases h)
    rcases runs_upsertClusters ext settings tick hcs (.start row) (n + 1) with
      ⟨n₁, p, taken, htaken, hcollects, hloop⟩ | ⟨hfresh, e, n₁, t', hloop⟩
    · exact .inl ⟨n₁ + 1, p, taken, htaken, hcollects,
        runs_bind hrun (runs_bind hloop (runs_execute_active rfl hupdate))⟩
    · exact .inr ⟨hfresh, e, n₁, t', runs_bind hrun (runs_bind_error hloop)⟩

end Loop

/-! ### The transaction makes statements only -/

section Statements

omit [Field R] [LinearOrder R] in
theorem statements_insertLinks (clusterId : String) (ms : List (String × R)) :
    (insertLinks clusterId ms).Statements := by
  induction ms with
  | nil => exact Prog.statements_ret _
  | cons m ms ih =>
    rw [insertLinks]
    exact Prog.statements_bind (Prog.statements_execute _ _) (fun _ ↦ ih)

omit [Field R] in
theorem statements_upsertClusters (matched : List String) (k : Nat)
    (cs : List (ComputedCluster R)) :
    (upsertClusters ext settings tick matched k cs).Statements := by
  induction cs generalizing matched k with
  | nil => exact Prog.statements_ret _
  | cons c cs ih =>
    have hupsert : (upsertCluster ext settings tick matched k c).Statements := by
      rw [upsertCluster]
      apply Prog.statements_bind (Prog.statements_fetch _ _)
      intro existing
      cases existing with
      | some id =>
        exact Prog.statements_bind (Prog.statements_execute _ _) (fun _ ↦ Prog.statements_ret _)
      | none =>
        exact Prog.statements_bind (Prog.statements_execute _ _) (fun _ ↦ Prog.statements_ret _)
    rw [upsertClusters]
    apply Prog.statements_bind hupsert
    intro id
    apply Prog.statements_bind (Prog.statements_execute _ _)
    intro _
    exact Prog.statements_bind (statements_insertLinks _ _) (fun _ ↦ ih _ _)

theorem statements_clusterTransaction (stats : MemberStats R) (meanLat : R)
    (cs : List (ComputedCluster R)) :
    (clusterTransaction ext settings tick stats meanLat cs).Statements := by
  rw [clusterTransaction]
  apply Prog.statements_bind (Prog.statements_execute _ _)
  intro _
  exact Prog.statements_bind (statements_upsertClusters ext settings tick _ _ _)
    (fun _ ↦ Prog.statements_execute _ _)

end Statements

/-! ### The run -/

/-- What a run leaves: the state as it was, or a cluster for each of the computed ones. -/
def RunResult (db s : Database R) : Prop :=
  s = db ∨ ∃ taken, taken.map Prod.snd = computedClusters ext settings tick db ∧
    Rebuilt ext settings db taken s

/-- The effects of a run that gives these groups their clusters. -/
inductive Written (db : Database R) :
    List (String × ComputedCluster R) → List (Write R) → Prop where
  | nothing : Written db [] []
  | groups {taken : List (String × ComputedCluster R)} {p : List (Write R)}
    (h : Collects ext settings tick db taken p) (outputs : Nat) :
    Written db taken (p ++ [.updateClusterRun tick.runId outputs tick.now])

/-- The ids in the computed clusters. -/
def clusteredIds (db : Database R) : List String :=
  (computedClusters ext settings tick db).flatMap ComputedCluster.memberIds

theorem runs_clusterBody (db : Database R) (hlocked : tick.locked = true) (n : Nat) :
    (∃ r n' taken ws, taken.map Prod.snd = computedClusters ext settings tick db ∧
      Written ext settings tick db taken ws ∧
      RunsLog (LinksOnly (clusteredIds ext settings tick db)) alone
        (clusterBody ext settings tick) n db .auto r n' (applyAll ws db) .auto ws) ∨
      ¬FreshIds tick db ∧ ∃ r n', Runs (LinksOnly (clusteredIds ext settings tick db)) alone
        (clusterBody ext settings tick) n db .auto r n' db .auto := by
  have hstats : RunsLog (LinksOnly (clusteredIds ext settings tick db)) alone
      (Prog.fetch .memberStats
        (fun db ↦ .ok (memberStats ext settings tick.statsNow db)) : DbProg R _) n db .auto
      (.ok (memberStats ext settings tick.statsNow db)) (n + 1) db .auto [] := by
    refine Runs.logsNothing (runs_fetch_auto ?_ linksOnly_nil) Prog.emits_fetch
    rfl
  rw [clusterBody]
  by_cases hgate : ((memberStats ext settings tick.statsNow db).n : Int) < settings.clusterMinPoints
  · have hcomputed : computedClusters ext settings tick db = [] := by
      rw [computedClusters, if_neg (fun h ↦ not_le.mpr hgate h.2)]
    refine .inl ⟨.ok 0, n + 1, [], [], hcomputed.symm, .nothing, runsLog_quiet_bind hstats ?_⟩
    rw [if_pos hgate]
    exact runsLog_ret _
  cases hlat : (memberStats ext settings tick.statsNow db).meanLat with
  | none =>
    have hcomputed : computedClusters ext settings tick db = [] := by
      rw [computedClusters, if_pos ⟨hlocked, not_lt.mp hgate⟩, hlat]
    refine .inl ⟨.error .typeError, n + 1, [], [], hcomputed.symm, .nothing,
      runsLog_quiet_bind hstats ?_⟩
    rw [if_neg hgate, hlat]
    exact runsLog_ret _
  | some meanLat =>
    have hcomputed : computedClusters ext settings tick db = clusters ext settings tick.clusterNow
        (epsUnits ext settings.clusterEpsM meanLat) db := by
      rw [computedClusters, if_pos ⟨hlocked, not_lt.mp hgate⟩, hlat]
    have hids : ∀ c ∈ computedClusters ext settings tick db, ∀ id ∈ c.memberIds,
        id ∈ clusteredIds ext settings tick db := fun c hc id hid ↦
      List.mem_flatMap.mpr ⟨c, hc, hid⟩
    have hfetch : RunsLog (LinksOnly (clusteredIds ext settings tick db)) alone
        (Prog.fetch .cluster (fun db ↦ .ok (clusters ext settings tick.clusterNow
          (epsUnits ext settings.clusterEpsM meanLat) db)) : DbProg R _) (n + 1) db .auto
        (.ok (computedClusters ext settings tick db)) (n + 2) db .auto [] := by
      refine Runs.logsNothing (runs_fetch_auto ?_ linksOnly_nil) Prog.emits_fetch
      exact congrArg Except.ok hcomputed.symm
    rcases runs_clusterTransaction ext settings tick (s := db)
        (memberStats ext settings tick.statsNow db) meanLat hids (n + 3) with
      ⟨n₁, p, taken, htaken, hcollects, hrun⟩ | ⟨hfresh, e, n₁, t', hrun⟩
    · have hlogged := runsLog_transaction
        (hrun.logs (statements_clusterTransaction ext settings tick _ meanLat _))
      refine .inl ⟨.ok (computedClusters ext settings tick db).length, n₁ + 1, taken, _, htaken,
        .groups hcollects (computedClusters ext settings tick db).length,
        runsLog_quiet_bind hstats ?_⟩
      rw [if_neg hgate, hlat]
      exact runsLog_quiet_bind hfetch (runsLog_bind_quiet hlogged (runsLog_ret _))
    · refine .inr ⟨hfresh, .error e, n₁ + 1, runs_bind hstats.runs ?_⟩
      rw [if_neg hgate, hlat]
      exact runs_bind hfetch.runs (runs_bind_error (runs_transaction_error hrun))

variable {ext settings tick} in
omit [Field R] in
theorem Written.rebuilt {db : Database R} {taken : List (String × ComputedCluster R)}
    {ws : List (Write R)} (h : Written ext settings tick db taken ws) :
    Rebuilt ext settings db taken (applyAll ws db) := by
  cases h with
  | nothing => exact .start db _
  | groups h =>
    rw [applyAll_append]
    exact h.rebuilt.withRuns _

/-- Where a run ends, and what its statements link. -/
theorem clusterRun_result (db : Database R) :
    RunResult ext settings tick db (clusterRun ext settings tick db).conn.store ∧
      StmtsIn (LinksOnly (clusteredIds ext settings tick db))
        (clusterRun ext settings tick db).conn.trace := by
  have hlock : ∀ l : Statement, ∀ (n : Nat) (s : Database R),
      Runs (LinksOnly (clusteredIds ext settings tick db)) alone
        (Prog.execute l (fun _ ↦ .ok []) : DbProg R Unit) n s .auto (.ok ()) (n + 1) s .auto :=
    fun _ _ _ ↦ runs_execute_auto linksOnly_nil
  cases hlocked : tick.locked with
  | true =>
    have hbody : ∃ r n' s, RunResult ext settings tick db s ∧
        Runs (LinksOnly (clusteredIds ext settings tick db)) alone (clusterBody ext settings tick)
          1 db .auto r n' s .auto := by
      rcases runs_clusterBody ext settings tick db hlocked 1 with
        ⟨r, n', taken, ws, htaken, hwritten, hrun⟩ | ⟨_, r, n', hrun⟩
      · exact ⟨r, n', _, .inr ⟨taken, htaken, hwritten.rebuilt⟩, hrun.runs⟩
      · exact ⟨r, n', db, .inl rfl, hrun⟩
    obtain ⟨r, n', s, hresult, hbody⟩ := hbody
    have hjob : Runs (LinksOnly (clusteredIds ext settings tick db)) alone
        (runClusterJob ext settings tick) 0 db .auto r (n' + 1) s .auto := by
      rw [runClusterJob, if_pos hlocked]
      exact runs_bind (hlock _ _ _) (runs_tryFinally hbody (hlock _ _ _))
    obtain ⟨hstore, htrace⟩ := hjob.whole
    exact ⟨hstore ▸ hresult, htrace⟩
  | false =>
    have hjob : Runs (LinksOnly (clusteredIds ext settings tick db)) alone
        (runClusterJob ext settings tick) 0 db .auto (.ok 0) 1 db .auto := by
      rw [runClusterJob, hlocked]
      exact runs_bind (hlock _ _ _) (runs_ret _)
    obtain ⟨hstore, htrace⟩ := hjob.whole
    exact ⟨.inl hstore, htrace⟩

/-- With the lock and fresh ids every computed cluster takes a row. -/
theorem clusterRun_written (db : Database R) (hlocked : tick.locked = true)
    (hfresh : FreshIds tick db) :
    ∃ taken, taken.map Prod.snd = computedClusters ext settings tick db ∧
      (clusterRun ext settings tick db).conn.store =
        applyAll (Prog.logged (clusterRun ext settings tick db).conn.trace) db ∧
      Written ext settings tick db taken
        (Prog.logged (clusterRun ext settings tick db).conn.trace) := by
  have hlock : ∀ l : Statement, ∀ (n : Nat) (s : Database R),
      RunsLog (LinksOnly (clusteredIds ext settings tick db)) alone
        (Prog.execute l (fun _ ↦ .ok []) : DbProg R Unit) n s .auto (.ok ()) (n + 1) s .auto [] :=
    fun _ _ _ ↦ (runs_execute_auto linksOnly_nil).logsNothing Prog.emits_nothing
  rcases runs_clusterBody ext settings tick db hlocked 1 with
    ⟨r, n', taken, ws, htaken, hwritten, hbody⟩ | ⟨hstale, _⟩
  · have hjob : RunsLog (LinksOnly (clusteredIds ext settings tick db)) alone
        (runClusterJob ext settings tick) 0 db .auto r (n' + 1) (applyAll ws db) .auto ws := by
      rw [runClusterJob, if_pos hlocked]
      exact runsLog_quiet_bind (hlock _ _ _) (runsLog_tryFinally hbody (hlock _ _ _))
    have hlogged : Prog.logged (clusterRun ext settings tick db).conn.trace = ws := hjob.whole
    have hstore : (clusterRun ext settings tick db).conn.store = applyAll ws db :=
      hjob.runs.whole.1
    rw [hlogged]
    exact ⟨taken, htaken, hstore, hwritten⟩
  · exact absurd hfresh hstale

end PotholeServer.Cluster
