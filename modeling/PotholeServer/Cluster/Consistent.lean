import PotholeServer.Cluster.Summary
import PotholeServer.Fusion.Batch
import PotholeServer.Planar
import PotholeServer.Sql.Effects

/-!
# Aggregates that agree with the links

A run of the clustering job under any schedule of what others commit and of failures. What its
transaction has collected gives every group a cluster of its own, on whatever state it is applied
to; a run that fails leaves nothing of it. So in every history each cluster agrees with its links,
whether a run has just taken it, or left it behind, or an admin has repaired it.
-/

namespace PotholeServer.Cluster

open Sql Db Fusion

variable {R : Type}

/-- No cluster is written twice. -/
def WrittenOnce (ws : List (Write R)) : Prop := (writtenClusters ws).Nodup

/-- Whatever others commit before its end, a transaction with these effects gives the groups `done`
their clusters. -/
def Planned (s : Database R) (done : List (String × ComputedCluster R)) (p : List (Write R)) :
    Prop :=
  ∀ s', Elsewhere s s' → Upserted s' done (applyAll p s')

section Planned

variable {s s' : Database R} {done : List (String × ComputedCluster R)} {p ws : List (Write R)}
  {g : ComputedCluster R} {id : String} {now : DateTime}

theorem Planned.later (h : Planned s done p) (hs : Elsewhere s s') : Planned s' done p :=
  fun _ hs' ↦ h _ (hs.trans hs')

/-- One group more. -/
theorem Planned.step (h : Planned s done p) (hout : id ∉ done.map Prod.fst)
    (hrow : ∀ s', Elsewhere s s' → Upserts now (applyAll p s') g id ws)
    (hnodup : g.memberIds.Nodup) :
    Planned s (done ++ [(id, g)]) (p ++ ws ++ linkWrites id g) := by
  intro s' hs'
  rw [applyAll_append, applyAll_append]
  exact (h s' hs').step hout (hrow s' hs') hnodup

/-- Whether a view has a cluster does not depend on what others commit. -/
theorem Planned.hasKey_iff (h : Planned s done p) (hs : Elsewhere s s') :
    (applyAll p s').assetCluster.HasKey id ↔ (applyAll p s).assetCluster.HasKey id := by
  rw [(h s' hs).hasKey, (h s (.refl s)).hasKey, hs.hasKey]

end Planned

variable [Field R] [LinearOrder R] (ext : Externals R) (settings : Settings R)
  (tick : ClusterTick)

/-! ### The loop -/

section Loop

variable {U : Type} [Effect U (Database R)] [Aside R U] {c : DbConn R} {p : List (Write R)}
  {done : List (String × ComputedCluster R)}

omit [Field R] [LinearOrder R] [Aside R U] in
theorem logs_insertLinks (id : String) (ms : List (String × R)) (hc : c.txn = .active p)
    (hT : WrittenOnce (Prog.logged c.trace)) :
    Prog.Logs U WrittenOnce (insertLinks id ms) c (fun _ c' ↦
      c'.txn = .active (p ++ ms.map (fun m ↦ .insertLink (newLink id m))) ∧
      writtenClusters (Prog.logged c'.trace) = writtenClusters (Prog.logged c.trace)) := by
  induction ms generalizing c p with
  | nil =>
    refine Prog.logs_pure hT ⟨?_, rfl⟩
    rw [List.map_nil, List.append_nil, hc]
  | cons m ms ih =>
    rw [insertLinks]
    refine Prog.logs_bind (Prog.logs_execute hc hT ?_)
    intro ws c₁ _ htxn₁ hws hlog
    cases hws
    have hsame :
        writtenClusters (Prog.logged c₁.trace) = writtenClusters (Prog.logged c.trace) := by
      rw [hlog, writtenClusters_append]
      exact List.append_nil _
    have hT₁ : WrittenOnce (Prog.logged c₁.trace) := by
      rw [WrittenOnce, hsame]
      exact hT
    refine ⟨hT₁, Prog.logs_mono (ih htxn₁ hT₁) ?_⟩
    rintro _ c₂ _ ⟨htxn₂, hlog₂⟩
    refine ⟨?_, hlog₂.trans hsame⟩
    rw [htxn₂, List.append_assoc, List.map_cons, List.singleton_append]

omit [Field R] in
/-- A group takes a cluster that no group has taken. -/
theorem logs_upsertCluster (k : Nat) (g : ComputedCluster R) (hc : c.txn = .active p)
    (hplan : Planned c.store done p)
    (hlog : writtenClusters (Prog.logged c.trace) = done.map Prod.fst) :
    Prog.Logs U WrittenOnce (upsertCluster ext settings tick (done.map Prod.fst) k g) c
      (fun id c' ↦ ∃ ws, c'.txn = .active (p ++ ws) ∧ id ∉ done.map Prod.fst ∧
        (∀ s, Elsewhere c'.store s → Upserts tick.now (applyAll p s) g id ws) ∧
        writtenClusters (Prog.logged c'.trace) = done.map Prod.fst ++ [id]) := by
  have hnodup : (done.map Prod.fst).Nodup := (hplan c.store (.refl _)).nodup
  have hT : WrittenOnce (Prog.logged c.trace) := by
    rw [WrittenOnce, hlog]
    exact hnodup
  have honce : ∀ {id} {ws : List (Write R)}, id ∉ done.map Prod.fst →
      writtenClusters ws = done.map Prod.fst ++ [id] → WrittenOnce ws := by
    intro id ws hout hws
    rw [WrittenOnce, hws, ← List.concat_eq_append]
    exact hnodup.concat hout
  rw [upsertCluster]
  refine Prog.logs_bind (Prog.logs_fetch hc hT ?_)
  intro existing c₁ hfol₁ htxn₁ hfind hlog₁
  have hplan₁ := hplan.later (elsewhere_of_arrived hfol₁.store)
  have hT₁ : WrittenOnce (Prog.logged c₁.trace) := hlog₁ ▸ hT
  cases existing with
  | some id =>
    obtain ⟨r, hr, hid, _, hout⟩ := exists_of_findExisting (Except.ok.inj hfind)
    have hkey : (applyAll p c₁.store).assetCluster.HasKey id := hid ▸ Table.hasKey_of_mem hr
    refine Prog.logs_bind (Prog.logs_execute htxn₁ hT₁ ?_)
    intro ws c₂ hfol₂ htxn₂ hws hlog₂
    cases hws
    have hwritten : writtenClusters (Prog.logged c₂.trace) = done.map Prod.fst ++ [id] := by
      rw [hlog₂, writtenClusters_append, hlog₁, hlog]
      rfl
    refine ⟨honce hout hwritten, Prog.logs_pure (honce hout hwritten)
      ⟨_, htxn₂, hout, ?_, hwritten⟩⟩
    intro s hs
    exact .update ((hplan₁.hasKey_iff ((elsewhere_of_arrived hfol₂.store).trans hs)).mpr hkey)
  | none =>
    refine Prog.logs_bind (Prog.logs_execute htxn₁ hT₁ ?_)
    intro ws c₂ hfol₂ htxn₂ hws hlog₂
    have hplan₂ := hplan₁.later (elsewhere_of_arrived hfol₂.store)
    have hinserted : ¬(applyAll p c₂.store).assetCluster.HasKey ("clu_" ++ tick.newIds k) ∧
        ws = [.insertCluster (newCluster ("clu_" ++ tick.newIds k) g.summary tick.now)] := by
      rw [insertCluster] at hws
      split at hws
      · cases hws
      · next hfree => cases hws; exact ⟨hfree, rfl⟩
    obtain ⟨hfree, rfl⟩ := hinserted
    have hout : "clu_" ++ tick.newIds k ∉ done.map Prod.fst :=
      fun hmem ↦ hfree (((hplan₂ c₂.store (.refl _)).hasKey _).mpr (.inr hmem))
    have hwritten : writtenClusters (Prog.logged c₂.trace) =
        done.map Prod.fst ++ ["clu_" ++ tick.newIds k] := by
      rw [hlog₂, writtenClusters_append, hlog₁, hlog]
      rfl
    refine ⟨honce hout hwritten, Prog.logs_pure (honce hout hwritten)
      ⟨_, htxn₂, hout, ?_, hwritten⟩⟩
    intro s hs
    exact .insert (fun hkey ↦ hfree ((hplan₂.hasKey_iff hs).mp hkey))

omit [Field R] in
/-- Every group takes a cluster. -/
theorem logs_upsertClusters {cs : List (ComputedCluster R)}
    (hcs : ∀ g ∈ cs, g.memberIds.Nodup) (k : Nat) (hc : c.txn = .active p)
    (hplan : Planned c.store done p)
    (hlog : writtenClusters (Prog.logged c.trace) = done.map Prod.fst) :
    Prog.Logs U WrittenOnce (upsertClusters ext settings tick (done.map Prod.fst) k cs) c
      (fun _ c' ↦ ∃ p' taken, c'.txn = .active p' ∧ taken.map Prod.snd = cs ∧
        Planned c'.store (done ++ taken) p' ∧ WrittenOnce (Prog.logged c'.trace)) := by
  induction cs generalizing c p done k with
  | nil =>
    have hT : WrittenOnce (Prog.logged c.trace) := by
      rw [WrittenOnce, hlog]
      exact (hplan c.store (.refl _)).nodup
    refine Prog.logs_pure hT ⟨p, [], hc, rfl, ?_, hT⟩
    rw [List.append_nil]
    exact hplan
  | cons g cs ih =>
    rw [upsertClusters]
    refine Prog.logs_bind (Prog.logs_mono
      (logs_upsertCluster ext settings tick k g hc hplan hlog) ?_)
    rintro id c₁ hfol₁ ⟨ws, htxn₁, hout, hrow, hlog₁⟩
    have hids : (done ++ [(id, g)]).map Prod.fst = done.map Prod.fst ++ [id] := by simp
    have hplan₁ := (hplan.later (elsewhere_of_arrived hfol₁.store)).step hout hrow
      (hcs g (List.mem_cons_self ..))
    have hT₁ : WrittenOnce (Prog.logged c₁.trace) := by
      rw [WrittenOnce, hlog₁, ← hids]
      exact (hplan₁ c₁.store (.refl _)).nodup
    refine Prog.logs_bind (Prog.logs_execute htxn₁ hT₁ ?_)
    intro ws₂ c₂ hfol₂ htxn₂ hws₂ hlog₂
    cases hws₂
    have hsame₂ : writtenClusters (Prog.logged c₂.trace) = writtenClusters
        (Prog.logged c₁.trace) := by
      rw [hlog₂, writtenClusters_append]
      exact List.append_nil _
    have hT₂ : WrittenOnce (Prog.logged c₂.trace) := by
      rw [WrittenOnce, hsame₂]
      exact hT₁
    refine ⟨hT₂, Prog.logs_bind (Prog.logs_mono (logs_insertLinks id _ htxn₂ hT₂) ?_)⟩
    rintro _ c₃ hfol₃ ⟨htxn₃, hlog₃⟩
    have hplan₃ := hplan₁.later (elsewhere_of_arrived (hfol₂.store.trans hfol₃.store))
    have hpending : c₃.txn = .active (p ++ ws ++ linkWrites id g) := by
      rw [htxn₃, List.append_assoc]
      rfl
    rw [← hids]
    refine Prog.logs_mono (ih (fun d hd ↦ hcs d (List.mem_cons_of_mem _ hd)) (k + 1) hpending
      hplan₃ ((hlog₃.trans (hsame₂.trans hlog₁)).trans hids.symm)) ?_
    rintro _ c₄ _ ⟨p', taken, htxn₄, htaken, hplan₄, hT₄⟩
    rw [List.append_assoc, List.singleton_append] at hplan₄
    exact ⟨p', (id, g) :: taken, htxn₄, by rw [List.map_cons, htaken], hplan₄, hT₄⟩

/-- The transaction gives every group a cluster. -/
theorem logs_clusterTransaction (stats : MemberStats R) (meanLat : R)
    {cs : List (ComputedCluster R)} (hcs : ∀ g ∈ cs, g.memberIds.Nodup)
    (hc : c.txn = .active []) (hlog : Prog.logged c.trace = []) :
    Prog.Logs U WrittenOnce (clusterTransaction ext settings tick stats meanLat cs) c
      (fun _ c' ↦ ∃ p taken, c'.txn = .active p ∧ taken.map Prod.snd = cs ∧
        Planned c'.store taken p) := by
  have hT : WrittenOnce (Prog.logged c.trace) := by
    rw [hlog]
    exact List.nodup_nil
  rw [clusterTransaction]
  generalize newClusterRun tick.runId _ stats.n tick.now = row
  refine Prog.logs_bind (Prog.logs_execute hc hT ?_)
  intro ws c₁ hfol₁ htxn₁ hws hlog₁
  have hinserted : ws = [.insertClusterRun row] := by
    rw [insertClusterRun] at hws
    split at hws <;> cases hws
    rfl
  subst hinserted
  have hwritten : writtenClusters (Prog.logged c₁.trace) = [] := by
    rw [hlog₁, hlog]
    rfl
  have hstart : Planned c₁.store [] ([] ++ [Write.insertClusterRun row]) :=
    fun s _ ↦ .start s _
  have hT₁ : WrittenOnce (Prog.logged c₁.trace) := by
    rw [WrittenOnce, hwritten]
    exact List.nodup_nil
  refine ⟨hT₁, Prog.logs_bind (Prog.logs_mono
    (logs_upsertClusters ext settings tick hcs 0 htxn₁ hstart hwritten) ?_)⟩
  rintro _ c₂ _ ⟨p, taken, htxn₂, htaken, hplan, hT₂⟩
  refine Prog.logs_execute htxn₂ hT₂ ?_
  intro ws c₃ hfol₃ htxn₃ hws hlog₃
  cases hws
  refine ⟨?_, _, taken, htxn₃, htaken, ?_⟩
  · rw [WrittenOnce, hlog₃, writtenClusters_append]
    exact (List.append_nil _).symm ▸ hT₂
  · intro s hs
    rw [applyAll_append]
    exact (hplan s ((elsewhere_of_arrived hfol₃.store).trans hs)).withRuns _

end Loop

/-! ### The committed states -/

/-- Every cluster comes from a group of members. -/
def Summarized (db : Database R) : Prop := ∀ c ∈ db.assetCluster, ∃ ms, Backed db c ms

/-- The change keeps that. -/
def Keeps (s s' : Database R) : Prop := Summarized s → Summarized s'

section Keeps

variable {ext settings tick} {s s' v : Database R}

theorem Elsewhere.keeps (h : Elsewhere s s') : Keeps s s' := by
  intro hs c' hc'
  obtain ⟨c, hc, hid, hsummary⟩ := h.cluster c' hc'
  obtain ⟨ms, hbacked⟩ := hs c hc
  exact ⟨ms, hbacked.elsewhere h hid hsummary⟩

theorem keeps_of_arrived {U : Type} [Effect U (Database R)] [Aside R U] (h : Arrived U s s') :
    Keeps s s' := (elsewhere_of_arrived h).keeps

/-- Groups of members that have been selected before the commit get their aggregates and links. -/
theorem Upserted.keeps {done : List (String × ComputedCluster R)} (h : Upserted s done v)
    (hgroups : ∀ d ∈ done, ∃ ms, ms ≠ [] ∧ d.2 = computedCluster ms ∧
      ∀ m ∈ ms, ∃ o ∈ s.assetObservation, OfReport o m) : Keeps s v := by
  intro hs c hc
  by_cases hmem : c.clusterId ∈ done.map Prod.fst
  · obtain ⟨d, hd, hid⟩ := List.mem_map.mp hmem
    obtain ⟨ms, hne, hgroup, hobserved⟩ := hgroups d hd
    refine ⟨ms, hne, ?_, ?_, ?_⟩
    · rw [h.assetObservation]
      exact hobserved
    · have hzip : d.2.memberIds.zip d.2.memberConfidences =
          (orderBy Member.clientId ms).map (fun m ↦ (m.clientId, m.confidence)) := by
        rw [hgroup]
        exact List.zip_map'
      have hlinks := h.links d hd
      rw [hzip, List.map_map, hid] at hlinks
      exact hlinks.trans ((orderBy_perm _ ms).map _)
    · rw [h.taken d hd c hc hid.symm, hgroup]
  · obtain ⟨ms, hbacked⟩ := hs c (h.others c hc hmem)
    refine ⟨ms, hbacked.nonempty, ?_, ?_, hbacked.summary⟩
    · rw [h.assetObservation]
      exact hbacked.observed
    · exact (linksOf_perm (fun l hl ↦ h.otherLinks l (hl ▸ hmem))).trans hbacked.links

end Keeps

section Job

variable {U : Type} [Effect U (Database R)] [Aside R U] {c : DbConn R}

/-- The members of the computed clusters are observations, and no cluster has one twice. -/
theorem groups_of_clusters {now : DateTime} {units : R} {db s : Database R}
    (hs : Elsewhere db s) {g : ComputedCluster R} (hg : g ∈ clusters ext settings now units db) :
    g.memberIds.Nodup ∧ ∃ ms, ms ≠ [] ∧ g = computedCluster ms ∧
      ∀ m ∈ ms, ∃ o ∈ s.assetObservation, OfReport o m := by
  obtain ⟨ms, hne, hnodup, hmembers, rfl⟩ := exists_members_of_clusters hg
  refine ⟨?_, ms, hne, rfl, ?_⟩
  · exact ((orderBy_perm Member.clientId ms).map Member.clientId).nodup_iff.mpr hnodup
  · intro m hm
    obtain ⟨o, ho, _, rfl⟩ := mem_members.mp (hmembers m hm)
    obtain ⟨o', ho', hsame⟩ := hs.observationKept o ho
    have hreport : OfReport o (member db o) := ⟨rfl, rfl, rfl, rfl⟩
    exact ⟨o', ho', hreport.later hsame⟩

/-- What a part of a run leaves: it has kept the aggregates, and written no cluster twice. -/
def Consistent (c c' : DbConn R) : Prop :=
  Follows Keeps c c' ∧ c'.txn = .auto ∧ WrittenOnce (Prog.logged c'.trace)

theorem follows_keeps_trans {c c' c'' : DbConn R} (h : Follows Keeps c c')
    (h' : Follows Keeps c' c'') : Follows Keeps c c'' :=
  h.trans (fun _ _ _ hs hs' hsum ↦ hs' (hs hsum)) h'

theorem spec_clusterTransaction {stats : MemberStats R} {meanLat units : R} {now : DateTime}
    {sQuery : Database R} (hquery : Elsewhere sQuery c.store) (hc : c.txn = .auto)
    (hlog : Prog.logged c.trace = []) :
    Prog.Spec U (Prog.transaction (clusterTransaction ext settings tick stats meanLat
      (clusters ext settings now units sQuery))) c (fun _ c' ↦ Consistent c c') := by
  have hnodup : ∀ g ∈ clusters ext settings now units sQuery, g.memberIds.Nodup :=
    fun g hg ↦ (groups_of_clusters ext settings hquery hg).1
  have hlogged := Prog.spec_logged_transaction (U := U) (T := WrittenOnce)
    (x := clusterTransaction ext settings tick stats meanLat
      (clusters ext settings now units sQuery)) hc
    (by rw [hlog]; exact List.nodup_nil)
    (fun c₁ _ htxn hsame ↦ logs_clusterTransaction ext settings tick stats meanLat hnodup htxn
      (hsame.trans hlog))
  have hcommitted : Prog.Spec U (Prog.transaction (clusterTransaction ext settings tick
      stats meanLat (clusters ext settings now units sQuery))) c
      (fun _ c' ↦ Follows Keeps c c' ∧ c'.txn = .auto) := by
    refine Prog.spec_transaction (fun _ p c₂ ↦ ∃ taken, taken.map Prod.snd =
      clusters ext settings now units sQuery ∧ Planned c₂.store taken p) hc ?_ ?_ ?_
    · rintro c₁ _ htxn ⟨slot, rfl⟩
      have hsame := Prog.logged_serve_control c (r := .begin) (fun _ _ h ↦ by cases h) slot
      refine Prog.body_mono (logs_clusterTransaction ext settings tick stats meanLat hnodup htxn
        (hsame.trans hlog)).body ?_
      rintro _ c₂ _ ⟨p, taken, htxn₂, htaken, hplan⟩
      exact ⟨p, htxn₂, taken, htaken, hplan⟩
    · intro e c' hfol hauto
      exact ⟨hfol.mono (fun _ _ ↦ keeps_of_arrived), hauto⟩
    · rintro _ p c₂ s c' hfol ⟨taken, htaken, hplan⟩ hs hdone
      have hlater := elsewhere_of_arrived (hfol.store.trans hs)
      have hkeeps : Keeps c.store (applyAll p s) := by
        intro hsum
        refine (hplan s (elsewhere_of_arrived hs)).keeps ?_ (hlater.keeps hsum)
        intro d hd
        exact (groups_of_clusters ext settings (hquery.trans hlater)
          (htaken ▸ List.mem_map_of_mem hd)).2
      refine ⟨⟨hdone.store ▸ hkeeps, hfol.grows.trans hdone.grows, ?_⟩, hdone.auto⟩
      intro t ht
      rcases hdone.commits t ht with ht | ht | rfl
      · exact (hfol.commits t ht).imp id keeps_of_arrived
      · exact .inr (keeps_of_arrived (hfol.store.trans ht))
      · exact .inr hkeeps
  refine Prog.spec_mono (Prog.spec_and hcommitted hlogged) ?_
  rintro r c' ⟨⟨hfol, hauto⟩, hT⟩
  exact ⟨hfol, hauto, hT⟩

theorem Consistent.of_follows (hfol : Follows (Arrived U) c c') (hauto : c'.txn = .auto)
    (hT : WrittenOnce (Prog.logged c'.trace)) : Consistent c c' :=
  ⟨hfol.mono (fun _ _ ↦ keeps_of_arrived), hauto, hT⟩

theorem spec_clusterBody (hc : c.txn = .auto) (hlog : Prog.logged c.trace = []) :
    Prog.Spec U (clusterBody ext settings tick) c (fun _ c' ↦ Consistent c c') := by
  have hnone : ∀ {c' : DbConn R}, Prog.logged c'.trace = [] → WrittenOnce (Prog.logged c'.trace) :=
    fun hc' ↦ hc' ▸ List.nodup_nil
  rw [clusterBody]
  refine Prog.spec_bind (Prog.spec_quiet Prog.emits_fetch (Prog.spec_fetch_auto hc ?_ ?_))
  · intro e c₁ hfol hauto hlog₁
    exact ⟨fun _ h ↦ (by cases h), fun _ _ ↦ .of_follows hfol hauto (hnone (hlog₁.trans hlog))⟩
  intro stats c₁ hfol₁ hauto₁ _ _ hlog₁
  have hempty₁ := hlog₁.trans hlog
  have hfirst : Consistent c c₁ := .of_follows hfol₁ hauto₁ (hnone hempty₁)
  refine ⟨fun _ hb ↦ ?_, fun _ h ↦ (by cases h)⟩
  cases hb
  split
  · exact Prog.spec_pure hfirst
  split
  · exact fun _ ↦ hfirst
  next meanLat _ =>
  refine Prog.spec_bind (Prog.spec_quiet Prog.emits_fetch (Prog.spec_fetch_auto hauto₁ ?_ ?_))
  · intro e c₂ hfol hauto hlog₂
    exact ⟨fun _ h ↦ (by cases h), fun _ _ ↦
      .of_follows (hfol₁.next hfol) hauto (hnone (hlog₂.trans hempty₁))⟩
  intro cs c₂ hfol₂ hauto₂ hcs _ hlog₂
  cases hcs
  refine ⟨fun _ hb ↦ ?_, fun _ h ↦ (by cases h)⟩
  cases hb
  refine Prog.spec_bind (Prog.spec_mono (spec_clusterTransaction ext settings tick (.refl _) hauto₂
    (hlog₂.trans hempty₁)) ?_)
  rintro r c₃ ⟨hfol₃, hauto₃, hT₃⟩
  have hall : Consistent c c₃ := ⟨follows_keeps_trans
    ((hfol₁.next hfol₂).mono (fun _ _ ↦ keeps_of_arrived)) hfol₃, hauto₃, hT₃⟩
  exact ⟨fun _ _ ↦ Prog.spec_pure hall, fun _ _ ↦ hall⟩

/-- A run keeps the aggregates and writes no cluster twice. -/
theorem spec_runClusterJob (hc : c.txn = .auto) (hlog : Prog.logged c.trace = []) :
    Prog.Spec U (runClusterJob ext settings tick) c (fun _ c' ↦
      Follows Keeps c c' ∧ WrittenOnce (Prog.logged c'.trace)) := by
  have hnone : ∀ {c' : DbConn R}, Prog.logged c'.trace = [] → WrittenOnce (Prog.logged c'.trace) :=
    fun hc' ↦ hc' ▸ List.nodup_nil
  rw [runClusterJob]
  refine Prog.spec_bind (Prog.spec_quiet Prog.emits_nothing (Prog.spec_execute_auto hc ?_))
  intro r c₁ hfol₁ hauto₁ hlog₁
  have hkeeps₁ : Follows Keeps c c₁ := hfol₁.mono (fun _ _ ↦ keeps_of_arrived)
  have hT₁ := hnone (hlog₁.trans hlog)
  refine ⟨fun _ _ ↦ ?_, fun _ _ ↦ ⟨hkeeps₁, hT₁⟩⟩
  split
  · refine Prog.spec_tryFinally (Prog.spec_mono
      (spec_clusterBody ext settings tick hauto₁ (hlog₁.trans hlog)) ?_)
    rintro r₂ c₂ ⟨hfol₂, hauto₂, hT₂⟩
    refine Prog.spec_quiet Prog.emits_nothing (Prog.spec_execute_auto hauto₂ ?_)
    intro r₃ c₃ hfol₃ _ hlog₃
    have hall : Follows Keeps c c₃ := follows_keeps_trans (follows_keeps_trans hkeeps₁ hfol₂)
      (hfol₃.mono (fun _ _ ↦ keeps_of_arrived))
    exact ⟨fun _ ↦ ⟨hall, hlog₃ ▸ hT₂⟩, fun _ _ ↦ ⟨hall, hlog₃ ▸ hT₂⟩⟩
  · exact Prog.spec_pure ⟨hkeeps₁, hT₁⟩

end Job

/-! ### Fusion ticks -/

section Fusion

theorem elsewhere_scoreWrites {m : Sensor.SensorModel R} {now : DateTime}
    {rows : List (AssetObservation R)} {ws : List (Write R)}
    (h : List.Forall₂ (ScoreWrite ext m now) rows ws) (s : Database R) :
    Elsewhere s (applyAll ws s) := by
  refine elsewhere_applyAll ?_ s
  induction h with
  | nil => exact fun _ hw ↦ absurd hw List.not_mem_nil
  | cons hw _ ih =>
    obtain ⟨res, _, rfl⟩ := hw
    exact List.forall_mem_cons.mpr ⟨rfl, ih⟩

theorem elsewhere_tickWrites (model : Option (Sensor.SensorModel R)) (runId : String)
    (now : DateTime) (ids : List String) (candidates : List (Candidate R)) (s : Database R) :
    Elsewhere s (applyAll (tickWrites ext settings model runId now ids candidates) s) := by
  refine elsewhere_applyAll ?_ s
  intro w hw
  rcases List.mem_cons.mp hw with rfl | hw
  · rfl
  rcases List.mem_append.mp hw with hw | hw
  · obtain ⟨r, _, rfl⟩ := List.mem_map.mp hw
    rfl
  · rcases List.mem_cons.mp hw with rfl | hw
    · rfl
    · cases List.mem_singleton.mp hw
      rfl

/-- A tick of the fusion job leaves clusters and links alone. -/
theorem spec_runFusionJob_keeps {U : Type} [Effect U (Database R)] [Aside R U] (t : Tick)
    {c : DbConn R} (hc : c.txn = .auto) :
    Prog.Spec U (runFusionJob ext settings t) c (fun _ c' ↦ Follows Keeps c c') := by
  have houtcome := spec_runFusionJob ext settings (U := U) (G := Elsewhere) t hc
    (fun _ _ ↦ elsewhere_of_arrived) (fun _ _ _ ↦ Elsewhere.trans)
    (fun _ _ _ _ _ s _ _ _ _ _ hws _ ↦ elsewhere_scoreWrites ext hws s)
  refine Prog.spec_mono (Prog.spec_and houtcome (Prog.spec_grows _ _)) ?_
  rintro r c' ⟨⟨hfol, _⟩ | ⟨sModel, ids, s₀, s₁, s₂, s₃, _, hb⟩, hgrows⟩
  · exact hfol.mono (fun _ _ ↦ Elsewhere.keeps)
  · have hbatch : Elsewhere c.store (applyAll (tickWrites ext settings (loadActiveModel sModel)
        t.runId t.pairNow ids (pairing ext settings ids s₂)) s₃) :=
      (hb.before.trans (elsewhere_of_arrived (hb.toInsert.trans (hb.toPair.trans
        hb.toCommit)))).trans (elsewhere_tickWrites ext settings _ _ _ _ _ s₃)
    refine ⟨(hbatch.trans (elsewhere_of_arrived hb.after)).keeps, hgrows, ?_⟩
    intro t ht
    rcases hb.commits t ht with ht | ht | ht
    · exact .inl ht
    · exact .inr ht.keeps
    · exact .inr (hbatch.trans (elsewhere_of_arrived ht)).keeps

end Fusion

/-! ### Histories -/

section Histories

/-- One step of a history: what others commit, or a job with all that happens while it runs. -/
inductive Activity (R : Type) where
  | other (u : Other R)
  | fused (t : Tick) (sch : Schedule (Other R))
  | clustered (tick : ClusterTick) (sch : Schedule (Other R))

/-- The connection that a fusion tick leaves. -/
def fusionConn (t : Tick) (sch : Schedule (Other R)) (db : Database R) : DbConn R :=
  ((runFusionJob ext settings t).run sch (.fresh db)).conn

/-- The connection that a run of the clustering job leaves. -/
def clusterConn (sch : Schedule (Other R)) (db : Database R) : DbConn R :=
  ((runClusterJob ext settings tick).run sch (.fresh db)).conn

/-- The state after a step. -/
def Activity.next (db : Database R) : Activity R → Database R
  | .other u => Effect.apply u db
  | .fused t sch => (fusionConn ext settings t sch db).store
  | .clustered tick sch => (clusterConn ext settings tick sch db).store

variable {ext settings tick} {db : Database R}

theorem Summarized.agrees (h : Summarized db) : ∀ c ∈ db.assetCluster, Agrees db c := by
  intro c hc
  obtain ⟨ms, hbacked⟩ := h c hc
  exact hbacked.agrees

theorem Summarized.next (h : Summarized db) (a : Activity R) :
    Summarized (a.next ext settings db) := by
  cases a with
  | other u => exact (elsewhere_apply u db).keeps h
  | fused t sch => exact (spec_runFusionJob_keeps ext settings t rfl sch).store h
  | clustered tick sch => exact (spec_runClusterJob ext settings tick rfl rfl sch).1.store h

end Histories

/-- In every history that starts without clusters every cluster agrees with its links, in the states
between the steps and in those that are committed during a job, and no run writes a cluster
twice. -/
theorem summaries_agree (init db : Database R) (hinit : ∀ c, c ∉ init.assetCluster)
    (h : Reaches (fun db a ↦ some (Activity.next ext settings db a)) (fun _ _ ↦ True) init db) :
    (∀ c ∈ db.assetCluster, Agrees db c) ∧
    (∀ t sch s, .commit s ∈ (fusionConn ext settings t sch db).trace →
      ∀ c ∈ s.assetCluster, Agrees s c) ∧
    ∀ tick sch,
      (∀ s, .commit s ∈ (clusterConn ext settings tick sch db).trace →
        ∀ c ∈ s.assetCluster, Agrees s c) ∧
      (writtenClusters (Prog.logged (clusterConn ext settings tick sch db).trace)).Nodup := by
  have hsum : Summarized db := by
    refine h.invariant Summarized (fun c hc ↦ absurd hc (hinit c)) ?_
    intro s a s' hs _ hstep
    cases hstep
    exact hs.next a
  refine ⟨hsum.agrees, ?_, ?_⟩
  · intro t sch s hs
    rcases (spec_runFusionJob_keeps ext settings t rfl sch).commits s hs with hs | hs
    · cases hs
    · exact (hs hsum).agrees
  · intro tick sch
    obtain ⟨hfol, hT⟩ := spec_runClusterJob ext settings tick (c := .fresh db) rfl rfl sch
    refine ⟨?_, hT⟩
    intro s hs
    rcases hfol.commits s hs with hs | hs
    · cases hs
    · exact (hs hsum).agrees

omit [Field R] [LinearOrder R] in
theorem ofClusters_upload (u : Ingest.Upload R) : ofClusters u.write = false := by
  cases u <;> rfl

/-- A pothole is reported three times and scored; the first run fails in its transaction, the
second one returns, and the cluster is repaired. -/
def repairedPothole : List (Activity ℚ) :=
  ["a", "b", "c"].map (fun id ↦ .other (.effect _
      (ofClusters_upload (Ingest.reportAt id 0 Ingest.reportTime)))) ++
    ["a", "b", "c"].map (fun id ↦ .other (.effect
      (.updateScored id potholeScores Ingest.reportTime) rfl)) ++
    [.clustered (laneTick "failed") (faultsAt (List.replicate 9 none ++
        [some (.server uniqueViolation)])),
      .clustered (laneTick "first") quiet,
      .other (.repaired "clu_first0" (Ingest.reportTime + 120000000))]

/-- The repaired cluster agrees with its three links. -/
theorem summaries_agree_repairedPothole : ∃ db : Database ℚ,
    db.assetCluster.rows.map (fun c ↦ (c.clusterId, c.observationCount)) = [("clu_first0", 3)] ∧
      (∀ c ∈ db.assetCluster, c.repairedAt ≠ none) ∧ ∀ c ∈ db.assetCluster, Agrees db c := by
  have hreach : Reaches (fun db a ↦
      some (Activity.next Externals.planar (Settings.default ℚ) db a)) (fun _ _ ↦ True)
      Database.empty (repairedPothole.foldl
        (Activity.next Externals.planar (Settings.default ℚ)) Database.empty) :=
    Reaches.start.foldl repairedPothole (fun _ _ _ ↦ trivial)
  refine ⟨_, ?_, ?_, (summaries_agree Externals.planar (Settings.default ℚ) Database.empty _
    (fun c ↦ Table.not_mem_empty c) hreach).1⟩
  · decide +kernel
  · change ∀ c ∈ (repairedPothole.foldl (Activity.next Externals.planar (Settings.default ℚ))
      Database.empty).assetCluster.rows, _
    decide +kernel

end PotholeServer.Cluster
