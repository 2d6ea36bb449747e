import PotholeServer.Cluster.Disciplined
import PotholeServer.Planar

/-!
# Repaired clusters under concurrent runs

Any number of runs of the clustering job share the server with the other jobs and with an admin
who marks clusters as repaired. `_FIND_EXISTING_SQL` skips repaired clusters, `_UPDATE_CLUSTER_SQL`
does not look: a repair that commits between the two is overwritten. From the update on the row is
locked, so a repair waits for the end of the run. When every update meets a cluster that is not
repaired, nothing changes a repaired cluster or its links any more.
-/

namespace PotholeServer.Cluster

open Sql Db Ingest

variable {R : Type}

/-- The cluster that an effect updates. -/
def updatedCluster : Write R → Option String
  | .updateCluster id _ _ => some id
  | _ => none

/-- The clusters that the request of a session updates. -/
def updatedBy (σ : ClusterServer R) (i : Nat) : List String :=
  match σ.session i with
  | some ⟨_, .req r _, t⟩ => (Server.effects σ.store t r).filterMap updatedCluster
  | _ => []

/-! ### Sessions -/

/-- What is left of a run is disciplined, and what it has collected may be committed. -/
structure Fit (ss : Session ClusterTick (fun _ ↦ Nat) (Database R) (Write R) Statement)
    (s : Database R) : Prop where
  under : ∃ s₀, ss.prog.Under clusterEnv (fun _ _ _ ↦ True) ss.txn s₀
  sound : ∀ p, ss.txn = .active p → Sound s p

section Fit

variable {s : Database R} {j : ClusterTick} {r : Request (Database R) (Write R) Statement}
  {k : Except PgError (Database R) → DbProg R Nat} {t : Txn (Write R)}

/-- The answer to a request. -/
theorem Fit.serve (h : Fit ⟨j, .req r k, t⟩ s)
    (hupdates : ∀ id summary now, .updateCluster id summary now ∈ Server.effects s t r →
      Unrepaired s id) :
    Fit ⟨j, k (answerOn s t r).1, (answerOn s t r).2.txn⟩ (answerOn s t r).2.store := by
  obtain ⟨⟨s₀, hunder⟩, hsound⟩ := h
  obtain ⟨hmade, hnext, _⟩ := hunder s trivial
  refine ⟨⟨_, hnext⟩, ?_⟩
  have hanswers := answers s t r
  generalize (answerOn s t r).2.txn = t', (answerOn s t r).2.store = s' at hanswers
  intro p' hp'
  cases hanswers with
  | refused hstill =>
    cases hstill with
    | refl => exact hsound p' hp'
    | abort => cases hp'
  | @made l stmt ws ht hq =>
    rw [Server.effects_sql ht hq] at hupdates
    cases t with
    | auto => cases hp'
    | aborted => cases hp'
    | active p =>
      cases hp'
      exact (hsound p rfl).push (hmade l stmt ws rfl ht hq) hupdates
  | begin =>
    cases hp'
    exact sound_nil s
  | commit => cases hp'
  | rollback => cases hp'

theorem Fit.fail (h : Fit ⟨j, .req r k, t⟩ s) (f : Fault) :
    Fit ⟨j, k (failOn s t r f).1, (failOn s t r f).2.txn⟩ s := by
  obtain ⟨⟨s₀, hunder⟩, hsound⟩ := h
  exact ⟨⟨_, (hunder s trivial).2.2 f trivial⟩, fun p hp ↦ hsound p (Server.active_failOn hp)⟩

/-- The store after an answer: as before, or what a sound transaction makes of it. -/
theorem Fit.store (h : Fit ⟨j, .req r k, t⟩ s) : (answerOn s t r).2.store = s ∨
    ∃ p, t = .active p ∧ Sound s p ∧ (answerOn s t r).2.store = applyAll p s := by
  obtain ⟨⟨s₀, hunder⟩, hsound⟩ := h
  have hmade := (hunder s trivial).1
  have hanswers := answers s t r
  generalize (answerOn s t r).2.txn = t', (answerOn s t r).2.store = s' at hanswers
  cases hanswers with
  | @made l stmt ws ht hq =>
    cases t with
    | auto =>
      have hnone : ws = [] := hmade l stmt ws rfl ht hq
      rw [hnone]
      exact .inl (written_nil s .auto)
    | aborted => exact absurd rfl ht
    | active p => exact .inl rfl
  | commit =>
    cases t with
    | active p => exact .inr ⟨p, rfl, hsound p rfl, rfl⟩
    | auto => exact .inl rfl
    | aborted => exact .inl rfl
  | refused => exact .inl rfl
  | begin => exact .inl rfl
  | rollback => exact .inl rfl

end Fit

/-! ### Runs -/

/-- The requests that are served update no cluster whose repair has committed. -/
def UpdatesUnrepaired (σ : ClusterServer R) : Act ClusterTick (Other R) → Prop
  | .serve i => ∀ id ∈ updatedBy σ i, Unrepaired σ.store id
  | _ => True

instance (σ : ClusterServer R) (a : Act ClusterTick (Other R)) :
    Decidable (UpdatesUnrepaired σ a) :=
  match a with
  | .serve i => inferInstanceAs (Decidable (∀ id ∈ updatedBy σ i, ∀ c ∈ σ.store.assetCluster,
      c.clusterId = id → c.repairedAt = none))
  | .start _ | .fail .. | .finish _ | .lose _ | .commit _ => isTrue trivial

variable [Field R] [LinearOrder R] (ext : Externals R) (settings : Settings R)

/-- One step of a server on which runs of the job are going on. -/
abbrev clusterStep (σ : ClusterServer R) (a : Act ClusterTick (Other R)) :
    Option (ClusterServer R) :=
  σ.step clusterLocks (fun tick ↦ runClusterJob ext settings tick) Other.locks a

/-- The locks are exclusive, and every open run is disciplined and sound. -/
structure Fits (σ : ClusterServer R) : Prop where
  exclusive : Server.Exclusive clusterLocks σ
  sessions : ∀ i ss, σ.session i = some ss → Fit ss σ.store

section Steps

variable {ext settings} {σ σ' : ClusterServer R} {a : Act ClusterTick (Other R)}

omit [Field R] [LinearOrder R] in
theorem fits_idle (s : Database R) : Fits (Server.idle s) where
  exclusive := fun _ _ _ _ _ h ↦ by cases h
  sessions := fun _ _ h ↦ by cases h

/-- A step changes no repaired cluster. -/
theorem Fits.frozen (h : Fits σ) (hmoves : Server.Moves clusterLocks
    (fun tick ↦ runClusterJob ext settings tick) Other.locks σ a σ') :
    Frozen σ.store σ'.store := by
  cases hmoves with
  | @serve i j r k t hs _ =>
    change Frozen σ.store (answerOn σ.store t r).2.store
    rcases (h.sessions _ _ hs).store with hsame | ⟨p, _, hsound, happly⟩
    · rw [hsame]
      exact .refl _
    · rw [happly]
      exact hsound.frozen
  | commit => exact frozen_other _ _
  | start | fail | finish | lose => exact Frozen.refl _

/-- What the other sessions have collected may still be committed. -/
theorem Fits.others (h : Fits σ) (hmoves : Server.Moves clusterLocks
    (fun tick ↦ runClusterJob ext settings tick) Other.locks σ a σ') {i : Nat}
    {ss : Session ClusterTick (fun _ ↦ Nat) (Database R) (Write R) Statement}
    (hss : σ.session i = some ss) (hi : a ≠ .serve i) : Fit ss σ'.store := by
  obtain ⟨hunder, hsound⟩ := h.sessions i ss hss
  refine ⟨hunder, ?_⟩
  intro p hp
  cases hmoves with
  | @serve i' j r k t hs _ =>
    change Sound (answerOn σ.store t r).2.store p
    rcases (h.sessions _ _ hs).store with hsame | ⟨q, hq, hsoundq, happly⟩
    · rw [hsame]
      exact hsound p hp
    · have hne : i' ≠ i := fun heq ↦ hi (congrArg Act.serve heq)
      have hfree := h.exclusive i' i _ ss hne hs hss
      rw [hp, hq] at hfree
      rw [happly]
      exact (hsound p hp).commit hsoundq hfree
  | commit hfree =>
    refine (hsound p hp).other ?_
    intro l hl hheld
    refine hfree l hl i ss hss ?_
    rw [hp]
    exact hheld
  | start | fail | finish | lose => exact hsound p hp

theorem Fits.step (h : Fits σ) (hok : UpdatesUnrepaired σ a)
    (hstep : clusterStep ext settings σ a = some σ') : Fits σ' ∧ Frozen σ.store σ'.store := by
  have hmoves := Server.moves_of_step hstep
  refine ⟨⟨hmoves.exclusive h.exclusive, ?_⟩, h.frozen hmoves⟩
  refine hmoves.sessions h.sessions ?_ ?_ ?_ (fun i ss hss hi ↦ h.others hmoves hss hi)
  · intro tick _
    exact ⟨⟨σ.store, under_runClusterJob ext settings tick⟩, fun p hp ↦ by cases hp⟩
  · intro i tick r k t ha hs _
    refine (h.sessions i _ hs).serve ?_
    intro id summary now hw
    subst ha
    refine hok id ?_
    rw [updatedBy, hs]
    exact List.mem_filterMap.mpr ⟨_, hw, rfl⟩
  · intro i tick r k t f _ hs
    exact (h.sessions i _ hs).fail f

end Steps

/-! ### Between the find and the update -/

/-- The next statement of a run can update the cluster. -/
def MayUpdate (ss : Session ClusterTick (fun _ ↦ Nat) (Database R) (Write R) Statement)
    (id : String) : Prop :=
  ∃ r k s, ss.prog = .req r k ∧ id ∈ (Server.effects s ss.txn r).filterMap updatedCluster

/-- No repair of a cluster commits while a run is about to update it. -/
def NoRepairBeforeUpdate (σ : ClusterServer R) : Act ClusterTick (Other R) → Prop
  | .commit u => ∀ i ss, σ.session i = some ss → ∀ id, MayUpdate ss id → .row id ∉ u.locks
  | _ => True

/-- What a run is about to update is not repaired. -/
def Guarded (σ : ClusterServer R) : Prop :=
  ∀ i ss, σ.session i = some ss → ∀ id, MayUpdate ss id → Unrepaired σ.store id

section Guarded

variable {ext settings} {σ σ' : ClusterServer R} {a : Act ClusterTick (Other R)}

omit [Field R] [LinearOrder R] in
/-- A run updates what its last request found not to be repaired. -/
theorem MayUpdate.unrepaired
    {ss : Session ClusterTick (fun _ ↦ Nat) (Database R) (Write R) Statement} {id : String}
    (hid : MayUpdate ss id) {s : Database R}
    (h : ss.prog.Under clusterEnv (fun _ _ _ ↦ True) ss.txn s) : Unrepaired s id := by
  obtain ⟨r, k, s', hprog, hmem⟩ := hid
  rw [hprog] at h
  obtain ⟨w, hw, hwid⟩ := List.mem_filterMap.mp hmem
  obtain ⟨l, stmt, ws, hr, ht, hq, hws⟩ := Server.of_mem_effects hw
  have hmade := (h s' trivial).1 l stmt ws hr ht hq
  cases w with
  | updateCluster id' summary now =>
    cases hwid
    generalize ss.txn = t at hmade ht
    cases t with
    | active p => exact hmade.2.2 _ summary now hws
    | auto =>
      have hnone : ws = [] := hmade
      rw [hnone] at hws
      cases hws
    | aborted => exact absurd rfl ht
  | _ => cases hwid

omit [Field R] [LinearOrder R] in
theorem Guarded.updatesUnrepaired (h : Guarded σ) (a : Act ClusterTick (Other R)) :
    UpdatesUnrepaired σ a := by
  cases a with
  | serve i =>
    intro id hid
    rw [updatedBy] at hid
    split at hid
    · next j r k t hs => exact h i _ hs id ⟨r, k, σ.store, rfl, hid⟩
    · cases hid
  | _ => trivial

theorem Guarded.step (hguarded : Guarded σ) (h : Fits σ) (hok : NoRepairBeforeUpdate σ a)
    (hstep : clusterStep ext settings σ a = some σ') : Guarded σ' := by
  have hmoves := Server.moves_of_step hstep
  refine hmoves.sessions (P := fun ss s ↦ ∀ id, MayUpdate ss id → Unrepaired s id) hguarded
    ?_ ?_ ?_ ?_
  · intro tick _ id hid
    exact hid.unrepaired (under_runClusterJob ext settings tick)
  · intro i tick r k t _ hs _ id hid
    obtain ⟨s, hunder⟩ := (h.sessions i _ hs).under
    exact hid.unrepaired (hunder σ.store trivial).2.1
  · intro i tick r k t f _ hs id hid
    obtain ⟨s, hunder⟩ := (h.sessions i _ hs).under
    have hstore : (failOn σ.store t r f).2.store = σ.store :=
      (fail_eq (⟨σ.store, t, []⟩ : Conn (Database R) (Write R) Statement) r f).2.1
    have hnext := (hunder σ.store trivial).2.2 f trivial
    rw [hstore] at hnext
    exact hid.unrepaired hnext
  · intro i ss hss _ id hid
    have hbefore := hguarded i ss hss id hid
    rcases hmoves.store with hsame | ⟨i', tick, r, k, t, _, hs, hstore⟩ | ⟨u, rfl, hstore⟩
    · rw [hsame]
      exact hbefore
    · rw [hstore]
      rcases (h.sessions _ _ hs).store with hsame | ⟨q, _, hsound, happly⟩
      · rw [hsame]
        exact hbefore
      · rw [happly]
        exact hbefore.applyAll hsound
    · rw [hstore]
      exact hbefore.other (hok i ss hss id hid)

end Guarded

/-- The find protects repaired clusters wherever else a repair commits: without one between a find
and the update that follows it, they stay as they are. -/
theorem frozen_of_noRepairBeforeUpdate (init : Database R) (σ σ' : ClusterServer R)
    (h : Reaches (clusterStep ext settings) NoRepairBeforeUpdate (Server.idle init) σ)
    (h' : Reaches (clusterStep ext settings) NoRepairBeforeUpdate σ σ') :
    Frozen σ.store σ'.store := by
  have hinv : Fits σ ∧ Guarded σ := by
    refine h.invariant (fun τ ↦ Fits τ ∧ Guarded τ)
      ⟨fits_idle init, fun _ _ h ↦ by cases h⟩ ?_
    rintro τ a τ' ⟨hfits, hguarded⟩ hok hstep
    exact ⟨(hfits.step (hguarded.updatesUnrepaired a) hstep).1, hguarded.step hfits hok hstep⟩
  have hlater : (Fits σ' ∧ Guarded σ') ∧ Frozen σ.store σ'.store := by
    refine h'.invariant (fun τ ↦ (Fits τ ∧ Guarded τ) ∧ Frozen σ.store τ.store)
      ⟨hinv, .refl _⟩ ?_
    rintro τ a τ' ⟨⟨hfits, hguarded⟩, hfrozen⟩ hok hstep
    obtain ⟨hfits', hfrozen'⟩ := hfits.step (hguarded.updatesUnrepaired a) hstep
    exact ⟨⟨hfits', hguarded.step hfits hok hstep⟩, hfrozen.trans hfrozen'⟩
  exact hlater.2

/-- A pothole is clustered; then it is reported once more. -/
def clusteredPothole : Database ℚ :=
  (onePothole ++ [Event.clustered (laneTick "first")] ++ detected "d" 0).foldl
    (Event.next Externals.planar (Settings.default ℚ)) Database.empty

/-- The run makes its last `n` requests, and ends. -/
def ended (σ : ClusterServer ℚ) (n : Nat) : ClusterServer ℚ :=
  play (clusterStep Externals.planar (Settings.default ℚ)) σ
    (List.replicate n (.serve 0) ++ [.finish 0])

/-- A second run has started when the cluster is repaired, from before the reports on. -/
def repairedAtStart : ClusterServer ℚ :=
  play (clusterStep Externals.planar (Settings.default ℚ)) (Server.idle clusteredPothole)
    [.start (laneTick "second"), .commit (.repaired "clu_first0" (reportTime - 1))]

/-- The run leaves the repaired cluster and makes a new one. -/
theorem frozen_of_noRepairBeforeUpdate_start :
    (∃ c ∈ repairedAtStart.store.assetCluster, c.repairedAt ≠ none) ∧
      (ended repairedAtStart 15).store.assetCluster.HasKey "clu_second0" ∧
      Frozen repairedAtStart.store (ended repairedAtStart 15).store := by
  refine ⟨by decide +kernel, by decide +kernel, ?_⟩
  have hrepair : NoRepairBeforeUpdate
      (play (clusterStep Externals.planar (Settings.default ℚ)) (Server.idle clusteredPothole)
        [.start (laneTick "second")]) (.commit (.repaired "clu_first0" (reportTime - 1))) := by
    intro i ss hss id hid hlock
    cases List.mem_singleton.mp hlock
    cases i with
    | succ i => cases hss
    | zero =>
      cases hss
      -- what the first request of a run updates is repaired in no state
      have hnot := hid.unrepaired (s := repairedAtStart.store)
        (under_runClusterJob Externals.planar (Settings.default ℚ) (laneTick "second"))
      revert hnot
      change ¬∀ c ∈ repairedAtStart.store.assetCluster.rows, _
      decide +kernel
  refine frozen_of_noRepairBeforeUpdate Externals.planar (Settings.default ℚ) clusteredPothole _ _
    (Reaches.start.play ⟨trivial, hrepair, trivial⟩) (Reaches.start.play ?_)
  apply admits_of_forall
  intro a ha σ
  cases a with
  | commit u => simp at ha
  | _ => trivial

/-! ### A repair while a run goes on -/

/-- In a run of the server in which no update meets a repaired cluster, every cluster that is
repaired in a state keeps its aggregates and links in all later states. -/
theorem repaired_clusters_frozen (init : Database R) (σ σ' : ClusterServer R)
    (h : Reaches (clusterStep ext settings) UpdatesUnrepaired (Server.idle init) σ)
    (h' : Reaches (clusterStep ext settings) UpdatesUnrepaired σ σ') :
    Frozen σ.store σ'.store := by
  have hfits : Fits σ := h.invariant Fits (fits_idle init)
    (fun _ _ _ hs hok hstep ↦ (hs.step hok hstep).1)
  have hlater : Fits σ' ∧ Frozen σ.store σ'.store := by
    refine h'.invariant (fun τ ↦ Fits τ ∧ Frozen σ.store τ.store) ⟨hfits, .refl _⟩ ?_
    rintro τ a τ' ⟨hτ, hfrozen⟩ hok hstep
    obtain ⟨hτ', hfrozen'⟩ := hτ.step hok hstep
    exact ⟨hτ', hfrozen.trans hfrozen'⟩
  exact hlater.2

/-- A second run has made `n` requests when the cluster is repaired. -/
def repairedAfter (n : Nat) : ClusterServer ℚ :=
  play (clusterStep Externals.planar (Settings.default ℚ)) (Server.idle clusteredPothole)
    (.start (laneTick "second") :: List.replicate n (.serve 0) ++
      [.commit (.repaired "clu_first0" (reportTime + 120000000))])

/-- The repair commits just before `_FIND_EXISTING_SQL`: the run makes a new cluster. -/
theorem repaired_clusters_frozen_before_find :
    (∃ c ∈ (repairedAfter 5).store.assetCluster, c.repairedAt ≠ none) ∧
      (ended (repairedAfter 5) 10).store.assetCluster.HasKey "clu_second0" ∧
      Frozen (repairedAfter 5).store (ended (repairedAfter 5) 10).store :=
  ⟨by decide +kernel, by decide +kernel,
    repaired_clusters_frozen Externals.planar (Settings.default ℚ) clusteredPothole _ _
      (Reaches.start.play (by decide +kernel)) (Reaches.start.play (by decide +kernel))⟩

/-- The repair commits between `_FIND_EXISTING_SQL` and `_UPDATE_CLUSTER_SQL`: the run overwrites
the repaired cluster. -/
theorem repair_after_find_overwritten : ¬∀ (init : Database ℚ) (σ σ' : ClusterServer ℚ),
    Reaches (clusterStep Externals.planar (Settings.default ℚ)) (fun _ _ ↦ True)
      (Server.idle init) σ →
    Reaches (clusterStep Externals.planar (Settings.default ℚ)) (fun _ _ ↦ True) σ σ' →
      Frozen σ.store σ'.store := by
  intro h
  have hfrozen := h clusteredPothole (repairedAfter 6) (ended (repairedAfter 6) 9)
    (Reaches.start.play (by decide +kernel)) (Reaches.start.play (by decide +kernel))
  -- the cluster counted three reports when it was repaired, and counts four now
  have hcounts : ∃ c ∈ (repairedAfter 6).store.assetCluster, c.repairedAt ≠ none ∧
      ∀ c' ∈ (ended (repairedAfter 6) 9).store.assetCluster, summaryOf c' ≠ summaryOf c := by
    decide +kernel
  obtain ⟨c, hc, hat, hnone⟩ := hcounts
  obtain ⟨⟨c', hc', _, _, hsummary⟩, _⟩ := hfrozen c hc hat
  exact hnone c' hc' hsummary

end PotholeServer.Cluster
