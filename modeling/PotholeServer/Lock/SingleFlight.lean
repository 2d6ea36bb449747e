import Mathlib.Logic.Function.Basic
import PotholeServer.Runs
import PotholeServer.Sql.AdvisoryLock

/-!
# Single flight

The advisory lock of `run_fusion_job` and `run_cluster_job`, over any number of processes
and ticks. A tick acquires a connection, asks for its lock, runs the `try` block if it got
it, unlocks in `finally`, and gives the connection back, which resets it.

In direct mode a connection is one backend session. Under the transaction pooler
(`DATABASE_USE_POOLER=true`) none of these statements is inside a transaction, so each runs
on whatever session the pooler picks. A direct connection keeps the flight single; behind
the pooler it is single as long as every statement happens to reach the right session.
-/

namespace PotholeServer.Lock

open Sql

/-- `settings.database_use_pooler` -/
inductive Mode where
  | direct
  | pooler
  deriving DecidableEq, Repr

/-- The two jobs that take an advisory lock. -/
inductive Job where
  | fusion
  | cluster
  deriving DecidableEq, Repr

/-- `_FUSION_LOCK_KEY` and `_CLUSTER_LOCK_KEY` -/
def Job.lockKey : Job → Int
  | .fusion => 0x504F54
  | .cluster => 0x504F55

/-- Where a tick stands: between which two statements of its job. -/
inductive Phase where
  /-- Before `pool.acquire()`. -/
  | idle
  /-- Before `pg_try_advisory_lock`. -/
  | connected
  /-- Inside the `try` block. -/
  | body
  /-- In `finally`, before `pg_advisory_unlock`. -/
  | cleanup
  /-- Before the connection goes back to the pool. -/
  | leaving
  /-- The tick has returned or raised. -/
  | closed
  deriving DecidableEq, Repr

variable {τ σ : Type}

/-- Ticks, backend sessions and the lock table of the server. -/
structure State (τ σ : Type) where
  phase : τ → Phase
  /-- The tick whose connection a session serves, in direct mode. -/
  owner : σ → Option τ
  locks : Locks σ Int

/-- One step of a tick; a statement names the session it runs on. -/
inductive Event (τ σ : Type) where
  | acquire (t : τ) (s : σ)
  | tryLock (t : τ) (s : σ)
  | lockRaises (t : τ)
  | statement (t : τ) (raises : Bool)
  | bodyReturns (t : τ)
  | unlock (t : τ) (s : σ)
  | release (t : τ) (s : σ)
  | disconnect (t : τ)
  /-- A connection that serves a request goes back to its pool. -/
  | resetOther (s : σ)

section Machine

variable [DecidableEq τ] [DecidableEq σ]

namespace State

/-- Nothing has started. -/
def start : State τ σ := ⟨fun _ ↦ .idle, fun _ ↦ none, []⟩

/-- The tick goes on to another phase. -/
def goto (st : State τ σ) (t : τ) (p : Phase) : State τ σ :=
  { st with phase := Function.update st.phase t p }

/-- The session serves the tick's connection. -/
def own (st : State τ σ) (s : σ) (t : τ) : State τ σ :=
  { st with owner := Function.update st.owner s (some t) }

/-- The sessions of the tick's connection serve nobody any more. -/
def disown (st : State τ σ) (t : τ) : State τ σ :=
  { st with owner := fun s ↦ if st.owner s = some t then none else st.owner s }

end State

/-- A statement of a tick may run on this session. -/
def routable (mode : Mode) (st : State τ σ) (t : τ) (s : σ) : Bool :=
  match mode with
  | .direct => st.owner s = some t
  | .pooler => true

/-- `pool.acquire()`: a direct connection is a session that serves nobody else. -/
def acquire (mode : Mode) (st : State τ σ) (t : τ) (s : σ) : Option (State τ σ) :=
  if st.phase t = .idle then
    match mode with
    | .direct =>
      if st.owner s = none then
        some ((st.goto t .connected).own s t)
      else none
    | .pooler => some (st.goto t .connected)
  else none

/-- One step of one tick; `none` when the tick is not at that point. -/
def step (mode : Mode) (job : τ → Job) (st : State τ σ) : Event τ σ → Option (State τ σ)
  | .acquire t s => acquire mode st t s
  | .tryLock t s =>
    if st.phase t = .connected ∧ routable mode st t s then
      let r := st.locks.tryLock s (job t).lockKey
      some { st.goto t (if r.1 then .body else .leaving) with locks := r.2 }
    else none
  | .lockRaises t => if st.phase t = .connected then some (st.goto t .leaving) else none
  | .statement t raises =>
    if st.phase t = .body then some (st.goto t (if raises then .cleanup else .body)) else none
  | .bodyReturns t => if st.phase t = .body then some (st.goto t .cleanup) else none
  | .unlock t s =>
    if st.phase t = .cleanup ∧ routable mode st t s then
      some { st.goto t .leaving with locks := st.locks.unlock s (job t).lockKey }
    else none
  | .release t s =>
    if st.phase t = .leaving ∧ routable mode st t s then
      some ({ st.goto t .closed with locks := st.locks.unlockAll s }.disown t)
    else none
  | .disconnect t =>
    if st.phase t = .idle ∨ st.phase t = .closed then none
    else
      -- a backend session ends with its connection, and its locks with it
      some ({ st.goto t .closed with
        locks := st.locks.filter (fun x ↦ st.owner x.1 ≠ some t) }.disown t)
  | .resetOther s =>
    if mode = .direct ∧ st.owner s ≠ none then none
    else some { st with locks := st.locks.unlockAll s }

end Machine

/-- The phases between a granted lock and its unlock. -/
def Phase.inSection (p : Phase) : Prop := p = .body ∨ p = .cleanup

instance (p : Phase) : Decidable p.inSection := inferInstanceAs (Decidable (_ ∨ _))

/-- The tick runs this job, has its lock and has not unlocked yet. -/
def InSection (job : τ → Job) (st : State τ σ) (j : Job) (t : τ) : Prop :=
  job t = j ∧ (st.phase t).inSection

/-- At most one tick of each job is in its section, and without one nobody holds the key. -/
def SingleFlight (job : τ → Job) (st : State τ σ) : Prop :=
  ∀ j, (∀ t t', InSection job st j t → InSection job st j t' → t = t') ∧
    ((∀ t, ¬InSection job st j t) → ∀ s, (s, j.lockKey) ∉ st.locks)

/-- The statement reaches a session on which it does what it is meant to do: the lock request
one that does not hold the key, the unlock one that does, a reset one without locks; and
no connection is lost inside the section. -/
def WellRouted (job : τ → Job) (st : State τ σ) : Event τ σ → Prop
  | .tryLock t s => (s, (job t).lockKey) ∉ st.locks
  | .unlock t s => (s, (job t).lockKey) ∈ st.locks
  | .release _ s | .resetOther s => ∀ x ∈ st.locks, x.1 ≠ s
  | .disconnect t => ¬(st.phase t).inSection
  | _ => True

instance [DecidableEq σ] (job : τ → Job) (st : State τ σ) (e : Event τ σ) :
    Decidable (WellRouted job st e) :=
  match e with
  | .tryLock t s => inferInstanceAs (Decidable ((s, (job t).lockKey) ∉ st.locks))
  | .unlock t s => inferInstanceAs (Decidable ((s, (job t).lockKey) ∈ st.locks))
  | .release _ s | .resetOther s => inferInstanceAs (Decidable (∀ x ∈ st.locks, x.1 ≠ s))
  | .disconnect t => inferInstanceAs (Decidable ¬(st.phase t).inSection)
  | .acquire .. | .lockRaises _ | .statement .. | .bodyReturns _ => isTrue trivial

/-! ### The invariant -/

/-- Every acquisition belongs to a tick in its section, and the other way round. -/
structure Inv (mode : Mode) (job : τ → Job) (st : State τ σ) : Prop where
  lockOwned : ∀ x ∈ st.locks, ∃ t, (st.phase t).inSection ∧ x.2 = (job t).lockKey ∧
    (mode = .direct → st.owner x.1 = some t)
  sectionHeld : ∀ t, (st.phase t).inSection →
    ∃ s, st.locks.held (job t).lockKey = [(s, (job t).lockKey)]
  unique : ∀ t t', job t = job t' → (st.phase t).inSection → (st.phase t').inSection → t = t'
  ownerUnique : ∀ t s s', st.owner s = some t → st.owner s' = some t → s = s'
  ownerStarted : ∀ t s, st.owner s = some t → st.phase t ≠ .idle
  noOwner : mode = .pooler → ∀ s, st.owner s = none

theorem lockKey_injective {j j' : Job} (h : j.lockKey = j'.lockKey) : j = j' := by
  revert h
  cases j <;> cases j' <;> decide

theorem Inv.start (mode : Mode) (job : τ → Job) : Inv mode job (State.start : State τ σ) where
  lockOwned := fun x hx ↦ by cases hx
  sectionHeld := fun t ht ↦ by rcases ht with h | h <;> cases h
  unique := fun t _ _ ht ↦ by rcases ht with h | h <;> cases h
  ownerUnique := fun t s _ h ↦ by cases h
  ownerStarted := fun t s h ↦ by cases h
  noOwner := fun _ _ ↦ rfl

theorem Inv.singleFlight {mode : Mode} {job : τ → Job} {st : State τ σ} (h : Inv mode job st) :
    SingleFlight job st := by
  intro j
  constructor
  · rintro t t' ⟨hj, ht⟩ ⟨hj', ht'⟩
    exact h.unique t t' (hj.trans hj'.symm) ht ht'
  · intro hnone s hs
    obtain ⟨t, ht, hk, _⟩ := h.lockOwned _ hs
    exact hnone t ⟨(lockKey_injective hk).symm, ht⟩

section Steps

variable {mode : Mode} {job : τ → Job} {st : State τ σ} {t : τ}

/-- The acquisitions of a tick in its section: one, on one session. -/
theorem Inv.mem_locks_iff (h : Inv mode job st) (ht : (st.phase t).inSection) :
    ∃ s, ∀ s', (s', (job t).lockKey) ∈ st.locks ↔ s' = s := by
  obtain ⟨s, hs⟩ := h.sectionHeld t ht
  refine ⟨s, ?_⟩
  intro s'
  have hmem : (s', (job t).lockKey) ∈ st.locks.held (job t).lockKey ↔
      (s', (job t).lockKey) ∈ st.locks := by
    rw [Locks.mem_held]
    simp
  rw [← hmem, hs, List.mem_singleton]
  simp

/-- Nobody holds the key of a job without a tick in its section. -/
theorem Inv.held_nil (h : Inv mode job st) {j : Job}
    (hnone : ∀ t, job t = j → ¬(st.phase t).inSection) : st.locks.held j.lockKey = [] := by
  rw [List.eq_nil_iff_forall_not_mem]
  intro x hx
  obtain ⟨hl, hk⟩ := Locks.mem_held.mp hx
  obtain ⟨t, ht, hkt, _⟩ := h.lockOwned x hl
  exact hnone t (lockKey_injective (hkt.symm.trans hk)) ht

section Phases

variable [DecidableEq τ]

/-- A tick moves without entering or leaving its section. -/
theorem Inv.goto (h : Inv mode job st) {p : Phase} (hp : p ≠ .idle)
    (hsec : p.inSection ↔ (st.phase t).inSection) : Inv mode job (st.goto t p) := by
  have hphase : ∀ u, ((st.goto t p).phase u).inSection ↔ (st.phase u).inSection := by
    intro u
    by_cases hu : u = t
    · subst hu
      simpa [State.goto] using hsec
    · simp [State.goto, hu]
  constructor
  · intro x hx
    obtain ⟨u, hu, hrest⟩ := h.lockOwned x hx
    exact ⟨u, (hphase u).mpr hu, hrest⟩
  · intro u hu
    exact h.sectionHeld u ((hphase u).mp hu)
  · intro u u' hj hu hu'
    exact h.unique u u' hj ((hphase u).mp hu) ((hphase u').mp hu')
  · exact h.ownerUnique
  · intro u s hs
    by_cases hu : u = t
    · subst hu
      simpa [State.goto] using hp
    · simpa [State.goto, hu] using h.ownerStarted u s hs
  · exact h.noOwner

/-- A tick outside its section gives up its sessions. -/
theorem Inv.disown (h : Inv mode job st) (ht : ¬(st.phase t).inSection) :
    Inv mode job (st.disown t) := by
  have howner : ∀ s u, (st.disown t).owner s = some u → st.owner s = some u := by
    intro s u hs
    simp only [State.disown] at hs
    split at hs
    · cases hs
    · exact hs
  constructor
  · intro x hx
    obtain ⟨u, hu, hk, hown⟩ := h.lockOwned x hx
    refine ⟨u, hu, hk, ?_⟩
    intro hmode
    have hne : u ≠ t := by
      rintro rfl
      exact ht hu
    simp only [State.disown, hown hmode]
    rw [if_neg]
    intro he
    exact hne (Option.some.inj he)
  · exact h.sectionHeld
  · exact h.unique
  · intro u s s' hs hs'
    exact h.ownerUnique u s s' (howner s u hs) (howner s' u hs')
  · intro u s hs
    exact h.ownerStarted u s (howner s u hs)
  · intro hmode s
    simp [State.disown, h.noOwner hmode s]

/-- A tick that is granted its lock enters the section, which was empty. -/
theorem Inv.enter (h : Inv mode job st) {s : σ} (ht : st.phase t = .connected)
    (hroute : mode = .direct → st.owner s = some t)
    (hnone : ∀ u, job u = job t → ¬(st.phase u).inSection) :
    Inv mode job { st.goto t .body with locks := (s, (job t).lockKey) :: st.locks } := by
  have hphase : ∀ u, u ≠ t → (st.goto t .body).phase u = st.phase u := by
    intro u hu
    simp [State.goto, hu]
  have htbody : (st.goto t .body).phase t = .body := by simp [State.goto]
  have hself : ((st.goto t .body).phase t).inSection := .inl htbody
  have hold : ∀ u, (st.phase u).inSection → u ≠ t := by
    rintro u hu rfl
    rw [ht] at hu
    rcases hu with hu | hu <;> cases hu
  constructor
  · intro x hx
    rcases List.mem_cons.mp hx with rfl | hx
    · exact ⟨t, hself, rfl, hroute⟩
    · obtain ⟨u, hu, hrest⟩ := h.lockOwned x hx
      exact ⟨u, (hphase u (hold u hu)).symm ▸ hu, hrest⟩
  · intro u hu
    by_cases hut : u = t
    · subst hut
      refine ⟨s, ?_⟩
      rw [Locks.held_cons, if_pos rfl, h.held_nil hnone]
    · have hu' : (st.phase u).inSection := (hphase u hut) ▸ hu
      obtain ⟨s', hs'⟩ := h.sectionHeld u hu'
      refine ⟨s', ?_⟩
      have hne : (job t).lockKey ≠ (job u).lockKey := by
        intro he
        exact hnone u (lockKey_injective he).symm hu'
      rw [Locks.held_cons, if_neg hne, hs']
  · intro u u' hj hu hu'
    by_cases hut : u = t
    · by_cases hut' : u' = t
      · rw [hut, hut']
      · exact absurd ((hphase u' hut') ▸ hu') (hnone u' (by rw [← hj, hut]))
    · have hu₀ : (st.phase u).inSection := (hphase u hut) ▸ hu
      by_cases hut' : u' = t
      · exact absurd hu₀ (hnone u (by rw [hj, hut']))
      · exact h.unique u u' hj hu₀ ((hphase u' hut') ▸ hu')
  · exact h.ownerUnique
  · intro u s' hs'
    by_cases hut : u = t
    · subst hut
      simp [State.goto]
    · rw [hphase u hut]
      exact h.ownerStarted u s' hs'
  · exact h.noOwner

/-- A tick leaves its section, and with it exactly its own acquisition goes. -/
theorem Inv.leave (h : Inv mode job st) (ht : (st.phase t).inSection) {p : Phase}
    (hp : p ≠ .idle) (hout : ¬p.inSection) {locks : Locks σ Int}
    (hmem : ∀ x, x ∈ locks → x ∈ st.locks ∧ x.2 ≠ (job t).lockKey)
    (hheld : ∀ k, k ≠ (job t).lockKey → locks.held k = st.locks.held k) :
    Inv mode job { st.goto t p with locks := locks } := by
  have hphase : ∀ u, u ≠ t → (st.goto t p).phase u = st.phase u := by
    intro u hu
    simp [State.goto, hu]
  have hself : (st.goto t p).phase t = p := by simp [State.goto]
  have hne : ∀ u, ((st.goto t p).phase u).inSection → u ≠ t := by
    rintro u hu rfl
    rw [hself] at hu
    exact hout hu
  constructor
  · intro x hx
    obtain ⟨hx, hk⟩ := hmem x hx
    obtain ⟨u, hu, hku, hrest⟩ := h.lockOwned x hx
    have hut : u ≠ t := by
      rintro rfl
      exact hk hku
    exact ⟨u, (hphase u hut).symm ▸ hu, hku, hrest⟩
  · intro u hu
    have hut := hne u hu
    have hu' : (st.phase u).inSection := (hphase u hut) ▸ hu
    obtain ⟨s, hs⟩ := h.sectionHeld u hu'
    refine ⟨s, ?_⟩
    have hkey : (job u).lockKey ≠ (job t).lockKey := by
      intro he
      exact hut (h.unique u t (lockKey_injective he) hu' ht)
    exact (hheld _ hkey).trans hs
  · intro u u' hj hu hu'
    exact h.unique u u' hj ((hphase u (hne u hu)) ▸ hu) ((hphase u' (hne u' hu')) ▸ hu')
  · exact h.ownerUnique
  · intro u s hs
    by_cases hut : u = t
    · subst hut
      rw [hself]
      exact hp
    · rw [hphase u hut]
      exact h.ownerStarted u s hs
  · exact h.noOwner

end Phases

/-- A free session is bound to a tick without one. -/
theorem Inv.own [DecidableEq σ] (h : Inv .direct job st) {s : σ} (ht : st.phase t ≠ .idle)
    (hs : st.owner s = none) (hfresh : ∀ s', st.owner s' ≠ some t) :
    Inv .direct job (st.own s t) := by
  have hself : (st.own s t).owner s = some t := by simp [State.own]
  have hother : ∀ s', s' ≠ s → (st.own s t).owner s' = st.owner s' := by
    intro s' hs'
    simp [State.own, hs']
  constructor
  · intro x hx
    obtain ⟨u, hu, hk, hown⟩ := h.lockOwned x hx
    refine ⟨u, hu, hk, ?_⟩
    intro hmode
    have hne : x.1 ≠ s := by
      intro he
      have hu' := hown hmode
      rw [he, hs] at hu'
      cases hu'
    rw [hother x.1 hne]
    exact hown hmode
  · exact h.sectionHeld
  · exact h.unique
  · intro u s₁ s₂ h₁ h₂
    by_cases hs₁ : s₁ = s
    · by_cases hs₂ : s₂ = s
      · rw [hs₁, hs₂]
      · rw [hs₁, hself] at h₁
        rw [hother s₂ hs₂, ← h₁] at h₂
        exact absurd h₂ (hfresh s₂)
    · rw [hother s₁ hs₁] at h₁
      by_cases hs₂ : s₂ = s
      · rw [hs₂, hself] at h₂
        rw [← h₂] at h₁
        exact absurd h₁ (hfresh s₁)
      · rw [hother s₂ hs₂] at h₂
        exact h.ownerUnique u s₁ s₂ h₁ h₂
  · intro u s' hs'
    by_cases hne : s' = s
    · rw [hne, hself, Option.some.injEq] at hs'
      rw [← hs']
      exact ht
    · rw [hother s' hne] at hs'
      exact h.ownerStarted u s' hs'
  · intro hmode
    cases hmode

/-! ### One step -/

/-- The acquisition of a tick in its section is on a session of its own connection. -/
theorem Inv.owner_of_mem (h : Inv .direct job st) {s : σ} (ht : (st.phase t).inSection)
    (hs : (s, (job t).lockKey) ∈ st.locks) : st.owner s = some t := by
  obtain ⟨u, hu, hk, hown⟩ := h.lockOwned _ hs
  have hut : u = t := h.unique u t (lockKey_injective hk.symm) hu ht
  rw [← hut]
  exact hown rfl

/-- A reset of a session without locks changes nothing. -/
theorem Inv.unlockAll [DecidableEq σ] (h : Inv mode job st) {s : σ} (hw : ∀ x ∈ st.locks, x.1 ≠ s) :
    Inv mode job { st with locks := st.locks.unlockAll s } := by
  rw [Locks.unlockAll_eq_self hw]
  exact h

variable [DecidableEq τ]

/-- A lost direct connection takes its session, and the section of its tick, with it. -/
theorem Inv.disconnect (h : Inv mode job st)
    (hw : mode = .pooler → ¬(st.phase t).inSection) :
    Inv mode job ({ st.goto t .closed with
      locks := st.locks.filter (fun x ↦ st.owner x.1 ≠ some t) }.disown t) := by
  have hout :
      ¬(({ st.goto t .closed with
        locks := st.locks.filter (fun x ↦ st.owner x.1 ≠ some t) } : State τ σ).phase
          t).inSection := by
    have hself : (st.goto t .closed).phase t = .closed := by simp [State.goto]
    rw [hself]
    decide
  by_cases ht : (st.phase t).inSection
  · have hmode : mode = .direct := by
      cases mode with
      | direct => rfl
      | pooler => exact absurd ht (hw rfl)
    subst hmode
    refine Inv.disown (h.leave ht (by decide) (by decide) ?_ ?_) hout
    · intro x hx
      simp only [List.mem_filter, decide_eq_true_eq] at hx
      refine ⟨hx.1, ?_⟩
      intro hk
      exact hx.2 (h.owner_of_mem ht (hk ▸ hx.1))
    · intro k hk
      unfold Locks.held
      rw [List.filter_filter]
      apply List.filter_congr
      intro x hx
      obtain ⟨u, hu, hku, hown⟩ := h.lockOwned x hx
      by_cases hxk : x.2 = k
      · have hut : u ≠ t := by
          rintro rfl
          exact hk (hxk.symm.trans hku)
        simp [hxk, hown rfl, hut]
      · simp [hxk]
  · have hkeep : st.locks.filter (fun x ↦ st.owner x.1 ≠ some t) = st.locks := by
      rw [List.filter_eq_self]
      intro x hx
      rw [decide_eq_true_eq]
      intro hown
      obtain ⟨u, hu, _, howner⟩ := h.lockOwned x hx
      cases mode with
      | direct =>
        have hut : u = t := Option.some.inj ((howner rfl).symm.trans hown)
        exact ht (hut ▸ hu)
      | pooler =>
        rw [h.noOwner rfl] at hown
        cases hown
    refine Inv.disown ?_ hout
    rw [hkeep]
    exact h.goto (p := .closed) (by decide) (iff_of_false (by decide) ht)

variable [DecidableEq σ] {st' : State τ σ} {e : Event τ σ}

/-- A direct connection routes every statement to the right session. -/
theorem wellRouted_of_direct (h : Inv .direct job st) (hstep : step .direct job st e = some st')
    (he : ∀ t, e ≠ .disconnect t) : WellRouted job st e := by
  cases e with
  | tryLock t s =>
    simp only [step, routable, Option.ite_none_right_eq_some, decide_eq_true_eq] at hstep
    obtain ⟨⟨hphase, hs⟩, _⟩ := hstep
    intro hheld
    obtain ⟨u, hu, _, hown⟩ := h.lockOwned _ hheld
    have hut : t = u := Option.some.inj (hs.symm.trans (hown rfl))
    rw [← hut, hphase] at hu
    revert hu
    decide
  | unlock t s =>
    simp only [step, routable, Option.ite_none_right_eq_some, decide_eq_true_eq] at hstep
    obtain ⟨⟨hphase, hs⟩, _⟩ := hstep
    have ht : (st.phase t).inSection := .inr hphase
    obtain ⟨s', hs'⟩ := h.mem_locks_iff ht
    have hown := h.owner_of_mem ht ((hs' s').mpr rfl)
    exact (hs' s).mpr (h.ownerUnique t s s' hs hown)
  | release t s =>
    simp only [step, routable, Option.ite_none_right_eq_some, decide_eq_true_eq] at hstep
    obtain ⟨⟨hphase, hs⟩, _⟩ := hstep
    intro x hx hxs
    obtain ⟨u, hu, _, hown⟩ := h.lockOwned x hx
    have hut : t = u := Option.some.inj (hs.symm.trans (hxs ▸ hown rfl))
    rw [← hut, hphase] at hu
    revert hu
    decide
  | resetOther s =>
    simp only [step, true_and, Option.ite_none_left_eq_some, ne_eq, not_not] at hstep
    intro x hx hxs
    obtain ⟨u, _, _, hown⟩ := h.lockOwned x hx
    have hu := hown rfl
    rw [hxs, hstep.1] at hu
    cases hu
  | disconnect t => exact absurd rfl (he t)
  | _ => trivial

/-- The lock request, sent to a session that does not hold the key, is granted exactly when
no tick of the job is in its section. -/
theorem Inv.tryLock (h : Inv mode job st) {s : σ} (ht : st.phase t = .connected)
    (hroute : mode = .direct → st.owner s = some t) (hw : (s, (job t).lockKey) ∉ st.locks) :
    Inv mode job
      { st.goto t (if (st.locks.tryLock s (job t).lockKey).1 then .body else .leaving) with
        locks := (st.locks.tryLock s (job t).lockKey).2 } := by
  by_cases hbusy : ∃ u, job u = job t ∧ (st.phase u).inSection
  · obtain ⟨u, hj, hu⟩ := hbusy
    obtain ⟨s', hs'⟩ := h.mem_locks_iff hu
    rw [hj] at hs'
    have hne : s' ≠ s := by
      rintro rfl
      exact hw ((hs' s').mpr rfl)
    rw [Locks.tryLock_of_held_other ((hs' s').mpr rfl) hne]
    exact h.goto (p := .leaving) (by decide) (by rw [ht]; decide)
  · push Not at hbusy
    rw [Locks.tryLock_of_held_nil s (h.held_nil hbusy)]
    exact h.enter ht hroute hbusy

/-- The unlock, sent to the session that holds the key, ends the section. -/
theorem Inv.unlock (h : Inv mode job st) {s : σ} (ht : (st.phase t).inSection)
    (hw : (s, (job t).lockKey) ∈ st.locks) :
    Inv mode job { st.goto t .leaving with locks := st.locks.unlock s (job t).lockKey } := by
  obtain ⟨s', hs'⟩ := h.sectionHeld t ht
  have hss : s = s' := by
    have hmem : (s, (job t).lockKey) ∈ st.locks.held (job t).lockKey :=
      Locks.mem_held.mpr ⟨hw, rfl⟩
    rw [hs', List.mem_singleton] at hmem
    exact congrArg Prod.fst hmem
  have hnil : (st.locks.unlock s (job t).lockKey).held (job t).lockKey = [] := by
    rw [Locks.held_unlock, hs', hss, List.erase_cons_head]
  refine h.leave ht (by decide) (by decide) ?_ ?_
  · intro x hx
    refine ⟨List.mem_of_mem_erase hx, ?_⟩
    intro hk
    have hmem := Locks.mem_held.mpr ⟨hx, hk⟩
    rw [hnil] at hmem
    cases hmem
  · intro k hk
    rw [Locks.held_unlock]
    apply List.erase_of_not_mem
    intro hmem
    exact hk (Locks.mem_held.mp hmem).2.symm

/-- Every step of a tick whose statements are routed well keeps the invariant. -/
theorem Inv.step (h : Inv mode job st) (hok : mode = .pooler → WellRouted job st e)
    (hstep : step mode job st e = some st') : Inv mode job st' := by
  have hw : (∀ t, e ≠ .disconnect t) → WellRouted job st e := by
    intro he
    cases mode with
    | direct => exact wellRouted_of_direct h hstep he
    | pooler => exact hok rfl
  cases e with
  | acquire t s =>
    simp only [Lock.step, acquire, Option.ite_none_right_eq_some] at hstep
    obtain ⟨hphase, hstep⟩ := hstep
    have hgoto := h.goto (t := t) (p := .connected) (by decide) (by rw [hphase]; decide)
    cases mode with
    | direct =>
      simp only [Option.ite_none_right_eq_some, Option.some.injEq] at hstep
      obtain ⟨hs, rfl⟩ := hstep
      refine hgoto.own ?_ hs ?_
      · simp [State.goto]
      · intro s' hs'
        exact h.ownerStarted t s' hs' hphase
    | pooler =>
      rw [Option.some.injEq] at hstep
      subst hstep
      exact hgoto
  | tryLock t s =>
    have hrouted := hw (by simp)
    simp only [Lock.step, Option.ite_none_right_eq_some, Option.some.injEq] at hstep
    obtain ⟨⟨hphase, hroute⟩, rfl⟩ := hstep
    refine h.tryLock hphase ?_ hrouted
    rintro rfl
    simpa [routable] using hroute
  | lockRaises t =>
    simp only [Lock.step, Option.ite_none_right_eq_some, Option.some.injEq] at hstep
    obtain ⟨hphase, rfl⟩ := hstep
    exact h.goto (by decide) (by rw [hphase]; decide)
  | statement t raises =>
    simp only [Lock.step, Option.ite_none_right_eq_some, Option.some.injEq] at hstep
    obtain ⟨hphase, rfl⟩ := hstep
    cases raises with
    | false => exact h.goto (by decide) (by rw [hphase]; decide)
    | true => exact h.goto (by decide) (by rw [hphase]; decide)
  | bodyReturns t =>
    simp only [Lock.step, Option.ite_none_right_eq_some, Option.some.injEq] at hstep
    obtain ⟨hphase, rfl⟩ := hstep
    exact h.goto (by decide) (by rw [hphase]; decide)
  | unlock t s =>
    have hrouted := hw (by simp)
    simp only [Lock.step, Option.ite_none_right_eq_some, Option.some.injEq] at hstep
    obtain ⟨⟨hphase, _⟩, rfl⟩ := hstep
    exact h.unlock (.inr hphase) hrouted
  | release t s =>
    have hrouted := hw (by simp)
    simp only [Lock.step, Option.ite_none_right_eq_some, Option.some.injEq] at hstep
    obtain ⟨⟨hphase, _⟩, rfl⟩ := hstep
    have hgoto := h.goto (t := t) (p := .closed) (by decide) (by rw [hphase]; decide)
    refine Inv.disown (hgoto.unlockAll hrouted) ?_
    have hself : (st.goto t .closed).phase t = .closed := by simp [State.goto]
    change ¬((st.goto t .closed).phase t).inSection
    rw [hself]
    decide
  | disconnect t =>
    simp only [Lock.step, Option.ite_none_left_eq_some, Option.some.injEq] at hstep
    obtain ⟨_, rfl⟩ := hstep
    exact h.disconnect hok
  | resetOther s =>
    have hrouted := hw (by simp)
    simp only [Lock.step, Option.ite_none_left_eq_some, Option.some.injEq] at hstep
    obtain ⟨_, rfl⟩ := hstep
    exact h.unlockAll hrouted

end Steps

/-! ### Runs -/

/-- Two ticks of the fusion job behind the pooler, each on a session of its own: the second asks
for the lock while the first runs. -/
def refusedTick : List (Event Nat Nat) :=
  [.acquire 0 0, .acquire 1 1, .tryLock 0 0, .statement 0 false, .tryLock 1 1, .release 1 1,
    .bodyReturns 0, .unlock 0 0, .release 0 0]

/-- The state after statements of ticks of the fusion job. -/
def afterStatements (events : List (Event Nat Nat)) : State Nat Nat :=
  play (step .pooler (fun _ ↦ .fusion)) .start events

/-- Two ticks of the fusion job behind the pooler whose lock requests share a session. -/
def sharedSession : List (Event Nat Nat) :=
  [.acquire 0 0, .acquire 1 0, .tryLock 0 0, .tryLock 1 0]

/-- One tick of the fusion job behind the pooler whose unlock runs on another session. -/
def strayUnlock : List (Event Nat Nat) :=
  [.acquire 0 0, .tryLock 0 0, .bodyReturns 0, .unlock 0 1]

end PotholeServer.Lock
