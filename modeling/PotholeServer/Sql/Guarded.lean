import PotholeServer.Sql.Effects

/-!
# Invariants that a program relies on

A program that reads states with a property emits certain effects, computed from what it has
read; these effects, and what others commit, keep the property. Then the property holds of all
that the program reads and of every state that is committed, whatever the schedule.
-/

namespace PotholeServer.Sql

variable {S W L U α β : Type} {J : S → Prop} {P : W → Prop}

namespace Prog

/-- As long as the program reads states in `J`, its statements have effects in `P`, and what it
returns is in `Q`. -/
def Guarded (J : S → Prop) (P : W → Prop) (Q : α → Prop) : Prog S W L α → Prop
  | ret r => ∀ a, r = .ok a → Q a
  | req r k => (∀ l stmt, r = .sql l stmt → ∀ s ws, J s → stmt s = .ok ws → ∀ w ∈ ws, P w) ∧
    (∀ s, J s → (k (.ok s)).Guarded J P Q) ∧ ∀ e, (k (.error e)).Guarded J P Q

section Guarded

variable {Q : α → Prop} {Q' : β → Prop}

theorem guarded_pure {a : α} (h : Q a) : (pure a : Prog S W L α).Guarded J P Q := by
  intro b hb
  cases hb
  exact h

theorem guarded_raise (e : Exn) : (raise e : Prog S W L α).Guarded J P Q := fun _ h ↦ by cases h

theorem guarded_ofExcept {r : Except Exn α} (h : ∀ a, r = .ok a → Q a) :
    (ofExcept r : Prog S W L α).Guarded J P Q := h

theorem guarded_bind {x : Prog S W L α} {f : α → Prog S W L β} (hx : x.Guarded J P Q)
    (hf : ∀ a, Q a → (f a).Guarded J P Q') : (x >>= f).Guarded J P Q' := by
  change (x.bind f).Guarded J P Q'
  induction x with
  | ret r =>
    cases r with
    | ok a => exact hf a (hx a rfl)
    | error e => exact guarded_raise e
  | req r k ih =>
    obtain ⟨heffects, hok, herror⟩ := hx
    exact ⟨heffects, fun s hs ↦ ih _ (hok s hs), fun e ↦ ih _ (herror e)⟩

theorem guarded_attempt {x : Prog S W L α} (hx : x.Guarded J P Q) :
    x.attempt.Guarded J P (fun r ↦ ∀ a, r = .ok a → Q a) := by
  induction x with
  | ret r =>
    intro r' hr'
    cases hr'
    exact hx
  | req r k ih =>
    obtain ⟨heffects, hok, herror⟩ := hx
    exact ⟨heffects, fun s hs ↦ ih _ (hok s hs), fun e ↦ ih _ (herror e)⟩

theorem guarded_control {r : Request S W L}
    (h : ∀ l stmt, r = .sql l stmt → ∀ s ws, J s → stmt s = .ok ws → ∀ w ∈ ws, P w) :
    (control r).Guarded J P (fun _ ↦ True) :=
  ⟨h, fun _ _ _ _ ↦ trivial, fun _ _ h ↦ by cases h⟩

theorem guarded_execute {l : L} {stmt : S → Except PgError (List W)}
    (h : ∀ s ws, J s → stmt s = .ok ws → ∀ w ∈ ws, P w) :
    (execute l stmt).Guarded J P (fun _ ↦ True) := by
  refine guarded_control ?_
  intro l' stmt' heq
  cases heq
  exact h

/-- A statement with one fixed effect. -/
theorem guarded_effect {l : L} {w : W} (h : P w) :
    (execute l (fun _ ↦ .ok [w]) : Prog S W L Unit).Guarded J P (fun _ ↦ True) := by
  apply guarded_execute
  intro s ws _ hws w' hw'
  cases hws
  cases List.mem_singleton.mp hw'
  exact h

/-- A statement without effects. -/
theorem guarded_nothing {l : L} :
    (execute l (fun _ ↦ .ok []) : Prog S W L Unit).Guarded J P (fun _ ↦ True) := by
  apply guarded_execute
  intro s ws _ hws w hw
  cases hws
  cases hw

/-- A query returns what it computes from a state in `J`. -/
theorem guarded_fetch {l : L} {q : S → Except PgError α} (h : ∀ s a, J s → q s = .ok a → Q a) :
    (fetch l q : Prog S W L α).Guarded J P Q := by
  refine ⟨?_, ?_, fun _ _ h ↦ by cases h⟩
  · intro l' stmt' heq s ws _ hws w hw
    cases heq
    dsimp only at hws
    cases hq : q s with
    | error e =>
      rw [hq] at hws
      cases hws
    | ok a =>
      rw [hq] at hws
      cases hws
      cases hw
  · intro s hs
    dsimp only
    cases hq : q s with
    | error e => exact guarded_raise _
    | ok a => exact guarded_pure (h s a hs hq)

theorem guarded_transaction {x : Prog S W L α} (hx : x.Guarded J P Q) :
    (transaction x).Guarded J P Q := by
  have hcontrol : ∀ r : Request S W L, (∀ l stmt, r ≠ .sql l stmt) →
      (control r).Guarded J P (fun _ ↦ True) :=
    fun r hr ↦ guarded_control (fun l stmt heq ↦ absurd heq (hr l stmt))
  rw [transaction]
  refine guarded_bind (hcontrol _ (fun _ _ h ↦ by cases h)) (fun _ _ ↦
    guarded_bind (guarded_attempt hx) ?_)
  intro r hr
  cases r with
  | ok a =>
    exact guarded_bind (hcontrol _ (fun _ _ h ↦ by cases h)) (fun _ _ ↦ guarded_pure (hr a rfl))
  | error e =>
    exact guarded_bind (guarded_attempt (hcontrol _ (fun _ _ h ↦ by cases h)))
      (fun _ _ ↦ guarded_raise e)

theorem guarded_tryFinally {x : Prog S W L α} {y : Prog S W L Unit} (hx : x.Guarded J P Q)
    (hy : y.Guarded J P (fun _ ↦ True)) : (tryFinally x y).Guarded J P Q :=
  guarded_bind (guarded_attempt hx) (fun _ hr ↦
    guarded_bind hy (fun _ _ ↦ guarded_ofExcept hr))

end Guarded

/-! ### Runs -/

section Runs

variable [Effect W S] [Effect U S] {Q : α → Prop} {c : Conn S W L}

/-- Every state that a trace records, read or committed, is in `J`. -/
def TraceIn (J : S → Prop) (trace : List (Entry S W L)) : Prop :=
  (∀ l v ws, .stmt l v ws ∈ trace → J v) ∧ ∀ s, .commit s ∈ trace → J s

/-- The store, what waits in the transaction and the trace are in order. -/
structure Safe (J : S → Prop) (P : W → Prop) (c : Conn S W L) : Prop where
  store : J c.store
  pending : PendingIn P c
  trace : TraceIn J c.trace

omit [Effect W S] [Effect U S] in
theorem TraceIn.commit {trace : List (Entry S W L)} (h : TraceIn J trace) {s : S} (hs : J s) :
    TraceIn J (.commit s :: trace) := by
  constructor
  · intro l v ws hmem
    rcases List.mem_cons.mp hmem with heq | hmem
    · cases heq
    · exact h.1 l v ws hmem
  · intro s' hmem
    rcases List.mem_cons.mp hmem with heq | hmem
    · cases heq
      exact hs
    · exact h.2 s' hmem

omit [Effect W S] [Effect U S] in
theorem TraceIn.stmt {trace : List (Entry S W L)} (h : TraceIn J trace) {l : L} {v : S}
    {ws : List W} (hv : J v) : TraceIn J (.stmt l v ws :: trace) := by
  constructor
  · intro l' v' ws' hmem
    rcases List.mem_cons.mp hmem with heq | hmem
    · cases heq
      exact hv
    · exact h.1 l' v' ws' hmem
  · intro s hmem
    rcases List.mem_cons.mp hmem with heq | hmem
    · cases heq
    · exact h.2 s hmem

omit [Effect U S] in
/-- What a program reads is in `J`. -/
theorem Safe.view (hW : ∀ s w, P w → J s → J (Effect.apply w s)) (h : Safe J P c) : J c.view := by
  unfold Conn.view
  split
  · next p htxn => exact applyAll_keeps hW (h.pending p htxn) h.store
  · exact h.store

omit [Effect W S] in
theorem Safe.receive (hU : ∀ (u : U) s, J s → J (Effect.apply u s)) (h : Safe J P c)
    (us : List U) : Safe J P (c.receive us) := by
  induction us generalizing c with
  | nil => exact h
  | cons u rest ih =>
    have hs := hU u c.store h.store
    exact ih (c := c.install (Effect.apply u c.store)) ⟨hs, h.pending, h.trace.commit hs⟩

omit [Effect U S] in
/-- An answered request leaves all in order, and its reply is in `J`. -/
theorem Safe.answer (hW : ∀ s w, P w → J s → J (Effect.apply w s)) (h : Safe J P c)
    {r : Request S W L}
    (hr : ∀ l stmt, r = .sql l stmt → ∀ s ws, J s → stmt s = .ok ws → ∀ w ∈ ws, P w) :
    Safe J P (c.answer r).2 ∧ ∀ s, (c.answer r).1 = .ok s → J s := by
  have hnone : ∀ {c' : Conn S W L}, c'.txn = .auto → PendingIn P c' := by
    intro c' hc' p hp
    rw [hc'] at hp
    cases hp
  cases r with
  | begin =>
    refine ⟨⟨h.store, ?_, h.trace⟩, fun s hs ↦ by cases hs; exact h.store⟩
    intro p hp w hw
    cases hp
    cases hw
  | rollback => exact ⟨⟨h.store, hnone rfl, h.trace⟩, fun s hs ↦ by cases hs; exact h.store⟩
  | commit =>
    refine ⟨?_, fun s hs ↦ by cases hs; exact h.store⟩
    change Safe J P c.commitTxn
    unfold Conn.commitTxn
    split
    · next p htxn =>
      have hs := applyAll_keeps hW (h.pending p htxn) h.store
      exact ⟨hs, hnone rfl, h.trace.commit hs⟩
    · exact ⟨h.store, hnone rfl, h.trace⟩
  | sql l stmt =>
    have hview := h.view hW
    have habort : Safe J P c.abort := by
      unfold Conn.abort
      split
      · exact ⟨h.store, fun p hp ↦ (by cases hp), h.trace⟩
      · exact h
    have hwrite : ∀ ws, stmt c.view = .ok ws → Safe J P (c.write l ws) := by
      intro ws hws
      have hin := hr l stmt rfl _ ws hview hws
      unfold Conn.write
      split
      · next p htxn =>
        refine ⟨h.store, ?_, h.trace.stmt hview⟩
        intro q hq w hw
        cases hq
        rcases List.mem_append.mp hw with hw | hw
        · exact h.pending p htxn w hw
        · exact hin w hw
      · have hs := applyAll_keeps hW hin h.store
        exact ⟨hs, h.pending, (h.trace.stmt hview).commit hs⟩
    unfold Conn.answer
    cases htxn : c.txn with
    | aborted => exact ⟨h, fun s hs ↦ by cases hs⟩
    | auto | active =>
      dsimp only
      cases hstmt : stmt c.view with
      | ok ws => exact ⟨hwrite ws hstmt, fun s hs ↦ by cases hs; exact hview⟩
      | error e => exact ⟨habort, fun s hs ↦ by cases hs⟩

omit [Effect W S] [Effect U S] in
theorem Safe.fail (h : Safe J P c) (r : Request S W L) (f : Fault) :
    Safe J P (c.fail r f).2 ∧ ∃ e, (c.fail r f).1 = .error e := by
  obtain ⟨hstore, hpending⟩ := fail_keeps (J := J) r f h.store h.pending
  obtain ⟨herror, _, htrace, _⟩ := fail_eq c r f
  exact ⟨⟨hstore, hpending, htrace ▸ h.trace⟩, herror⟩

/-- Whatever the schedule, a guarded program reads and leaves states in `J` only. -/
theorem Guarded.run (hW : ∀ s w, P w → J s → J (Effect.apply w s))
    (hU : ∀ (u : U) s, J s → J (Effect.apply u s)) {x : Prog S W L α} (hx : x.Guarded J P Q)
    (sch : Schedule U) (h : Safe J P c) : Safe J P (x.run sch c).conn := by
  induction x generalizing sch c with
  | ret r => exact h
  | req r k ih =>
    obtain ⟨heffects, hok, herror⟩ := hx
    rw [run_req]
    unfold Conn.serve
    have hreceived := h.receive hU (sch 0).arrivals
    split
    · obtain ⟨hsafe, hreply⟩ := hreceived.answer hW heffects
      generalize (Conn.receive c (sch 0).arrivals).answer r = answered at hsafe hreply ⊢
      obtain ⟨reply, c'⟩ := answered
      cases reply with
      | ok s => exact ih _ (hok s (hreply s rfl)) _ hsafe
      | error e => exact ih _ (herror e) _ hsafe
    · next f _ =>
      obtain ⟨hsafe, e, hreply⟩ := hreceived.fail r f
      generalize (Conn.receive c (sch 0).arrivals).fail r f = failed at hsafe hreply ⊢
      obtain ⟨reply, c'⟩ := failed
      cases hreply
      exact ih _ (herror e) _ hsafe

end Runs

end Prog

end PotholeServer.Sql
