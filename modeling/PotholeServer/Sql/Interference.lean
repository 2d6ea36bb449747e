import PotholeServer.Sql.Effects

/-!
# Programs under interference

A program that others run beside. Before each request they may change the store, as far as they
are relied on; the judgement `Under` holds when every statement that the server answers in these
surroundings is one that may be made, and every end is in the postcondition. There is a rule for
each form of program.
-/

namespace PotholeServer.Sql

variable {S W L α β : Type}

/-- What a program may rely on between two requests, which effects its statements may have on a
view and a transaction (and the store that the program's last request left), and which faults may
hit it. -/
structure Surroundings (S W : Type) where
  rely : S → S → Prop
  made : S → S → Txn W → List W → Prop
  fails : Fault → Prop

variable [Effect W S]

/-- The snapshot of a statement. -/
def viewOf (s : S) (t : Txn W) : S := Conn.view (L := Unit) ⟨s, t, []⟩

/-- The server answers a request on a store and a transaction. -/
def answerOn (s : S) (t : Txn W) (r : Request S W L) : Except PgError S × Conn S W L :=
  Conn.answer ⟨s, t, []⟩ r

/-- The request fails. -/
def failOn (s : S) (t : Txn W) (r : Request S W L) (f : Fault) : Except PgError S × Conn S W L :=
  Conn.fail ⟨s, t, []⟩ r f

/-- The transaction after a statement with these effects. -/
def Txn.push (t : Txn W) (ws : List W) : Txn W :=
  match t with
  | .active p => .active (p ++ ws)
  | t => t

/-- The store after a statement with these effects. -/
def written (s : S) (t : Txn W) (ws : List W) : S :=
  match t with
  | .active _ => s
  | _ => applyAll ws s

/-- The store after the commit of a transaction. -/
def committed (s : S) (t : Txn W) : S :=
  match t with
  | .active p => applyAll p s
  | _ => s

omit [Effect W S] in
theorem Txn.push_nil (t : Txn W) : t.push [] = t := by
  cases t with
  | active p => rw [Txn.push, List.append_nil]
  | _ => rfl

theorem written_nil (s : S) (t : Txn W) : written s t [] = s := by
  cases t <;> rfl

/-- What a failed statement makes of a transaction: it stays, or it is aborted. -/
inductive StillIn : Txn W → Txn W → Prop where
  | refl (t : Txn W) : StillIn t t
  | abort (p : List W) : StillIn (.active p) .aborted

/-- The transaction and the store after the answer to a request. -/
inductive Answers (s : S) (t : Txn W) : Request S W L → Txn W → S → Prop where
  | refused {l : L} {stmt : S → Except PgError (List W)} {t' : Txn W} (h : StillIn t t') :
    Answers s t (.sql l stmt) t' s
  | made {l : L} {stmt : S → Except PgError (List W)} {ws : List W} (ht : t ≠ .aborted)
    (h : stmt (viewOf s t) = .ok ws) : Answers s t (.sql l stmt) (t.push ws) (written s t ws)
  | begin : Answers s t .begin (.active []) s
  | commit : Answers s t .commit .auto (committed s t)
  | rollback : Answers s t .rollback .auto s

/-! ### What a request does -/

section Requests

variable {s : S} {t : Txn W} {l : L} {q : S → Except PgError (List W)}

theorem answerOn_sql_ok {ws : List W} (ht : t ≠ .aborted) (h : q (viewOf s t) = .ok ws) :
    (answerOn s t (.sql l q)).1 = .ok (viewOf s t) ∧
      (answerOn s t (.sql l q)).2.txn = t.push ws ∧
      (answerOn s t (.sql l q)).2.store = written s t ws := by
  cases t with
  | aborted => exact absurd rfl ht
  | auto =>
    have h' : q s = .ok ws := h
    simp only [answerOn, Conn.answer, Conn.view, h']
    exact ⟨rfl, rfl, rfl⟩
  | active p =>
    have h' : q (applyAll p s) = .ok ws := h
    simp only [answerOn, Conn.answer, Conn.view, h']
    exact ⟨rfl, rfl, rfl⟩

/-- A statement that the server refuses. -/
theorem answerOn_sql_error {e : PgError} (h : t = .aborted ∨ q (viewOf s t) = .error e) :
    ∃ e', (answerOn s t (.sql l q)).1 = .error e' ∧
      StillIn t (answerOn s t (.sql l q)).2.txn ∧
      (answerOn s t (.sql l q)).2.store = s := by
  cases t with
  | aborted => exact ⟨_, rfl, .refl _, rfl⟩
  | auto =>
    have h' : q s = .error e := h.resolve_left (fun h ↦ by cases h)
    simp only [answerOn, Conn.answer, Conn.view, h']
    exact ⟨e, rfl, .refl _, rfl⟩
  | active p =>
    have h' : q (applyAll p s) = .error e := h.resolve_left (fun h ↦ by cases h)
    simp only [answerOn, Conn.answer, Conn.view, h']
    exact ⟨e, rfl, .abort _, rfl⟩

theorem answers (s : S) (t : Txn W) (r : Request S W L) :
    Answers s t r (answerOn s t r).2.txn (answerOn s t r).2.store := by
  cases r with
  | begin => exact .begin
  | rollback => exact .rollback
  | commit => cases t <;> exact .commit
  | sql l stmt =>
    by_cases ht : t = .aborted
    · obtain ⟨_, _, hstill, hstore⟩ := answerOn_sql_error (s := s) (l := l) (q := stmt)
        (e := inFailedTransaction) (.inl ht)
      rw [hstore]
      exact .refused hstill
    · cases hq : stmt (viewOf s t) with
      | ok ws =>
        obtain ⟨_, htxn, hstore⟩ := answerOn_sql_ok (l := l) ht hq
        rw [htxn, hstore]
        exact .made ht hq
      | error e =>
        obtain ⟨_, _, hstill, hstore⟩ := answerOn_sql_error (l := l) (.inr hq)
        rw [hstore]
        exact .refused hstill

omit [Effect W S] in
theorem failOn_sql (s : S) (t : Txn W) (l : L) (stmt : S → Except PgError (List W)) (f : Fault) :
    ∃ e, (failOn s t (.sql l stmt) f).1 = .error e ∧
      StillIn t (failOn s t (.sql l stmt) f).2.txn ∧ (failOn s t (.sql l stmt) f).2.store = s := by
  cases f with
  | client e => exact ⟨e, rfl, .refl _, rfl⟩
  | server e =>
    cases t with
    | auto => exact ⟨e, rfl, .refl _, rfl⟩
    | active p => exact ⟨e, rfl, .abort _, rfl⟩
    | aborted => exact ⟨e, rfl, .refl _, rfl⟩

end Requests

namespace Prog

/-- What is required of a program on a transaction and a store in its surroundings. -/
def Under (env : Surroundings S W) (Q : Except Exn α → Txn W → S → Prop) :
    Prog S W L α → Txn W → S → Prop
  | ret r, t, s => Q r t s
  | req r k, t, s => ∀ s', env.rely s s' →
      (∀ l stmt ws, r = .sql l stmt → t ≠ .aborted → stmt (viewOf s' t) = .ok ws →
        env.made s (viewOf s' t) t ws) ∧
      (k (answerOn s' t r).1).Under env Q (answerOn s' t r).2.txn (answerOn s' t r).2.store ∧
      ∀ f, env.fails f →
        (k (failOn s' t r f).1).Under env Q (failOn s' t r f).2.txn (failOn s' t r f).2.store

section Under

variable {env : Surroundings S W} {Q Q' : Except Exn α → Txn W → S → Prop} {t : Txn W} {s : S}

theorem under_pure {a : α} (h : Q (.ok a) t s) : (pure a : Prog S W L α).Under env Q t s := h

theorem under_raise {e : Exn} (h : Q (.error e) t s) :
    (raise e : Prog S W L α).Under env Q t s := h

theorem under_mono {x : Prog S W L α} (h : x.Under env Q t s)
    (hQ : ∀ r t' s', Q r t' s' → Q' r t' s') : x.Under env Q' t s := by
  induction x generalizing t s with
  | ret r => exact hQ _ _ _ h
  | req r k ih =>
    intro s' hs
    obtain ⟨hmade, hanswer, hfail⟩ := h s' hs
    exact ⟨hmade, ih _ hanswer, fun f hf ↦ ih _ (hfail f hf)⟩

/-- Sequencing: the rest is judged from where the first part ends. -/
theorem under_bind {x : Prog S W L β} {f : β → Prog S W L α}
    (h : x.Under env (fun r t' s' ↦ (∀ b, r = .ok b → (f b).Under env Q t' s') ∧
      ∀ e, r = .error e → Q (.error e) t' s') t s) : (x >>= f).Under env Q t s := by
  change (x.bind f).Under env Q t s
  induction x generalizing t s with
  | ret r =>
    cases r with
    | ok b => exact h.1 b rfl
    | error e => exact h.2 e rfl
  | req r k ih =>
    intro s' hs
    obtain ⟨hmade, hanswer, hfail⟩ := h s' hs
    exact ⟨hmade, ih _ hanswer, fun f hf ↦ ih _ (hfail f hf)⟩

theorem under_attempt {x : Prog S W L β} {Q : Except Exn (Except Exn β) → Txn W → S → Prop}
    (h : x.Under env (fun r t' s' ↦ Q (.ok r) t' s') t s) : x.attempt.Under env Q t s := by
  induction x generalizing t s with
  | ret r => exact h
  | req r k ih =>
    intro s' hs
    obtain ⟨hmade, hanswer, hfail⟩ := h s' hs
    exact ⟨hmade, ih _ hanswer, fun f hf ↦ ih _ (hfail f hf)⟩

theorem under_tryFinally {x : Prog S W L α} {y : Prog S W L Unit}
    (h : x.Under env (fun r t' s' ↦ y.Under env (fun r' t'' s'' ↦
      (r' = .ok () → Q r t'' s'') ∧ ∀ e, r' = .error e → Q (.error e) t'' s'') t' s') t s) :
    (tryFinally x y).Under env Q t s := by
  rw [tryFinally]
  refine under_bind (under_attempt (under_mono h ?_))
  intro r t' s' hy
  refine ⟨?_, fun e he ↦ by cases he⟩
  intro r' hr'
  cases hr'
  refine under_bind (under_mono hy ?_)
  intro r' t'' s'' hQ
  exact ⟨fun _ hb ↦ hQ.1 hb, hQ.2⟩

/-- Why a statement can fail: a fault, an aborted transaction, or the server refuses it. -/
def Refused (env : Surroundings S W) (s : S) (t : Txn W) {γ : Type} (q : S → Except PgError γ) :
    Prop :=
  (∃ f, env.fails f) ∨ t = .aborted ∨ ∃ e, q (viewOf s t) = .error e

/-- A statement. -/
theorem under_execute {l : L} {stmt : S → Except PgError (List W)}
    {Q : Except Exn Unit → Txn W → S → Prop}
    (hmade : ∀ s' ws, env.rely s s' → t ≠ .aborted → stmt (viewOf s' t) = .ok ws →
      env.made s (viewOf s' t) t ws)
    (hok : ∀ s' ws, env.rely s s' → t ≠ .aborted → stmt (viewOf s' t) = .ok ws →
      Q (.ok ()) (t.push ws) (written s' t ws))
    (herr : ∀ s' e t', env.rely s s' → Refused env s' t stmt → StillIn t t' →
      Q (.error e) t' s') : (execute l stmt).Under env Q t s := by
  intro s' hs
  refine ⟨?_, ?_, ?_⟩
  · intro l' stmt' ws heq ht hws
    cases heq
    exact hmade s' ws hs ht hws
  · by_cases ht : t = .aborted
    · obtain ⟨e, hreply, hstill, hstore⟩ := answerOn_sql_error (s := s') (l := l)
        (e := inFailedTransaction) (.inl ht)
      rw [hreply, hstore]
      exact herr s' _ _ hs (.inr (.inl ht)) hstill
    · cases hq : stmt (viewOf s' t) with
      | ok ws =>
        obtain ⟨hreply, htxn, hstore⟩ := answerOn_sql_ok (l := l) ht hq
        rw [hreply, htxn, hstore]
        exact hok s' ws hs ht hq
      | error e =>
        obtain ⟨e', hreply, hstill, hstore⟩ := answerOn_sql_error (l := l) (.inr hq)
        rw [hreply, hstore]
        exact herr s' _ _ hs (.inr (.inr ⟨e, hq⟩)) hstill
  · intro f hf
    obtain ⟨e, hreply, hstill, hstore⟩ := failOn_sql s' t l stmt f
    rw [hreply, hstore]
    exact herr s' _ _ hs (.inl ⟨f, hf⟩) hstill

/-- A query. -/
theorem under_fetch {l : L} {q : S → Except PgError α}
    (hmade : ∀ s', env.rely s s' → env.made s (viewOf s' t) t [])
    (hok : ∀ s' a, env.rely s s' → t ≠ .aborted → q (viewOf s' t) = .ok a → Q (.ok a) t s')
    (herr : ∀ s' e t', env.rely s s' → Refused env s' t q → StillIn t t' → Q (.error e) t' s') :
    (fetch l q : Prog S W L α).Under env Q t s := by
  intro s' hs
  refine ⟨?_, ?_, ?_⟩
  · intro l' stmt' ws heq _ hws
    cases heq
    dsimp only at hws
    cases hq : q (viewOf s' t) with
    | error e => rw [hq] at hws; cases hws
    | ok a => rw [hq] at hws; cases hws; exact hmade s' hs
  · by_cases ht : t = .aborted
    · obtain ⟨e, hreply, hstill, hstore⟩ := answerOn_sql_error (s := s') (l := l)
        (q := fun s ↦ (q s).map (fun _ ↦ ([] : List W))) (e := inFailedTransaction) (.inl ht)
      rw [hreply, hstore]
      exact herr s' _ _ hs (.inr (.inl ht)) hstill
    · cases hq : q (viewOf s' t) with
      | ok a =>
        obtain ⟨hreply, htxn, hstore⟩ := answerOn_sql_ok (l := l)
          (q := fun s ↦ (q s).map (fun _ ↦ ([] : List W))) ht (by rw [hq]; rfl)
        rw [hreply, htxn, hstore, Txn.push_nil, written_nil]
        simp only [hq]
        exact hok s' a hs ht hq
      | error e =>
        obtain ⟨e', hreply, hstill, hstore⟩ := answerOn_sql_error (s := s') (t := t) (l := l)
          (q := fun s ↦ (q s).map (fun _ ↦ ([] : List W))) (e := e) (.inr (by rw [hq]; rfl))
        rw [hreply, hstore]
        exact herr s' _ _ hs (.inr (.inr ⟨e, hq⟩)) hstill
  · intro f hf
    obtain ⟨e, hreply, hstill, hstore⟩ := failOn_sql s' t l
      (fun s ↦ (q s).map (fun _ ↦ ([] : List W))) f
    rw [hreply, hstore]
    exact herr s' _ _ hs (.inl ⟨f, hf⟩) hstill

/-- The control of a transaction. -/
theorem under_control {r : Request S W L} {Q : Except Exn Unit → Txn W → S → Prop}
    (hr : ∀ l stmt, r ≠ .sql l stmt)
    (hok : ∀ s', env.rely s s' → Q (raised (answerOn s' t r).1) (answerOn s' t r).2.txn
      (answerOn s' t r).2.store)
    (herr : ∀ s' f, env.rely s s' → env.fails f → Q (raised (failOn s' t r f).1)
      (failOn s' t r f).2.txn (failOn s' t r f).2.store) : (control r).Under env Q t s := by
  intro s' hs
  refine ⟨fun l stmt _ heq ↦ absurd heq (hr l stmt), ?_, ?_⟩
  · have hQ := hok s' hs
    cases hreply : (answerOn s' t r).1 with
    | ok _ => rw [hreply] at hQ; exact hQ
    | error _ => rw [hreply] at hQ; exact hQ
  · intro f hf
    have hQ := herr s' f hs hf
    cases hreply : (failOn s' t r f).1 with
    | ok _ => rw [hreply] at hQ; exact hQ
    | error _ => rw [hreply] at hQ; exact hQ

/-- A program that only emits what may be made. -/
theorem under_of_emits {P : W → Prop} {x : Prog S W L α} (hx : x.Emits P)
    (hmade : ∀ s v t ws, (∀ w ∈ ws, P w) → env.made s v t ws) (hQ : ∀ r t s, Q r t s) :
    x.Under env Q t s := by
  induction x generalizing t s with
  | ret r => exact hQ _ _ _
  | req r k ih =>
    intro s' _
    refine ⟨?_, ih _ (hx.2 _), fun f _ ↦ ih _ (hx.2 _)⟩
    intro l stmt ws hr _ hws
    exact hmade _ _ _ _ (hx.1 l stmt hr _ ws hws)

/-- A transaction: the body runs in an open one; then its effects are committed, or given up after
an exception. -/
theorem under_transaction {x : Prog S W L α}
    (hbegin : ∀ s' e f, env.rely s s' → env.fails f → Q (.error e) .auto s')
    (hbody : ∀ s', env.rely s s' → x.Under env (fun r t' s₁ ↦ ∀ s₂, env.rely s₁ s₂ →
      (∀ a, r = .ok a → Q (.ok a) .auto (committed s₂ t')) ∧
      ∀ e, (r = .error e ∨ ∃ f, env.fails f) → Q (.error e) .auto s₂) (.active []) s') :
    (transaction x).Under env Q .auto s := by
  rw [transaction]
  refine under_bind (under_control (fun _ _ h ↦ by cases h) ?_ ?_)
  · intro s' hs
    refine ⟨fun _ _ ↦ ?_, fun e he ↦ by cases he⟩
    refine under_bind (under_attempt (under_mono (hbody s' hs) ?_))
    intro r t' s₁ hend
    refine ⟨?_, fun e he ↦ by cases he⟩
    intro r' hr'
    cases hr'
    cases r with
    | ok a =>
      refine under_bind (under_control (fun _ _ h ↦ by cases h) ?_ ?_)
      · intro s₂ hs₂
        refine ⟨fun _ _ ↦ ?_, fun e he ↦ by cases he⟩
        have hQ := (hend s₂ hs₂).1 a rfl
        cases t' <;> exact hQ
      · intro s₂ f hs₂ hf
        have hQ : ∀ e, Q (.error e) .auto s₂ := fun e ↦ (hend s₂ hs₂).2 e (.inr ⟨f, hf⟩)
        cases f <;> exact ⟨fun _ hb ↦ (by cases hb), fun e he ↦ (by cases he; exact hQ _)⟩
    | error e =>
      refine under_bind (under_attempt (under_control (fun _ _ h ↦ by cases h) ?_ ?_))
      · intro s₂ hs₂
        exact ⟨fun _ _ ↦ (hend s₂ hs₂).2 e (.inl rfl), fun e' he ↦ by cases he⟩
      · intro s₂ f hs₂ _
        have hQ := (hend s₂ hs₂).2 e (.inl rfl)
        cases f <;> exact ⟨fun _ _ ↦ hQ, fun e' he ↦ by cases he⟩
  · intro s' f hs hf
    have hQ : ∀ e, Q (.error e) .auto s' := fun e ↦ hbegin s' e f hs hf
    cases f <;> exact ⟨fun _ hb ↦ (by cases hb), fun e he ↦ (by cases he; exact hQ _)⟩

end Under

end Prog

end PotholeServer.Sql
