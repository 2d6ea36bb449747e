import PotholeServer.Sql.Prog

/-!
# What a session does

Equations for single requests and for a transaction, then rules for what holds of a program
under every schedule. Between two points of a program transactions of other clients arrive,
and nothing else happens to the committed state until a commit of its own; a transaction
either leaves no effect or applies what it collected to the state at its commit.
-/

namespace PotholeServer.Sql

variable {S W L U α β : Type} [Effect W S] [Effect U S]

namespace Prog

/-- The exception, if any, that a reply raises in the program. -/
def raised : Except PgError S → Except Exn Unit
  | .ok _ => .ok ()
  | .error e => .error (.postgresError e)

theorem run_control (r : Request S W L) (sch : Schedule U) (c : Conn S W L) :
    (control r).run sch c =
      ⟨raised (c.serve r (sch 0)).1, fun n ↦ sch (n + 1), (c.serve r (sch 0)).2⟩ := by
  rw [control, run_req]
  cases (c.serve r (sch 0)).1 <;> rfl

theorem run_execute (l : L) (stmt : S → Except PgError (List W)) (sch : Schedule U)
    (c : Conn S W L) :
    (execute l stmt).run sch c =
      ⟨raised (c.serve (.sql l stmt) (sch 0)).1, fun n ↦ sch (n + 1),
        (c.serve (.sql l stmt) (sch 0)).2⟩ := run_control _ _ _

/-- A transaction: `BEGIN`, the body, then `COMMIT` or, after an exception, `ROLLBACK`
and the exception again. -/
theorem run_transaction (body : Prog S W L α) (sch : Schedule U) (c : Conn S W L) :
    (transaction body).run sch c =
      let begun := (control .begin).run sch c
      match begun.result with
      | .error e => ⟨.error e, begun.rest, begun.conn⟩
      | .ok _ =>
        let o := body.run begun.rest begun.conn
        match o.result with
        | .ok a =>
          let done := (control .commit).run o.rest o.conn
          match done.result with
          | .ok _ => ⟨.ok a, done.rest, done.conn⟩
          | .error e => ⟨.error e, done.rest, done.conn⟩
        | .error e =>
          let done := (control .rollback).run o.rest o.conn
          ⟨.error e, done.rest, done.conn⟩ := by
  rw [transaction, run_bind]
  generalize (control .begin).run sch c = begun
  dsimp only
  cases begun.result with
  | error e => rfl
  | ok _ =>
    dsimp only
    rw [run_bind, run_attempt]
    generalize body.run begun.rest begun.conn = o
    dsimp only
    cases o.result with
    | ok a =>
      dsimp only
      rw [run_bind]
      generalize (control .commit).run o.rest o.conn = done
      cases done.result <;> rfl
    | error e =>
      dsimp only
      rw [run_bind, run_attempt]
      rfl

end Prog

/-! ### What happens between two points -/

variable (U) in
/-- Transactions of other clients lead from one state to the other. -/
def Arrived (s s' : S) : Prop := ∃ us : List U, applyAll us s = s'

omit [Effect W S] in
theorem Arrived.refl (s : S) : Arrived U s s := ⟨[], rfl⟩

omit [Effect W S] in
theorem Arrived.trans {s s' s'' : S} (h : Arrived U s s') (h' : Arrived U s' s'') :
    Arrived U s s'' := by
  obtain ⟨us, rfl⟩ := h
  obtain ⟨vs, rfl⟩ := h'
  exact ⟨us ++ vs, applyAll_append us vs s⟩

/-- Nothing arrives when nobody else is connected. -/
theorem Arrived.eq {s s' : S} (h : Arrived Empty s s') : s' = s := by
  obtain ⟨us, rfl⟩ := h
  cases us with
  | nil => rfl
  | cons u _ => exact u.elim

omit [Effect W S] in
/-- What holds of a state and is kept by every arrival holds of every later state. -/
theorem Arrived.invariant {I : S → Prop} (hI : ∀ (u : U) s, I s → I (Effect.apply u s)) {s s' : S}
    (h : Arrived U s s') (hs : I s) : I s' := by
  obtain ⟨us, rfl⟩ := h
  induction us generalizing s with
  | nil => exact hs
  | cons u us ih => exact ih (hI u s hs)

/-- From one connection state to a later one the trace grows, and every state committed in
between, like the last one, is related to the first one by `G`. -/
structure Follows (G : S → S → Prop) (c c' : Conn S W L) : Prop where
  store : G c.store c'.store
  grows : c.trace <:+ c'.trace
  commits : ∀ s, .commit s ∈ c'.trace → .commit s ∈ c.trace ∨ G c.store s

section Follows

variable {G H : S → S → Prop} {c c' c'' : Conn S W L}

omit [Effect W S] in
theorem Follows.refl (h : ∀ s, G s s) (c : Conn S W L) : Follows G c c :=
  ⟨h c.store, List.suffix_rfl, fun _ hs ↦ .inl hs⟩

omit [Effect W S] in
theorem Follows.trans (hG : ∀ s s' s'', G s s' → G s' s'' → G s s'') (h : Follows G c c')
    (h' : Follows G c' c'') : Follows G c c'' where
  store := hG _ _ _ h.store h'.store
  grows := h.grows.trans h'.grows
  commits := by
    intro s hs
    rcases h'.commits s hs with hs | hs
    · exact h.commits s hs
    · exact .inr (hG _ _ _ h.store hs)

omit [Effect W S] in
theorem Follows.mono (hGH : ∀ s s', G s s' → H s s') (h : Follows G c c') : Follows H c c' where
  store := hGH _ _ h.store
  grows := h.grows
  commits := fun s hs ↦ (h.commits s hs).imp id (hGH _ _)

omit [Effect W S] in
theorem Follows.next (h : Follows (Arrived U) c c') (h' : Follows (Arrived U) c' c'') :
    Follows (Arrived U) c c'' := h.trans (fun _ _ _ ↦ Arrived.trans) h'

omit [Effect W S] in
/-- Receiving arrivals commits exactly them. -/
theorem follows_receive (c : Conn S W L) (us : List U) :
    Follows (Arrived U) c (c.receive us) ∧ (c.receive us).txn = c.txn := by
  induction us generalizing c with
  | nil => exact ⟨Follows.refl Arrived.refl c, rfl⟩
  | cons u us ih =>
    have hfirst : Follows (Arrived U) c (c.install (Effect.apply u c.store)) := by
      refine ⟨⟨[u], rfl⟩, List.suffix_cons _ _, ?_⟩
      intro s hs
      rcases List.mem_cons.mp hs with hs | hs
      · cases hs
        exact .inr ⟨[u], rfl⟩
      · exact .inl hs
    obtain ⟨hrest, htxn⟩ := ih (c.install (Effect.apply u c.store))
    exact ⟨hfirst.trans (fun _ _ _ ↦ Arrived.trans) hrest, htxn⟩

end Follows

/-! ### What one request does -/

section Serve

variable {G : S → S → Prop} {c c' c'' : Conn S W L}

omit [Effect W S] in
theorem Follows.of_eq (h : Follows G c c') (hstore : c''.store = c'.store)
    (htrace : c''.trace = c'.trace) : Follows G c c'' where
  store := hstore ▸ h.store
  grows := htrace ▸ h.grows
  commits := htrace ▸ h.commits

omit [Effect W S] in
/-- A failed request changes at most the transaction. -/
theorem fail_eq (c : Conn S W L) (r : Request S W L) (f : Fault) :
    (∃ e, (c.fail r f).1 = .error e) ∧ (c.fail r f).2.store = c.store ∧
      (c.fail r f).2.trace = c.trace ∧ (c.txn = .auto → (c.fail r f).2.txn = .auto) := by
  have habort : c.abort.store = c.store ∧ c.abort.trace = c.trace ∧
      (c.txn = .auto → c.abort.txn = .auto) := by
    unfold Conn.abort
    split
    · next h => exact ⟨rfl, rfl, fun hc ↦ by rw [h] at hc; cases hc⟩
    · exact ⟨rfl, rfl, id⟩
  rcases f with e | e
  · cases r <;> exact ⟨⟨e, rfl⟩, rfl, rfl, fun h ↦ by first | exact h | rfl⟩
  · cases r with
    | sql l stmt => exact ⟨⟨e, rfl⟩, habort⟩
    | begin => exact ⟨⟨e, rfl⟩, habort⟩
    | commit => exact ⟨⟨e, rfl⟩, rfl, rfl, fun _ ↦ rfl⟩
    | rollback => exact ⟨⟨e, rfl⟩, rfl, rfl, fun _ ↦ rfl⟩

/-- A statement without effects outside a transaction sees what the arrivals left. -/
theorem serve_sql_auto (hc : c.txn = .auto) (l : L) (stmt : S → Except PgError (List W))
    (hstmt : ∀ s ws, stmt s = .ok ws → ws = []) (slot : Slot U) :
    Follows (Arrived U) c (c.serve (.sql l stmt) slot).2 ∧
      (c.serve (.sql l stmt) slot).2.txn = .auto ∧
      ∀ s, (c.serve (.sql l stmt) slot).1 = .ok s →
        s = (c.serve (.sql l stmt) slot).2.store ∧ stmt s = .ok [] ∧
          .stmt l s [] ∈ (c.serve (.sql l stmt) slot).2.trace := by
  obtain ⟨hrec, htxn⟩ := follows_receive c slot.arrivals
  unfold Conn.serve
  generalize c.receive slot.arrivals = c₁ at hrec htxn
  rw [hc] at htxn
  cases slot.fault with
  | some f =>
    obtain ⟨⟨e, he⟩, hs, ht, hauto⟩ := fail_eq c₁ (.sql l stmt) f
    refine ⟨hrec.of_eq hs ht, hauto htxn, ?_⟩
    intro s hok
    rw [he] at hok
    cases hok
  | none =>
    have hview : c₁.view = c₁.store := by rw [Conn.view, htxn]
    simp only [Conn.answer, htxn, hview]
    cases hq : stmt c₁.store with
    | error e =>
      have habort : c₁.abort = c₁ := by rw [Conn.abort, htxn]
      simp only [habort]
      exact ⟨hrec, htxn, fun s hok ↦ by cases hok⟩
    | ok ws =>
      have hws := hstmt _ _ hq
      subst hws
      simp only [Conn.write, htxn, hview, Conn.install, applyAll_nil]
      refine ⟨⟨hrec.store, ?_, ?_⟩, trivial, ?_⟩
      · exact hrec.grows.trans ((List.suffix_cons _ _).trans (List.suffix_cons _ _))
      · intro s hs
        rcases List.mem_cons.mp hs with hs | hs
        · cases hs
          exact .inr hrec.store
        · rcases List.mem_cons.mp hs with hs | hs
          · cases hs
          · exact hrec.commits s hs
      · intro s hok
        cases hok
        exact ⟨rfl, hq, List.mem_cons_of_mem _ (List.mem_cons_self ..)⟩

/-- A statement in an open transaction sees what the arrivals left, and the effects of its
own transaction; its effects wait with them. -/
theorem serve_sql_active {p : List W} (hc : c.txn = .active p) (l : L)
    (stmt : S → Except PgError (List W)) (slot : Slot U) :
    Follows (Arrived U) c (c.serve (.sql l stmt) slot).2 ∧
      ∀ s, (c.serve (.sql l stmt) slot).1 = .ok s →
        ∃ ws, s = applyAll p (c.serve (.sql l stmt) slot).2.store ∧ stmt s = .ok ws ∧
          (c.serve (.sql l stmt) slot).2.txn = .active (p ++ ws) ∧
          .stmt l s ws ∈ (c.serve (.sql l stmt) slot).2.trace := by
  obtain ⟨hrec, htxn⟩ := follows_receive c slot.arrivals
  unfold Conn.serve
  generalize c.receive slot.arrivals = c₁ at hrec htxn
  rw [hc] at htxn
  cases slot.fault with
  | some f =>
    obtain ⟨⟨e, he⟩, hs, ht, -⟩ := fail_eq c₁ (.sql l stmt) f
    refine ⟨hrec.of_eq hs ht, ?_⟩
    intro s hok
    rw [he] at hok
    cases hok
  | none =>
    have hview : c₁.view = applyAll p c₁.store := by rw [Conn.view, htxn]
    simp only [Conn.answer, htxn, hview]
    cases hq : stmt (applyAll p c₁.store) with
    | error e =>
      refine ⟨hrec.of_eq ?_ ?_, fun s hok ↦ by cases hok⟩
      · rw [Conn.abort, htxn]
      · rw [Conn.abort, htxn]
    | ok ws =>
      simp only [Conn.write, htxn, hview]
      refine ⟨⟨hrec.store, hrec.grows.trans (List.suffix_cons _ _), ?_⟩, ?_⟩
      · intro s hs
        rcases List.mem_cons.mp hs with hs | hs
        · cases hs
        · exact hrec.commits s hs
      · intro s hok
        cases hok
        exact ⟨ws, rfl, hq, rfl, List.mem_cons_self ..⟩

/-- `BEGIN` opens an empty transaction or fails. -/
theorem serve_begin (hc : c.txn = .auto) (slot : Slot U) :
    Follows (Arrived U) c (c.serve .begin slot).2 ∧
      (∀ s, (c.serve .begin slot).1 = .ok s → (c.serve .begin slot).2.txn = .active []) ∧
      ∀ e, (c.serve .begin slot).1 = .error e → (c.serve .begin slot).2.txn = .auto := by
  obtain ⟨hrec, htxn⟩ := follows_receive c slot.arrivals
  unfold Conn.serve
  generalize c.receive slot.arrivals = c₁ at hrec htxn
  rw [hc] at htxn
  cases slot.fault with
  | some f =>
    obtain ⟨⟨e, he⟩, hs, ht, hauto⟩ := fail_eq c₁ .begin f
    refine ⟨hrec.of_eq hs ht, ?_, fun _ _ ↦ hauto htxn⟩
    intro s hok
    rw [he] at hok
    cases hok
  | none => exact ⟨hrec.of_eq rfl rfl, fun _ _ ↦ rfl, fun e herr ↦ by cases herr⟩

/-- `ROLLBACK` ends the transaction without effects, even if it fails. -/
theorem serve_rollback (c : Conn S W L) (slot : Slot U) :
    Follows (Arrived U) c (c.serve .rollback slot).2 ∧ (c.serve .rollback slot).2.txn = .auto := by
  obtain ⟨hrec, _⟩ := follows_receive c slot.arrivals
  unfold Conn.serve
  generalize c.receive slot.arrivals = c₁ at hrec
  cases slot.fault with
  | some f => cases f <;> exact ⟨hrec.of_eq rfl rfl, rfl⟩
  | none => exact ⟨hrec.of_eq rfl rfl, rfl⟩

/-- From `c` on, arrivals and then one commit: the pending effects of a transaction are
applied to the state `s` at its end. -/
structure Committed (U : Type) [Effect U S] (c : Conn S W L) (p : List W) (s : S)
    (c' : Conn S W L) : Prop where
  auto : c'.txn = .auto
  store : c'.store = applyAll p s
  grows : c.trace <:+ c'.trace
  commits : ∀ t, .commit t ∈ c'.trace → .commit t ∈ c.trace ∨ Arrived U c.store t ∨ t = applyAll p s

/-- `COMMIT` of an open transaction applies its effects, or fails without them. -/
theorem serve_commit {p : List W} (hc : c.txn = .active p) (slot : Slot U) :
    (∀ e, (c.serve .commit slot).1 = .error e →
        Follows (Arrived U) c (c.serve .commit slot).2 ∧ (c.serve .commit slot).2.txn = .auto) ∧
      ∀ s', (c.serve .commit slot).1 = .ok s' →
        ∃ s, Arrived U c.store s ∧ Committed U c p s (c.serve .commit slot).2 := by
  obtain ⟨hrec, htxn⟩ := follows_receive c slot.arrivals
  unfold Conn.serve
  generalize c.receive slot.arrivals = c₁ at hrec htxn
  rw [hc] at htxn
  cases slot.fault with
  | some f =>
    cases f with
    | client e => exact ⟨fun _ _ ↦ ⟨hrec.of_eq rfl rfl, rfl⟩, fun s' hok ↦ by cases hok⟩
    | server e => exact ⟨fun _ _ ↦ ⟨hrec.of_eq rfl rfl, rfl⟩, fun s' hok ↦ by cases hok⟩
  | none =>
    simp only [Conn.answer, Conn.commitTxn, htxn]
    refine ⟨(fun e herr ↦ by cases herr), ?_⟩
    intro s' _
    refine ⟨c₁.store, hrec.store, ⟨rfl, rfl, hrec.grows.trans (List.suffix_cons _ _), ?_⟩⟩
    intro t ht
    rcases List.mem_cons.mp ht with ht | ht
    · cases ht
      exact .inr (.inr rfl)
    · exact (hrec.commits t ht).imp id .inl

/-- A request adds to the trace. -/
theorem serve_grows (c : Conn S W L) (r : Request S W L) (slot : Slot U) :
    c.trace <:+ (c.serve r slot).2.trace := by
  have hrec := (follows_receive c slot.arrivals).1.grows
  unfold Conn.serve
  generalize c.receive slot.arrivals = c₁ at hrec
  cases slot.fault with
  | some f =>
    obtain ⟨_, _, htrace, _⟩ := fail_eq c₁ r f
    dsimp only
    rw [htrace]
    exact hrec
  | none =>
    refine hrec.trans ?_
    cases r with
    | begin => exact List.suffix_rfl
    | rollback => exact List.suffix_rfl
    | commit =>
      simp only [Conn.answer, Conn.commitTxn]
      split
      · exact List.suffix_cons _ _
      · exact List.suffix_rfl
    | sql l stmt =>
      simp only [Conn.answer]
      split
      · exact List.suffix_rfl
      · split
        · unfold Conn.write
          split
          · exact List.suffix_cons _ _
          · exact (List.suffix_cons _ _).trans (List.suffix_cons _ _)
        · unfold Conn.abort
          split <;> exact List.suffix_rfl

end Serve

/-! ### Rules -/

namespace Prog

variable (U) in
/-- From `c`, under every schedule, the program ends with a result and a connection in `Q`. -/
def Spec (x : Prog S W L α) (c : Conn S W L) (Q : Except Exn α → Conn S W L → Prop) : Prop :=
  ∀ sch : Schedule U, Q (x.run sch c).result (x.run sch c).conn

section Rules

variable {c : Conn S W L} {Q : Except Exn α → Conn S W L → Prop}

theorem spec_pure {a : α} (h : Q (.ok a) c) : Spec U (pure a) c Q := fun _ ↦ h

theorem spec_mono {x : Prog S W L α} {P : Except Exn α → Conn S W L → Prop} (h : Spec U x c P)
    (hPQ : ∀ r c', P r c' → Q r c') : Spec U x c Q :=
  fun sch ↦ hPQ _ _ (h sch)

theorem spec_and {x : Prog S W L α} {P : Except Exn α → Conn S W L → Prop} (h : Spec U x c P)
    (h' : Spec U x c Q) : Spec U x c (fun r c' ↦ P r c' ∧ Q r c') := fun sch ↦ ⟨h sch, h' sch⟩

/-- A run adds to the trace. -/
theorem spec_grows (x : Prog S W L α) (c : Conn S W L) :
    Spec U x c (fun _ c' ↦ c.trace <:+ c'.trace) := by
  intro sch
  induction x generalizing sch c with
  | ret r => exact List.suffix_rfl
  | req r k ih => exact (serve_grows c r (sch 0)).trans (ih _ _ _)

/-- Sequencing: the rest is judged from where the first part ends. -/
theorem spec_bind {x : Prog S W L β} {f : β → Prog S W L α}
    (h : Spec U x c (fun r c' ↦ (∀ b, r = .ok b → Spec U (f b) c' Q) ∧
      ∀ e, r = .error e → Q (.error e) c')) : Spec U (x >>= f) c Q := by
  intro sch
  obtain ⟨hok, herr⟩ := h sch
  rw [run_bind]
  cases hr : (x.run sch c).result with
  | ok b => exact hok b hr _
  | error e => exact herr e hr

/-- `try: x finally: y`: an error of `y` replaces the result of `x`. -/
theorem spec_tryFinally {x : Prog S W L α} {y : Prog S W L Unit}
    (h : Spec U x c (fun r c' ↦ Spec U y c' (fun r' c'' ↦
      (r' = .ok () → Q r c'') ∧ ∀ e, r' = .error e → Q (.error e) c''))) :
    Spec U (tryFinally x y) c Q := by
  intro sch
  have hy := h sch (x.run sch c).rest
  rw [tryFinally, run_bind, run_attempt]
  dsimp only
  rw [run_bind]
  cases hr : (y.run (x.run sch c).rest (x.run sch c).conn).result with
  | ok u => exact hy.1 hr
  | error e => exact hy.2 e hr

/-- A query outside a transaction sees the state that the arrivals left. -/
theorem spec_fetch_auto {l : L} {q : S → Except PgError α} (hc : c.txn = .auto)
    (herr : ∀ e c', Follows (Arrived U) c c' → c'.txn = .auto → Q (.error e) c')
    (hok : ∀ a c', Follows (Arrived U) c c' → c'.txn = .auto → q c'.store = .ok a →
      .stmt l c'.store [] ∈ c'.trace → Q (.ok a) c') : Spec U (fetch l q) c Q := by
  intro sch
  have hempty : ∀ s ws, (q s).map (fun _ ↦ ([] : List W)) = .ok ws → ws = [] := by
    intro s ws h
    cases hq : q s with
    | error e => rw [hq] at h; cases h
    | ok a => rw [hq] at h; cases h; rfl
  obtain ⟨hfol, hauto, hreply⟩ :=
    serve_sql_auto hc l (fun s ↦ (q s).map (fun _ ↦ [])) hempty (sch 0)
  rw [fetch, run_req]
  cases hr : (c.serve (.sql l (fun s ↦ (q s).map (fun _ ↦ []))) (sch 0)).1 with
  | error e => exact herr _ _ hfol hauto
  | ok s =>
    obtain ⟨hs, _, htrace⟩ := hreply s hr
    rw [hs] at htrace
    dsimp only
    cases hq : q s with
    | error e => exact herr _ _ hfol hauto
    | ok a => exact hok a _ hfol hauto (hs ▸ hq) htrace

/-- A statement that never has effects, outside a transaction. -/
theorem spec_execute_auto {l : L} {Q : Except Exn Unit → Conn S W L → Prop} (hc : c.txn = .auto)
    (h : ∀ r c', Follows (Arrived U) c c' → c'.txn = .auto → Q r c') :
    Spec U (execute l (fun _ ↦ .ok [])) c Q := by
  intro sch
  obtain ⟨hfol, hauto, _⟩ := serve_sql_auto hc l (fun _ ↦ .ok [])
    (fun s ws hws ↦ by cases hws; rfl) (sch 0)
  rw [run_execute]
  exact h _ _ hfol hauto

variable (U) in
/-- Inside a transaction: only arrivals happen, and if the program returns it does so in `P`. -/
def Body (x : Prog S W L α) (c : Conn S W L) (P : α → Conn S W L → Prop) : Prop :=
  Spec U x c (fun r c' ↦ Follows (Arrived U) c c' ∧ ∀ a, r = .ok a → P a c')

section Body

variable {P : α → Conn S W L → Prop}

theorem body_ofExcept {r : Except Exn α} (h : ∀ a, r = .ok a → P a c) :
    Body U (ofExcept r) c P := fun _ ↦ ⟨Follows.refl Arrived.refl c, h⟩

theorem body_pure {a : α} (h : P a c) : Body U (pure a) c P := by
  refine body_ofExcept ?_
  intro b hb
  cases hb
  exact h

theorem body_mono {x : Prog S W L α} {P' : α → Conn S W L → Prop} (h : Body U x c P')
    (hP : ∀ a c', Follows (Arrived U) c c' → P' a c' → P a c') : Body U x c P := by
  intro sch
  obtain ⟨hfol, hret⟩ := h sch
  exact ⟨hfol, fun a ha ↦ hP a _ hfol (hret a ha)⟩

theorem body_bind {x : Prog S W L β} {f : β → Prog S W L α}
    (h : Body U x c (fun b c₁ ↦ Body U (f b) c₁ P)) : Body U (x >>= f) c P := by
  refine spec_bind ?_
  intro sch
  obtain ⟨hfol, hret⟩ := h sch
  constructor
  · intro b hb sch'
    obtain ⟨hfol', hret'⟩ := hret b hb sch'
    exact ⟨hfol.next hfol', hret'⟩
  · intro e _
    exact ⟨hfol, fun _ ha ↦ by cases ha⟩

/-- A query in an open transaction. -/
theorem body_fetch {l : L} {q : S → Except PgError α} {p : List W} (hc : c.txn = .active p)
    (h : ∀ a c', Follows (Arrived U) c c' → c'.txn = .active p →
      q (applyAll p c'.store) = .ok a → .stmt l (applyAll p c'.store) [] ∈ c'.trace → P a c') :
    Body U (fetch l q) c P := by
  intro sch
  obtain ⟨hfol, hreply⟩ := serve_sql_active hc l (fun s ↦ (q s).map (fun _ ↦ [])) (sch 0)
  rw [fetch, run_req]
  cases hr : (c.serve (.sql l (fun s ↦ (q s).map (fun _ ↦ []))) (sch 0)).1 with
  | error e => exact ⟨hfol, fun _ ha ↦ by cases ha⟩
  | ok s =>
    obtain ⟨ws, hs, hws, htxn, htrace⟩ := hreply s hr
    dsimp only
    cases hq : q s with
    | error e => exact ⟨hfol, fun _ ha ↦ by cases ha⟩
    | ok a =>
      rw [hq] at hws
      cases hws
      rw [List.append_nil] at htxn
      rw [hs] at htrace
      refine ⟨hfol, ?_⟩
      intro a' ha
      cases ha
      exact h a _ hfol htxn (hs ▸ hq) htrace

/-- A statement in an open transaction adds its effects to the pending ones. -/
theorem body_execute {l : L} {stmt : S → Except PgError (List W)} {p : List W}
    {P : Unit → Conn S W L → Prop} (hc : c.txn = .active p)
    (h : ∀ ws c', Follows (Arrived U) c c' → c'.txn = .active (p ++ ws) →
      stmt (applyAll p c'.store) = .ok ws → .stmt l (applyAll p c'.store) ws ∈ c'.trace →
      P () c') : Body U (execute l stmt) c P := by
  intro sch
  obtain ⟨hfol, hreply⟩ := serve_sql_active hc l stmt (sch 0)
  rw [run_execute]
  refine ⟨hfol, ?_⟩
  intro u hu
  cases hr : (c.serve (.sql l stmt) (sch 0)).1 with
  | error e =>
    rw [hr] at hu
    cases hu
  | ok s =>
    obtain ⟨ws, hs, hws, htxn, htrace⟩ := hreply s hr
    rw [hs] at htrace
    exact h ws _ hfol htxn (hs ▸ hws) htrace

end Body

/-- A transaction: if its body returns with effects pending in `B`, they are applied to the
state at the commit; otherwise, or when the commit fails, only arrivals happen. -/
theorem spec_transaction {body : Prog S W L α} (B : α → List W → Conn S W L → Prop)
    (hc : c.txn = .auto)
    (hbody : ∀ c₁, Follows (Arrived U) c c₁ → c₁.txn = .active [] →
      (∃ slot : Slot U, (c.serve .begin slot).2 = c₁) →
      Body U body c₁ (fun a c₂ ↦ ∃ p, c₂.txn = .active p ∧ B a p c₂))
    (herr : ∀ e c', Follows (Arrived U) c c' → c'.txn = .auto → Q (.error e) c')
    (hok : ∀ a p c₂ s c', Follows (Arrived U) c c₂ → B a p c₂ → Arrived U c₂.store s →
      Committed U c₂ p s c' → Q (.ok a) c') : Spec U (transaction body) c Q := by
  intro sch
  obtain ⟨hbegin, hopen, hclosed⟩ := serve_begin hc (sch 0)
  rw [run_transaction, run_control]
  dsimp only
  have hbegun : ∃ slot : Slot U, (c.serve .begin slot).2 = (c.serve .begin (sch 0)).2 := ⟨_, rfl⟩
  generalize c.serve .begin (sch 0) = begun at hbegin hopen hclosed hbegun
  obtain ⟨reply, c₁⟩ := begun
  cases reply with
  | error e => exact herr _ _ hbegin (hclosed e rfl)
  | ok s =>
    obtain ⟨hfol, hret⟩ := hbody c₁ hbegin (hopen s rfl) hbegun (fun n ↦ sch (n + 1))
    dsimp only [raised]
    generalize body.run (fun n ↦ sch (n + 1)) c₁ = o at hfol hret
    have hall := hbegin.next hfol
    cases hr : o.result with
    | error e =>
      obtain ⟨hroll, hauto⟩ := serve_rollback o.conn (o.rest 0)
      dsimp only
      rw [run_control]
      exact herr _ _ (hall.next hroll) hauto
    | ok a =>
      obtain ⟨p, htxn, hB⟩ := hret a hr
      obtain ⟨hfail, hcommit⟩ := serve_commit htxn (o.rest 0)
      dsimp only
      rw [run_control]
      dsimp only
      generalize o.conn.serve .commit (o.rest 0) = done at hfail hcommit
      obtain ⟨reply, c'⟩ := done
      cases reply with
      | error e =>
        obtain ⟨hend, hauto⟩ := hfail e rfl
        exact herr _ _ (hall.next hend) hauto
      | ok s' =>
        obtain ⟨s₂, hs₂, hdone⟩ := hcommit s' rfl
        exact hok a p o.conn s₂ c' hall hB hs₂ hdone

end Rules

end Prog

/-! ### The committed states in order -/

section Committed

/-- The committed states that a trace records, latest first. -/
def committedStates (trace : List (Entry S W L)) : List S :=
  trace.filterMap (fun e ↦ match e with
    | .commit s => some s
    | .stmt .. => none)

/-- The committed states of a connection after those of `old`, latest first and pairwise
related by `K`. -/
def Chain (K : S → S → Prop) (old : List S) (c : Conn S W L) : Prop :=
  (c.store :: (committedStates c.trace ++ old)).Pairwise (fun later earlier ↦ K earlier later)

variable {K : S → S → Prop} {old : List S} {c : Conn S W L}

omit [Effect W S] in
theorem chain_install (hrefl : ∀ s, K s s) (htrans : ∀ s s' s'', K s s' → K s' s'' → K s s'')
    (h : Chain K old c) {s : S} (hs : K c.store s) : Chain K old (c.install s) := by
  unfold Chain at h ⊢
  have hcons : committedStates (c.install s).trace = s :: committedStates c.trace := rfl
  rw [hcons, List.cons_append, List.pairwise_cons]
  rw [List.pairwise_cons] at h
  have hall : ∀ s' ∈ committedStates c.trace ++ old, K s' s := by
    intro s' hs'
    exact htrans _ _ _ (h.1 s' hs') hs
  refine ⟨?_, List.pairwise_cons.mpr ⟨hall, h.2⟩⟩
  intro s' hs'
  rcases List.mem_cons.mp hs' with rfl | hs'
  · exact hrefl _
  · exact hall s' hs'

omit [Effect W S] in
theorem chain_receive (hrefl : ∀ s, K s s) (htrans : ∀ s s' s'', K s s' → K s' s'' → K s s'')
    (hU : ∀ (u : U) s, K s (Effect.apply u s)) (us : List U) (h : Chain K old c) :
    Chain K old (c.receive us) := by
  induction us generalizing c with
  | nil => exact h
  | cons u us ih => exact ih (chain_install hrefl htrans h (hU u c.store))

theorem related_applyAll (hrefl : ∀ s, K s s) (htrans : ∀ s s' s'', K s s' → K s' s'' → K s s'')
    (hW : ∀ (w : W) s, K s (Effect.apply w s)) (ws : List W) (s : S) : K s (applyAll ws s) := by
  induction ws generalizing s with
  | nil => exact hrefl s
  | cons w ws ih => exact htrans _ _ _ (hW w s) (ih _)

omit [Effect U S] in
theorem chain_answer (hrefl : ∀ s, K s s) (htrans : ∀ s s' s'', K s s' → K s' s'' → K s s'')
    (hW : ∀ (w : W) s, K s (Effect.apply w s)) (r : Request S W L) (h : Chain K old c) :
    Chain K old (c.answer r).2 := by
  have hall := related_applyAll hrefl htrans hW
  cases r with
  | sql l stmt =>
    unfold Conn.answer
    cases htxn : c.txn with
    | aborted => exact h
    | auto =>
      dsimp only
      split
      · rw [Conn.write, htxn]
        exact chain_install (c := { c with trace := _ :: c.trace }) hrefl htrans h (hall _ _)
      · rw [Conn.abort, htxn]
        exact h
    | active p =>
      dsimp only
      split
      · rw [Conn.write, htxn]
        exact h
      · rw [Conn.abort, htxn]
        exact h
  | begin => exact h
  | rollback => exact h
  | commit =>
    change Chain K old c.commitTxn
    unfold Conn.commitTxn
    split
    · exact chain_install (c := c.dropTxn) hrefl htrans h (hall _ _)
    · exact h

/-- If every row effect and every arrival moves the state along `K`, so do the committed states
of every run. -/
theorem chain_run (hrefl : ∀ s, K s s) (htrans : ∀ s s' s'', K s s' → K s' s'' → K s s'')
    (hW : ∀ (w : W) s, K s (Effect.apply w s)) (hU : ∀ (u : U) s, K s (Effect.apply u s))
    (x : Prog S W L α) (sch : Schedule U) (h : Chain K old c) :
    Chain K old (x.run sch c).conn := by
  induction x generalizing sch c with
  | ret r => exact h
  | req r k ih =>
    rw [Prog.run_req]
    apply ih
    have hrec := chain_receive hrefl htrans hU (sch 0).arrivals h
    unfold Conn.serve
    split
    · exact chain_answer hrefl htrans hW r hrec
    · next f _ =>
      obtain ⟨_, hs, ht, _⟩ := fail_eq (c.receive (sch 0).arrivals) r f
      unfold Chain
      rw [hs, ht]
      exact hrec

end Committed

end PotholeServer.Sql
