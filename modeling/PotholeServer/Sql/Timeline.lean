import PotholeServer.Sql.Session

/-!
# Runs without failures

When no request fails, the arrivals alone decide a run: which request is served in which slot,
and what it sees. The judgement `Runs` says where a program ends that starts in a slot, and that
all its statements on the way are in `E`, with one rule for each form of program.
-/

namespace PotholeServer.Sql

variable {S W L U α β : Type} [Effect W S] [Effect U S]

/-- No request fails. -/
def arriving (arr : Nat → List U) : Schedule U := fun n ↦ { arrivals := arr n }

/-- The store after the arrivals of the first `n` slots. -/
def seen (arr : Nat → List U) (s : S) : Nat → S
  | 0 => s
  | n + 1 => applyAll (arr n) (seen arr s n)

omit [Effect W S] in
theorem arrived_seen (arr : Nat → List U) (s : S) (n : Nat) : Arrived U s (seen arr s n) := by
  induction n with
  | zero => exact Arrived.refl s
  | succ n ih => exact ih.trans ⟨arr n, rfl⟩

omit [Effect W S] in
theorem arrived_seen_of_le (arr : Nat → List U) (s : S) {m n : Nat} (h : m ≤ n) :
    Arrived U (seen arr s m) (seen arr s n) := by
  induction h with
  | refl => exact Arrived.refl _
  | @step n _ ih => exact ih.trans ⟨arr n, rfl⟩

/-- Every statement among the entries is in `E`. -/
def StmtsIn (E : L → List W → Prop) (entries : List (Entry S W L)) : Prop :=
  ∀ l v ws, .stmt l v ws ∈ entries → E l ws

/-- From slot `n`, store `s` and transaction `t` the program ends with result `r` before slot `n'`,
with store `s'` and transaction `t'`; its statements are in `E`. -/
def Runs (E : L → List W → Prop) (arr : Nat → List U) (x : Prog S W L α) (n : Nat) (s : S)
    (t : Txn W) (r : Except Exn α) (n' : Nat) (s' : S) (t' : Txn W) : Prop :=
  ∀ tr, ∃ new, x.run (fun k ↦ arriving arr (n + k)) ⟨s, t, tr⟩ =
    ⟨r, fun k ↦ arriving arr (n' + k), ⟨s', t', new ++ tr⟩⟩ ∧ StmtsIn E new

/-- The same without a condition on the statements. -/
abbrev RunsTo (arr : Nat → List U) (x : Prog S W L α) (n : Nat) (s : S) (t : Txn W)
    (r : Except Exn α) (n' : Nat) (s' : S) (t' : Txn W) : Prop :=
  Runs (fun _ _ ↦ True) arr x n s t r n' s' t'

section Rules

variable {E : L → List W → Prop} {arr : Nat → List U} {n n₁ n₂ : Nat} {s s₁ s₂ : S}
  {t t₁ t₂ : Txn W} {l : L} {x : Prog S W L α} {a : α} {e : Exn}

omit [Effect W S] [Effect U S] in
theorem stmtsIn_append {es fs : List (Entry S W L)} (hes : StmtsIn E es) (hfs : StmtsIn E fs) :
    StmtsIn E (es ++ fs) := by
  intro l v ws h
  rcases List.mem_append.mp h with h | h
  · exact hes l v ws h
  · exact hfs l v ws h

omit [Effect W S] in
/-- Receiving arrivals applies them to the store. -/
theorem receive_eq (c : Conn S W L) (us : List U) :
    ∃ new, c.receive us = ⟨applyAll us c.store, c.txn, new ++ c.trace⟩ ∧ StmtsIn E new := by
  induction us generalizing c with
  | nil => exact ⟨[], rfl, fun _ _ _ h ↦ by cases h⟩
  | cons u us ih =>
    obtain ⟨new, heq, hnew⟩ := ih (c.install (Effect.apply u c.store))
    refine ⟨new ++ [.commit (Effect.apply u c.store)], ?_, ?_⟩
    · rw [List.append_assoc]
      exact heq
    · exact stmtsIn_append hnew (fun _ _ _ h ↦ by cases List.mem_singleton.mp h)

/-- A request is answered after the arrivals of its slot. -/
theorem serve_arriving (c : Conn S W L) (r : Request S W L) (us : List U) :
    ∃ new, c.serve r { arrivals := us } =
      Conn.answer ⟨applyAll us c.store, c.txn, new ++ c.trace⟩ r ∧ StmtsIn E new := by
  obtain ⟨new, heq, hnew⟩ := receive_eq (E := E) c us
  exact ⟨new, by rw [Conn.serve, heq], hnew⟩

theorem runs_ret (r : Except Exn α) : Runs E arr (.ret r : Prog S W L α) n s t r n s t :=
  fun _ ↦ ⟨[], rfl, fun _ _ _ h ↦ by cases h⟩

theorem runs_bind {f : α → Prog S W L β} {r : Except Exn β}
    (hx : Runs E arr x n s t (.ok a) n₁ s₁ t₁) (hf : Runs E arr (f a) n₁ s₁ t₁ r n₂ s₂ t₂) :
    Runs E arr (x >>= f) n s t r n₂ s₂ t₂ := by
  intro tr
  obtain ⟨new, hrun, hnew⟩ := hx tr
  obtain ⟨new', hrun', hnew'⟩ := hf (new ++ tr)
  refine ⟨new' ++ new, ?_, stmtsIn_append hnew' hnew⟩
  rw [Prog.run_bind, hrun, List.append_assoc]
  exact hrun'

theorem runs_bind_error {f : α → Prog S W L β} (hx : Runs E arr x n s t (.error e) n₁ s₁ t₁) :
    Runs E arr (x >>= f) n s t (.error e) n₁ s₁ t₁ := by
  intro tr
  obtain ⟨new, hrun, hnew⟩ := hx tr
  exact ⟨new, by rw [Prog.run_bind, hrun], hnew⟩

theorem runs_attempt {r : Except Exn α} (hx : Runs E arr x n s t r n₁ s₁ t₁) :
    Runs E arr x.attempt n s t (.ok r) n₁ s₁ t₁ := by
  intro tr
  obtain ⟨new, hrun, hnew⟩ := hx tr
  exact ⟨new, by rw [Prog.run_attempt, hrun], hnew⟩

/-- One request: what follows runs on the answer. -/
theorem runs_req {r : Request S W L} {k : Except PgError S → Prog S W L α}
    (reply : Except PgError S) {res : Except Exn α}
    (hanswer : ∀ tr, ∃ new, Conn.answer ⟨applyAll (arr n) s, t, tr⟩ r =
      (reply, ⟨s₁, t₁, new ++ tr⟩) ∧ StmtsIn E new)
    (hk : k reply = .ret res) : Runs E arr (.req r k) n s t res (n + 1) s₁ t₁ := by
  intro tr
  obtain ⟨new, hserve, hnew⟩ := serve_arriving (E := E) ⟨s, t, tr⟩ r (arr n)
  obtain ⟨new', hans, hnew'⟩ := hanswer (new ++ tr)
  refine ⟨new' ++ new, ?_, stmtsIn_append hnew' hnew⟩
  have hslot : arriving arr (n + 0) = { arrivals := arr n } := rfl
  have hshift : (fun k ↦ arriving arr (n + (k + 1))) = fun k ↦ arriving arr (n + 1 + k) := by
    funext k
    rw [Nat.add_assoc, Nat.add_comm 1 k]
  rw [Prog.run_req, hslot, hserve, hans, hk, Prog.run_ret, hshift, List.append_assoc]

omit [Effect U S] in
theorem answer_control {r : Request S W L} {s₀ : S} {reply : Except PgError S}
    (h : ∀ tr, ∃ new, Conn.answer ⟨s₀, t, tr⟩ r = (reply, ⟨s₁, t₁, new :: tr⟩) ∧
      ∀ l v ws, new = .stmt l v ws → E l ws) :
    ∀ tr, ∃ new, Conn.answer ⟨s₀, t, tr⟩ r = (reply, ⟨s₁, t₁, new ++ tr⟩) ∧ StmtsIn E new := by
  intro tr
  obtain ⟨entry, hans, hentry⟩ := h tr
  refine ⟨[entry], hans, ?_⟩
  intro l v ws hmem
  exact hentry l v ws (List.mem_singleton.mp hmem).symm

theorem runs_begin : Runs E arr (Prog.control .begin : Prog S W L Unit) n s .auto (.ok ()) (n + 1)
    (applyAll (arr n) s) (.active []) :=
  runs_req (.ok (applyAll (arr n) s)) (fun _ ↦ ⟨[], rfl, fun _ _ _ h ↦ by cases h⟩) rfl

theorem runs_commit {p : List W} : Runs E arr (Prog.control .commit : Prog S W L Unit) n s
    (.active p) (.ok ()) (n + 1) (applyAll p (applyAll (arr n) s)) .auto := by
  refine runs_req (.ok (applyAll (arr n) s)) (answer_control ?_) rfl
  intro tr
  exact ⟨.commit (applyAll p (applyAll (arr n) s)), rfl, fun _ _ _ h ↦ by cases h⟩

theorem runs_rollback : Runs E arr (Prog.control .rollback : Prog S W L Unit) n s t (.ok ())
    (n + 1) (applyAll (arr n) s) .auto :=
  runs_req (.ok (applyAll (arr n) s)) (fun _ ↦ ⟨[], rfl, fun _ _ _ h ↦ by cases h⟩) rfl

/-- A statement that never has effects, outside a transaction. -/
theorem runs_execute_auto (hE : E l []) :
    Runs E arr (Prog.execute l (fun _ ↦ .ok []) : Prog S W L Unit) n s .auto (.ok ()) (n + 1)
      (applyAll (arr n) s) .auto := by
  refine runs_req (.ok (applyAll (arr n) s)) ?_ rfl
  intro tr
  refine ⟨[.commit (applyAll (arr n) s), .stmt l (applyAll (arr n) s) []], rfl, ?_⟩
  intro l' v ws h
  rcases List.mem_cons.mp h with h | h
  · cases h
  · cases List.mem_singleton.mp h
    exact hE

/-- A statement in an open transaction adds its effects to the pending ones. -/
theorem runs_execute_active {stmt : S → Except PgError (List W)} {p ws : List W}
    (h : stmt (applyAll p (applyAll (arr n) s)) = .ok ws) (hE : E l ws) :
    Runs E arr (Prog.execute l stmt) n s (.active p) (.ok ()) (n + 1) (applyAll (arr n) s)
      (.active (p ++ ws)) := by
  refine runs_req (.ok (applyAll p (applyAll (arr n) s))) (answer_control ?_) rfl
  intro tr
  refine ⟨.stmt l (applyAll p (applyAll (arr n) s)) ws, ?_, ?_⟩
  · simp only [Conn.answer, Conn.view, h, Conn.write]
  · intro l' v ws' heq
    cases heq
    exact hE

/-- A statement that the server refuses in an open transaction aborts it. -/
theorem runs_execute_error {stmt : S → Except PgError (List W)} {p : List W} {e : PgError}
    (h : stmt (applyAll p (applyAll (arr n) s)) = .error e) :
    Runs E arr (Prog.execute l stmt) n s (.active p) (.error (.postgresError e)) (n + 1)
      (applyAll (arr n) s) .aborted := by
  refine runs_req (.error e) ?_ rfl
  intro tr
  refine ⟨[], ?_, fun _ _ _ h ↦ by cases h⟩
  simp only [Conn.answer, Conn.view, h, Conn.abort, List.nil_append]

/-- A query outside a transaction sees the store. -/
theorem runs_fetch_auto {q : S → Except PgError α} (h : q (applyAll (arr n) s) = .ok a)
    (hE : E l []) :
    Runs E arr (Prog.fetch l q : Prog S W L α) n s .auto (.ok a) (n + 1) (applyAll (arr n) s)
      .auto := by
  refine runs_req (.ok (applyAll (arr n) s)) ?_ (by simp only [h])
  intro tr
  refine ⟨[.commit (applyAll (arr n) s), .stmt l (applyAll (arr n) s) []], ?_, ?_⟩
  · simp only [Conn.answer, Conn.view, h, Except.map, Conn.write, Conn.install, applyAll_nil,
      List.cons_append, List.nil_append]
  · intro l' v ws hmem
    rcases List.mem_cons.mp hmem with hmem | hmem
    · cases hmem
    · cases List.mem_singleton.mp hmem
      exact hE

/-- A query that the server refuses, outside a transaction. -/
theorem runs_fetch_error {q : S → Except PgError α} {e : PgError}
    (h : q (applyAll (arr n) s) = .error e) :
    Runs E arr (Prog.fetch l q : Prog S W L α) n s .auto (.error (.postgresError e)) (n + 1)
      (applyAll (arr n) s) .auto := by
  refine runs_req (.error e) ?_ rfl
  intro tr
  refine ⟨[], ?_, fun _ _ _ h ↦ by cases h⟩
  simp only [Conn.answer, Conn.view, h, Except.map, Conn.abort, List.nil_append]

/-- A query in an open transaction sees its pending effects. -/
theorem runs_fetch_active {q : S → Except PgError α} {p : List W}
    (h : q (applyAll p (applyAll (arr n) s)) = .ok a) (hE : E l []) :
    Runs E arr (Prog.fetch l q : Prog S W L α) n s (.active p) (.ok a) (n + 1)
      (applyAll (arr n) s) (.active p) := by
  refine runs_req (.ok (applyAll p (applyAll (arr n) s))) (answer_control ?_)
    (by simp only [h])
  intro tr
  refine ⟨.stmt l (applyAll p (applyAll (arr n) s)) [], ?_, ?_⟩
  · simp only [Conn.answer, Conn.view, h, Except.map, Conn.write, List.append_nil]
  · intro l' v ws heq
    cases heq
    exact hE

/-- A transaction whose body returns applies what it collected to the state at its commit. -/
theorem runs_transaction {p : List W}
    (hbody : Runs E arr x (n + 1) (applyAll (arr n) s) (.active []) (.ok a) n₁ s₁ (.active p)) :
    Runs E arr (Prog.transaction x) n s .auto (.ok a) (n₁ + 1) (applyAll p (applyAll (arr n₁) s₁))
      .auto := by
  rw [Prog.transaction]
  exact runs_bind runs_begin (runs_bind (runs_attempt hbody) (runs_bind runs_commit (runs_ret _)))

/-- A transaction whose body raises leaves no effect. -/
theorem runs_transaction_error
    (hbody : Runs E arr x (n + 1) (applyAll (arr n) s) (.active []) (.error e) n₁ s₁ t₁) :
    Runs E arr (Prog.transaction x) n s .auto (.error e) (n₁ + 1) (applyAll (arr n₁) s₁) .auto := by
  rw [Prog.transaction]
  exact runs_bind runs_begin (runs_bind (runs_attempt hbody)
    (runs_bind (runs_attempt runs_rollback) (runs_ret _)))

theorem runs_tryFinally {y : Prog S W L Unit} {r : Except Exn α}
    (hx : Runs E arr x n s t r n₁ s₁ t₁) (hy : Runs E arr y n₁ s₁ t₁ (.ok ()) n₂ s₂ t₂) :
    Runs E arr (Prog.tryFinally x y) n s t r n₂ s₂ t₂ := by
  rw [Prog.tryFinally]
  exact runs_bind (runs_attempt hx) (runs_bind hy (runs_ret r))

/-- Where a run of a whole program ends, and its statements. -/
theorem Runs.whole {r : Except Exn α} (h : Runs E arr x 0 s .auto r n₁ s₁ t₁) :
    (x.run (arriving arr) (.fresh s)).conn.store = s₁ ∧
      StmtsIn E (x.run (arriving arr) (.fresh s)).conn.trace := by
  obtain ⟨new, hrun, hnew⟩ := h []
  have hsch : (fun k ↦ arriving arr (0 + k)) = arriving arr := by
    funext k
    rw [Nat.zero_add]
  rw [hsch, List.append_nil] at hrun
  rw [Conn.fresh, hrun]
  exact ⟨rfl, hnew⟩

/-- What a whole program returns. -/
theorem Runs.returns {r : Except Exn α} (h : Runs E arr x 0 s .auto r n₁ s₁ t₁) :
    (x.run (arriving arr) (.fresh s)).result = r := by
  obtain ⟨new, hrun, -⟩ := h []
  have hsch : (fun k ↦ arriving arr (0 + k)) = arriving arr := by
    funext k
    rw [Nat.zero_add]
  rw [hsch] at hrun
  rw [Conn.fresh, hrun]

end Rules

end PotholeServer.Sql
