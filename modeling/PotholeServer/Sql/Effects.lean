import PotholeServer.Sql.Timeline

/-!
# What a run receives, emits, asks and logs

The transactions of other clients that a run lets through, and the row effects that a program
can have at all. A property of the store and of what has arrived so far that both kinds of
change keep is kept by the whole run. A program that asks a question at most once leaves at most
one entry of it in its trace. The effects in the trace are those of the statements so far, and a
property of them is judged at every end of a program, returned or raised.
-/

namespace PotholeServer.Sql

variable {S W L U α β : Type} [Effect W S] [Effect U S]

namespace Prog

/-- Every row effect that a statement of the program can have is in `P`. -/
def Emits (P : W → Prop) : Prog S W L α → Prop
  | ret _ => True
  | req r k => (∀ l stmt, r = .sql l stmt → ∀ s ws, stmt s = .ok ws → ∀ w ∈ ws, P w) ∧
    ∀ reply, (k reply).Emits P

/-- What arrives while a program runs, in order. -/
def received : Prog S W L α → Schedule U → Conn S W L → List U
  | ret _, _, _ => []
  | req r k, sch, c => (sch 0).arrivals ++
    (k (c.serve r (sch 0)).1).received (fun n ↦ sch (n + 1)) (c.serve r (sch 0)).2

/-- Nothing arrives when nobody else is active. -/
theorem received_quiet (x : Prog S W L α) (c : Conn S W L) :
    x.received (quiet : Schedule U) c = [] := by
  induction x generalizing c with
  | ret r => rfl
  | req r k ih => exact ih _ _

section Emits

variable {P : W → Prop}

omit [Effect W S] in
theorem emits_mono {P' : W → Prop} {x : Prog S W L α} (hx : x.Emits P) (hP : ∀ w, P w → P' w) :
    x.Emits P' := by
  induction x with
  | ret r => trivial
  | req r k ih =>
    exact ⟨fun l stmt hr s ws hws w hw ↦ hP w (hx.1 l stmt hr s ws hws w hw),
      fun reply ↦ ih reply (hx.2 reply)⟩

omit [Effect W S] in
theorem emits_ret (r : Except Exn α) : (ret r : Prog S W L α).Emits P := trivial

omit [Effect W S] in
theorem emits_bind {x : Prog S W L α} {f : α → Prog S W L β} (hx : x.Emits P)
    (hf : ∀ a, (f a).Emits P) : (x >>= f).Emits P := by
  change (x.bind f).Emits P
  induction x with
  | ret r =>
    cases r with
    | ok a => exact hf a
    | error e => exact trivial
  | req r k ih => exact ⟨hx.1, fun reply ↦ ih reply (hx.2 reply)⟩

omit [Effect W S] in
theorem emits_attempt {x : Prog S W L α} (hx : x.Emits P) : x.attempt.Emits P := by
  induction x with
  | ret r => exact trivial
  | req r k ih => exact ⟨hx.1, fun reply ↦ ih reply (hx.2 reply)⟩

omit [Effect W S] in
theorem emits_control {r : Request S W L}
    (h : ∀ l stmt, r = .sql l stmt → ∀ s ws, stmt s = .ok ws → ∀ w ∈ ws, P w) :
    (control r).Emits P := by
  refine ⟨h, ?_⟩
  intro reply
  cases reply <;> exact trivial

omit [Effect W S] in
theorem emits_execute {l : L} {stmt : S → Except PgError (List W)}
    (h : ∀ s ws, stmt s = .ok ws → ∀ w ∈ ws, P w) : (execute l stmt).Emits P := by
  refine emits_control ?_
  intro l' stmt' heq
  cases heq
  exact h

omit [Effect W S] in
theorem emits_nothing {l : L} : (execute l (fun _ ↦ .ok []) : Prog S W L Unit).Emits P :=
  emits_execute (fun _ _ h _ hw ↦ by cases h; cases hw)

omit [Effect W S] in
/-- A statement with one fixed effect. -/
theorem emits_effect {l : L} {w : W} (h : P w) :
    (execute l (fun _ ↦ .ok [w]) : Prog S W L Unit).Emits P := by
  apply emits_execute
  intro s ws hws w' hw'
  cases hws
  rw [List.mem_singleton.mp hw']
  exact h

omit [Effect W S] in
theorem emits_fetch {l : L} {q : S → Except PgError α} :
    (fetch l q : Prog S W L α).Emits P := by
  constructor
  · intro l' stmt heq s ws hws w hw
    cases heq
    dsimp only at hws
    cases hq : q s with
    | error e =>
      rw [hq] at hws
      cases hws
    | ok a =>
      rw [hq] at hws
      cases hws
      cases hw
  · intro reply
    cases reply with
    | error e => exact trivial
    | ok s =>
      dsimp only
      cases q s <;> exact trivial

omit [Effect W S] in
theorem emits_transaction {x : Prog S W L α} (hx : x.Emits P) : (transaction x).Emits P := by
  have hctl : ∀ r : Request S W L, (∀ l stmt, r ≠ .sql l stmt) → (control r).Emits P :=
    fun r hr ↦ emits_control (fun l stmt heq ↦ absurd heq (hr l stmt))
  rw [transaction]
  refine emits_bind (hctl _ (fun _ _ h ↦ by cases h)) (fun _ ↦ emits_bind (emits_attempt hx) ?_)
  intro r
  cases r with
  | ok a => exact emits_bind (hctl _ (fun _ _ h ↦ by cases h)) (fun _ ↦ trivial)
  | error e =>
    exact emits_bind (emits_attempt (hctl _ (fun _ _ h ↦ by cases h))) (fun _ ↦ trivial)

omit [Effect W S] in
theorem emits_tryFinally {x : Prog S W L α} {y : Prog S W L Unit} (hx : x.Emits P)
    (hy : y.Emits P) : (tryFinally x y).Emits P :=
  emits_bind (emits_attempt hx) (fun _ ↦ emits_bind hy (fun _ ↦ trivial))

end Emits

section Received

variable {P : W → Prop} {I : List U → S → Prop} {us : List U} {c : Conn S W L}

/-- The effects that wait in an open transaction are in `P`. -/
def PendingIn (P : W → Prop) (c : Conn S W L) : Prop := ∀ p, c.txn = .active p → ∀ w ∈ p, P w

omit [Effect W S] in
theorem receive_keeps (hU : ∀ us s u, I us s → I (us ++ [u]) (Effect.apply u s))
    (arrivals : List U) (hc : I us c.store) :
    I (us ++ arrivals) (c.receive arrivals).store ∧ (c.receive arrivals).txn = c.txn := by
  induction arrivals generalizing us c with
  | nil =>
    rw [List.append_nil]
    exact ⟨hc, rfl⟩
  | cons u rest ih =>
    have hrest := ih (c := c.install (Effect.apply u c.store)) (hU us c.store u hc)
    rw [List.append_assoc, List.singleton_append] at hrest
    exact hrest

omit [Effect U S] in
theorem applyAll_keeps {J : S → Prop} (hW : ∀ s w, P w → J s → J (Effect.apply w s))
    {ws : List W} (hws : ∀ w ∈ ws, P w) {s : S} (hs : J s) : J (applyAll ws s) := by
  induction ws generalizing s with
  | nil => exact hs
  | cons w rest ih =>
    exact ih (fun w' hw' ↦ hws w' (List.mem_cons_of_mem _ hw'))
      (hW s w (hws w (List.mem_cons_self ..)) hs)

omit [Effect U S] in
theorem answer_keeps {J : S → Prop} (hW : ∀ s w, P w → J s → J (Effect.apply w s))
    {r : Request S W L} (hr : ∀ l stmt, r = .sql l stmt → ∀ s ws, stmt s = .ok ws → ∀ w ∈ ws, P w)
    (hc : J c.store) (hp : PendingIn P c) :
    J (c.answer r).2.store ∧ PendingIn P (c.answer r).2 := by
  cases r with
  | begin => exact ⟨hc, fun p h w hw ↦ by cases h; cases hw⟩
  | rollback => exact ⟨hc, fun p h ↦ by cases h⟩
  | commit =>
    change J c.commitTxn.store ∧ PendingIn P c.commitTxn
    unfold Conn.commitTxn
    split
    · next p htxn => exact ⟨applyAll_keeps hW (hp p htxn) hc, fun p h ↦ by cases h⟩
    · exact ⟨hc, fun p h ↦ by cases h⟩
  | sql l stmt =>
    unfold Conn.answer
    cases htxn : c.txn with
    | aborted => exact ⟨hc, hp⟩
    | auto =>
      dsimp only
      cases hstmt : stmt c.view with
      | ok ws =>
        dsimp only
        rw [Conn.write, htxn]
        exact ⟨applyAll_keeps hW (hr l stmt rfl _ _ hstmt) hc, fun p h ↦ by cases h⟩
      | error e =>
        rw [Conn.abort, htxn]
        exact ⟨hc, hp⟩
    | active q =>
      dsimp only
      cases hstmt : stmt c.view with
      | ok ws =>
        dsimp only
        rw [Conn.write, htxn]
        refine ⟨hc, ?_⟩
        intro p h w hw
        cases h
        rcases List.mem_append.mp hw with hw | hw
        · exact hp q htxn w hw
        · exact hr l stmt rfl _ _ hstmt w hw
      | error e =>
        rw [Conn.abort, htxn]
        exact ⟨hc, fun p h ↦ by cases h⟩

omit [Effect W S] [Effect U S] in
theorem fail_keeps {J : S → Prop} (r : Request S W L) (f : Fault) (hc : J c.store)
    (hp : PendingIn P c) : J (c.fail r f).2.store ∧ PendingIn P (c.fail r f).2 := by
  have habort : PendingIn P c.abort := by
    unfold Conn.abort
    split
    · exact fun p h ↦ by cases h
    · exact hp
  refine ⟨(fail_eq c r f).2.1 ▸ hc, ?_⟩
  cases f with
  | client e => cases r <;> first | exact hp | exact fun p h ↦ by cases h
  | server e => cases r <;> first | exact habort | exact fun p h ↦ by cases h

/-- A property of the store and of what has arrived that arrivals and the program's own effects
keep holds after every run. -/
theorem run_keeps (hU : ∀ us s u, I us s → I (us ++ [u]) (Effect.apply u s))
    (hW : ∀ us s w, P w → I us s → I us (Effect.apply w s)) (x : Prog S W L α) (hx : x.Emits P)
    (sch : Schedule U) (hc : I us c.store) (hp : PendingIn P c) :
    I (us ++ x.received sch c) (x.run sch c).conn.store := by
  induction x generalizing us sch c with
  | ret r =>
    rw [received, List.append_nil]
    exact hc
  | req r k ih =>
    obtain ⟨hrec, htxn⟩ := receive_keeps hU (sch 0).arrivals hc
    have hp' : PendingIn P (c.receive (sch 0).arrivals) := by
      unfold PendingIn
      rw [htxn]
      exact hp
    have hserve : I (us ++ (sch 0).arrivals) (c.serve r (sch 0)).2.store ∧
        PendingIn P (c.serve r (sch 0)).2 := by
      unfold Conn.serve
      split
      · exact answer_keeps (J := I (us ++ (sch 0).arrivals)) (hW _) hx.1 hrec hp'
      · next f _ => exact fail_keeps (J := I (us ++ (sch 0).arrivals)) r f hrec hp'
    rw [received, run_req, ← List.append_assoc]
    exact ih _ (hx.2 _) _ hserve.1 hserve.2

/-- The same of a property of the store alone. -/
theorem run_keeps_store {J : S → Prop} (hU : ∀ s (u : U), J s → J (Effect.apply u s))
    (hW : ∀ s w, P w → J s → J (Effect.apply w s)) (x : Prog S W L α) (hx : x.Emits P)
    (sch : Schedule U) (hc : J c.store) (hp : PendingIn P c) : J (x.run sch c).conn.store := by
  have hkeeps := @run_keeps S W L U α _ _ P (fun _ s ↦ J s) [] c (fun _ s u ↦ hU s u)
    (fun _ s w ↦ hW s w) x hx sch hc hp
  exact hkeeps

end Received

/-! ### How often a program asks -/

/-- The request is a statement with a label in `p`. -/
def cost (p : L → Bool) : Request S W L → Nat
  | .sql l _ => if p l then 1 else 0
  | .begin | .commit | .rollback => 0

/-- Whatever the replies, the program makes at most `n` statements with a label in `p`. -/
def Asks (p : L → Bool) : Prog S W L α → Nat → Prop
  | ret _, _ => True
  | req r k, n => cost p r ≤ n ∧ ∀ reply, (k reply).Asks p (n - cost p r)

/-- The number of statements of a trace with a label in `p`. -/
def asked (p : L → Bool) (trace : List (Entry S W L)) : Nat :=
  trace.countP (fun e ↦ match e with
    | .stmt l _ _ => p l
    | .commit _ => false)

section Asks

variable {p : L → Bool} {m n : Nat}

omit [Effect W S] in
theorem asks_mono {x : Prog S W L α} (hx : x.Asks p m) (hmn : m ≤ n) : x.Asks p n := by
  induction x generalizing m n with
  | ret r => trivial
  | req r k ih => exact ⟨Nat.le_trans hx.1 hmn, fun reply ↦ ih reply (hx.2 reply) (by omega)⟩

omit [Effect W S] in
theorem asks_ret (r : Except Exn α) (n : Nat) : (ret r : Prog S W L α).Asks p n := trivial

omit [Effect W S] in
theorem asks_bind {x : Prog S W L α} {f : α → Prog S W L β} (hx : x.Asks p m)
    (hf : ∀ a, (f a).Asks p n) : (x >>= f).Asks p (m + n) := by
  change (x.bind f).Asks p (m + n)
  induction x generalizing m with
  | ret r =>
    cases r with
    | ok a => exact asks_mono (hf a) (Nat.le_add_left n m)
    | error e => trivial
  | req r k ih =>
    have hcost := hx.1
    refine ⟨by omega, ?_⟩
    intro reply
    have hrest := ih reply (hx.2 reply)
    rwa [show m - cost p r + n = m + n - cost p r by omega] at hrest

omit [Effect W S] in
theorem asks_attempt {x : Prog S W L α} (hx : x.Asks p n) : x.attempt.Asks p n := by
  induction x generalizing n with
  | ret r => trivial
  | req r k ih => exact ⟨hx.1, fun reply ↦ ih reply (hx.2 reply)⟩

omit [Effect W S] in
theorem asks_control (r : Request S W L) : (control r).Asks p (cost p r) := by
  refine ⟨Nat.le_refl _, ?_⟩
  intro reply
  cases reply <;> trivial

omit [Effect W S] in
theorem asks_execute (l : L) (stmt : S → Except PgError (List W)) :
    (execute l stmt).Asks p (if p l then 1 else 0) := asks_control _

omit [Effect W S] in
theorem asks_fetch (l : L) (q : S → Except PgError α) :
    (fetch l q : Prog S W L α).Asks p (if p l then 1 else 0) := by
  refine ⟨Nat.le_refl _, ?_⟩
  intro reply
  cases reply with
  | error e => trivial
  | ok s =>
    dsimp only
    cases q s <;> trivial

omit [Effect W S] in
theorem asks_transaction {x : Prog S W L α} (hx : x.Asks p n) : (transaction x).Asks p n := by
  have hcontrol : ∀ r : Request S W L, cost p r = 0 → (control r).Asks p 0 :=
    fun r hr ↦ hr ▸ asks_control r
  rw [transaction, ← Nat.zero_add n]
  refine asks_bind (hcontrol _ rfl) (fun _ ↦ asks_bind (n := 0) (asks_attempt hx) ?_)
  intro r
  cases r with
  | ok a => exact asks_bind (n := 0) (hcontrol _ rfl) (fun _ ↦ asks_ret _ 0)
  | error e => exact asks_bind (n := 0) (asks_attempt (hcontrol _ rfl)) (fun _ ↦ asks_ret _ 0)

omit [Effect W S] in
theorem asks_tryFinally {x : Prog S W L α} {y : Prog S W L Unit} (hx : x.Asks p m)
    (hy : y.Asks p n) : (tryFinally x y).Asks p (m + n) :=
  asks_bind (asks_attempt hx) (fun _ ↦ asks_bind (n := 0) hy (fun _ ↦ asks_ret _ 0))

/-- One request leaves at most one entry of its label. -/
theorem asked_serve (c : Conn S W L) (r : Request S W L) (slot : Slot U) :
    asked p (c.serve r slot).2.trace ≤ asked p c.trace + cost p r := by
  have hreceive : ∀ (us : List U) (c : Conn S W L),
      asked p (c.receive us).trace = asked p c.trace := by
    intro us
    induction us with
    | nil => exact fun _ ↦ rfl
    | cons u us ih => exact fun c ↦ ih _
  have hrec := hreceive slot.arrivals c
  unfold Conn.serve
  generalize c.receive slot.arrivals = c₁ at hrec
  rw [← hrec]
  cases slot.fault with
  | some f =>
    obtain ⟨_, _, htrace, _⟩ := fail_eq c₁ r f
    dsimp only
    rw [htrace]
    exact Nat.le_add_right _ _
  | none =>
    cases r with
    | begin => exact Nat.le_add_right _ _
    | rollback => exact Nat.le_add_right _ _
    | commit =>
      simp only [Conn.answer, Conn.commitTxn]
      split <;> exact Nat.le_add_right _ _
    | sql l stmt =>
      have hentry : ∀ v ws, asked p (.stmt l v ws :: c₁.trace) =
          asked p c₁.trace + cost p (.sql l stmt) := fun _ _ ↦ List.countP_cons ..
      simp only [Conn.answer]
      split
      · exact Nat.le_add_right _ _
      · split
        · next ws _ =>
          unfold Conn.write
          split
          · exact Nat.le_of_eq (hentry c₁.view ws)
          · exact Nat.le_of_eq (hentry c₁.view ws)
        · unfold Conn.abort
          split <;> exact Nat.le_add_right _ _

/-- The whole run leaves no more entries than the program makes statements. -/
theorem asked_run {x : Prog S W L α} (hx : x.Asks p n) (sch : Schedule U) (c : Conn S W L) :
    asked p (x.run sch c).conn.trace ≤ asked p c.trace + n := by
  induction x generalizing n sch c with
  | ret r => exact Nat.le_add_right _ _
  | req r k ih =>
    have hcost := hx.1
    have hserve := asked_serve (p := p) c r (sch 0)
    have hrest := ih _ (hx.2 (c.serve r (sch 0)).1) (fun i ↦ sch (i + 1)) (c.serve r (sch 0)).2
    rw [run_req]
    omega

omit [Effect W S] in
/-- At most one entry: any two are the same. -/
theorem entry_unique {trace : List (Entry S W L)} (h : asked p trace ≤ 1) {l l' : L} {v v' : S}
    {ws ws' : List W} (hl : p l = true) (hl' : p l' = true) (hmem : .stmt l v ws ∈ trace)
    (hmem' : .stmt l' v' ws' ∈ trace) :
    (.stmt l v ws : Entry S W L) = .stmt l' v' ws' := by
  unfold asked at h
  generalize hq : (fun e : Entry S W L ↦ match e with
    | .stmt l _ _ => p l
    | .commit _ => false) = q at h
  have hfirst : .stmt l v ws ∈ trace.filter q := List.mem_filter.mpr ⟨hmem, hq ▸ hl⟩
  have hsecond : .stmt l' v' ws' ∈ trace.filter q := List.mem_filter.mpr ⟨hmem', hq ▸ hl'⟩
  rw [List.countP_eq_length_filter] at h
  have hlength := Nat.le_antisymm h (List.length_pos_of_mem hfirst)
  obtain ⟨e, he⟩ := List.length_eq_one_iff.mp hlength
  rw [he, List.mem_singleton] at hfirst hsecond
  exact hfirst.trans hsecond.symm

end Asks

/-! ### The logged effects -/

/-- The effects of the statements of a trace, in order. -/
def logged (trace : List (Entry S W L)) : List W :=
  trace.reverse.flatMap (fun e ↦ match e with
    | .stmt _ _ ws => ws
    | .commit _ => [])

section Logged

variable {c : Conn S W L}

omit [Effect W S] in
theorem logged_stmt (l : L) (v : S) (ws : List W) (trace : List (Entry S W L)) :
    logged (.stmt l v ws :: trace) = logged trace ++ ws := by
  simp [logged]

omit [Effect W S] in
theorem logged_commit (s : S) (trace : List (Entry S W L)) :
    logged (.commit s :: trace) = logged trace := by
  simp [logged]

omit [Effect W S] in
theorem logged_receive (c : Conn S W L) (us : List U) :
    logged (c.receive us).trace = logged c.trace := by
  induction us generalizing c with
  | nil => rfl
  | cons u us ih => exact (ih _).trans (logged_commit _ _)

omit [Effect W S] in
/-- A failed request logs nothing. -/
theorem logged_fail (c : Conn S W L) (r : Request S W L) (f : Fault) :
    logged (c.fail r f).2.trace = logged c.trace := by
  obtain ⟨_, _, htrace, _⟩ := fail_eq c r f
  exact congrArg logged htrace

/-- A statement that succeeds logs its effects. -/
theorem logged_serve_sql (c : Conn S W L) (l : L) (stmt : S → Except PgError (List W))
    (slot : Slot U) :
    ((∃ e, (c.serve (.sql l stmt) slot).1 = .error e) ∧
      logged (c.serve (.sql l stmt) slot).2.trace = logged c.trace) ∨
    ∃ v ws, (c.serve (.sql l stmt) slot).1 = .ok v ∧ stmt v = .ok ws ∧
      logged (c.serve (.sql l stmt) slot).2.trace = logged c.trace ++ ws := by
  have hrec := logged_receive c slot.arrivals
  unfold Conn.serve
  generalize c.receive slot.arrivals = c₁ at hrec
  rw [← hrec]
  cases slot.fault with
  | some f => exact .inl ⟨(fail_eq c₁ _ f).1, logged_fail c₁ _ f⟩
  | none =>
    simp only [Conn.answer]
    split
    · exact .inl ⟨⟨_, rfl⟩, rfl⟩
    · split
      · next ws hws =>
        refine .inr ⟨c₁.view, ws, rfl, hws, ?_⟩
        unfold Conn.write
        split
        · exact logged_stmt ..
        · exact (logged_commit _ _).trans (logged_stmt ..)
      · refine .inl ⟨⟨_, rfl⟩, ?_⟩
        unfold Conn.abort
        split <;> rfl

/-- `BEGIN`, `COMMIT` and `ROLLBACK` log nothing. -/
theorem logged_serve_control (c : Conn S W L) {r : Request S W L}
    (hr : ∀ l stmt, r ≠ .sql l stmt) (slot : Slot U) :
    logged (c.serve r slot).2.trace = logged c.trace := by
  have hrec := logged_receive c slot.arrivals
  unfold Conn.serve
  generalize c.receive slot.arrivals = c₁ at hrec
  rw [← hrec]
  cases slot.fault with
  | some f => exact logged_fail c₁ r f
  | none =>
    cases r with
    | begin => rfl
    | rollback => rfl
    | sql l stmt => exact absurd rfl (hr l stmt)
    | commit =>
      simp only [Conn.answer, Conn.commitTxn]
      split
      · exact logged_commit _ _
      · rfl

/-- A program without effects logs none. -/
theorem logged_run_of_emits {x : Prog S W L α} (hx : x.Emits (fun _ ↦ False)) (sch : Schedule U)
    (c : Conn S W L) : logged (x.run sch c).conn.trace = logged c.trace := by
  induction x generalizing sch c with
  | ret r => rfl
  | req r k ih =>
    rw [run_req, ih _ (hx.2 _)]
    cases r with
    | sql l stmt =>
      rcases logged_serve_sql c l stmt (sch 0) with ⟨_, hsame⟩ | ⟨v, ws, _, hws, heq⟩
      · exact hsame
      · have hnil : ws = [] := List.eq_nil_iff_forall_not_mem.mpr (hx.1 l stmt rfl v ws hws)
        rw [heq, hnil, List.append_nil]
    | _ => exact logged_serve_control c (fun _ _ h ↦ by cases h) (sch 0)

/-- Of a program without effects one may assume that it logs nothing. -/
theorem spec_quiet {x : Prog S W L α} {Q : Except Exn α → Conn S W L → Prop}
    (hx : x.Emits (fun _ ↦ False))
    (h : Spec U x c (fun r c' ↦ logged c'.trace = logged c.trace → Q r c')) : Spec U x c Q :=
  fun sch ↦ h sch (logged_run_of_emits hx sch c)

variable (U) in
/-- Inside a transaction: only arrivals happen, the logged effects are in `T` at every end, and if
the program returns it does so in `P`. -/
def Logs (T : List W → Prop) (x : Prog S W L α) (c : Conn S W L) (P : α → Conn S W L → Prop) :
    Prop :=
  Spec U x c (fun r c' ↦ T (logged c'.trace) ∧ Follows (Arrived U) c c' ∧ ∀ a, r = .ok a → P a c')

variable {T : List W → Prop} {P : α → Conn S W L → Prop}

theorem Logs.body {x : Prog S W L α} (h : Logs U T x c P) : Body U x c P := fun sch ↦ (h sch).2

theorem logs_pure {a : α} (hT : T (logged c.trace)) (h : P a c) : Logs U T (pure a) c P := by
  refine fun _ ↦ ⟨hT, Follows.refl Arrived.refl c, ?_⟩
  intro b hb
  cases hb
  exact h

theorem logs_mono {x : Prog S W L α} {P' : α → Conn S W L → Prop} (h : Logs U T x c P')
    (hP : ∀ a c', Follows (Arrived U) c c' → P' a c' → P a c') : Logs U T x c P := by
  intro sch
  obtain ⟨hT, hfol, hret⟩ := h sch
  exact ⟨hT, hfol, fun a ha ↦ hP a _ hfol (hret a ha)⟩

theorem logs_bind {x : Prog S W L β} {f : β → Prog S W L α}
    (h : Logs U T x c (fun b c₁ ↦ Logs U T (f b) c₁ P)) : Logs U T (x >>= f) c P := by
  refine spec_bind ?_
  intro sch
  obtain ⟨hT, hfol, hret⟩ := h sch
  constructor
  · intro b hb sch'
    obtain ⟨hT', hfol', hret'⟩ := hret b hb sch'
    exact ⟨hT', hfol.next hfol', hret'⟩
  · intro e _
    exact ⟨hT, hfol, fun _ ha ↦ by cases ha⟩

/-- A query logs nothing. -/
theorem logs_fetch {l : L} {q : S → Except PgError α} {p : List W} (hc : c.txn = .active p)
    (hT : T (logged c.trace))
    (h : ∀ a c', Follows (Arrived U) c c' → c'.txn = .active p → q (applyAll p c'.store) = .ok a →
      logged c'.trace = logged c.trace → P a c') : Logs U T (fetch l q) c P := by
  have hsame : Spec U (fetch l q : Prog S W L α) c
      (fun _ c' ↦ logged c'.trace = logged c.trace) :=
    fun sch ↦ logged_run_of_emits emits_fetch sch c
  have hbody : Body U (fetch l q) c (fun a c' ↦ c'.txn = .active p ∧
      q (applyAll p c'.store) = .ok a) :=
    body_fetch hc (fun a c' _ htxn hq _ ↦ ⟨htxn, hq⟩)
  refine spec_mono (spec_and hbody hsame) ?_
  rintro r c' ⟨⟨hfol, hret⟩, hlog⟩
  refine ⟨hlog ▸ hT, hfol, ?_⟩
  intro a ha
  exact h a c' hfol (hret a ha).1 (hret a ha).2 hlog

/-- A statement logs its effects. -/
theorem logs_execute {l : L} {stmt : S → Except PgError (List W)} {p : List W}
    {P : Unit → Conn S W L → Prop} (hc : c.txn = .active p) (hT : T (logged c.trace))
    (h : ∀ ws c', Follows (Arrived U) c c' → c'.txn = .active (p ++ ws) →
      stmt (applyAll p c'.store) = .ok ws → logged c'.trace = logged c.trace ++ ws →
      T (logged c'.trace) ∧ P () c') : Logs U T (execute l stmt) c P := by
  intro sch
  obtain ⟨hfol, hreply⟩ := serve_sql_active hc l stmt (sch 0)
  rw [run_execute]
  rcases logged_serve_sql c l stmt (sch 0) with ⟨⟨e, he⟩, hsame⟩ | ⟨v, ws, hok, hws, hlog⟩
  · rw [he]
    exact ⟨hsame ▸ hT, hfol, fun _ hu ↦ by cases hu⟩
  · obtain ⟨ws', hv, hws', htxn, _⟩ := hreply v hok
    rw [hws] at hws'
    cases hws'
    obtain ⟨hT', hP⟩ := h ws _ hfol htxn (hv ▸ hws) hlog
    exact ⟨hT', hfol, fun _ _ ↦ hP⟩

/-- A transaction logs what its body does. -/
theorem spec_logged_transaction {x : Prog S W L α} (hc : c.txn = .auto) (hT : T (logged c.trace))
    (hx : ∀ c₁, Follows (Arrived U) c c₁ → c₁.txn = .active [] → logged c₁.trace = logged c.trace →
      Logs U T x c₁ P) :
    Spec U (transaction x) c (fun _ c' ↦ T (logged c'.trace)) := by
  intro sch
  have hcontrol : ∀ {r : Request S W L}, (∀ l stmt, r ≠ .sql l stmt) → ∀ (sch : Schedule U)
      (c : Conn S W L), logged ((control r).run sch c).conn.trace = logged c.trace := by
    intro r hr sch c
    rw [run_control]
    exact logged_serve_control c hr (sch 0)
  obtain ⟨hfol, hactive, _⟩ := serve_begin hc (sch 0)
  have hbegin := logged_serve_control c (r := .begin) (fun _ _ h ↦ by cases h) (sch 0)
  rw [run_transaction, run_control]
  dsimp only
  generalize c.serve .begin (sch 0) = begun at hfol hactive hbegin
  obtain ⟨reply, c₁⟩ := begun
  cases reply with
  | error e => exact hbegin ▸ hT
  | ok s =>
    have hbody := (hx c₁ hfol (hactive s rfl) hbegin (fun n ↦ sch (n + 1))).1
    dsimp only [raised]
    generalize x.run (fun n ↦ sch (n + 1)) c₁ = o at hbody
    cases hr : o.result with
    | error e =>
      dsimp only
      rw [hcontrol (fun _ _ h ↦ by cases h)]
      exact hbody
    | ok a =>
      dsimp only
      rw [← hcontrol (r := .commit) (fun _ _ h ↦ by cases h) o.rest o.conn] at hbody
      generalize (control .commit).run o.rest o.conn = done at hbody
      cases done.result with
      | error e => exact hbody
      | ok u => exact hbody

end Logged

/-! ### The logged effects of a transaction -/

/-- The program makes statements only. -/
def Statements : Prog S W L α → Prop
  | ret _ => True
  | req r k => (∃ l stmt, r = .sql l stmt) ∧ ∀ reply, (k reply).Statements

section Statements

omit [Effect W S] in
theorem statements_ret (r : Except Exn α) : (ret r : Prog S W L α).Statements := trivial

omit [Effect W S] in
theorem statements_bind {x : Prog S W L α} {f : α → Prog S W L β} (hx : x.Statements)
    (hf : ∀ a, (f a).Statements) : (x >>= f).Statements := by
  change (x.bind f).Statements
  induction x with
  | ret r =>
    cases r with
    | ok a => exact hf a
    | error e => exact trivial
  | req r k ih => exact ⟨hx.1, fun reply ↦ ih reply (hx.2 reply)⟩

omit [Effect W S] in
theorem statements_execute (l : L) (stmt : S → Except PgError (List W)) :
    (execute l stmt).Statements := by
  refine ⟨⟨l, stmt, rfl⟩, ?_⟩
  intro reply
  cases reply <;> trivial

omit [Effect W S] in
theorem statements_fetch (l : L) (q : S → Except PgError α) :
    (fetch l q : Prog S W L α).Statements := by
  refine ⟨⟨l, _, rfl⟩, ?_⟩
  intro reply
  cases reply with
  | error e => trivial
  | ok s =>
    dsimp only
    cases q s <;> trivial

/-- Statements do not end an aborted transaction. -/
theorem aborted_run {x : Prog S W L α} (hx : x.Statements) (sch : Schedule U) {c : Conn S W L}
    (hc : c.txn = .aborted) : (x.run sch c).conn.txn = .aborted := by
  induction x generalizing sch c with
  | ret r => exact hc
  | req r k ih =>
    obtain ⟨⟨l, stmt, rfl⟩, hk⟩ := hx
    rw [run_req]
    refine ih _ (hk _) _ ?_
    have htxn := (follows_receive c (sch 0).arrivals).2.trans hc
    unfold Conn.serve
    generalize c.receive (sch 0).arrivals = c₁ at htxn
    cases (sch 0).fault with
    | some f => cases f <;> simp only [Conn.fail, Conn.abort, htxn]
    | none => simp only [Conn.answer, htxn]

/-- What statements in an open transaction add to its pending effects is what they log. -/
theorem logged_of_pending {x : Prog S W L α} (hx : x.Statements) (sch : Schedule U)
    {c : Conn S W L} {p p' : List W} (hc : c.txn = .active p)
    (h : (x.run sch c).conn.txn = .active p') :
    ∃ ws, p' = p ++ ws ∧ logged (x.run sch c).conn.trace = logged c.trace ++ ws := by
  induction x generalizing sch c p with
  | ret r =>
    have hsame : Txn.active p = .active p' := hc.symm.trans h
    cases hsame
    exact ⟨[], (List.append_nil _).symm, (List.append_nil _).symm⟩
  | req r k ih =>
    obtain ⟨⟨l, stmt, rfl⟩, hk⟩ := hx
    rw [run_req] at h ⊢
    have hstep : (c.serve (.sql l stmt) (sch 0)).2.txn = .aborted ∨ ∃ ws,
        (c.serve (.sql l stmt) (sch 0)).2.txn = .active (p ++ ws) ∧
        logged (c.serve (.sql l stmt) (sch 0)).2.trace = logged c.trace ++ ws := by
      have htxn := (follows_receive c (sch 0).arrivals).2.trans hc
      have hlog := logged_receive c (sch 0).arrivals
      unfold Conn.serve
      generalize c.receive (sch 0).arrivals = c₁ at htxn hlog
      rw [← hlog]
      cases (sch 0).fault with
      | some f =>
        cases f with
        | client e => exact .inr ⟨[], by rw [List.append_nil]; exact htxn, (List.append_nil _).symm⟩
        | server e => exact .inl (by simp only [Conn.fail, Conn.abort, htxn])
      | none =>
        simp only [Conn.answer, htxn]
        cases stmt c₁.view with
        | error e => exact .inl (by simp only [Conn.abort, htxn])
        | ok ws =>
          refine .inr ⟨ws, by simp only [Conn.write, htxn], ?_⟩
          simp only [Conn.write, htxn]
          exact logged_stmt ..
    rcases hstep with haborted | ⟨ws, hactive, hlog⟩
    · rw [aborted_run (hk _) _ haborted] at h
      cases h
    · obtain ⟨ws', hp', hlog'⟩ := ih _ (hk _) _ hactive h
      refine ⟨ws ++ ws', ?_, ?_⟩
      · rw [hp', List.append_assoc]
      · rw [hlog', hlog, List.append_assoc]

end Statements

end Prog

/-- As `Runs`, and the statements log these effects. -/
def RunsLog (E : L → List W → Prop) (arr : Nat → List U) (x : Prog S W L α) (n : Nat) (s : S)
    (t : Txn W) (r : Except Exn α) (n' : Nat) (s' : S) (t' : Txn W) (ws : List W) : Prop :=
  ∀ tr, ∃ new, x.run (fun k ↦ arriving arr (n + k)) ⟨s, t, tr⟩ =
    ⟨r, fun k ↦ arriving arr (n' + k), ⟨s', t', new ++ tr⟩⟩ ∧ StmtsIn E new ∧
    Prog.logged (new ++ tr) = Prog.logged tr ++ ws

section RunsLog

variable {E : L → List W → Prop} {arr : Nat → List U} {n n₁ n₂ : Nat} {s s₁ s₂ : S}
  {t t₁ t₂ : Txn W} {x : Prog S W L α} {a : α} {ws ws' : List W}

theorem RunsLog.runs {r : Except Exn α} (h : RunsLog E arr x n s t r n₁ s₁ t₁ ws) :
    Runs E arr x n s t r n₁ s₁ t₁ := by
  intro tr
  obtain ⟨new, hrun, hnew, _⟩ := h tr
  exact ⟨new, hrun, hnew⟩

theorem runsLog_ret (r : Except Exn α) :
    RunsLog E arr (.ret r : Prog S W L α) n s t r n s t [] :=
  fun _ ↦ ⟨[], rfl, fun _ _ _ h ↦ (by cases h), (List.append_nil _).symm⟩

/-- A program without effects. -/
theorem Runs.logsNothing {r : Except Exn α} (h : Runs E arr x n s t r n₁ s₁ t₁)
    (hx : x.Emits (fun _ ↦ False)) : RunsLog E arr x n s t r n₁ s₁ t₁ [] := by
  intro tr
  obtain ⟨new, hrun, hnew⟩ := h tr
  have hlog := Prog.logged_run_of_emits hx (fun k ↦ arriving arr (n + k)) ⟨s, t, tr⟩
  rw [hrun] at hlog
  exact ⟨new, hrun, hnew, hlog.trans (List.append_nil _).symm⟩

/-- The statements of a transaction. -/
theorem Runs.logs {r : Except Exn α} {p : List W}
    (h : Runs E arr x n s (.active []) r n₁ s₁ (.active p)) (hx : x.Statements) :
    RunsLog E arr x n s (.active []) r n₁ s₁ (.active p) p := by
  intro tr
  obtain ⟨new, hrun, hnew⟩ := h tr
  have hend : (x.run (fun k ↦ arriving arr (n + k)) ⟨s, .active [], tr⟩).conn.txn = .active p := by
    rw [hrun]
  obtain ⟨ws, hp, hlog⟩ := Prog.logged_of_pending hx _ rfl hend
  rw [hrun] at hlog
  rw [List.nil_append] at hp
  exact ⟨new, hrun, hnew, hp ▸ hlog⟩

theorem runsLog_bind {f : α → Prog S W L β} {r : Except Exn β}
    (hx : RunsLog E arr x n s t (.ok a) n₁ s₁ t₁ ws)
    (hf : RunsLog E arr (f a) n₁ s₁ t₁ r n₂ s₂ t₂ ws') :
    RunsLog E arr (x >>= f) n s t r n₂ s₂ t₂ (ws ++ ws') := by
  intro tr
  obtain ⟨new, hrun, hnew, hlog⟩ := hx tr
  obtain ⟨new', hrun', hnew', hlog'⟩ := hf (new ++ tr)
  refine ⟨new' ++ new, ?_, stmtsIn_append hnew' hnew, ?_⟩
  · rw [Prog.run_bind, hrun, List.append_assoc]
    exact hrun'
  · rw [List.append_assoc, hlog', hlog, List.append_assoc]

/-- What follows a part that logs nothing. -/
theorem runsLog_quiet_bind {f : α → Prog S W L β} {r : Except Exn β}
    (hx : RunsLog E arr x n s t (.ok a) n₁ s₁ t₁ [])
    (hf : RunsLog E arr (f a) n₁ s₁ t₁ r n₂ s₂ t₂ ws) :
    RunsLog E arr (x >>= f) n s t r n₂ s₂ t₂ ws := runsLog_bind hx hf

/-- What precedes a part that logs nothing. -/
theorem runsLog_bind_quiet {f : α → Prog S W L β} {r : Except Exn β}
    (hx : RunsLog E arr x n s t (.ok a) n₁ s₁ t₁ ws)
    (hf : RunsLog E arr (f a) n₁ s₁ t₁ r n₂ s₂ t₂ []) :
    RunsLog E arr (x >>= f) n s t r n₂ s₂ t₂ ws := by
  have hall := runsLog_bind hx hf
  rw [List.append_nil] at hall
  exact hall

theorem runsLog_attempt {r : Except Exn α} (hx : RunsLog E arr x n s t r n₁ s₁ t₁ ws) :
    RunsLog E arr x.attempt n s t (.ok r) n₁ s₁ t₁ ws := by
  intro tr
  obtain ⟨new, hrun, hnew, hlog⟩ := hx tr
  exact ⟨new, by rw [Prog.run_attempt, hrun], hnew, hlog⟩

omit [Effect W S] in
theorem Prog.emits_control_of_ne {r : Request S W L} (hr : ∀ l stmt, r ≠ .sql l stmt) :
    (control r).Emits (fun _ ↦ False) :=
  Prog.emits_control (fun l stmt heq ↦ absurd heq (hr l stmt))

/-- A transaction whose body returns logs its effects. -/
theorem runsLog_transaction {p : List W} (hbody : RunsLog E arr x (n + 1) (applyAll (arr n) s)
      (.active []) (.ok a) n₁ s₁ (.active p) p) :
    RunsLog E arr (Prog.transaction x) n s .auto (.ok a) (n₁ + 1)
      (applyAll p (applyAll (arr n₁) s₁)) .auto p := by
  have hbegin : RunsLog E arr (Prog.control .begin : Prog S W L Unit) n s .auto (.ok ()) (n + 1)
      (applyAll (arr n) s) (.active []) [] :=
    runs_begin.logsNothing (Prog.emits_control_of_ne (fun _ _ h ↦ by cases h))
  have hcommit : RunsLog E arr (Prog.control .commit : Prog S W L Unit) n₁ s₁ (.active p) (.ok ())
      (n₁ + 1) (applyAll p (applyAll (arr n₁) s₁)) .auto [] :=
    runs_commit.logsNothing (Prog.emits_control_of_ne (fun _ _ h ↦ by cases h))
  rw [Prog.transaction]
  exact runsLog_quiet_bind hbegin (runsLog_bind_quiet (runsLog_attempt hbody)
    (runsLog_bind_quiet hcommit (runsLog_ret (.ok a))))

theorem runsLog_tryFinally {y : Prog S W L Unit} {r : Except Exn α}
    (hx : RunsLog E arr x n s t r n₁ s₁ t₁ ws)
    (hy : RunsLog E arr y n₁ s₁ t₁ (.ok ()) n₂ s₂ t₂ []) :
    RunsLog E arr (Prog.tryFinally x y) n s t r n₂ s₂ t₂ ws := by
  rw [Prog.tryFinally]
  exact runsLog_bind_quiet (runsLog_attempt hx) (runsLog_bind_quiet hy (runsLog_ret r))

/-- What a run of a whole program logs. -/
theorem RunsLog.whole {r : Except Exn α} (h : RunsLog E arr x 0 s .auto r n₁ s₁ t₁ ws) :
    Prog.logged (x.run (arriving arr) (.fresh s)).conn.trace = ws := by
  obtain ⟨new, hrun, _, hlog⟩ := h []
  have hsch : (fun k ↦ arriving arr (0 + k)) = arriving arr := by
    funext k
    rw [Nat.zero_add]
  rw [hsch] at hrun
  rw [Conn.fresh, hrun]
  exact hlog

end RunsLog

end PotholeServer.Sql
