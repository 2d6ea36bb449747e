import PotholeServer.Runs
import PotholeServer.Sql.Interference

/-!
# Sessions of one server

Any number of sessions, each with a program of its own, share one store. The server answers the
requests of the sessions in any order; a statement whose effects need a lock that another open
transaction holds has to wait, and so does a commit from outside. A connection can be lost at any
time, which gives its transaction up. A program that has ended is answered to its client by one
more step, so that a commit may be followed by the loss of the connection.
-/

namespace PotholeServer.Sql

/-- What is left of a program, and its transaction. -/
structure Session (J : Type) (A : J → Type) (S W L : Type) where
  job : J
  prog : Prog S W L (A job)
  txn : Txn W

/-- The store, the sessions that were opened (`none` for closed ones) and what the jobs have
answered. -/
structure Server (J : Type) (A : J → Type) (S W L : Type) where
  store : S
  sessions : List (Option (Session J A S W L))
  results : List ((j : J) × Except Exn (A j))

/-- One step of the server. -/
inductive Act (J U : Type) where
  | start (j : J)
  | serve (i : Nat)
  | fail (i : Nat) (f : Fault)
  | finish (i : Nat)
  | lose (i : Nat)
  | commit (u : U)

namespace Server

variable {J : Type} {A : J → Type} {S W L U K : Type}

/-- The session with a number, if it is open. -/
def session (σ : Server J A S W L) (i : Nat) : Option (Session J A S W L) := (σ.sessions[i]?).join

/-- Replace a session. -/
def put (σ : Server J A S W L) (i : Nat) (o : Option (Session J A S W L)) : Server J A S W L :=
  { σ with sessions := σ.sessions.set i o }

/-- A server without sessions. -/
def idle (s : S) : Server J A S W L := ⟨s, [], []⟩

/-- The effects that a request has, now or at the end of its transaction. -/
def effects [Effect W S] (s : S) (t : Txn W) : Request S W L → List W
  | .sql _ stmt =>
    match t with
    | .aborted => []
    | _ =>
      match stmt (viewOf s t) with
      | .ok ws => ws
      | .error _ => []
  | _ => []

section Locks

variable (locks : W → List K)

/-- The locks of the effects that wait in a transaction. -/
def held : Txn W → List K
  | .active p => p.flatMap locks
  | _ => []

/-- The locks that the open transactions hold. -/
def allHeld (σ : Server J A S W L) : List K :=
  σ.sessions.flatMap (fun o ↦ o.elim [] (fun ss ↦ held locks ss.txn))

/-- The locks that a request needs. -/
def wanted [Effect W S] (s : S) (t : Txn W) (r : Request S W L) : List K :=
  (effects s t r).flatMap locks

variable [Effect W S] [Effect U S] [DecidableEq K] (program : (j : J) → Prog S W L (A j))
  (asks : U → List K)

/-- A session of a job on a new connection. -/
def newSession (j : J) : Session J A S W L := ⟨j, program j, .auto⟩

/-- The next state of the server, if the step can be taken. -/
def step (σ : Server J A S W L) : Act J U → Option (Server J A S W L)
  | .start j => some { σ with sessions := σ.sessions ++ [some (newSession program j)] }
  | .serve i =>
    match σ.session i with
    | some ⟨j, .req r k, t⟩ =>
      if ∀ l ∈ wanted locks σ.store t r, l ∉ (σ.put i none).allHeld locks then
        some { σ.put i (some ⟨j, k (answerOn σ.store t r).1, (answerOn σ.store t r).2.txn⟩) with
          store := (answerOn σ.store t r).2.store }
      else none
    | _ => none
  | .fail i f =>
    match σ.session i with
    | some ⟨j, .req r k, t⟩ =>
      some { σ.put i (some ⟨j, k (failOn σ.store t r f).1, (failOn σ.store t r f).2.txn⟩) with
        store := (failOn σ.store t r f).2.store }
    | _ => none
  | .finish i =>
    match σ.session i with
    | some ⟨j, .ret r, _⟩ => some { σ.put i none with results := ⟨j, r⟩ :: σ.results }
    | _ => none
  | .lose i => some (σ.put i none)
  | .commit u =>
    if ∀ l ∈ asks u, l ∉ σ.allHeld locks then some { σ with store := Effect.apply u σ.store }
    else none

end Locks

/-! ### Sessions -/

section Sessions

variable {σ : Server J A S W L} {i j : Nat} {o : Option (Session J A S W L)}
  {ss : Session J A S W L}

theorem session_put : (σ.put i o).session j =
    if j = i ∧ i < σ.sessions.length then o else σ.session j := by
  rw [session, put, List.getElem?_set]
  by_cases hij : i = j
  · subst hij
    by_cases hi : i < σ.sessions.length
    · simp [hi]
    · simp [hi, session]
  · have hji : ¬j = i := fun h ↦ hij h.symm
    simp [hij, hji, session]

/-- A session after a replacement: the new one, or another one as it was. -/
theorem of_session_put (h : (σ.put i o).session j = some ss) :
    (j = i ∧ o = some ss) ∨ (j ≠ i ∧ σ.session j = some ss) := by
  by_cases hji : j = i
  · subst hji
    by_cases hi : j < σ.sessions.length
    · rw [session_put, if_pos ⟨rfl, hi⟩] at h
      exact .inl ⟨rfl, h⟩
    · rw [session_put, if_neg (fun h ↦ hi h.2), session,
        List.getElem?_eq_none (Nat.le_of_not_lt hi)] at h
      cases h
  · rw [session_put, if_neg (fun h ↦ hji h.1)] at h
    exact .inr ⟨hji, h⟩

/-- A session after one more was opened. -/
theorem of_session_start {new : Session J A S W L}
    (h : ({ σ with sessions := σ.sessions ++ [some new] } : Server J A S W L).session j =
      some ss) : (j = σ.sessions.length ∧ new = ss) ∨ σ.session j = some ss := by
  rw [session] at h
  rcases Nat.lt_trichotomy j σ.sessions.length with hj | hj | hj
  · rw [List.getElem?_append_left hj] at h
    exact .inr h
  · subst hj
    rw [List.getElem?_append_right (Nat.le_refl _), Nat.sub_self] at h
    exact .inl ⟨rfl, Option.some.inj h⟩
  · rw [List.getElem?_append_right (Nat.le_of_lt hj), List.getElem?_eq_none (by simp; omega)] at h
    cases h

theorem mem_allHeld {locks : W → List K} {l : K} : l ∈ σ.allHeld locks ↔
    ∃ i ss, σ.session i = some ss ∧ l ∈ held locks ss.txn := by
  rw [allHeld, List.mem_flatMap]
  constructor
  · rintro ⟨o, ho, hl⟩
    obtain ⟨i, hi⟩ := List.mem_iff_getElem?.mp ho
    cases o with
    | none => cases hl
    | some ss => exact ⟨i, ss, by rw [session, hi]; rfl, hl⟩
  · rintro ⟨i, ss, hss, hl⟩
    refine ⟨some ss, ?_, hl⟩
    rw [session, Option.join_eq_some_iff] at hss
    exact List.mem_of_getElem? hss

theorem not_mem_allHeld_put {locks : W → List K} {l : K} (h : l ∉ (σ.put i none).allHeld locks)
    (hji : j ≠ i) (hss : σ.session j = some ss) : l ∉ held locks ss.txn := by
  intro hl
  refine h (mem_allHeld.mpr ⟨j, ss, ?_, hl⟩)
  rw [session_put, if_neg (fun h ↦ hji h.1)]
  exact hss

end Sessions

/-! ### Steps -/

section Moves

variable [Effect W S] [Effect U S] (locks : W → List K)
  (program : (j : J) → Prog S W L (A j)) (asks : U → List K)

/-- What a step does. -/
inductive Moves (σ : Server J A S W L) : Act J U → Server J A S W L → Prop where
  | start (j : J) :
    Moves σ (.start j) { σ with sessions := σ.sessions ++ [some (newSession program j)] }
  | serve {i : Nat} {j : J} {r : Request S W L} {k : Except PgError S → Prog S W L (A j)}
    {t : Txn W} (hs : σ.session i = some ⟨j, .req r k, t⟩)
    (hfree : ∀ l ∈ wanted locks σ.store t r, ∀ i' ss, i' ≠ i → σ.session i' = some ss →
      l ∉ held locks ss.txn) :
    Moves σ (.serve i)
      { σ.put i (some ⟨j, k (answerOn σ.store t r).1, (answerOn σ.store t r).2.txn⟩) with
        store := (answerOn σ.store t r).2.store }
  | fail {i : Nat} {j : J} {r : Request S W L} {k : Except PgError S → Prog S W L (A j)}
    {t : Txn W} (f : Fault) (hs : σ.session i = some ⟨j, .req r k, t⟩) :
    Moves σ (.fail i f)
      (σ.put i (some ⟨j, k (failOn σ.store t r f).1, (failOn σ.store t r f).2.txn⟩))
  | finish {i : Nat} {j : J} {r : Except Exn (A j)} {t : Txn W}
    (hs : σ.session i = some ⟨j, .ret r, t⟩) :
    Moves σ (.finish i) { σ.put i none with results := ⟨j, r⟩ :: σ.results }
  | lose (i : Nat) : Moves σ (.lose i) (σ.put i none)
  | commit {u : U} (hfree : ∀ l ∈ asks u, ∀ i ss, σ.session i = some ss → l ∉ held locks ss.txn) :
    Moves σ (.commit u) { σ with store := Effect.apply u σ.store }

variable {locks program asks} {σ σ' : Server J A S W L} {a : Act J U}

theorem moves_of_step [DecidableEq K] (h : σ.step locks program asks a = some σ') :
    Moves locks program asks σ a σ' := by
  cases a with
  | start j =>
    cases h
    exact .start j
  | serve i =>
    rw [step] at h
    split at h
    · next j r k t hs =>
      split at h
      · next hfree =>
        cases h
        exact .serve hs (fun l hl i' ss hi hss ↦ not_mem_allHeld_put (hfree l hl) hi hss)
      · cases h
    · cases h
  | fail i f =>
    rw [step] at h
    split at h
    · next j r k t hs =>
      have hstore : (failOn σ.store t r f).2.store = σ.store :=
        (fail_eq (⟨σ.store, t, []⟩ : Conn S W L) r f).2.1
      rw [hstore] at h
      cases h
      exact .fail f hs
    · cases h
  | finish i =>
    rw [step] at h
    split at h
    · next j r t hs =>
      cases h
      exact .finish hs
    · cases h
  | lose i =>
    cases h
    exact .lose i
  | commit u =>
    rw [step] at h
    split at h
    · next hfree =>
      cases h
      exact .commit (fun l hl i ss hss hheld ↦ hfree l hl (mem_allHeld.mpr ⟨i, ss, hss, hheld⟩))
    · cases h

/-- What holds of every session is kept by a step, if it holds of a new session, of the one that is
answered, and of the others after the change of the store. -/
theorem Moves.sessions {P : Session J A S W L → S → Prop} (h : Moves locks program asks σ a σ')
    (hP : ∀ i ss, σ.session i = some ss → P ss σ.store)
    (hstart : ∀ j, a = .start j → P (newSession program j) σ.store)
    (hserve : ∀ i j r k t, a = .serve i → σ.session i = some ⟨j, .req r k, t⟩ →
      (∀ l ∈ wanted locks σ.store t r, ∀ i' ss, i' ≠ i → σ.session i' = some ss →
        l ∉ held locks ss.txn) →
      P ⟨j, k (answerOn σ.store t r).1, (answerOn σ.store t r).2.txn⟩
        (answerOn σ.store t r).2.store)
    (hfail : ∀ i j r k t f, a = .fail i f → σ.session i = some ⟨j, .req r k, t⟩ →
      P ⟨j, k (failOn σ.store t r f).1, (failOn σ.store t r f).2.txn⟩ σ.store)
    (hother : ∀ i ss, σ.session i = some ss → a ≠ .serve i → P ss σ'.store) :
    ∀ i ss, σ'.session i = some ss → P ss σ'.store := by
  intro i ss hss
  cases h with
  | start j =>
    rcases of_session_start hss with ⟨_, rfl⟩ | hold
    · exact hstart j rfl
    · exact hP i ss hold
  | serve hs hfree =>
    rcases of_session_put hss with ⟨rfl, heq⟩ | ⟨hne, hold⟩
    · cases heq
      exact hserve _ _ _ _ _ rfl hs hfree
    · exact hother i ss hold (fun h ↦ hne (Act.serve.inj h).symm)
  | fail f hs =>
    rcases of_session_put hss with ⟨rfl, heq⟩ | ⟨_, hold⟩
    · cases heq
      exact hfail _ _ _ _ _ f rfl hs
    · exact hP i ss hold
  | finish hs =>
    rcases of_session_put hss with ⟨_, heq⟩ | ⟨_, hold⟩
    · cases heq
    · exact hP i ss hold
  | lose =>
    rcases of_session_put hss with ⟨_, heq⟩ | ⟨_, hold⟩
    · cases heq
    · exact hP i ss hold
  | commit => exact hother i ss hss (fun h ↦ by cases h)

/-- The store after a step. -/
theorem Moves.store (h : Moves locks program asks σ a σ') : σ'.store = σ.store ∨
    (∃ i j r k t, a = .serve i ∧ σ.session i = some ⟨j, .req r k, t⟩ ∧
      σ'.store = (answerOn σ.store t r).2.store) ∨
    ∃ u, a = .commit u ∧ σ'.store = Effect.apply u σ.store := by
  cases h with
  | serve hs _ => exact .inr (.inl ⟨_, _, _, _, _, rfl, hs, rfl⟩)
  | commit => exact .inr (.inr ⟨_, rfl, rfl⟩)
  | start | fail | finish | lose => exact .inl rfl

/-- No lock is held by two open transactions. -/
def Exclusive (locks : W → List K) (σ : Server J A S W L) : Prop :=
  ∀ i i' ss ss', i ≠ i' → σ.session i = some ss → σ.session i' = some ss' →
    ∀ l ∈ held locks ss.txn, l ∉ held locks ss'.txn

omit [Effect U S] in
theorem effects_sql {s : S} {t : Txn W} {l : L} {stmt : S → Except PgError (List W)} {ws : List W}
    (ht : t ≠ .aborted) (h : stmt (viewOf s t) = .ok ws) : effects s t (.sql l stmt) = ws := by
  cases t with
  | aborted => exact absurd rfl ht
  | auto | active => simp only [effects, h]

omit [Effect U S] in
/-- An effect of a request is one of its statement. -/
theorem of_mem_effects {s : S} {t : Txn W} {r : Request S W L} {w : W} (h : w ∈ effects s t r) :
    ∃ l stmt ws, r = .sql l stmt ∧ t ≠ .aborted ∧ stmt (viewOf s t) = .ok ws ∧ w ∈ ws := by
  cases r with
  | begin => cases h
  | commit => cases h
  | rollback => cases h
  | sql l stmt =>
    by_cases ht : t = .aborted
    · rw [ht] at h
      cases h
    · cases hq : stmt (viewOf s t) with
      | ok ws =>
        rw [effects_sql ht hq] at h
        exact ⟨l, stmt, ws, rfl, ht, hq, h⟩
      | error e =>
        cases t with
        | aborted => exact absurd rfl ht
        | auto | active =>
          simp only [effects, hq] at h
          cases h

omit [Effect U S] in
/-- A transaction has no locks but those that it had and those that its request needed. -/
theorem held_answerOn {s : S} {t : Txn W} {r : Request S W L} {l : K}
    (h : l ∈ held locks (answerOn s t r).2.txn) : l ∈ held locks t ∨ l ∈ wanted locks s t r := by
  have hanswers := answers s t r
  generalize (answerOn s t r).2.txn = t', (answerOn s t r).2.store = s' at h hanswers
  cases hanswers with
  | refused hstill =>
    cases hstill with
    | refl => exact .inl h
    | abort => cases h
  | @made _ _ ws ht hq =>
    rw [wanted, effects_sql ht hq]
    cases t with
    | auto => cases h
    | aborted => exact absurd rfl ht
    | active p =>
      have happend : l ∈ (p ++ ws).flatMap locks := h
      rw [List.flatMap_append] at happend
      exact List.mem_append.mp happend
  | begin => cases h
  | commit => cases h
  | rollback => cases h

omit [Effect W S] [Effect U S] in
/-- A failed request opens no transaction. -/
theorem active_failOn {s : S} {t : Txn W} {r : Request S W L} {f : Fault} {p : List W}
    (h : (failOn s t r f).2.txn = .active p) : t = .active p := by
  have habort : ∀ c : Conn S W L, c.abort.txn = .active p → c.txn = .active p := by
    intro c hc
    unfold Conn.abort at hc
    split at hc
    · cases hc
    · exact hc
  cases f with
  | client e => cases r <;> first | exact h | cases h
  | server e => cases r <;> first | exact habort ⟨s, t, []⟩ h | cases h

omit [Effect W S] [Effect U S] in
theorem held_failOn {s : S} {t : Txn W} {r : Request S W L} {f : Fault} {l : K}
    (h : l ∈ held locks (failOn s t r f).2.txn) : l ∈ held locks t := by
  cases htxn : (failOn s t r f).2.txn with
  | active p =>
    rw [htxn] at h
    rw [active_failOn htxn]
    exact h
  | auto =>
    rw [htxn] at h
    cases h
  | aborted =>
    rw [htxn] at h
    cases h

omit [Effect W S] [Effect U S] in
/-- A session may keep its locks, and take those that nobody else has. -/
theorem Exclusive.put (h : Exclusive locks σ) {i : Nat} {old new : Session J A S W L}
    (hold : σ.session i = some old)
    (hnew : ∀ l ∈ held locks new.txn, l ∈ held locks old.txn ∨ ∀ i' ss, i' ≠ i →
      σ.session i' = some ss → l ∉ held locks ss.txn) :
    Exclusive locks (σ.put i (some new)) := by
  intro m m' ss ss' hne hss hss' l hl hl'
  rcases of_session_put hss with ⟨hm, heq⟩ | ⟨hm, hother⟩
  · cases heq
    rcases of_session_put hss' with ⟨hm', _⟩ | ⟨hm', hother'⟩
    · exact hne (hm.trans hm'.symm)
    · rcases hnew l hl with hmine | hfree
      · exact h i m' old ss' (hm ▸ hne) hold hother' l hmine hl'
      · exact hfree m' ss' hm' hother' hl'
  · rcases of_session_put hss' with ⟨hm', heq⟩ | ⟨_, hother'⟩
    · cases heq
      rcases hnew l hl' with hmine | hfree
      · exact h m i ss old (hm' ▸ hne) hother hold l hl hmine
      · exact hfree m ss hm hother hl
    · exact h m m' ss ss' hne hother hother' l hl hl'

omit [Effect W S] [Effect U S] in
theorem Exclusive.close (h : Exclusive locks σ) (i : Nat) : Exclusive locks (σ.put i none) := by
  intro m m' ss ss' hne hss hss'
  rcases of_session_put hss with ⟨_, heq⟩ | ⟨_, hss⟩
  · cases heq
  · rcases of_session_put hss' with ⟨_, heq⟩ | ⟨_, hss'⟩
    · cases heq
    · exact h _ _ _ _ hne hss hss'

omit [Effect W S] [Effect U S] in
/-- A new session has no locks. -/
theorem Exclusive.start (h : Exclusive locks σ) (j : J) : Exclusive locks
    ({ σ with sessions := σ.sessions ++ [some (newSession program j)] } : Server J A S W L) := by
  intro m m' ss ss' hne hss hss' l hl hl'
  rcases of_session_start hss with ⟨_, rfl⟩ | hss
  · cases hl
  · rcases of_session_start hss' with ⟨_, rfl⟩ | hss'
    · cases hl'
    · exact h _ _ _ _ hne hss hss' l hl hl'

/-- The locks stay exclusive. -/
theorem Moves.exclusive (h : Moves locks program asks σ a σ') (hσ : Exclusive locks σ) :
    Exclusive locks σ' := by
  cases h with
  | start j => exact hσ.start j
  | @serve i j r k t hs hfree =>
    have hput : Exclusive locks (σ.put i
        (some ⟨j, k (answerOn σ.store t r).1, (answerOn σ.store t r).2.txn⟩)) := by
      refine hσ.put hs ?_
      intro l hl
      exact (held_answerOn hl).imp id (fun hw i' ss hi hss ↦ hfree l hw i' ss hi hss)
    exact hput
  | fail f hs => exact hσ.put hs (fun l hl ↦ .inl (held_failOn hl))
  | finish hs => exact hσ.close _
  | lose i => exact hσ.close i
  | commit => exact hσ

end Moves

/-! ### The effects that sessions have -/

/-- What a session has collected and what its program can still emit are in `P`. -/
structure EmitsIn (P : J → W → Prop) (ss : Session J A S W L) : Prop where
  prog : ss.prog.Emits (P ss.job)
  pending : ∀ p, ss.txn = .active p → ∀ w ∈ p, P ss.job w

section EmitsIn

variable [Effect W S] [Effect U S] {P : J → W → Prop} {s : S} {j : J} {r : Request S W L}
  {k : Except PgError S → Prog S W L (A j)} {t : Txn W}

omit [Effect U S] in
/-- An answer stays within the effects, and changes the store by some of them. -/
theorem EmitsIn.serve (h : EmitsIn P (⟨j, .req r k, t⟩ : Session J A S W L))
    (reply : Except PgError S) :
    EmitsIn P (⟨j, k reply, (answerOn s t r).2.txn⟩ : Session J A S W L) ∧
      ∃ ws, (∀ w ∈ ws, P j w) ∧ (answerOn s t r).2.store = applyAll ws s := by
  obtain ⟨⟨hmade, hnext⟩, hpending⟩ := h
  have hanswers := answers s t r
  generalize (answerOn s t r).2.txn = t', (answerOn s t r).2.store = s' at hanswers
  cases hanswers with
  | refused hstill =>
    refine ⟨⟨hnext reply, ?_⟩, [], fun _ h ↦ absurd h List.not_mem_nil, rfl⟩
    intro p hp
    cases hstill with
    | refl => exact hpending p hp
    | abort => cases hp
  | @made l stmt ws ht hq =>
    have hws := hmade l stmt rfl _ ws hq
    cases t with
    | aborted => exact absurd rfl ht
    | auto => exact ⟨⟨hnext reply, fun p hp ↦ by cases hp⟩, ws, hws, rfl⟩
    | active p =>
      refine ⟨⟨hnext reply, ?_⟩, [], fun _ h ↦ absurd h List.not_mem_nil, rfl⟩
      intro p' hp' w hw
      cases hp'
      rcases List.mem_append.mp hw with hw | hw
      · exact hpending p rfl w hw
      · exact hws w hw
  | begin =>
    refine ⟨⟨hnext reply, ?_⟩, [], fun _ h ↦ absurd h List.not_mem_nil, rfl⟩
    intro p hp w hw
    cases hp
    cases hw
  | commit =>
    refine ⟨⟨hnext reply, fun p hp ↦ by cases hp⟩, ?_⟩
    cases t with
    | active p => exact ⟨p, hpending p rfl, rfl⟩
    | auto => exact ⟨[], fun _ h ↦ absurd h List.not_mem_nil, rfl⟩
    | aborted => exact ⟨[], fun _ h ↦ absurd h List.not_mem_nil, rfl⟩
  | rollback =>
    exact ⟨⟨hnext reply, fun p hp ↦ by cases hp⟩, [], fun _ h ↦ absurd h List.not_mem_nil, rfl⟩

variable {locks : W → List K} {program : (j : J) → Prog S W L (A j)} {asks : U → List K}
  {σ σ' : Server J A S W L} {a : Act J U}

/-- The sessions stay within their effects. -/
theorem Moves.emitsIn (h : Moves locks program asks σ a σ')
    (hσ : ∀ i ss, σ.session i = some ss → EmitsIn P ss)
    (hstart : ∀ j, a = .start j → (program j).Emits (P j)) :
    ∀ i ss, σ'.session i = some ss → EmitsIn P ss := by
  refine h.sessions (P := fun ss _ ↦ EmitsIn P ss) hσ ?_ ?_ ?_ (fun i ss hss _ ↦ hσ i ss hss)
  · exact fun j ha ↦ ⟨hstart j ha, fun p hp ↦ by cases hp⟩
  · exact fun i j r k t _ hs _ ↦ ((hσ i _ hs).serve _).1
  · intro i j r k t f _ hs
    exact ⟨(hσ i _ hs).prog.2 _, fun p hp ↦ (hσ i _ hs).pending p (active_failOn hp)⟩

end EmitsIn

end Server

end PotholeServer.Sql
