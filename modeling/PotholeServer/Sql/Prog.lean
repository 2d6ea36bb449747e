import Mathlib.Control.Basic

/-!
# Client programs of a transactional store

A client program is a tree of requests to a store: SQL statements, `BEGIN`, `COMMIT`
and `ROLLBACK`. A statement reads one snapshot and yields row effects; outside a
transaction they are committed at once, inside one they wait for the commit, under
READ COMMITTED: every statement sees what others have committed before it started,
and the pending effects of its own transaction.

A schedule fixes, for each request in turn, what other clients commit just before it
and whether the request fails. A program is deterministic under a schedule, so a fact
about every schedule is a fact about every interleaving and every failure.

A server-side error aborts the open transaction: later statements fail, and `COMMIT`
silently rolls back. A client-side error is raised before anything is sent.
-/

namespace PotholeServer.Sql

/-- An error reported for one request by the driver or by the server. -/
structure PgError where
  message : String
  deriving DecidableEq, Repr

/-- What a statement raises inside an aborted transaction. -/
def inFailedTransaction : PgError :=
  ⟨"current transaction is aborted, commands ignored until end of transaction block"⟩

/-- What a client program raises. -/
inductive Exn where
  | postgresError (e : PgError)
  | valueError
  | keyError
  | typeError
  deriving DecidableEq, Repr

/-- Why one request fails: the driver cannot encode it, or the server reports an error. -/
inductive Fault where
  | client (e : PgError)
  | server (e : PgError)
  deriving DecidableEq, Repr

/-- One request: a labelled statement that computes its row effects from a snapshot,
or the control of a transaction. -/
inductive Request (S W L : Type) where
  | sql (label : L) (stmt : S → Except PgError (List W))
  | begin
  | commit
  | rollback

/-- A client program: requests, each continued by its reply, up to a result. -/
inductive Prog (S W L α : Type) where
  | ret (r : Except Exn α)
  | req (r : Request S W L) (k : Except PgError S → Prog S W L α)

variable {S W L U α β γ : Type}

namespace Prog

/-- Sequencing; an exception skips the rest. -/
def bind (x : Prog S W L α) (f : α → Prog S W L β) : Prog S W L β :=
  match x with
  | ret (.ok a) => f a
  | ret (.error e) => ret (.error e)
  | req r k => req r (fun reply ↦ (k reply).bind f)

instance : Monad (Prog S W L) where
  pure a := ret (.ok a)
  bind := bind

/-- Raise an exception. -/
def raise (e : Exn) : Prog S W L α := ret (.error e)

/-- Run a program and reify its exception. -/
def attempt : Prog S W L α → Prog S W L (Except Exn α)
  | ret r => ret (.ok r)
  | req r k => req r (fun reply ↦ (k reply).attempt)

/-- Continue with a value or raise the error reified before. -/
def ofExcept (r : Except Exn α) : Prog S W L α := ret r

/-- `try: x finally: y`. -/
def tryFinally (x : Prog S W L α) (y : Prog S W L Unit) : Prog S W L α := do
  let r ← x.attempt
  y
  ofExcept r

/-- One request whose reply is not looked at, apart from its error. -/
def control (r : Request S W L) : Prog S W L Unit :=
  req r (fun reply ↦ match reply with
    | .ok _ => ret (.ok ())
    | .error e => ret (.error (.postgresError e)))

/-- A statement executed for its effects. -/
def execute (label : L) (stmt : S → Except PgError (List W)) : Prog S W L Unit :=
  control (.sql label stmt)

/-- A query: it reads its snapshot and changes nothing. -/
def fetch (label : L) (q : S → Except PgError α) : Prog S W L α :=
  req (.sql label (fun s ↦ (q s).map (fun _ ↦ []))) (fun reply ↦ match reply with
    | .ok s => match q s with
      | .ok a => ret (.ok a)
      | .error e => ret (.error (.postgresError e))
    | .error e => ret (.error (.postgresError e)))

/-- `async with conn.transaction()`: commit on a normal exit, roll back and reraise on
an exception. -/
def transaction (body : Prog S W L α) : Prog S W L α := do
  control .begin
  match ← body.attempt with
  | .ok a => do
    control .commit
    pure a
  | .error e => do
    let _ ← (control .rollback).attempt
    raise e

end Prog

/-! ### Connections and schedules -/

/-- How an effect changes a state: row effects, and transactions of other clients. -/
class Effect (E S : Type) where
  apply : E → S → S

/-- Apply effects in order. -/
def applyAll [Effect W S] (ws : List W) (s : S) : S := ws.foldl (fun s w ↦ Effect.apply w s) s

@[simp] theorem applyAll_nil [Effect W S] (s : S) : applyAll ([] : List W) s = s := rfl

@[simp] theorem applyAll_cons [Effect W S] (w : W) (ws : List W) (s : S) :
    applyAll (w :: ws) s = applyAll ws (Effect.apply w s) := rfl

theorem applyAll_append [Effect W S] (ws vs : List W) (s : S) :
    applyAll (ws ++ vs) s = applyAll vs (applyAll ws s) := List.foldl_append

/-- The state of a connection: autocommit, an open transaction with its pending
effects, or one that an error has aborted. -/
inductive Txn (W : Type) where
  | auto
  | active (pending : List W)
  | aborted

/-- What the trace records: a statement with its snapshot and effects, and every
state that becomes the committed one. -/
inductive Entry (S W L : Type) where
  | stmt (label : L) (view : S) (writes : List W)
  | commit (store : S)

/-- A client connection and the committed state of the store it talks to. The trace is
a history variable, latest entry first; no program reads it. -/
structure Conn (S W L : Type) where
  store : S
  txn : Txn W
  trace : List (Entry S W L)

/-- What happens at one request: transactions that other clients commit just before
it, and the fault that hits it. -/
structure Slot (U : Type) where
  arrivals : List U := []
  fault : Option Fault := none

/-- One slot for each request of a program, in order. -/
abbrev Schedule (U : Type) := Nat → Slot U

/-- Nothing arrives and nothing fails. -/
def quiet : Schedule U := fun _ ↦ {}

/-- Nothing arrives, and the requests fail in turn as the list says; none fails after it. -/
def faultsAt (faults : List (Option Fault)) : Schedule U := fun n ↦ { fault := faults[n]?.join }

@[simp] theorem faultsAt_nil : (faultsAt [] : Schedule U) = quiet := by
  funext n
  simp [faultsAt, quiet]

@[simp] theorem faultsAt_zero (f : Option Fault) (fs : List (Option Fault)) :
    (faultsAt (f :: fs) : Schedule U) 0 = { fault := f } := rfl

theorem faultsAt_succ (f : Option Fault) (fs : List (Option Fault)) :
    (fun n ↦ (faultsAt (f :: fs) : Schedule U) (n + 1)) = faultsAt fs := rfl

/-- Nobody else is connected. -/
instance : Effect Empty S := ⟨fun u _ ↦ u.elim⟩

namespace Conn

/-- A fresh connection in autocommit mode. -/
def fresh (s : S) : Conn S W L := ⟨s, .auto, []⟩

/-- Install a committed state. -/
def install (c : Conn S W L) (s : S) : Conn S W L :=
  { c with store := s, trace := .commit s :: c.trace }

/-- Other clients commit their transactions. -/
def receive [Effect U S] (c : Conn S W L) (us : List U) : Conn S W L :=
  us.foldl (fun c u ↦ c.install (Effect.apply u c.store)) c

variable [Effect W S]

/-- The snapshot a statement sees now. -/
def view (c : Conn S W L) : S :=
  match c.txn with
  | .active p => applyAll p c.store
  | _ => c.store

/-- A server-side error: the open transaction is aborted. -/
def abort (c : Conn S W L) : Conn S W L :=
  match c.txn with
  | .active _ => { c with txn := .aborted }
  | _ => c

/-- Record the effects of a statement: committed at once, or pending. -/
def write (c : Conn S W L) (label : L) (ws : List W) : Conn S W L :=
  match c.txn with
  | .active p => { c with txn := .active (p ++ ws), trace := .stmt label c.view ws :: c.trace }
  | _ => { c with trace := .stmt label c.view ws :: c.trace }.install (applyAll ws c.store)

/-- Leave the transaction without its effects. -/
def dropTxn (c : Conn S W L) : Conn S W L := { c with txn := .auto }

/-- Commit: the pending effects become the committed state; an aborted transaction is
rolled back without an error. -/
def commitTxn (c : Conn S W L) : Conn S W L :=
  match c.txn with
  | .active p => c.dropTxn.install (applyAll p c.store)
  | _ => c.dropTxn

/-- The server's answer to a request it receives. -/
def answer (c : Conn S W L) : Request S W L → Except PgError S × Conn S W L
  | .sql label stmt =>
    match c.txn with
    | .aborted => (.error inFailedTransaction, c)
    | _ =>
      match stmt c.view with
      | .ok ws => (.ok c.view, c.write label ws)
      | .error e => (.error e, c.abort)
  | .begin => (.ok c.store, { c with txn := .active [] })
  | .commit => (.ok c.store, c.commitTxn)
  | .rollback => (.ok c.store, c.dropTxn)

/-- What a failed request leaves behind: a failed `COMMIT` or `ROLLBACK` ends its
transaction without effects, a statement the server refuses aborts it. -/
def fail (c : Conn S W L) (r : Request S W L) (f : Fault) : Except PgError S × Conn S W L :=
  match r, f with
  | .commit, .client e | .commit, .server e => (.error e, c.dropTxn)
  | .rollback, .client e | .rollback, .server e => (.error e, c.dropTxn)
  | _, .client e => (.error e, c)
  | _, .server e => (.error e, c.abort)

/-- One request under its slot of the schedule. -/
def serve [Effect U S] (c : Conn S W L) (r : Request S W L) (slot : Slot U) :
    Except PgError S × Conn S W L :=
  match slot.fault with
  | none => (c.receive slot.arrivals).answer r
  | some f => (c.receive slot.arrivals).fail r f

end Conn

/-- The end of a run: the program's result, the slots left and the connection. -/
structure Outcome (S W L U α : Type) where
  result : Except Exn α
  rest : Schedule U
  conn : Conn S W L

/-- Run a program on a connection under a schedule. -/
def Prog.run [Effect W S] [Effect U S] :
    Prog S W L α → Schedule U → Conn S W L → Outcome S W L U α
  | .ret r, sch, c => ⟨r, sch, c⟩
  | .req r k, sch, c =>
    (k (c.serve r (sch 0)).1).run (fun n ↦ sch (n + 1)) (c.serve r (sch 0)).2

namespace Prog

variable [Effect W S] [Effect U S]

@[simp] theorem run_ret (r : Except Exn α) (sch : Schedule U) (c : Conn S W L) :
    (ret r : Prog S W L α).run sch c = ⟨r, sch, c⟩ := rfl

@[simp] theorem run_pure (a : α) (sch : Schedule U) (c : Conn S W L) :
    (pure a : Prog S W L α).run sch c = ⟨.ok a, sch, c⟩ := rfl

@[simp] theorem run_raise (e : Exn) (sch : Schedule U) (c : Conn S W L) :
    (raise e : Prog S W L α).run sch c = ⟨.error e, sch, c⟩ := rfl

@[simp] theorem run_ofExcept (r : Except Exn α) (sch : Schedule U) (c : Conn S W L) :
    (ofExcept r : Prog S W L α).run sch c = ⟨r, sch, c⟩ := rfl

theorem run_req (r : Request S W L) (k : Except PgError S → Prog S W L α) (sch : Schedule U)
    (c : Conn S W L) :
    (req r k).run sch c =
      (k (c.serve r (sch 0)).1).run (fun n ↦ sch (n + 1)) (c.serve r (sch 0)).2 := rfl

/-- The second program runs where the first one ends, on the slots it leaves. -/
theorem run_bind (x : Prog S W L α) (f : α → Prog S W L β) (sch : Schedule U) (c : Conn S W L) :
    (x >>= f).run sch c =
      match (x.run sch c).result with
      | .ok a => (f a).run (x.run sch c).rest (x.run sch c).conn
      | .error e => ⟨.error e, (x.run sch c).rest, (x.run sch c).conn⟩ := by
  change (x.bind f).run sch c = _
  induction x generalizing sch c with
  | ret r => cases r <;> rfl
  | req r k ih => exact ih _ _ _

/-- Reifying the exception changes neither the requests nor their effects. -/
theorem run_attempt (x : Prog S W L α) (sch : Schedule U) (c : Conn S W L) :
    x.attempt.run sch c = ⟨.ok (x.run sch c).result, (x.run sch c).rest, (x.run sch c).conn⟩ := by
  induction x generalizing sch c with
  | ret r => rfl
  | req r k ih => exact ih _ _ _

end Prog

end PotholeServer.Sql
