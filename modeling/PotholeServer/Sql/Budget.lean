import Mathlib.Algebra.BigOperators.Group.Finset.Piecewise
import Mathlib.Algebra.BigOperators.Intervals
import PotholeServer.Sql.Server

/-!
# What programs can spend

Every row effect has a price. A program keeps within a budget when the effects on each of its paths
cost no more, whatever its statements are answered. Where a store never gains more than the price
of an effect, all sessions of a server together gain no more than the budgets of their jobs, in any
interleaving and with any failures.
-/

namespace PotholeServer.Sql

variable {S W L U α β : Type} (cost : W → Nat)

/-- The price of a list of effects. -/
def price (ws : List W) : Nat := (ws.map cost).sum

theorem price_append (ws vs : List W) : price cost (ws ++ vs) = price cost ws + price cost vs := by
  simp [price]

/-- The price of the effects that wait in a transaction. -/
def Txn.price : Txn W → Nat
  | .active p => Sql.price cost p
  | _ => 0

/-! ### Programs -/

/-- The effects on every path of the program cost no more than the budget. -/
def Prog.Within : Prog S W L α → Nat → Prop
  | .ret _, _ => True
  | .req r k, n => ∃ c m, c + m ≤ n ∧
    (∀ l stmt, r = .sql l stmt → ∀ s ws, stmt s = .ok ws → price cost ws ≤ c) ∧
    ∀ reply, (k reply).Within m

namespace Prog

variable {cost} {x : Prog S W L α} {n m : Nat}

theorem within_ret (r : Except Exn α) (n : Nat) : (ret r : Prog S W L α).Within cost n := trivial

theorem within_mono (h : x.Within cost n) (hnm : n ≤ m) : x.Within cost m := by
  cases x with
  | ret r => exact within_ret r m
  | req r k =>
    obtain ⟨c, rest, hle, hmade, hrest⟩ := h
    exact ⟨c, rest, by omega, hmade, hrest⟩

theorem within_bind {f : α → Prog S W L β} (hx : x.Within cost n) (hf : ∀ a, (f a).Within cost m) :
    (x >>= f).Within cost (n + m) := by
  show (x.bind f).Within cost (n + m)
  induction x generalizing n with
  | ret r =>
    cases r with
    | ok a => exact within_mono (hf a) (by omega)
    | error e => exact within_ret _ _
  | req r k ih =>
    obtain ⟨c, rest, hle, hmade, hrest⟩ := hx
    exact ⟨c, rest + m, by omega, hmade, fun reply ↦ ih reply (hrest reply)⟩

theorem within_attempt (hx : x.Within cost n) : x.attempt.Within cost n := by
  induction x generalizing n with
  | ret r => exact within_ret _ _
  | req r k ih =>
    obtain ⟨c, rest, hle, hmade, hrest⟩ := hx
    exact ⟨c, rest, hle, hmade, fun reply ↦ ih reply (hrest reply)⟩

theorem within_control {r : Request S W L}
    (h : ∀ l stmt, r = .sql l stmt → ∀ s ws, stmt s = .ok ws → price cost ws ≤ n) :
    (control r).Within cost n := by
  refine ⟨n, 0, by omega, h, ?_⟩
  intro reply
  cases reply <;> exact within_ret _ _

theorem within_execute {l : L} {stmt : S → Except PgError (List W)}
    (h : ∀ s ws, stmt s = .ok ws → price cost ws ≤ n) : (execute l stmt).Within cost n := by
  apply within_control
  intro l' stmt' heq
  cases heq
  exact h

theorem within_transaction (hx : x.Within cost n) : (transaction x).Within cost n := by
  have hcontrol : ∀ r : Request S W L, (∀ l stmt, r ≠ .sql l stmt) →
      (control r).Within cost 0 :=
    fun r hr ↦ within_control (fun l stmt heq ↦ absurd heq (hr l stmt))
  have hall : (transaction x).Within cost (0 + (n + 0)) := by
    rw [transaction]
    refine within_bind (hcontrol _ (by simp)) (fun _ ↦ within_bind (within_attempt hx) ?_)
    intro r
    cases r with
    | ok a => exact within_bind (hcontrol _ (by simp)) (fun _ ↦ within_ret _ 0)
    | error e =>
      exact within_bind (within_attempt (hcontrol _ (by simp))) (fun _ ↦ within_ret _ 0)
  simpa using hall

end Prog

/-! ### Sessions -/

namespace Server

variable {J K : Type} {A : J → Type}

/-- What a session has collected and what its program can still write keep within a budget. -/
def Spends (n : Nat) (ss : Session J A S W L) : Prop :=
  ∃ m, ss.prog.Within cost m ∧ ss.txn.price cost + m ≤ n

section Sessions

variable {cost} [Effect W S] {weight : S → Nat}

theorem weight_applyAll (hweight : ∀ (w : W) s, weight (Effect.apply w s) ≤ weight s + cost w)
    (ws : List W) (s : S) : weight (applyAll ws s) ≤ weight s + price cost ws := by
  induction ws generalizing s with
  | nil => simp [price]
  | cons w ws ih =>
    have hfirst := hweight w s
    have hrest := ih (Effect.apply w s)
    simp only [applyAll_cons, price, List.map_cons, List.sum_cons] at hrest ⊢
    omega

/-- What the store gains by an answer, the session has no longer to spend. -/
theorem Spends.serve (hweight : ∀ (w : W) s, weight (Effect.apply w s) ≤ weight s + cost w)
    {n : Nat} {j : J} {r : Request S W L} {k : Except PgError S → Prog S W L (A j)} {t : Txn W}
    (h : Spends cost n (⟨j, .req r k, t⟩ : Session J A S W L)) (s : S) (reply : Except PgError S) :
    ∃ n' ≤ n, Spends cost n' (⟨j, k reply, (answerOn s t r).2.txn⟩ : Session J A S W L) ∧
      weight (answerOn s t r).2.store + n' ≤ weight s + n := by
  obtain ⟨m, ⟨c, rest, hle, hmade, hrest⟩, htotal⟩ := h
  have hanswers := answers s t r
  generalize (answerOn s t r).2.txn = t', (answerOn s t r).2.store = s' at hanswers ⊢
  cases hanswers with
  | refused hstill =>
    refine ⟨n, le_refl n, ⟨rest, hrest reply, ?_⟩, le_refl _⟩
    cases hstill with
    | refl => simp only at htotal ⊢; omega
    | abort => simp only [Txn.price] at htotal ⊢; omega
  | @made l stmt ws ht hq =>
    have hws := hmade l stmt rfl _ ws hq
    cases t with
    | aborted => exact absurd rfl ht
    | auto =>
      have hgain := weight_applyAll hweight ws s
      refine ⟨rest, ?_, ⟨rest, hrest reply, ?_⟩, ?_⟩
      · omega
      · simp [Txn.push, Txn.price]
      · simp only [written]
        omega
    | active p =>
      refine ⟨n, le_refl n, ⟨rest, hrest reply, ?_⟩, le_refl _⟩
      simp only [Txn.push, Txn.price, price_append] at htotal ⊢
      omega
  | begin =>
    refine ⟨n, le_refl n, ⟨rest, hrest reply, ?_⟩, le_refl _⟩
    simp only [Txn.price, price, List.map_nil, List.sum_nil]
    omega
  | commit =>
    cases t with
    | active p =>
      have hgain := weight_applyAll hweight p s
      simp only [Txn.price] at htotal
      refine ⟨rest, by omega, ⟨rest, hrest reply, by simp [Txn.price]⟩, ?_⟩
      simp only [committed]
      omega
    | auto =>
      refine ⟨rest, by omega, ⟨rest, hrest reply, by simp [Txn.price]⟩, ?_⟩
      simp only [committed]
      omega
    | aborted =>
      refine ⟨rest, by omega, ⟨rest, hrest reply, by simp [Txn.price]⟩, ?_⟩
      simp only [committed]
      omega
  | rollback =>
    exact ⟨n, le_refl n, ⟨rest, hrest reply, by simp [Txn.price]; omega⟩, le_refl _⟩

omit [Effect W S] in
/-- A failed request opens no transaction. -/
theorem Spends.fail {n : Nat} {j : J} {r : Request S W L} {k : Except PgError S → Prog S W L (A j)}
    {t : Txn W} (h : Spends cost n (⟨j, .req r k, t⟩ : Session J A S W L)) {s : S} (f : Fault)
    (reply : Except PgError S) :
    Spends cost n (⟨j, k reply, (failOn s t r f).2.txn⟩ : Session J A S W L) := by
  obtain ⟨m, ⟨c, rest, hle, -, hrest⟩, htotal⟩ := h
  refine ⟨rest, hrest reply, ?_⟩
  cases htxn : (failOn s t r f).2.txn with
  | active p =>
    rw [active_failOn htxn] at htotal
    simp only at htotal ⊢
    omega
  | auto => simp only [Txn.price]; omega
  | aborted => simp only [Txn.price]; omega

end Sessions

/-! ### Servers -/

/-- The store and what the open sessions can still spend weigh no more than a bound. -/
def Budgeted (weight : S → Nat) (σ : Server J A S W L) (bound : Nat) : Prop :=
  ∃ left : Nat → Nat, (∀ i ss, σ.session i = some ss → Spends cost (left i) ss) ∧
    weight σ.store + ∑ i ∈ Finset.range σ.sessions.length, left i ≤ bound

/-- What a step grants: the budget of a job that it starts. -/
def granted (size : J → Nat) : Act J U → Nat
  | .start j => size j
  | _ => 0

/-- The budgets of the jobs whose sessions are open. -/
def inFlight (size : J → Nat) (σ : Server J A S W L) : Nat :=
  ∑ i ∈ Finset.range σ.sessions.length, (σ.session i).elim 0 (fun ss ↦ size ss.job)

section Servers

variable {cost} [Effect W S] [Effect U S] {weight : S → Nat} {size : J → Nat} {locks : W → List K}
  {program : (j : J) → Prog S W L (A j)} {asks : U → List K} {σ σ' : Server J A S W L}
  {a : Act J U} {bound : Nat}

omit [Effect W S] in
theorem Budgeted.weight_le (h : Budgeted cost weight σ bound) : weight σ.store ≤ bound := by
  obtain ⟨left, -, hbound⟩ := h
  omega

omit [Effect W S] in
/-- Sessions that keep within the budgets of their jobs. -/
theorem budgeted_of_spends
    (h : ∀ i ss, σ.session i = some ss → Spends cost (size ss.job) ss) :
    Budgeted cost weight σ (weight σ.store + inFlight size σ) := by
  refine ⟨fun i ↦ (σ.session i).elim 0 (fun ss ↦ size ss.job), ?_, le_refl _⟩
  intro i ss hss
  simpa [hss] using h i ss hss

omit [Effect W S] in
theorem lt_of_session {i : Nat} {ss : Session J A S W L} (h : σ.session i = some ss) :
    i < σ.sessions.length := by
  by_contra hi
  rw [session, List.getElem?_eq_none (by omega)] at h
  cases h

/-- Every session keeps within the budget of its job. -/
theorem Moves.spends (h : Moves locks program asks σ a σ')
    (hweight : ∀ (w : W) s, weight (Effect.apply w s) ≤ weight s + cost w)
    (hprogram : ∀ j, (program j).Within cost (size j))
    (hσ : ∀ i ss, σ.session i = some ss → Spends cost (size ss.job) ss) :
    ∀ i ss, σ'.session i = some ss → Spends cost (size ss.job) ss := by
  refine h.sessions (P := fun ss _ ↦ Spends cost (size ss.job) ss) hσ ?_ ?_ ?_
    (fun i ss hss _ ↦ hσ i ss hss)
  · intro j _
    exact ⟨size j, hprogram j, by simp [newSession, Txn.price]⟩
  · intro i j r k t _ hs _
    obtain ⟨n', hle, ⟨m, hm, hsum⟩, -⟩ := (hσ i _ hs).serve hweight σ.store (answerOn σ.store t r).1
    exact ⟨m, hm, by simp only at hle hsum ⊢; omega⟩
  · intro i j r k t f _ hs
    exact (hσ i _ hs).fail f _

/-- A step weighs no more than what it grants. -/
theorem Moves.budgeted (h : Moves locks program asks σ a σ')
    (hweight : ∀ (w : W) s, weight (Effect.apply w s) ≤ weight s + cost w)
    (hprogram : ∀ j, (program j).Within cost (size j))
    (hcommit : ∀ u, a = .commit u → weight (Effect.apply u σ.store) ≤ weight σ.store)
    (hσ : Budgeted cost weight σ bound) :
    Budgeted cost weight σ' (bound + granted size a) := by
  obtain ⟨left, hspends, hbound⟩ := hσ
  cases h with
  | start j =>
    refine ⟨Function.update left σ.sessions.length (size j), ?_, ?_⟩
    · intro i ss hss
      rcases of_session_start hss with ⟨rfl, rfl⟩ | hold
      · rw [Function.update_self]
        exact ⟨size j, hprogram j, by simp [newSession, Txn.price]⟩
      · rw [Function.update_of_ne (by have := lt_of_session hold; omega)]
        exact hspends i ss hold
    · have hsame : ∑ i ∈ Finset.range σ.sessions.length,
          Function.update left σ.sessions.length (size j) i =
            ∑ i ∈ Finset.range σ.sessions.length, left i := by
        refine Finset.sum_congr rfl ?_
        intro i hi
        have hlt := Finset.mem_range.mp hi
        exact Function.update_of_ne (by omega) _ _
      rw [List.length_append, List.length_singleton, Finset.sum_range_succ, hsame,
        Function.update_self]
      simp only [granted]
      omega
  | @serve i j r k t hs hfree =>
    obtain ⟨n', hle, hnew, hgain⟩ := (hspends i _ hs).serve hweight σ.store
      (answerOn σ.store t r).1
    have hmem := Finset.mem_range.mpr (lt_of_session hs)
    refine ⟨Function.update left i n', ?_, ?_⟩
    · intro i' ss hss
      rcases of_session_put hss with ⟨rfl, heq⟩ | ⟨hne, hold⟩
      · cases heq
        rw [Function.update_self]
        exact hnew
      · rw [Function.update_of_ne hne]
        exact hspends i' ss hold
    · have hlength : (σ.put i (some ⟨j, k (answerOn σ.store t r).1,
          (answerOn σ.store t r).2.txn⟩)).sessions.length = σ.sessions.length := by
        simp [put]
      rw [Finset.sum_eq_add_sum_sdiff_singleton_of_mem hmem] at hbound
      simp only [hlength, Finset.sum_update_of_mem hmem, granted]
      omega
  | fail f hs =>
    refine ⟨left, ?_, by simpa [put, granted] using hbound⟩
    intro i ss hss
    rcases of_session_put hss with ⟨rfl, heq⟩ | ⟨-, hold⟩
    · cases heq
      exact (hspends _ _ hs).fail f _
    · exact hspends i ss hold
  | finish hs =>
    refine ⟨left, ?_, by simpa [put, granted] using hbound⟩
    intro i ss hss
    rcases of_session_put hss with ⟨-, heq⟩ | ⟨-, hold⟩
    · cases heq
    · exact hspends i ss hold
  | lose i =>
    refine ⟨left, ?_, by simpa [put, granted] using hbound⟩
    intro i' ss hss
    rcases of_session_put hss with ⟨-, heq⟩ | ⟨-, hold⟩
    · cases heq
    · exact hspends i' ss hold
  | @commit u hfree =>
    have hless := hcommit u rfl
    exact ⟨left, hspends, by simp only [granted]; omega⟩

end Servers

end Server

end PotholeServer.Sql
