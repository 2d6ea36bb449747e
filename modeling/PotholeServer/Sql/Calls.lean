import Mathlib.Logic.Function.Basic
import PotholeServer.Sql.Interference

/-!
# Calls whose runs can be compared

Programs by name on one store. A schedule says whose request the server answers next, so that a
run without some of the calls is the same schedule without their names. Programs that send the
same requests whatever the store holds, all in one transaction, go on in the same way in both
runs; the store is what those that have ended have committed, one after another.
-/

namespace PotholeServer.Sql

variable {I A S W L : Type}

/-- The answer of a program that has ended. -/
def Prog.answer : Prog S W L A → Option (Except Exn A)
  | .ret r => some r
  | .req .. => none

/-- What is left of each call, its transaction, and the calls that have ended, in order. -/
structure Calls (I A S W L : Type) where
  store : S
  prog : I → Prog S W L A
  txn : I → Txn W
  finished : List I

namespace Calls

/-- Nothing has been sent. -/
def opened (program : I → Prog S W L A) (s : S) : Calls I A S W L := ⟨s, program, fun _ ↦ .auto, []⟩

variable [Effect W S] [DecidableEq I]

/-- The server answers the next request of a call, if there is one. -/
def serve (σ : Calls I A S W L) (i : I) : Calls I A S W L :=
  match σ.prog i with
  | .ret _ => σ
  | .req r k =>
    { store := (answerOn σ.store (σ.txn i) r).2.store
      prog := Function.update σ.prog i (k (answerOn σ.store (σ.txn i) r).1)
      txn := Function.update σ.txn i (answerOn σ.store (σ.txn i) r).2.txn
      finished := σ.finished ++
        if (k (answerOn σ.store (σ.txn i) r).1).answer.isSome then [i] else [] }

/-- The server answers the requests in this order. -/
def play (σ : Calls I A S W L) (schedule : List I) : Calls I A S W L := schedule.foldl serve σ

end Calls

/-! ### Programs that do not look at the store -/

/-- The program sends the same requests whatever the store holds; its transaction commits these
effects, and it ends in this answer. -/
inductive Script (r : Except Exn A) (ws : List W) : Prog S W L A → Txn W → Prop where
  | begin {k : Except PgError S → Prog S W L A} {x : Prog S W L A}
    (hk : ∀ s, k (.ok s) = x) (h : Script r ws x (.active [])) :
    Script r ws (.req .begin k) .auto
  | sql {l : L} {stmt : S → Except PgError (List W)} {k : Except PgError S → Prog S W L A}
    {x : Prog S W L A} {p vs : List W} (hstmt : ∀ s, stmt s = .ok vs) (hk : ∀ s, k (.ok s) = x)
    (h : Script r ws x (.active (p ++ vs))) :
    Script r ws (.req (.sql l stmt) k) (.active p)
  | commit {k : Except PgError S → Prog S W L A} (hk : ∀ s, k (.ok s) = .ret r) :
    Script r ws (.req .commit k) (.active ws)

section Script

variable {r : Except Exn A} {ws : List W} {x : Prog S W L A} {t : Txn W}

theorem Script.answer (h : Script r ws x t) : x.answer = none := by
  cases h with
  | begin | sql | commit => rfl

/-- The next request brings a script on, or ends it with its commit. -/
theorem Script.serve [Effect W S] (I : Type) [DecidableEq I] (h : Script r ws x t) :
    (∃ x' t', Script r ws x' t' ∧ ∀ (σ : Calls I A S W L) i, σ.prog i = x → σ.txn i = t →
      σ.serve i = { σ with
        prog := Function.update σ.prog i x'
        txn := Function.update σ.txn i t' }) ∨
    ∀ (σ : Calls I A S W L) i, σ.prog i = x → σ.txn i = t →
      σ.serve i =
        { store := applyAll ws σ.store
          prog := Function.update σ.prog i (.ret r)
          txn := Function.update σ.txn i .auto
          finished := σ.finished ++ [i] } := by
  cases h with
  | @begin k x' hk h =>
    refine .inl ⟨x', .active [], h, ?_⟩
    intro σ i hprog htxn
    have hnext : k (answerOn σ.store (.auto : Txn W) (.begin : Request S W L)).1 = x' := hk σ.store
    simp only [Calls.serve, hprog, htxn, hnext, h.answer]
    simp [answerOn, Conn.answer]
  | @sql l stmt k x' p vs hstmt hk h =>
    refine .inl ⟨x', .active (p ++ vs), h, ?_⟩
    intro σ i hprog htxn
    obtain ⟨hreply, htxn', hstore⟩ := answerOn_sql_ok (s := σ.store) (t := .active p) (l := l)
      (fun h ↦ by cases h) (hstmt _)
    simp only [Calls.serve, hprog, htxn, hreply, htxn', hstore, hk, h.answer]
    simp [written, Txn.push]
  | @commit k hk =>
    refine .inr ?_
    intro σ i hprog htxn
    have hnext : k (answerOn σ.store (.active ws) (.commit : Request S W L)).1 = .ret r :=
      hk σ.store
    simp only [Calls.serve, hprog, htxn, hnext]
    rfl

end Script

/-! ### Runs of scripts -/

namespace Calls

/-- Each call has ended in its answer, or is still a script; the store holds what the ended ones
have committed, in order. -/
structure Scripted [Effect W S] (answer : I → Except Exn A) (effects : I → List W) (init : S)
    (σ : Calls I A S W L) : Prop where
  store : σ.store = applyAll (σ.finished.flatMap effects) init
  ended : ∀ i ∈ σ.finished, σ.prog i = .ret (answer i)
  going : ∀ i, i ∉ σ.finished → Script (answer i) (effects i) (σ.prog i) (σ.txn i)

/-- Relates a run to the one without the calls of others. -/
structure Purged (own : I → Bool) (σ σ' : Calls I A S W L) : Prop where
  prog : ∀ i, own i = true → σ'.prog i = σ.prog i
  txn : ∀ i, own i = true → σ'.txn i = σ.txn i
  finished : σ'.finished = σ.finished.filter own

theorem purged_opened (own : I → Bool) (program : I → Prog S W L A) (init : S) :
    Purged own (opened program init) (opened program init) where
  prog := fun _ _ ↦ rfl
  txn := fun _ _ ↦ rfl
  finished := rfl

variable [Effect W S] {answer : I → Except Exn A} {effects : I → List W} {init : S}

theorem scripted_opened {program : I → Prog S W L A} (init : S)
    (hscript : ∀ i, Script (answer i) (effects i) (program i) .auto) :
    Scripted answer effects init (opened program init) where
  store := rfl
  ended := fun _ h ↦ absurd h List.not_mem_nil
  going := fun i _ ↦ hscript i

variable [DecidableEq I] {own : I → Bool} {σ σ' : Calls I A S W L} {i : I}

/-- A call that has ended sends nothing. -/
theorem serve_of_ended (h : Scripted answer effects init σ) (hi : i ∈ σ.finished) :
    σ.serve i = σ := by
  rw [serve, h.ended i hi]

theorem Scripted.serve (h : Scripted answer effects init σ) (i : I) :
    Scripted answer effects init (σ.serve i) := by
  by_cases hi : i ∈ σ.finished
  · rw [serve_of_ended h hi]
    exact h
  have hended : ∀ x, ∀ j ∈ σ.finished, Function.update σ.prog i x j = .ret (answer j) := by
    intro x j hj
    have hne : j ≠ i := fun heq ↦ hi (heq ▸ hj)
    rw [Function.update_of_ne hne]
    exact h.ended j hj
  have hgoing : ∀ x t j, j ≠ i → j ∉ σ.finished → Script (answer j) (effects j)
      (Function.update σ.prog i x j) (Function.update σ.txn i t j) := by
    intro x t j hne hj
    rw [Function.update_of_ne hne, Function.update_of_ne hne]
    exact h.going j hj
  rcases (h.going i hi).serve I with ⟨x, t, hscript, hserve⟩ | hserve
  · rw [hserve σ i rfl rfl]
    refine ⟨h.store, hended x, ?_⟩
    intro j hj
    by_cases hji : j = i
    · subst hji
      show Script _ _ (Function.update σ.prog j x j) (Function.update σ.txn j t j)
      rw [Function.update_self, Function.update_self]
      exact hscript
    · exact hgoing x t j hji hj
  · rw [hserve σ i rfl rfl]
    refine ⟨?_, ?_, ?_⟩
    · show applyAll (effects i) σ.store = applyAll ((σ.finished ++ [i]).flatMap effects) init
      rw [List.flatMap_append, applyAll_append, ← h.store, List.flatMap_singleton]
    · intro j hj
      rcases List.mem_append.mp hj with hj | hj
      · exact hended _ j hj
      · cases List.mem_singleton.mp hj
        exact Function.update_self ..
    · intro j hj
      rw [List.mem_append, List.mem_singleton, not_or] at hj
      exact hgoing _ _ j hj.2 hj.1

theorem Scripted.play (h : Scripted answer effects init σ) (schedule : List I) :
    Scripted answer effects init (σ.play schedule) := by
  induction schedule generalizing σ with
  | nil => exact h
  | cons i rest ih => exact ih (h.serve i)

/-- A call of others does not change the own ones. -/
theorem Purged.serve_other (hpurged : Purged own σ σ') (h : Scripted answer effects init σ)
    (hi : own i = false) : Purged own (σ.serve i) σ' := by
  by_cases hended : i ∈ σ.finished
  · rw [serve_of_ended h hended]
    exact hpurged
  have hne : ∀ j, own j = true → j ≠ i := by
    rintro j hj rfl
    exact Bool.noConfusion (hj.symm.trans hi)
  rcases (h.going i hended).serve I with ⟨x, t, _, hserve⟩ | hserve
  · rw [hserve σ i rfl rfl]
    refine ⟨?_, ?_, hpurged.finished⟩
    · intro j hj
      exact (hpurged.prog j hj).trans (Function.update_of_ne (hne j hj) ..).symm
    · intro j hj
      exact (hpurged.txn j hj).trans (Function.update_of_ne (hne j hj) ..).symm
  · rw [hserve σ i rfl rfl]
    refine ⟨?_, ?_, ?_⟩
    · intro j hj
      exact (hpurged.prog j hj).trans (Function.update_of_ne (hne j hj) ..).symm
    · intro j hj
      exact (hpurged.txn j hj).trans (Function.update_of_ne (hne j hj) ..).symm
    · show σ'.finished = (σ.finished ++ [i]).filter own
      rw [List.filter_append, List.filter_cons_of_neg (by simp [hi]), List.filter_nil,
        List.append_nil]
      exact hpurged.finished

/-- An own call goes on in the same way in both runs. -/
theorem Purged.serve_own (hpurged : Purged own σ σ') (h : Scripted answer effects init σ)
    (h' : Scripted answer effects init σ') (hi : own i = true) :
    Purged own (σ.serve i) (σ'.serve i) := by
  have hsame : ∀ {β : Type} {f g : I → β} (b : β), (∀ j, own j = true → g j = f j) →
      ∀ j, own j = true → Function.update g i b j = Function.update f i b j := by
    intro β f g b hfg j hj
    by_cases hji : j = i
    · rw [hji, Function.update_self, Function.update_self]
    · rw [Function.update_of_ne hji, Function.update_of_ne hji, hfg j hj]
  by_cases hended : i ∈ σ.finished
  · have hended' : i ∈ σ'.finished := by
      rw [hpurged.finished]
      exact List.mem_filter.mpr ⟨hended, hi⟩
    rw [serve_of_ended h hended, serve_of_ended h' hended']
    exact hpurged
  rcases (h.going i hended).serve I with ⟨x, t, _, hserve⟩ | hserve
  · rw [hserve σ i rfl rfl, hserve σ' i (hpurged.prog i hi) (hpurged.txn i hi)]
    exact ⟨hsame x hpurged.prog, hsame t hpurged.txn, hpurged.finished⟩
  · rw [hserve σ i rfl rfl, hserve σ' i (hpurged.prog i hi) (hpurged.txn i hi)]
    refine ⟨hsame _ hpurged.prog, hsame _ hpurged.txn, ?_⟩
    show σ'.finished ++ [i] = (σ.finished ++ [i]).filter own
    rw [List.filter_append, List.filter_cons_of_pos hi, List.filter_nil, hpurged.finished]

/-- Without the calls of others the own ones end in the same order, in the same answers. -/
theorem Purged.play (hpurged : Purged own σ σ') (h : Scripted answer effects init σ)
    (h' : Scripted answer effects init σ') (schedule : List I) :
    Purged own (σ.play schedule) (σ'.play (schedule.filter own)) := by
  induction schedule generalizing σ σ' with
  | nil => exact hpurged
  | cons i rest ih =>
    cases hi : own i with
    | true =>
      rw [List.filter_cons_of_pos hi]
      exact ih (hpurged.serve_own h h' hi) (h.serve i) (h'.serve i)
    | false =>
      rw [List.filter_cons_of_neg (by simp [hi])]
      exact ih (hpurged.serve_other h hi) (h.serve i) h'

/-- A call that has ended is in the schedule. -/
theorem mem_schedule (schedule : List I) (hi : i ∈ (σ.play schedule).finished) :
    i ∈ σ.finished ∨ i ∈ schedule := by
  induction schedule generalizing σ with
  | nil => exact .inl hi
  | cons j rest ih =>
    rcases ih hi with h | h
    · rw [serve] at h
      split at h
      · exact .inl h
      · rcases List.mem_append.mp h with h | h
        · exact .inl h
        · split at h
          · cases List.mem_singleton.mp h
            exact .inr (List.mem_cons_self ..)
          · cases h
    · exact .inr (List.mem_cons_of_mem _ h)

end Calls

end PotholeServer.Sql
