import Mathlib.Data.List.Basic

/-!
# Session-level advisory locks

The lock table lists one entry for each acquisition. A lock belongs to the session that
acquired it and is re-entrant there, a session releases what it holds itself, and a
release from another session does nothing.
-/

namespace PotholeServer.Sql

variable {σ κ : Type} [DecidableEq σ] [DecidableEq κ]

/-- Held locks: a session and a key for each acquisition. -/
abbrev Locks (σ κ : Type) := List (σ × κ)

namespace Locks

/-- The acquisitions of one key. -/
def held (l : Locks σ κ) (k : κ) : Locks σ κ := l.filter (fun x ↦ x.2 = k)

/-- `pg_try_advisory_lock`: granted unless another session holds the key. -/
def tryLock (l : Locks σ κ) (s : σ) (k : κ) : Bool × Locks σ κ :=
  if ∀ x ∈ l, x.2 = k → x.1 = s then (true, (s, k) :: l) else (false, l)

/-- `pg_advisory_unlock`: release one acquisition of this session, if there is one. -/
def unlock (l : Locks σ κ) (s : σ) (k : κ) : Locks σ κ := l.erase (s, k)

/-- `pg_advisory_unlock_all`, which a session also does when it ends. -/
def unlockAll (l : Locks σ κ) (s : σ) : Locks σ κ := l.filter (fun x ↦ x.1 ≠ s)

omit [DecidableEq σ] in
theorem mem_held {l : Locks σ κ} {k : κ} {x : σ × κ} : x ∈ l.held k ↔ x ∈ l ∧ x.2 = k := by
  simp [held]

omit [DecidableEq σ] in
/-- A granted request adds one acquisition of its key. -/
theorem held_cons (l : Locks σ κ) (s : σ) (k k' : κ) :
    held ((s, k) :: l) k' = if k = k' then (s, k) :: l.held k' else l.held k' := by
  unfold held
  by_cases h : k = k'
  · simp [h]
  · simp [h]

/-- A key that nobody holds is granted. -/
theorem tryLock_of_held_nil {l : Locks σ κ} {k : κ} (s : σ) (h : l.held k = []) :
    l.tryLock s k = (true, (s, k) :: l) := by
  have hfree : ∀ x ∈ l, x.2 = k → x.1 = s := by
    intro x hx hk
    have hmem : x ∈ l.held k := mem_held.mpr ⟨hx, hk⟩
    rw [h] at hmem
    cases hmem
  rw [tryLock, if_pos hfree]

/-- A key that another session holds is refused. -/
theorem tryLock_of_held_other {l : Locks σ κ} {s s' : σ} {k : κ} (hl : (s', k) ∈ l) (hne : s' ≠ s) :
    l.tryLock s k = (false, l) := by
  have hbusy : ¬∀ x ∈ l, x.2 = k → x.1 = s := by
    intro hall
    exact hne (hall _ hl rfl)
  rw [tryLock, if_neg hbusy]

/-- A release takes one acquisition of the session from those of the key. -/
theorem held_unlock (l : Locks σ κ) (s : σ) (k k' : κ) :
    (l.unlock s k).held k' = (l.held k').erase (s, k) := List.erase_filter.symm

omit [DecidableEq κ] in
/-- A session that holds nothing has nothing to give up. -/
theorem unlockAll_eq_self {l : Locks σ κ} {s : σ} (h : ∀ x ∈ l, x.1 ≠ s) : l.unlockAll s = l := by
  rw [unlockAll, List.filter_eq_self]
  simpa using h

end Locks

end PotholeServer.Sql
