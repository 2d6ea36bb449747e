import Mathlib.Data.Finset.Card
import PotholeServer.Sql.Query

/-!
# Queues

Rows that wait are served in batches, least key first. As long as only greater keys join, every
batch of `n` shortens the line up to a place by `n`, so that the line is empty after as many
batches as its length takes, whatever happens in between.
-/

namespace PotholeServer.Sql

section Line

variable {κ : Type} [LinearOrder κ] {place : κ} {n : Nat}

/-- The waiting keys up to a place. -/
def line (place : κ) (waiting : Finset κ) : Finset κ := waiting.filter (fun k ↦ k ≤ place)

theorem mem_line {waiting : Finset κ} {k : κ} : k ∈ line place waiting ↔ k ∈ waiting ∧ k ≤ place :=
  Finset.mem_filter

/-- The first `n` of the waiting keys, or all of them if there are less. -/
structure IsFront (n : Nat) (waiting front : Finset κ) : Prop where
  subset : front ⊆ waiting
  least : ∀ a ∈ front, ∀ b ∈ waiting, b ∉ front → a ≤ b
  card : front.card = min n waiting.card

/-- Serving the front shortens the line by `n`, or to nothing. -/
theorem IsFront.card_line {waiting front waiting' : Finset κ} (h : IsFront n waiting front)
    (hserved : ∀ k ∈ line place waiting', k ∈ line place waiting ∧ k ∉ front) :
    (line place waiting').card ≤ (line place waiting).card - n := by
  by_cases hall : line place waiting ⊆ front
  · have hempty : line place waiting' = ∅ := by
      apply Finset.eq_empty_of_forall_notMem
      intro k hk
      exact (hserved k hk).2 (hall (hserved k hk).1)
    rw [hempty, Finset.card_empty]
    exact Nat.zero_le _
  · obtain ⟨k, hk, hout⟩ := Finset.not_subset.mp hall
    obtain ⟨hwaits, hplace⟩ := mem_line.mp hk
    -- somebody in the line is left, so the batch is full and was in the line
    have hfront : front ⊆ line place waiting := by
      intro a ha
      exact mem_line.mpr ⟨h.subset ha, (h.least a ha k hwaits hout).trans hplace⟩
    have hless : front.card < waiting.card := by
      apply Finset.card_lt_card
      exact (Finset.ssubset_iff_of_subset h.subset).mpr ⟨k, hwaits, hout⟩
    have hfull : front.card = n := by
      have hcard := h.card
      omega
    have hsub : line place waiting' ⊆ line place waiting \ front :=
      fun k hk ↦ Finset.mem_sdiff.mpr (hserved k hk)
    have hle := Finset.card_le_card hsub
    rw [Finset.card_sdiff_of_subset hfront, hfull] at hle
    exact hle

end Line

section Rows

variable {ρ κ : Type} [LinearOrder κ] {k : ρ → κ} {rows : List ρ}

/-- The keys of rows. -/
def keysOf (k : ρ → κ) (rows : List ρ) : Finset κ := (rows.map k).toFinset

theorem mem_keysOf {x : κ} : x ∈ keysOf k rows ↔ ∃ r ∈ rows, k r = x := by
  rw [keysOf, List.mem_toFinset, List.mem_map]

/-- `ORDER BY k LIMIT n` is the front of the queue. -/
theorem isFront_take_orderBy (hnodup : (rows.map k).Nodup) (n : Nat) :
    IsFront n (keysOf k rows) (keysOf k ((orderBy k rows).take n)) := by
  have hperm := (orderBy_perm k rows).map k
  have htake : (((orderBy k rows).take n).map k).Nodup :=
    ((List.take_sublist _ _).map k).nodup (hperm.nodup_iff.mpr hnodup)
  constructor
  · intro x hx
    obtain ⟨r, hr, rfl⟩ := mem_keysOf.mp hx
    exact mem_keysOf.mpr ⟨r, mem_orderBy.mp (List.mem_of_mem_take hr), rfl⟩
  · intro a ha b hb hout
    obtain ⟨r, hr, rfl⟩ := mem_keysOf.mp ha
    obtain ⟨r', hr', rfl⟩ := mem_keysOf.mp hb
    apply le_of_mem_take_orderBy hr hr'
    intro hin
    exact hout (mem_keysOf.mpr ⟨r', hin, rfl⟩)
  · rw [keysOf, keysOf, List.toFinset_card_of_nodup htake, List.toFinset_card_of_nodup hnodup,
      List.length_map, List.length_map, length_take_orderBy]

end Rows

/-! ### Runs -/

section Turns

variable {S E κ : Type} [LinearOrder κ]

/-- The states of runs in which at least so many of the steps were turns of the queue. -/
inductive Turns (step : S → E → S) (turn : S → E → Prop) (init : S) : Nat → S → Prop where
  | start : Turns step turn init 0 init
  | step {m : Nat} {s : S} (e : E) (h : Turns step turn init m s) :
    Turns step turn init m (step s e)
  | turn {m : Nat} {s : S} (e : E) (h : Turns step turn init m s) (he : turn s e) :
    Turns step turn init (m + 1) (step s e)

variable {step : S → E → S} {turn : S → E → Prop} {init s : S} {m n : Nat} {J : S → S → Prop}
  {waiting : S → Finset κ} {place : κ}

/-- What every step keeps relates the ends of a run. -/
theorem Turns.related (h : Turns step turn init m s) (hrefl : J init init)
    (hstep : ∀ s e, J init s → J init (step s e)) : J init s := by
  induction h with
  | start => exact hrefl
  | step e _ ih => exact hstep _ e ih
  | turn e _ _ ih => exact hstep _ e ih

/-- When no step lengthens the line and every turn serves `n` of it, `m` turns serve `m * n`. -/
theorem Turns.card_line (h : Turns step turn init m s) (hrefl : J init init)
    (hJ : ∀ s e, J init s → J init (step s e))
    (hstep : ∀ s e, J init s → line place (waiting (step s e)) ⊆ line place (waiting s))
    (hturn : ∀ s e, J init s → turn s e →
      (line place (waiting (step s e))).card ≤ (line place (waiting s)).card - n) :
    (line place (waiting s)).card ≤ (line place (waiting init)).card - m * n := by
  induction h with
  | start => omega
  | @step m s e h ih =>
    have hle := Finset.card_le_card (hstep s e (h.related hrefl hJ))
    omega
  | @turn m s e h he ih =>
    have hle := hturn s e (h.related hrefl hJ) he
    have hmul : (m + 1) * n = m * n + n := by rw [Nat.add_mul, Nat.one_mul]
    omega

/-- After as many turns as the line takes, nobody waits up to the place. -/
theorem Turns.served (h : Turns step turn init m s) (hrefl : J init init)
    (hJ : ∀ s e, J init s → J init (step s e))
    (hstep : ∀ s e, J init s → line place (waiting (step s e)) ⊆ line place (waiting s))
    (hturn : ∀ s e, J init s → turn s e →
      (line place (waiting (step s e))).card ≤ (line place (waiting s)).card - n)
    (hm : (line place (waiting init)).card ≤ m * n) {k : κ} (hk : k ≤ place) :
    k ∉ waiting s := by
  have hcard := h.card_line hrefl hJ hstep hturn
  have hempty : line place (waiting s) = ∅ := by
    apply Finset.card_eq_zero.mp
    omega
  intro hwaits
  have hmem := mem_line.mpr ⟨hwaits, hk⟩
  rw [hempty] at hmem
  exact absurd hmem (Finset.notMem_empty k)

end Turns

end PotholeServer.Sql
