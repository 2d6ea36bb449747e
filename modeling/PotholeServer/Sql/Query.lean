import Mathlib.Data.List.Dedup
import Mathlib.Data.List.Sort

/-!
# Queries

`ORDER BY`, `LIMIT`, `ROW_NUMBER()` and `GROUP BY` over the rows of a query. When the ordering
key separates the rows, none of the first three depends on the physical order.
-/

namespace PotholeServer.Sql

variable {ρ κ : Type} [LinearOrder κ]

/-- `ORDER BY k` -/
def orderBy (k : ρ → κ) (rows : List ρ) : List ρ := rows.insertionSort (fun a b ↦ k a ≤ k b)

theorem orderBy_perm (k : ρ → κ) (rows : List ρ) : (orderBy k rows).Perm rows :=
  List.perm_insertionSort _ rows

theorem mem_orderBy {k : ρ → κ} {rows : List ρ} {r : ρ} : r ∈ orderBy k rows ↔ r ∈ rows :=
  (orderBy_perm k rows).mem_iff

theorem orderBy_pairwise (k : ρ → κ) (rows : List ρ) :
    (orderBy k rows).Pairwise (fun a b ↦ k a ≤ k b) := by
  have htotal : Std.Total (fun a b : ρ ↦ k a ≤ k b) := ⟨fun a b ↦ le_total (k a) (k b)⟩
  have htrans : IsTrans ρ (fun a b ↦ k a ≤ k b) := ⟨fun _ _ _ ↦ le_trans⟩
  exact List.pairwise_insertionSort _ rows

/-- `ORDER BY k LIMIT n` picks the least rows. -/
theorem le_of_mem_take_orderBy {k : ρ → κ} {rows : List ρ} {n : Nat} {a b : ρ}
    (ha : a ∈ (orderBy k rows).take n) (hb : b ∈ rows) (hout : b ∉ (orderBy k rows).take n) :
    k a ≤ k b := by
  have hpair := orderBy_pairwise k rows
  rw [← List.take_append_drop n (orderBy k rows), List.pairwise_append] at hpair
  apply hpair.2.2 a ha b
  have hmem : b ∈ (orderBy k rows).take n ++ (orderBy k rows).drop n := by
    rw [List.take_append_drop, mem_orderBy]
    exact hb
  exact (List.mem_append.mp hmem).resolve_left hout

/-- The first row in the order is a least one. -/
theorem exists_least_orderBy {k : ρ → κ} {rows : List ρ} {s : ρ} (hs : s ∈ rows) :
    ∃ r ∈ rows, (orderBy k rows).head? = some r ∧ k r ≤ k s := by
  have hmem : s ∈ orderBy k rows := mem_orderBy.mpr hs
  have hpair := orderBy_pairwise k rows
  have hrows : ∀ r, r ∈ orderBy k rows → r ∈ rows := fun r hr ↦ mem_orderBy.mp hr
  cases horder : orderBy k rows with
  | nil =>
    rw [horder] at hmem
    cases hmem
  | cons r rest =>
    rw [horder] at hmem hpair hrows
    refine ⟨r, hrows r (List.mem_cons_self ..), rfl, ?_⟩
    rcases List.mem_cons.mp hmem with rfl | hrest
    · exact le_refl _
    · exact (List.pairwise_cons.mp hpair).1 s hrest

theorem length_take_orderBy (k : ρ → κ) (rows : List ρ) (n : Nat) :
    ((orderBy k rows).take n).length = min n rows.length := by
  rw [List.length_take, (orderBy_perm k rows).length_eq]

/-- `ROW_NUMBER() OVER (ORDER BY k)` of a row, for a key that separates the rows. -/
def rowNumber (k : ρ → κ) (rows : List ρ) (r : ρ) : Nat :=
  (rows.filter (fun s ↦ k s < k r)).length + 1

/-- The first row is the least one. -/
theorem rowNumber_eq_one {k : ρ → κ} {rows : List ρ} {r : ρ} :
    rowNumber k rows r = 1 ↔ ∀ s ∈ rows, k r ≤ k s := by
  unfold rowNumber
  rw [Nat.add_eq_right, List.length_eq_zero_iff, List.filter_eq_nil_iff]
  simp

section Groups

variable {ρ κ : Type} [DecidableEq κ] {k : ρ → κ} {rows g : List ρ} {r s : ρ}

/-- `GROUP BY k` -/
def groupBy (k : ρ → κ) (rows : List ρ) : List (List ρ) :=
  (rows.map k).dedup.map (fun x ↦ rows.filter (fun r ↦ k r = x))

theorem mem_of_mem_groupBy (hg : g ∈ groupBy k rows) (hr : r ∈ g) : r ∈ rows := by
  obtain ⟨x, _, rfl⟩ := List.mem_map.mp hg
  exact (List.mem_filter.mp hr).1

theorem sublist_of_mem_groupBy (hg : g ∈ groupBy k rows) : g.Sublist rows := by
  obtain ⟨x, _, rfl⟩ := List.mem_map.mp hg
  exact List.filter_sublist

/-- Every group has a row. -/
theorem ne_nil_of_mem_groupBy (hg : g ∈ groupBy k rows) : g ≠ [] := by
  obtain ⟨x, hx, rfl⟩ := List.mem_map.mp hg
  obtain ⟨r, hr, rfl⟩ := List.mem_map.mp (List.mem_dedup.mp hx)
  exact List.ne_nil_of_mem (List.mem_filter.mpr ⟨hr, decide_eq_true rfl⟩)

/-- Two groups have no row in common. -/
theorem groupBy_pairwise (k : ρ → κ) (rows : List ρ) :
    (groupBy k rows).Pairwise List.Disjoint := by
  rw [groupBy, List.pairwise_map]
  apply (List.nodup_dedup (rows.map k)).imp
  intro x y hne r hr hs
  have hx : k r = x := by simpa using (List.mem_filter.mp hr).2
  have hy : k r = y := by simpa using (List.mem_filter.mp hs).2
  exact hne (hx.symm.trans hy)

end Groups

end PotholeServer.Sql
