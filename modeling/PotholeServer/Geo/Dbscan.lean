import Mathlib.Data.List.MinMax
import Mathlib.Logic.Relation

/-!
# Density-based clustering

DBSCAN over the indices of a list of points: a point with at least `minPoints` points
within reach, itself included, is a core point; connected core points share a cluster,
a point that reaches a core point joins that cluster, and the rest is noise.
-/

namespace PotholeServer.Geo

variable {P : Type}

/-- The points within reach of the `i`-th one, itself included. -/
def neighbours (near : P → P → Bool) (pts : List P) (p : P) : List P := pts.filter (near p)

/-- A core point has enough neighbours. -/
def isCore (near : P → P → Bool) (minPoints : Int) (pts : List P) (p : P) : Bool :=
  minPoints ≤ (neighbours near pts p).length

/-- One round of label propagation: a core point takes the least label of the core points
it reaches. -/
def propagate (near : P → P → Bool) (cores : List (P × Nat)) : List (P × Nat) :=
  cores.map (fun c ↦ (c.1, (cores.filter (fun d ↦ near c.1 d.1)).foldl
    (fun m d ↦ min m d.2) c.2))

/-- Labels of the core points after `n` rounds, starting from their positions. -/
def coreLabels (near : P → P → Bool) (cores : List (P × Nat)) : Nat → List (P × Nat)
  | 0 => cores
  | n + 1 => coreLabels near (propagate near cores) n

/-- DBSCAN: the label of each point in turn, `none` for noise. -/
def dbscan (near : P → P → Bool) (minPoints : Int) (pts : List P) : List (Option Nat) :=
  let cores := pts.zipIdx.filter (fun c ↦ isCore near minPoints pts c.1)
  let labels := coreLabels near cores cores.length
  pts.map (fun p ↦ (labels.find? (fun c ↦ near p c.1)).map Prod.snd)

/-- Where nothing is within reach everything is noise. -/
theorem dbscan_eq_none {near : P → P → Bool} (hnear : ∀ p q, near p q = false) (minPoints : Int)
    (pts : List P) : ∀ l ∈ dbscan near minPoints pts, l = none := by
  intro l hl
  obtain ⟨p, _, rfl⟩ := List.mem_map.mp hl
  simp [hnear]

end PotholeServer.Geo
