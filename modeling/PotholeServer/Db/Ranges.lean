import Mathlib.Order.Interval.Set.Defs
import PotholeServer.Db.Schema

/-!
# Ranges of the stored scores

Probabilities, severities and confidences lie between 0 and 1 in every table, and the fused
confidence of a pair lies strictly between. A statement that writes such values keeps the ranges.
-/

namespace PotholeServer.Db

open Sql

variable {R : Type} [Field R] [LinearOrder R]

/-- The scores of an observation, where it has any. -/
structure AssetObservation.InRange (o : AssetObservation R) : Prop where
  sensorPPothole : ∀ p, o.sensorPPothole = some p → p ∈ Set.Icc 0 1
  sensorSeverity : ∀ s, o.sensorSeverity = some s → s ∈ Set.Icc 0 1

/-- The values of a fusion pair. -/
structure FusionPair.InRange (p : FusionPair R) : Prop where
  fusedConfidence : p.fusedConfidence ∈ Set.Ioo 0 1
  severity : p.severity ∈ Set.Icc 0 1

/-- The aggregates that a cluster is given. -/
structure ClusterSummary.InRange (s : ClusterSummary R) : Prop where
  severity : s.severity ∈ Set.Icc 0 1
  confidence : s.confidence ∈ Set.Icc 0 1

/-- The aggregates of a cluster. -/
structure AssetCluster.InRange (c : AssetCluster R) : Prop where
  severity : c.severity ∈ Set.Icc 0 1
  confidence : c.confidence ∈ Set.Icc 0 1

/-- The confidence of the member that a link records. -/
def ObservationClusterLink.InRange (l : ObservationClusterLink R) : Prop :=
  l.fusedConfidence ∈ Set.Icc 0 1

/-- Every stored value is in its range. -/
structure Database.InRange (db : Database R) : Prop where
  observation : ∀ o ∈ db.assetObservation, o.InRange
  pair : ∀ p ∈ db.fusionPair, p.InRange
  cluster : ∀ c ∈ db.assetCluster, c.InRange
  link : ∀ l ∈ db.observationClusterLink, l.InRange

/-- The values that a row effect writes are in their ranges. -/
def Write.InRange : Write R → Prop
  | .insertObservation row => row.InRange
  | .updateScored _ scores _ =>
    scores.sensorPPothole ∈ Set.Icc 0 1 ∧ scores.sensorSeverity ∈ Set.Icc 0 1
  | .upsertPair row => row.InRange
  | .updateCluster _ summary _ => summary.InRange
  | .insertCluster row => row.InRange
  | .insertLink row => row.InRange
  | _ => True

theorem Database.inRange_empty : (Database.empty : Database R).InRange where
  observation := fun o h ↦ absurd h (Table.not_mem_empty o)
  pair := fun p h ↦ absurd h (Table.not_mem_empty p)
  cluster := fun c h ↦ absurd h (Table.not_mem_empty c)
  link := fun l h ↦ absurd h (Table.not_mem_empty l)

/-- A row effect with values in their ranges. -/
theorem Database.InRange.write {db : Database R} (h : db.InRange) {w : Write R} (hw : w.InRange) :
    (db.write w).InRange := by
  cases w with
  | insertObservation row =>
    exact ⟨Table.forall_insertNew h.observation hw, h.pair, h.cluster, h.link⟩
  | updateScored clientId scores now =>
    have hscores : ∀ o ∈ db.assetObservation, (o.setScores scores now).InRange := by
      intro o _
      exact ⟨fun p hp ↦ Option.some_inj.mp hp ▸ hw.1, fun s hs ↦ Option.some_inj.mp hs ▸ hw.2⟩
    exact ⟨Table.forall_update h.observation hscores (fun _ ↦ rfl), h.pair, h.cluster, h.link⟩
  | upsertPair row =>
    have hexcluded : ∀ p ∈ db.fusionPair, (row.setExcluded p).InRange :=
      fun p _ ↦ ⟨hw.fusedConfidence, hw.severity⟩
    exact ⟨h.observation, Table.forall_upsert h.pair hw hexcluded (fun _ ↦ rfl), h.cluster, h.link⟩
  | updateCluster clusterId summary now =>
    have hsummary : ∀ c ∈ db.assetCluster, (c.setSummary summary now).InRange :=
      fun c _ ↦ ⟨hw.severity, hw.confidence⟩
    exact ⟨h.observation, h.pair, Table.forall_update h.cluster hsummary (fun _ ↦ rfl), h.link⟩
  | insertCluster row =>
    exact ⟨h.observation, h.pair, Table.forall_insertNew h.cluster hw, h.link⟩
  | deleteLinks clusterId =>
    exact ⟨h.observation, h.pair, h.cluster, fun l hl ↦ h.link l (Table.mem_filter.mp hl).1⟩
  | insertLink row =>
    have hconfidence : ∀ l ∈ db.observationClusterLink,
        ({ l with fusedConfidence := row.fusedConfidence } :
          ObservationClusterLink R).InRange := fun _ _ ↦ hw
    exact ⟨h.observation, h.pair, h.cluster,
      Table.forall_upsert h.link hw hconfidence (fun _ ↦ rfl)⟩
  | insertFrame | insertRun | markProcessed | updateRun | insertClusterRun | updateClusterRun =>
    exact ⟨h.observation, h.pair, h.cluster, h.link⟩

end PotholeServer.Db
