import Mathlib.Tactic.Linarith
import PotholeServer.Cluster.Idempotent
import PotholeServer.Fusion.History
import PotholeServer.Stats.OrderStatistic

/-!
# The severity of a cluster

The median severity of a group is over `COALESCE(sensor_severity, 0.0)`: an observation that no
model has scored counts as 0, whatever its pairs say. A bound on the recorded severities therefore
passes to the cluster only while the scored members hold the middle of the list.
-/

namespace PotholeServer.Cluster

open Sql Db Fusion Stats

variable {R : Type} [Field R] [LinearOrder R]

/-! ### The median -/

section Median

variable [IsStrictOrderedRing R] {xs : List R} {s : R}

/-- A bound on all values is a bound on their median. -/
theorem le_median (hne : xs ≠ []) (h : ∀ x ∈ xs, s ≤ x) : s ≤ median xs := by
  have hlength : 0 < xs.length := List.length_pos_of_ne_nil hne
  have hlower : s ≤ (orderBy id xs).getD ((xs.length - 1) / 2) 0 :=
    h _ (getD_orderBy_mem (by omega))
  have hupper : s ≤ (orderBy id xs).getD (xs.length / 2) 0 := h _ (getD_orderBy_mem (by omega))
  rw [median, (orderBy_perm id xs).length_eq]
  dsimp only [half]
  linarith

/-- Where every value is 0 or reaches the bound, the median reaches it exactly if the zeros are
fewer than half of the values, or they are half and the other values reach twice the bound. -/
theorem le_median_iff (hne : xs ≠ []) (hs : 0 < s) (h : ∀ x ∈ xs, x = 0 ∨ s ≤ x) :
    s ≤ median xs ↔ 2 * xs.countP (· < s) < xs.length ∨
      2 * xs.countP (· < s) = xs.length ∧ ∀ x ∈ xs, s ≤ x → s + s ≤ x := by
  have hlength : 0 < xs.length := List.length_pos_of_ne_nil hne
  have hlow : (xs.length - 1) / 2 < xs.length := by omega
  have hhigh : xs.length / 2 < xs.length := by omega
  have hlower := le_getD_orderBy_iff hlow
  have hupper := le_getD_orderBy_iff hhigh
  have hlowerMem := h _ (getD_orderBy_mem hlow)
  have hupperMem := h _ (getD_orderBy_mem hhigh)
  rw [median, (orderBy_perm id xs).length_eq]
  dsimp only [half]
  generalize (orderBy id xs).getD ((xs.length - 1) / 2) 0 = lower at *
  generalize (orderBy id xs).getD (xs.length / 2) 0 = upper at *
  have hle : lower ≤ upper := by
    rw [hupper]
    exact ((hlower lower).mp le_rfl).trans (by omega)
  rcases hlowerMem with rfl | hreach
  · -- the lower middle value is a zero: the upper one has to make up for it
    have hcount : xs.length ≤ 2 * xs.countP (· < s) := by
      have hnot : ¬xs.countP (· < s) ≤ (xs.length - 1) / 2 := (hlower s).not.mp (not_le.mpr hs)
      omega
    have hmid : s ≤ 0 + (upper - 0) * (1 / 2) ↔ s + s ≤ upper := by
      constructor <;> intro h <;> linarith
    rw [hmid, hupper]
    constructor
    · intro hdouble
      have hreach : s ≤ upper := by linarith [(hupper (s + s)).mpr hdouble]
      have hhalf := (hupper s).mp hreach
      refine .inr ⟨by omega, ?_⟩
      intro x hx hsx
      by_contra hlt
      have hmore := countP_lt_of_mem (le_add_of_nonneg_left hs.le) hx hsx (not_le.mp hlt)
      omega
    · rintro (hlt | ⟨heq, hdouble⟩)
      · omega
      · have hsame : xs.countP (· < s + s) = xs.countP (· < s) := by
          apply List.countP_congr
          intro x hx
          rw [decide_eq_true_eq, decide_eq_true_eq]
          rcases h x hx with rfl | hsx
          · exact ⟨fun _ ↦ hs, fun _ ↦ add_pos hs hs⟩
          · exact ⟨fun hlt ↦ absurd (hdouble x hx hsx) (not_le.mpr hlt),
              fun hlt ↦ absurd hsx (not_le.mpr hlt)⟩
        omega
  · have hcount := (hlower s).mp hreach
    have hmedian : s ≤ lower + (upper - lower) * (1 / 2) := by linarith
    exact ⟨fun _ ↦ .inl (by omega), fun _ ↦ hmedian⟩

end Median

/-! ### The observations of a group -/

/-- The observations of a computed cluster. -/
def clusterObservations (db : Database R) (g : ComputedCluster R) : List (AssetObservation R) :=
  db.assetObservation.rows.filter (fun o ↦ o.clientId ∈ g.memberIds)

/-- No sensor model has scored the observation. -/
structure NeverScored (o : AssetObservation R) : Prop where
  sensorClass : o.sensorClass = none
  sensorPPothole : o.sensorPPothole = none
  sensorSeverity : o.sensorSeverity = none
  sensorIsOutlier : o.sensorIsOutlier = none
  sensorModelVersion : o.sensorModelVersion = none
  scoredAt : o.scoredAt = none

/-- A severity of at least `s` is recorded for the observation: by a sensor model, or if there was
none in all the pairs through which it is a member. -/
def RecordedAtLeast (settings : Settings R) (db : Database R) (s : R) (o : AssetObservation R) :
    Prop :=
  (∃ v ∈ o.sensorSeverity, s ≤ v) ∨
    NeverScored o ∧ (∃ c ∈ maxFused db o.clientId, settings.clusterMemberMinConfidence ≤ c) ∧
      ∀ p ∈ db.fusionPair, p.eventClientId = o.clientId → s ≤ p.severity

/-- The scored observations hold the middle of the severities: they are more than half, or they
are half and have twice the severity. -/
def ScoredHoldMiddle (s : R) (os : List (AssetObservation R)) : Prop :=
  let unscored := os.countP (fun o ↦ o.sensorSeverity = none)
  2 * unscored < os.length ∨
    2 * unscored = os.length ∧ ∀ o ∈ os, ∀ v ∈ o.sensorSeverity, s + s ≤ v

/-- The database has a cluster with the aggregates and the members of the group, and with a
severity of at least `s`. -/
def StoredAtLeast (db : Database R) (g : ComputedCluster R) (s : R) : Prop :=
  ∃ c ∈ db.assetCluster, summaryOf c = g.summary ∧
    ((linksOf db c.clusterId).map ObservationClusterLink.memberId).Perm g.memberIds ∧
    s ≤ c.severity

variable {ext : Externals R} {settings : Settings R} {tick : ClusterTick} {db : Database R}
  {g : ComputedCluster R} {s : R}

/-- A group has one member for each of its observations. -/
theorem exists_perm_clusterObservations {now : DateTime} {units : R}
    (hg : g ∈ clusters ext settings now units db) : ∃ ms, ms ≠ [] ∧ g = computedCluster ms ∧
      ms.Perm ((clusterObservations db g).map (member db)) := by
  obtain ⟨ms, hne, hnodup, hmembers, rfl⟩ := exists_members_of_clusters hg
  refine ⟨ms, hne, rfl, ?_⟩
  have hkeys : ((clusterObservations db (computedCluster ms)).map
      AssetObservation.clientId).Nodup :=
    (List.filter_sublist.map _).nodup db.assetObservation.keysNodup
  have hrows : ((clusterObservations db (computedCluster ms)).map (member db)).Nodup := by
    apply List.Nodup.of_map Member.clientId
    rwa [List.map_map]
  rw [List.perm_ext_iff_of_nodup hnodup.of_map hrows]
  intro m
  simp only [clusterObservations, List.mem_map, List.mem_filter, decide_eq_true_eq, mem_memberIds]
  constructor
  · intro hm
    obtain ⟨o, ho, -, rfl⟩ := mem_members.mp (hmembers m hm)
    exact ⟨o, ⟨ho, _, hm, rfl⟩, rfl⟩
  · rintro ⟨o, ⟨ho, m', hm', hid⟩, rfl⟩
    obtain ⟨o', ho', -, rfl⟩ := mem_members.mp (hmembers m' hm')
    have hsame : o' = o := Table.eq_of_key ho' ho hid
    exact hsame ▸ hm'

omit [Field R] in
/-- Of an observation with a recorded severity either no model scored it, or the score reaches the
bound. -/
theorem RecordedAtLeast.cases {o : AssetObservation R} (h : RecordedAtLeast settings db s o) :
    o.sensorSeverity = none ∨ ∃ v, o.sensorSeverity = some v ∧ s ≤ v := by
  rcases h with ⟨v, hv, hs⟩ | ⟨hnever, -, -⟩
  · exact .inr ⟨v, hv, hs⟩
  · exact .inl hnever.sensorSeverity

/-- Where a severity of at least `s` is recorded for every observation, the median reaches `s`
exactly if `s` is not positive or the scored observations hold the middle. -/
theorem le_severity_iff [IsStrictOrderedRing R] {now : DateTime} {units : R}
    (hg : g ∈ clusters ext settings now units db)
    (hrecorded : ∀ o ∈ clusterObservations db g, RecordedAtLeast settings db s o) :
    s ≤ g.summary.severity ↔ s ≤ 0 ∨ ScoredHoldMiddle s (clusterObservations db g) := by
  obtain ⟨ms, hne, hcomputed, hperm⟩ := exists_perm_clusterObservations hg
  have hseverity : g.summary.severity = median (ms.map Member.severity) :=
    congrArg (fun g ↦ g.summary.severity) hcomputed
  have hvalues : (ms.map Member.severity).Perm
      ((clusterObservations db g).map (fun o ↦ o.sensorSeverity.getD 0)) := by
    have hmap := hperm.map Member.severity
    rwa [List.map_map] at hmap
  have hne' : ms.map Member.severity ≠ [] := by simpa using hne
  generalize clusterObservations db g = os at hrecorded hvalues
  have hcases : ∀ x ∈ ms.map Member.severity, x = 0 ∨ s ≤ x := by
    intro x hx
    obtain ⟨o, ho, rfl⟩ := List.mem_map.mp (hvalues.mem_iff.mp hx)
    rcases (hrecorded o ho).cases with hnone | ⟨v, hv, hs⟩
    · exact .inl (by rw [hnone, Option.getD_none])
    · exact .inr (by rwa [hv, Option.getD_some])
  rw [hseverity]
  by_cases hs : 0 < s
  · have hunscored : (ms.map Member.severity).countP (· < s) =
        os.countP (fun o ↦ o.sensorSeverity = none) := by
      rw [hvalues.countP_eq, List.countP_map]
      apply List.countP_congr
      intro o ho
      rw [Function.comp_apply, decide_eq_true_eq, decide_eq_true_eq]
      rcases (hrecorded o ho).cases with hnone | ⟨v, hv, hsv⟩
      · simp [hnone, hs]
      · simp [hv, hsv]
    have hlength : (ms.map Member.severity).length = os.length := by
      rw [hvalues.length_eq, List.length_map]
    have hdouble : (∀ x ∈ ms.map Member.severity, s ≤ x → s + s ≤ x) ↔
        ∀ o ∈ os, ∀ v ∈ o.sensorSeverity, s + s ≤ v := by
      simp only [hvalues.mem_iff, List.forall_mem_map]
      refine forall₂_congr (fun o ho ↦ ?_)
      rcases (hrecorded o ho).cases with hnone | ⟨v, hv, hsv⟩
      · simp [hnone]
      · simp [hv, hsv]
    rw [le_median_iff hne' hs hcases, hunscored, hlength, hdouble, ScoredHoldMiddle,
      or_iff_right (not_le.mpr hs)]
  · have hnonpos := not_lt.mp hs
    have hbound : s ≤ median (ms.map Member.severity) := by
      apply le_median hne'
      intro x hx
      exact (hcases x hx).elim (fun h ↦ h ▸ hnonpos) id
    exact ⟨fun _ ↦ .inl hnonpos, fun _ ↦ hbound⟩

/-- With fresh ids a run stores every computed cluster with its aggregates. -/
theorem storedAtLeast_iff (hfresh : FreshIds tick db)
    (hg : g ∈ computedClusters ext settings tick db) :
    StoredAtLeast (clusterRun ext settings tick db).conn.store g s ↔ s ≤ g.summary.severity := by
  constructor
  · rintro ⟨c, -, hsummary, -, hs⟩
    rwa [← hsummary]
  · intro hs
    obtain ⟨hlocked, -⟩ := clusters_of_computedClusters hg
    obtain ⟨taken, htaken, hstore, hwritten⟩ :=
      clusterRun_written ext settings tick db hlocked hfresh
    have hnodup : ∀ d ∈ taken, d.2.memberIds.Nodup := fun d hd ↦
      computedClusters_nodup (htaken ▸ List.mem_map_of_mem hd)
    have hupserted := hwritten.upserted hnodup
    rw [← hstore] at hupserted
    rw [← htaken] at hg
    obtain ⟨d, hd, rfl⟩ := List.mem_map.mp hg
    have hkey := (hupserted.hasKey d.1).mpr (.inr (List.mem_map_of_mem hd))
    obtain ⟨c, hc, hid⟩ := Table.hasKey_iff.mp hkey
    have hid : c.clusterId = d.1 := hid
    have hsummary := hupserted.taken d hd c hc hid
    refine ⟨c, hc, hsummary, ?_, ?_⟩
    · have hlinks := (hupserted.links d hd).map ObservationClusterLink.memberId
      rw [List.map_map] at hlinks
      rw [hid]
      refine hlinks.trans (.of_eq ?_)
      exact List.map_fst_zip (Nat.le_of_eq d.2.sameLength)
    · rwa [← hsummary] at hs

/-- Where a severity of at least `s` is recorded for every observation of a group, the run stores
the cluster with a severity of at least `s` exactly if `s` is not positive or the scored
observations hold the middle: the pairs of the others do not count. -/
theorem severity_stored_iff [IsStrictOrderedRing R] (hfresh : FreshIds tick db)
    (hg : g ∈ computedClusters ext settings tick db)
    (hrecorded : ∀ o ∈ clusterObservations db g, RecordedAtLeast settings db s o) :
    StoredAtLeast (clusterRun ext settings tick db).conn.store g s ↔
      s ≤ 0 ∨ ScoredHoldMiddle s (clusterObservations db g) := by
  obtain ⟨-, units, hclusters⟩ := clusters_of_computedClusters hg
  rw [storedAtLeast_iff hfresh hg, le_severity_iff hclusters hrecorded]

/-! ### Cold start -/

instance (o : AssetObservation R) : Decidable (NeverScored o) :=
  decidable_of_iff (o.sensorClass = none ∧ o.sensorPPothole = none ∧ o.sensorSeverity = none ∧
      o.sensorIsOutlier = none ∧ o.sensorModelVersion = none ∧ o.scoredAt = none)
    ⟨fun h ↦ ⟨h.1, h.2.1, h.2.2.1, h.2.2.2.1, h.2.2.2.2.1, h.2.2.2.2.2⟩,
      fun h ↦ ⟨h.sensorClass, h.sensorPPothole, h.sensorSeverity, h.sensorIsOutlier,
        h.sensorModelVersion, h.scoredAt⟩⟩

instance (o : AssetObservation R) : Decidable (RecordedAtLeast settings db s o) :=
  inferInstanceAs (Decidable ((∃ v ∈ o.sensorSeverity, s ≤ v) ∨
    NeverScored o ∧ (∃ c ∈ maxFused db o.clientId, settings.clusterMemberMinConfidence ≤ c) ∧
      ∀ p ∈ db.fusionPair.rows, p.eventClientId = o.clientId → s ≤ p.severity))

/-- Three reports of one pothole and a frame of each, paired before there is a model. -/
def coldStart : Database ℚ :=
  let uploads := [(0, "a"), (1, "b"), (2, "c")].flatMap (fun x ↦
    [Ingest.reportAt x.2 (onLane (x.1 / 10)) Ingest.reportTime,
      Ingest.frameAt ("f" ++ x.2) (onLane (x.1 / 10)) Ingest.reportTime])
  (runTick Externals.planar (Settings.default ℚ) ⟨true, "fusion", Ingest.reportTime,
    Ingest.reportTime⟩ quiet (applyAll uploads Database.empty)).conn.store

/-- The three detections of one pothole, scored. -/
def scoredPothole : Database ℚ :=
  onePothole.foldl (Event.next Externals.planar (Settings.default ℚ)) Database.empty

theorem severity_stored_scoredPothole : ∃ g ∈ computedClusters Externals.planar
    (Settings.default ℚ) (potholeTick "run" 0) scoredPothole,
    StoredAtLeast (clusterRun Externals.planar (Settings.default ℚ) (potholeTick "run" 0)
      scoredPothole).conn.store g (1 / 2) := by
  have hfresh : FreshIds (potholeTick "run" 0) scoredPothole :=
    freshIds_potholeTick (by decide +kernel) (by
      change ∀ c ∈ scoredPothole.assetCluster.rows, _
      decide +kernel)
  obtain ⟨g, hg, hrecorded, hscored⟩ : ∃ g ∈ computedClusters Externals.planar
      (Settings.default ℚ) (potholeTick "run" 0) scoredPothole,
      (∀ o ∈ clusterObservations scoredPothole g,
        RecordedAtLeast (Settings.default ℚ) scoredPothole (1 / 2) o) ∧
      2 * (clusterObservations scoredPothole g).countP (fun o ↦ o.sensorSeverity = none) <
        (clusterObservations scoredPothole g).length := by
    decide +kernel
  exact ⟨g, hg, (severity_stored_iff hfresh hg hrecorded).mpr (.inr (.inl hscored))⟩

/-- Every pair records the severity 1, and the run stores the cluster with 0. -/
theorem pairs_not_counted : ¬∀ (db : Database ℚ) (g : ComputedCluster ℚ) (s : ℚ),
    FreshIds (potholeTick "run" 0) db →
    g ∈ computedClusters Externals.planar (Settings.default ℚ) (potholeTick "run" 0) db →
    (∀ o ∈ clusterObservations db g, RecordedAtLeast (Settings.default ℚ) db s o) →
    StoredAtLeast (clusterRun Externals.planar (Settings.default ℚ) (potholeTick "run" 0)
      db).conn.store g s := by
  intro h
  have hfresh : FreshIds (potholeTick "run" 0) coldStart :=
    freshIds_potholeTick (by decide +kernel) (by
      change ∀ c ∈ coldStart.assetCluster.rows, _
      decide +kernel)
  obtain ⟨g, hg, hrecorded, hzero⟩ : ∃ g ∈ computedClusters Externals.planar
      (Settings.default ℚ) (potholeTick "run" 0) coldStart,
      (∀ o ∈ clusterObservations coldStart g,
        RecordedAtLeast (Settings.default ℚ) coldStart 1 o) ∧ g.summary.severity = 0 := by
    decide +kernel
  have hstored := (storedAtLeast_iff hfresh hg).mp (h coldStart g 1 hfresh hg hrecorded)
  rw [hzero] at hstored
  exact absurd hstored (by decide)

end PotholeServer.Cluster
