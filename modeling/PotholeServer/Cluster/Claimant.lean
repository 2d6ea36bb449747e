import PotholeServer.Cluster.Idempotent
import PotholeServer.Cluster.Links

/-!
# The nearest claimant

The transaction of a run on any computed clusters in any order. The first cluster that comes
takes the row that is nearest to it, also when a later one is nearer to that row. So a row and a
computed cluster that are nearest to each other come together unless a cluster that was processed
before has claimed the row.
-/

namespace PotholeServer.Cluster

open Sql Db

variable {R : Type}

/-- The effects write the data of a computed cluster to an existing row: its aggregates, and its
members in the place of the old links. -/
def WritesTo (now : DateTime) (ws : List (Write R)) (id : String) (c : ComputedCluster R) : Prop :=
  .updateCluster id c.summary now :: linkWrites id c <:+: ws

/-- The aggregates that an effect gives to an existing row. -/
def updatedSummary : Write R → Option (String × ClusterSummary R)
  | .updateCluster id summary _ => some (id, summary)
  | _ => none

/-- The audit of the run is no write to a row. -/
theorem writesTo_concat {ws : List (Write R)} {id : String} {c : ComputedCluster R} {runId : String}
    {outputs : Nat} {now now' : DateTime} :
    WritesTo now (ws ++ [.updateClusterRun runId outputs now']) id c ↔ WritesTo now ws id c := by
  rw [WritesTo, List.infix_concat_iff, or_iff_right]
  · rfl
  · intro hsuffix
    rcases List.suffix_concat_iff.mp hsuffix with hnil | ⟨front, hfront, _⟩
    · cases hnil
    · have hmem : Write.updateClusterRun runId outputs now' ∈
          .updateCluster id c.summary now :: linkWrites id c := by
        rw [hfront]
        exact List.mem_append_right _ (List.mem_singleton_self _)
      simp [linkWrites] at hmem

variable [LinearOrder R]

/-- A live row and a computed cluster that are nearest to each other: among the live rows, and
among the other computed clusters. -/
structure NearestPair (ext : Externals R) (epsM : R) (db : Database R)
    (rest : List (ComputedCluster R)) (e : AssetCluster R) (c : ComputedCluster R) : Prop where
  row : e ∈ db.assetCluster
  live : e.repairedAt = none
  near : ext.stDistance e.centroid c.summary.centroid ≤ epsM
  nearestRow : ∀ r ∈ db.assetCluster, r.repairedAt = none → r.clusterId ≠ e.clusterId →
    ext.stDistance e.centroid c.summary.centroid < ext.stDistance r.centroid c.summary.centroid
  nearestCluster : ∀ d ∈ rest,
    ext.stDistance e.centroid c.summary.centroid < ext.stDistance e.centroid d.summary.centroid

section NearestPair

variable {ext : Externals R} {epsM : R} {db : Database R} {rest : List (ComputedCluster R)}
  {e : AssetCluster R} {c : ComputedCluster R}

/-- As long as it is not claimed, the row is what the cluster finds. -/
theorem NearestPair.findExisting (h : NearestPair ext epsM db rest e c) {matched : List String}
    (hout : e.clusterId ∉ matched) :
    findExisting ext epsM matched c.summary.centroid db = some e.clusterId := by
  have hmatchable : e ∈ matchable ext epsM matched c.summary.centroid db :=
    mem_matchable.mpr ⟨h.row, h.live, hout, h.near⟩
  obtain ⟨d, hd, hfind, hle⟩ := exists_nearest_of_matchable hmatchable
  obtain ⟨hrow, hlive, _, _⟩ := mem_matchable.mp hd
  by_cases hid : d.clusterId = e.clusterId
  · rw [hfind, hid]
  · have hfar := h.nearestRow d hrow hlive hid
    rcases Prod.Lex.toLex_le_toLex.mp hle with hlt | ⟨heq, _⟩
    · exact absurd hlt hfar.asymm
    · exact absurd heq hfar.ne'

/-- Another cluster has other aggregates. -/
theorem NearestPair.summary_ne (h : NearestPair ext epsM db rest e c) {d : ComputedCluster R}
    (hd : d ∈ rest) : d.summary ≠ c.summary := by
  intro heq
  have hfar := h.nearestCluster d hd
  rw [heq] at hfar
  exact lt_irrefl _ hfar

end NearestPair

/-! ### What a transaction collects for each cluster -/

section Collects

variable {ext : Externals R} {settings : Settings R} {tick : ClusterTick} {db : Database R}
  {done rest : List (String × ComputedCluster R)} {p : List (Write R)} {id : String}
  {c : ComputedCluster R}

/-- The moment at which a cluster takes its row. -/
theorem Collects.at (h : Collects ext settings tick db (done ++ (id, c) :: rest) p) :
    ∃ p₁ ws, Collects ext settings tick db done p₁ ∧
      Assigns ext settings tick.now (applyAll p₁ db) (done.map Prod.fst) c id ws ∧
      p₁ ++ ws ++ linkWrites id c <+: p := by
  generalize hall : done ++ (id, c) :: rest = all at h
  induction h generalizing rest with
  | start => exact absurd hall (by simp)
  | @step done' p' ws' id' c' h' ha _ ih =>
    rcases List.eq_nil_or_concat rest with rfl | ⟨rest', last, rfl⟩
    · obtain ⟨rfl, hlast⟩ := List.append_inj' hall rfl
      cases List.cons.inj hlast |>.1
      exact ⟨p', ws', h', ha, List.prefix_refl _⟩
    · rw [List.concat_eq_append, ← List.cons_append, ← List.append_assoc] at hall
      obtain ⟨hdone, _⟩ := List.append_inj' hall rfl
      obtain ⟨p₁, ws, hcollects, hassigns, hprefix⟩ := ih hdone
      refine ⟨p₁, ws, hcollects, hassigns, hprefix.trans ?_⟩
      rw [List.append_assoc]
      exact List.prefix_append _ _

/-- A cluster that takes an existing row was near it, and is written to it. -/
theorem Collects.writesTo (h : Collects ext settings tick db (done ++ (id, c) :: rest) p)
    (hkey : db.assetCluster.HasKey id) :
    findExisting ext settings.clusterEpsM (done.map Prod.fst) c.summary.centroid db = some id ∧
      WritesTo tick.now p id c := by
  obtain ⟨p₁, ws, hcollects, hassigns, hprefix⟩ := h.at
  have hrebuilt := hcollects.rebuilt
  cases hassigns with
  | existing hfind =>
    rw [findExisting_of_others ext settings.clusterEpsM _ hrebuilt.others] at hfind
    refine ⟨hfind, List.IsInfix.trans ?_ hprefix.isInfix⟩
    rw [List.append_assoc]
    exact (List.suffix_append _ _).isInfix
  | new _ hfree => exact absurd (hrebuilt.kept id hkey) hfree

/-- A row is updated for the cluster that took it. -/
theorem Collects.mem_of_update (h : Collects ext settings tick db done p)
    {summary : ClusterSummary R} {now : DateTime}
    (hupdate : .updateCluster id summary now ∈ p) : ∃ c, (id, c) ∈ done ∧ c.summary = summary := by
  induction h with
  | start => simp at hupdate
  | @step done p ws id' c' _ ha _ ih =>
    rw [List.mem_append, List.mem_append] at hupdate
    rcases hupdate with (hold | hrow) | hlink
    · obtain ⟨c, hc, hsummary⟩ := ih hold
      exact ⟨c, List.mem_append_left _ hc, hsummary⟩
    · cases ha with
      | existing =>
        cases List.mem_singleton.mp hrow
        exact ⟨c', by simp, rfl⟩
      | new => simp at hrow
    · simp [linkWrites] at hlink

/-- The row that a cluster finds is within the distance. -/
theorem near_of_findExisting {e : AssetCluster R} {matched : List String} {centroid : Point R}
    {epsM : R} (he : e ∈ db.assetCluster)
    (h : findExisting ext epsM matched centroid db = some e.clusterId) :
    ext.stDistance e.centroid centroid ≤ epsM := by
  rw [findExisting, Option.map_eq_some_iff] at h
  obtain ⟨r, hhead, hid⟩ := h
  obtain ⟨hr, _, _, hnear⟩ := mem_matchable.mp (mem_orderBy.mp (List.mem_of_head? hhead))
  rw [Table.eq_of_key he hr hid.symm]
  exact hnear

variable {e : AssetCluster R}

/-- Nearest to each other and unclaimed, the row gets the data of the cluster. -/
theorem Collects.writesTo_of_unclaimed
    (h : Collects ext settings tick db (done ++ (id, c) :: rest) p)
    (hpair : NearestPair ext settings.clusterEpsM db ((done ++ rest).map Prod.snd) e c)
    (hout : e.clusterId ∉ done.map Prod.fst) : WritesTo tick.now p e.clusterId c := by
  have hid : id = e.clusterId := by
    obtain ⟨p₁, ws, hcollects, hassigns, _⟩ := h.at
    have hfound := hpair.findExisting hout
    rw [← findExisting_of_others ext settings.clusterEpsM _ hcollects.rebuilt.others] at hfound
    cases hassigns with
    | existing hfind => exact Option.some.inj (hfind.symm.trans hfound)
    | new hfind _ => exact absurd (hfind.symm.trans hfound) (by simp)
  subst hid
  exact (h.writesTo (Table.hasKey_of_mem hpair.row)).2

/-- A row that was claimed before gets the data of the cluster that claimed it, and no other. -/
theorem Collects.writesTo_of_claimed
    (h : Collects ext settings tick db (done ++ (id, c) :: rest) p)
    (hpair : NearestPair ext settings.clusterEpsM db ((done ++ rest).map Prod.snd) e c)
    (hclaimed : e.clusterId ∈ done.map Prod.fst) : ¬WritesTo tick.now p e.clusterId c ∧
      ∃ d ∈ done.map Prod.snd, ext.stDistance e.centroid d.summary.centroid ≤ settings.clusterEpsM ∧
        WritesTo tick.now p e.clusterId d := by
  obtain ⟨⟨id', d⟩, hd, rfl⟩ := List.mem_map.mp hclaimed
  constructor
  · intro hwrites
    obtain ⟨d', hd', hsummary⟩ := h.mem_of_update (hwrites.subset (List.mem_cons_self ..))
    have hsame : d' = d := congrArg Prod.snd (List.inj_on_of_nodup_map h.rebuilt.nodup hd'
      (List.mem_append_left _ hd) rfl)
    rw [hsame] at hsummary
    exact hpair.summary_ne (List.mem_map_of_mem (List.mem_append_left _ hd)) hsummary
  · obtain ⟨before, after, rfl⟩ := List.append_of_mem hd
    rw [List.append_assoc, List.cons_append] at h
    obtain ⟨hfind, hwrites⟩ := h.writesTo (Table.hasKey_of_mem hpair.row)
    exact ⟨d, List.mem_map_of_mem hd, near_of_findExisting hpair.row hfind, hwrites⟩

end Collects

variable [Field R] (ext : Externals R) (settings : Settings R) (tick : ClusterTick)

/-- The effects of the transaction that writes these computed clusters, with nobody else about. -/
def clusterWrites (stats : MemberStats R) (meanLat : R) (cs : List (ComputedCluster R))
    (db : Database R) : List (Write R) :=
  Prog.logged ((Prog.transaction (clusterTransaction ext settings tick stats meanLat cs)).run quiet
    (.fresh db) : Outcome (Database R) (Write R) Statement Empty Unit).conn.trace

section Transaction

variable {tick} {db : Database R}

/-- With fresh ids every cluster takes a row. -/
theorem clusterWrites_collects (ext : Externals R) (settings : Settings R) (stats : MemberStats R)
    (meanLat : R) (cs : List (ComputedCluster R)) (hfresh : FreshIds tick db) :
    ∃ taken p, taken.map Prod.snd = cs ∧ Collects ext settings tick db taken p ∧
      clusterWrites ext settings tick stats meanLat cs db =
        p ++ [.updateClusterRun tick.runId cs.length tick.now] := by
  have hids : ∀ c ∈ cs, ∀ id ∈ c.memberIds, id ∈ cs.flatMap ComputedCluster.memberIds :=
    fun c hc id hid ↦ List.mem_flatMap.mpr ⟨c, hc, hid⟩
  rcases runs_clusterTransaction ext settings tick (s := db) stats meanLat hids 1 with
    ⟨_, p, taken, htaken, hcollects, hrun⟩ | ⟨hstale, _⟩
  · have hlogged := runsLog_transaction
      (hrun.logs (statements_clusterTransaction ext settings tick stats meanLat cs))
    exact ⟨taken, p, htaken, hcollects, hlogged.whole⟩
  · exact absurd hfresh hstale

end Transaction

/-- Of a live row and a computed cluster that are nearest to each other and within `cluster_eps_m`,
the row gets the data of the cluster exactly if no cluster processed before it has claimed the row
in its turn, and otherwise the data of one that has, itself within `cluster_eps_m`. -/
theorem nearest_claimant (stats : MemberStats R) (meanLat : R) (db : Database R)
    (earlier later : List (ComputedCluster R)) (c : ComputedCluster R) (e : AssetCluster R)
    (hfresh : FreshIds tick db)
    (hpair : NearestPair ext settings.clusterEpsM db (earlier ++ later) e c) :
    let ws := clusterWrites ext settings tick stats meanLat (earlier ++ c :: later) db
    (WritesTo tick.now ws e.clusterId c ↔ e.clusterId ∉ claims ext settings.clusterEpsM db
      (earlier.map (fun d ↦ d.summary.centroid))) ∧
    (¬WritesTo tick.now ws e.clusterId c → ∃ d ∈ earlier,
      ext.stDistance e.centroid d.summary.centroid ≤ settings.clusterEpsM ∧
        WritesTo tick.now ws e.clusterId d) := by
  obtain ⟨taken, p, htaken, hcollects, hlog⟩ :=
    clusterWrites_collects ext settings stats meanLat (earlier ++ c :: later) hfresh
  obtain ⟨done, rest', rfl, rfl, hrest⟩ := List.map_eq_append_iff.mp htaken
  obtain ⟨⟨id, c'⟩, rest, rfl, rfl, rfl⟩ := List.map_eq_cons_iff.mp hrest
  rw [← List.map_append] at hpair
  intro ws
  have hwrites : ∀ d, WritesTo tick.now ws e.clusterId d ↔ WritesTo tick.now p e.clusterId d := by
    intro d
    rw [show ws = _ from hlog]
    exact writesTo_concat
  have hclaims : e.clusterId ∈ claims ext settings.clusterEpsM db
      ((done.map Prod.snd).map (fun d ↦ d.summary.centroid)) ↔ e.clusterId ∈ done.map Prod.fst := by
    obtain ⟨_, _, hbefore, _, _⟩ := hcollects.at
    rw [List.map_map]
    exact hbefore.rebuilt.mem_claims.trans (and_iff_left (Table.hasKey_of_mem hpair.row))
  simp only [hwrites, hclaims]
  by_cases hclaimed : e.clusterId ∈ done.map Prod.fst
  · obtain ⟨hnot, hother⟩ := hcollects.writesTo_of_claimed hpair hclaimed
    exact ⟨⟨fun h ↦ absurd h hnot, fun h ↦ absurd hclaimed h⟩, fun _ ↦ hother⟩
  · have hgets := hcollects.writesTo_of_unclaimed hpair hclaimed
    exact ⟨⟨fun _ ↦ hclaimed, fun _ ↦ hgets⟩, fun h ↦ absurd hgets h⟩

/-- A row on the lane. -/
def betweenRow : AssetCluster ℚ :=
  newCluster "clu_between" ⟨⟨0, 0⟩, 1, 1, 3, 1, Ingest.reportTime⟩ Ingest.reportTime

/-- The row, and six detections: three 24 m before it and three 20 m behind it. -/
def rowBetween : Database ℚ :=
  let db := (detected "a" (-6 / 5) ++ detected "b" (-6 / 5) ++ detected "c" (-6 / 5) ++
    detected "p" 1 ++ detected "q" 1 ++ detected "r" 1).foldl
      (Event.next Externals.planar (Settings.default ℚ)) Database.empty
  db.write (.insertCluster betweenRow)

/-- The cluster of three detections at one place. -/
def threeOnLane (steps : ℚ) (a b c : String) : ComputedCluster ℚ where
  summary := ⟨⟨0, onLane steps⟩, 1 / 2, 9 / 10, 3, 1, Ingest.reportTime⟩
  memberIds := [a, b, c]
  memberConfidences := [9 / 10, 9 / 10, 9 / 10]
  sameLength := rfl

/-- What a run computes there, in the order in which it writes it. -/
theorem computedClusters_rowBetween :
    computedClusters Externals.planar (Settings.default ℚ) (potholeTick "run" 0) rowBetween =
      [threeOnLane (-6 / 5) "a" "b" "c", threeOnLane 1 "p" "q" "r"] := by
  decide +kernel

/-- The detections behind the row are the nearer ones. -/
theorem nearestPair_rowBetween : NearestPair Externals.planar (Settings.default ℚ).clusterEpsM
    rowBetween ([threeOnLane (-6 / 5) "a" "b" "c"] ++ []) betweenRow
      (threeOnLane 1 "p" "q" "r") where
  row := by
    change betweenRow ∈ rowBetween.assetCluster.rows
    decide +kernel
  live := rfl
  near := by decide +kernel
  nearestRow := by
    change ∀ r ∈ rowBetween.assetCluster.rows, _
    decide +kernel
  nearestCluster := by decide +kernel

/-- The clusters of the six detections, written in this order. -/
def writesBetween (cs : List (ComputedCluster ℚ)) : List (Write ℚ) :=
  clusterWrites Externals.planar (Settings.default ℚ) (potholeTick "run" 0) ⟨6, some 0⟩ 0 cs
    rowBetween

/-- The detections before the row get it when they come first; when they come second, the nearer
ones behind it do. -/
theorem nearest_claimant_rowBetween :
    WritesTo (potholeTick "run" 0).now
      (writesBetween [threeOnLane (-6 / 5) "a" "b" "c", threeOnLane 1 "p" "q" "r"]) "clu_between"
      (threeOnLane (-6 / 5) "a" "b" "c") ∧
    WritesTo (potholeTick "run" 0).now
      (writesBetween [threeOnLane 1 "p" "q" "r", threeOnLane (-6 / 5) "a" "b" "c"]) "clu_between"
      (threeOnLane 1 "p" "q" "r") := by
  have hfresh : FreshIds (potholeTick "run" 0) rowBetween :=
    freshIds_potholeTick (by decide +kernel) (by
      change ∀ c ∈ rowBetween.assetCluster.rows, _
      decide +kernel)
  constructor
  · obtain ⟨hnearer, hother⟩ := nearest_claimant Externals.planar (Settings.default ℚ)
      (potholeTick "run" 0) ⟨6, some 0⟩ 0 rowBetween [threeOnLane (-6 / 5) "a" "b" "c"] []
      (threeOnLane 1 "p" "q" "r") betweenRow hfresh nearestPair_rowBetween
    have hclaimed : betweenRow.clusterId ∈ claims Externals.planar (Settings.default ℚ).clusterEpsM
        rowBetween [(threeOnLane (-6 / 5) "a" "b" "c").summary.centroid] := by
      decide +kernel
    obtain ⟨d, hd, _, hwrites⟩ := hother (fun h ↦ hnearer.mp h hclaimed)
    cases List.mem_singleton.mp hd
    exact hwrites
  · obtain ⟨hnearer, _⟩ := nearest_claimant Externals.planar (Settings.default ℚ)
      (potholeTick "run" 0) ⟨6, some 0⟩ 0 rowBetween [] [threeOnLane (-6 / 5) "a" "b" "c"]
      (threeOnLane 1 "p" "q" "r") betweenRow hfresh nearestPair_rowBetween
    apply hnearer.mpr
    -- nobody has claimed anything before the first cluster
    exact List.not_mem_nil

/-- The nearer detections do not get the row: they come second. -/
theorem farther_claimant_first : ¬∀ (earlier later : List (ComputedCluster ℚ))
    (c : ComputedCluster ℚ) (e : AssetCluster ℚ),
    computedClusters Externals.planar (Settings.default ℚ) (potholeTick "run" 0) rowBetween =
      earlier ++ c :: later →
    NearestPair Externals.planar (Settings.default ℚ).clusterEpsM rowBetween (earlier ++ later) e
      c →
    WritesTo (potholeTick "run" 0).now (clusterWrites Externals.planar (Settings.default ℚ)
      (potholeTick "run" 0) ⟨6, some 0⟩ 0 (earlier ++ c :: later) rowBetween) e.clusterId c := by
  intro h
  have hwrites := h [_] [] _ _ computedClusters_rowBetween nearestPair_rowBetween
  have hupdate := List.mem_filterMap.mpr ⟨_, hwrites.subset (List.mem_cons_self ..),
    show updatedSummary _ = some _ from rfl⟩
  revert hupdate
  decide +kernel

end PotholeServer.Cluster
