import PotholeServer.Fusion.Order
import PotholeServer.Fusion.Scoring
import PotholeServer.Pipeline.History
import PotholeServer.Sql.Queue

/-!
# Nobody waits for ever

The fusion job scores and pairs its backlogs oldest first, a batch at a time. As long as what is
uploaded later is also received later, no upload is overtaken: every tick that gets the lock and
meets no fault serves a batch of both queues, and whatever else happens, failing ticks included,
lets nobody in front. An upload is therefore through after as many such ticks as the batches
before it.
-/

namespace PotholeServer.Pipeline

open Sql Db Sensor Fusion Cluster Ingest

variable {R : Type}

/-! ### The two queues -/

/-- `ORDER BY received_at ASC, client_id ASC` -/
abbrev Place := DateTime ×ₗ String

/-- The place of a frame in its queue. -/
def framePlace (f : AssetFrame R) : Place := toLex (f.receivedAt, f.clientId)

/-- The place of an observation in its queue. -/
def reportPlace (o : AssetObservation R) : Place := toLex (o.receivedAt, o.clientId)

/-- The places of the unprocessed frames. -/
def waitingFrames (db : Database R) : Finset Place :=
  keysOf framePlace (db.assetFrame.rows.filter (fun f ↦ f.processedAt.isNone))

/-- The places of the unscored observations. -/
def waitingReports (db : Database R) : Finset Place :=
  keysOf reportPlace (db.assetObservation.rows.filter (fun o ↦ o.scoredAt.isNone))

section Queues

variable {db s s' : Database R} {place k : Place}

theorem mem_waitingFrames :
    k ∈ waitingFrames db ↔ ∃ f ∈ db.assetFrame, f.processedAt = none ∧ framePlace f = k := by
  rw [waitingFrames, mem_keysOf]
  constructor
  · rintro ⟨f, hf, rfl⟩
    obtain ⟨hf, hp⟩ := List.mem_filter.mp hf
    exact ⟨f, hf, Option.isNone_iff_eq_none.mp hp, rfl⟩
  · rintro ⟨f, hf, hp, rfl⟩
    exact ⟨f, List.mem_filter.mpr ⟨hf, Option.isNone_iff_eq_none.mpr hp⟩, rfl⟩

theorem mem_waitingReports :
    k ∈ waitingReports db ↔
      ∃ o ∈ db.assetObservation, o.scoredAt = none ∧ reportPlace o = k := by
  rw [waitingReports, mem_keysOf]
  constructor
  · rintro ⟨o, ho, rfl⟩
    obtain ⟨ho, hs⟩ := List.mem_filter.mp ho
    exact ⟨o, ho, Option.isNone_iff_eq_none.mp hs, rfl⟩
  · rintro ⟨o, ho, hs, rfl⟩
    exact ⟨o, List.mem_filter.mpr ⟨ho, Option.isNone_iff_eq_none.mpr hs⟩, rfl⟩

/-- Frames that wait in the later state have waited before, or come after the place. -/
theorem line_frames_subset (h : ∀ f ∈ s'.assetFrame, f.processedAt = none → place < framePlace f ∨
    ∃ g ∈ s.assetFrame, g.processedAt = none ∧ framePlace g = framePlace f) :
    line place (waitingFrames s') ⊆ line place (waitingFrames s) := by
  intro k hk
  obtain ⟨hwaits, hle⟩ := mem_line.mp hk
  obtain ⟨f, hf, hp, rfl⟩ := mem_waitingFrames.mp hwaits
  refine mem_line.mpr ⟨mem_waitingFrames.mpr ?_, hle⟩
  exact (h f hf hp).resolve_left (not_lt.mpr hle)

/-- The same of observations. -/
theorem line_reports_subset (h : ∀ o ∈ s'.assetObservation, o.scoredAt = none →
    place < reportPlace o ∨
      ∃ r ∈ s.assetObservation, r.scoredAt = none ∧ reportPlace r = reportPlace o) :
    line place (waitingReports s') ⊆ line place (waitingReports s) := by
  intro k hk
  obtain ⟨hwaits, hle⟩ := mem_line.mp hk
  obtain ⟨o, ho, hs, rfl⟩ := mem_waitingReports.mp hwaits
  refine mem_line.mpr ⟨mem_waitingReports.mpr ?_, hle⟩
  exact (h o ho hs).resolve_left (not_lt.mpr hle)

/-- `_SELECT_FRAME_BATCH_SQL` returns the front of its queue. -/
theorem isFront_frames (n : Nat) (db : Database R) :
    IsFront n (waitingFrames db) (keysOf framePlace ((frameQueue db).take n)) := by
  refine isFront_take_orderBy ?_ n
  have hkeys : ((db.assetFrame.rows.filter (fun f ↦ f.processedAt.isNone)).map key).Nodup :=
    (List.filter_sublist.map key).nodup db.assetFrame.keysNodup
  refine List.Nodup.of_map (fun k : Place ↦ (ofLex k).2) ?_
  rw [List.map_map]
  exact hkeys

/-- `_SELECT_UNSCORED_SQL` returns the front of its queue. -/
theorem isFront_reports (n : Nat) (db : Database R) :
    IsFront n (waitingReports db) (keysOf reportPlace ((unscoredQueue db).take n)) := by
  refine isFront_take_orderBy ?_ n
  have hkeys : ((db.assetObservation.rows.filter (fun o ↦ o.scoredAt.isNone)).map key).Nodup :=
    (List.filter_sublist.map key).nodup db.assetObservation.keysNodup
  refine List.Nodup.of_map (fun k : Place ↦ (ofLex k).2) ?_
  rw [List.map_map]
  exact hkeys

end Queues

/-! ### Nobody is overtaken -/

/-- The model has a class for each of its components. -/
abbrev Labelled (model : SensorModel R) : Prop :=
  Covers model.classMap model.components.length

/-- The same frame, perhaps processed since. -/
def SameFramePlace (f f' : AssetFrame R) : Prop := framePlace f' = framePlace f

theorem SameFramePlace.refl (f : AssetFrame R) : SameFramePlace f f := rfl

/-- The same observation, perhaps scored since. -/
def SameReportPlace (o o' : AssetObservation R) : Prop := reportPlace o' = reportPlace o

theorem SameReportPlace.refl (o : AssetObservation R) : SameReportPlace o o := rfl

/-- From one database to a later one nobody up to the place has joined a queue, no row is lost, and
the models stay labelled and one of them active. -/
structure Later (place : Place) (s s' : Database R) : Prop where
  frames : line place (waitingFrames s') ⊆ line place (waitingFrames s)
  reports : line place (waitingReports s') ⊆ line place (waitingReports s)
  frameKept : s.assetFrame.Retains SameFramePlace s'.assetFrame
  reportKept : s.assetObservation.Retains SameReportPlace s'.assetObservation
  labelled : (∀ r ∈ s.sensorModel, Labelled r.model) → ∀ r ∈ s'.sensorModel, Labelled r.model
  active : Fusion.loadActiveModel s ≠ none → Fusion.loadActiveModel s' ≠ none

section Later

variable {place : Place} {s s' s'' : Database R}

theorem Later.refl (s : Database R) : Later place s s where
  frames := Finset.Subset.refl _
  reports := Finset.Subset.refl _
  frameKept := .refl SameFramePlace.refl _
  reportKept := .refl SameReportPlace.refl _
  labelled := id
  active := id

theorem Later.trans (h : Later place s s') (h' : Later place s' s'') : Later place s s'' where
  frames := h'.frames.trans h.frames
  reports := h'.reports.trans h.reports
  frameKept := h.frameKept.trans (fun hf hf' ↦ hf'.trans hf) h'.frameKept
  reportKept := h.reportKept.trans (fun ho ho' ↦ ho'.trans ho) h'.reportKept
  labelled := fun hs ↦ h'.labelled (h.labelled hs)
  active := fun hs ↦ h'.active (h.active hs)

/-- The same frames, observations and models. -/
theorem later_of_eq (hframe : s'.assetFrame = s.assetFrame)
    (hreport : s'.assetObservation = s.assetObservation) (hmodel : s'.sensorModel = s.sensorModel) :
    Later place s s' := by
  constructor
  · rw [waitingFrames, waitingFrames, hframe]
  · rw [waitingReports, waitingReports, hreport]
  · rw [hframe]
    exact .refl SameFramePlace.refl _
  · rw [hreport]
    exact .refl SameReportPlace.refl _
  · rw [hmodel]
    exact id
  · rw [Fusion.loadActiveModel, Fusion.loadActiveModel, hmodel]
    exact id

theorem later_updateScored (clientId : String) (scores : Scores R) (now : DateTime)
    (s : Database R) : Later place s (s.write (.updateScored clientId scores now)) where
  frames := Finset.Subset.refl _
  reports := by
    apply line_reports_subset
    intro o ho hs
    have hmem : o ∈ s.assetObservation.update (fun o ↦ o.clientId = clientId)
      (fun o ↦ o.setScores scores now) (fun _ ↦ rfl) := ho
    obtain ⟨r, hr, rfl⟩ := Table.mem_update.mp hmem
    refine .inr ⟨r, hr, ?_⟩
    split at hs
    · cases hs
    · next hid =>
      rw [if_neg hid]
      exact ⟨hs, rfl⟩
  frameKept := .refl SameFramePlace.refl _
  reportKept := Table.retains_update (p := fun o ↦ o.clientId = clientId)
    (f := fun o ↦ o.setScores scores now) SameReportPlace.refl
    (fun o _ ↦ SameReportPlace.refl o) (fun _ ↦ rfl)
  labelled := id
  active := id

theorem later_markProcessed (ids : List String) (now : DateTime) (s : Database R) :
    Later place s (s.write (.markProcessed ids now)) where
  frames := by
    apply line_frames_subset
    intro f hf hp
    have hmem : f ∈ markAll ids now s.assetFrame := hf
    rcases mem_markAll.mp hmem with ⟨hf, _⟩ | ⟨g, _, _, rfl⟩
    · exact .inr ⟨f, hf, hp, rfl⟩
    · cases hp
  reports := Finset.Subset.refl _
  frameKept := Table.retains_update (p := fun f ↦ f.clientId ∈ ids ∧ f.processedAt = none)
    (f := fun f ↦ { f with processedAt := some now }) SameFramePlace.refl
    (fun f _ ↦ SameFramePlace.refl f)
    (fun _ ↦ rfl)
  reportKept := .refl SameReportPlace.refl _
  labelled := id
  active := id

/-- An effect that inserts no upload lets nobody in front. -/
theorem later_write {w : Write R} (hw : KeepsAssets w) (s : Database R) :
    Later place s (s.write w) := by
  cases w with
  | insertObservation row => exact hw.elim
  | insertFrame row => exact hw.elim
  | updateScored clientId scores now => exact later_updateScored clientId scores now s
  | markProcessed ids now => exact later_markProcessed ids now s
  | _ => exact later_of_eq rfl rfl rfl

theorem later_applyAll {ws : List (Write R)} (hws : ∀ w ∈ ws, KeepsAssets w) (s : Database R) :
    Later place s (applyAll ws s) := by
  induction ws generalizing s with
  | nil => exact .refl s
  | cons w ws ih =>
    have hfirst : Later place s (s.write w) := later_write (hws w (List.mem_cons_self ..)) s
    exact hfirst.trans (ih (fun w' hw' ↦ hws w' (List.mem_cons_of_mem _ hw')) _)

/-- A frame that is received later. -/
theorem later_insertFrame {row : AssetFrame R} (h : place < framePlace row) (s : Database R) :
    Later place s (s.write (.insertFrame row)) where
  frames := by
    apply line_frames_subset
    intro f hf hp
    rcases Table.mem_insertNew.mp hf with hf | ⟨rfl, _⟩
    · exact .inr ⟨f, hf, hp, rfl⟩
    · exact .inl h
  reports := Finset.Subset.refl _
  frameKept := Table.retains_insertNew SameFramePlace.refl _ _
  reportKept := .refl SameReportPlace.refl _
  labelled := id
  active := id

/-- An observation that is received later. -/
theorem later_insertObservation {row : AssetObservation R} (h : place < reportPlace row)
    (s : Database R) : Later place s (s.write (.insertObservation row)) where
  frames := Finset.Subset.refl _
  reports := by
    apply line_reports_subset
    intro o ho hs
    rcases Table.mem_insertNew.mp ho with ho | ⟨rfl, _⟩
    · exact .inr ⟨o, ho, hs, rfl⟩
    · exact .inl h
  frameKept := .refl SameFramePlace.refl _
  reportKept := Table.retains_insertNew SameReportPlace.refl _ _
  labelled := id
  active := id

/-- A labelled model is activated. -/
theorem later_saveModel {model : SensorModel R} (h : Labelled model) (s : Database R) :
    Later place s (Fusion.saveModel model s) := by
  constructor
  · rw [waitingFrames, waitingFrames, Fusion.saveModel]
    split <;> exact Finset.Subset.refl _
  · rw [waitingReports, waitingReports, Fusion.saveModel]
    split <;> exact Finset.Subset.refl _
  · rw [Fusion.saveModel]
    split <;> exact .refl SameFramePlace.refl _
  · rw [Fusion.saveModel]
    split <;> exact .refl SameReportPlace.refl _
  · intro hs r hr
    rcases mem_of_mem_saveModel hr with hmodel | ⟨r', hr', hmodel⟩
    · rw [hmodel]
      exact h
    · rw [hmodel]
      exact hs r' hr'
  · intro hs
    unfold Fusion.saveModel
    split
    · exact hs
    · next hkey =>
      rw [Store.loadActiveModel_eq, Store.activeModel_activate hkey]
      exact Option.some_ne_none model

end Later

/-! ### Arrivals -/

/-- What arrives lets nobody up to the place be overtaken: uploads are received later, and a model
that is saved is labelled. -/
def Arrival.Behind {ext : Externals R} [Field R] [LinearOrder R] (place : Place) :
    Arrival ext → Prop
  | .upload (.event _ e _ receivedAt) => place < toLex (receivedAt, e.clientId)
  | .upload (.frame _ m _ _ receivedAt) => place < toLex (receivedAt, m.clientId)
  | .activate model _ => Labelled model
  | .repaired _ _ => True

variable [Field R] [LinearOrder R] {ext : Externals R} {place : Place}

/-- An arrival behind the place. -/
abbrev LateArrival (ext : Externals R) (place : Place) := {u : Arrival ext // u.Behind place}

instance : Effect (LateArrival ext place) (Database R) := ⟨fun u ↦ u.1.apply⟩

theorem later_arrival (u : LateArrival ext place) (s : Database R) :
    Later place s (Effect.apply u s) := by
  obtain ⟨u, hu⟩ := u
  cases u with
  | upload u =>
    cases u with
    | event deviceId e ts receivedAt => exact later_insertObservation hu s
    | frame deviceId m ts jpegUrl receivedAt => exact later_insertFrame hu s
  | activate model _ => exact later_saveModel hu s
  | repaired clusterId time => exact later_of_eq rfl rfl rfl

theorem later_of_arrived {s s' : Database R} (h : Arrived (LateArrival ext place) s s') :
    Later place s s' := by
  refine h.invariant (I := Later place s) ?_ (.refl s)
  intro u t ht
  exact ht.trans (later_arrival u t)

/-- No arrival starts a fusion run. -/
theorem fusionRun_arrival (u : LateArrival ext place) (s : Database R) :
    (Effect.apply u s : Database R).fusionRun = s.fusionRun := by
  obtain ⟨u, _⟩ := u
  cases u with
  | upload u =>
    cases u with
    | event | frame => rfl
  | activate model _ =>
    change (Fusion.saveModel model s).fusionRun = s.fusionRun
    unfold Fusion.saveModel
    split <;> rfl
  | repaired clusterId time => rfl

theorem fusionRun_of_arrived {s s' : Database R} (h : Arrived (LateArrival ext place) s s') :
    s'.fusionRun = s.fusionRun := by
  refine h.invariant (I := fun t ↦ t.fusionRun = s.fusionRun) ?_ rfl
  intro u t ht
  rw [fusionRun_arrival, ht]

/-! ### Jobs under any schedule -/

/-- A program that inserts no upload lets nobody in front, whatever fails and arrives. -/
theorem later_run {α : Type} {x : DbProg R α} (hx : x.Emits KeepsAssets)
    (sch : Schedule (LateArrival ext place)) (s : Database R) :
    Later place s (x.run sch (.fresh s)).conn.store := by
  refine Prog.run_keeps_store (J := Later place s) (P := KeepsAssets) ?_ ?_ x hx sch (.refl s)
    (fun p hp ↦ by cases hp)
  · intro t u ht
    exact ht.trans (later_arrival u t)
  · intro t w hw ht
    exact ht.trans (later_write hw t)

variable (ext : Externals R) (settings : Settings R)

omit [Field R] [LinearOrder R] in
theorem emits_insertLinks (clusterId : String) (ms : List (String × R)) :
    (insertLinks clusterId ms).Emits KeepsAssets := by
  induction ms with
  | nil => exact Prog.emits_ret _
  | cons m rest ih =>
    rw [insertLinks]
    exact Prog.emits_bind (Prog.emits_effect trivial) (fun _ ↦ ih)

omit [Field R] in
theorem emits_upsertCluster (tick : ClusterTick) (matched : List String) (k : Nat)
    (c : ComputedCluster R) :
    (upsertCluster ext settings tick matched k c).Emits KeepsAssets := by
  rw [upsertCluster]
  refine Prog.emits_bind Prog.emits_fetch (fun existing ↦ ?_)
  cases existing with
  | some clusterId =>
    exact Prog.emits_bind (Prog.emits_effect trivial) (fun _ ↦ Prog.emits_ret _)
  | none =>
    refine Prog.emits_bind (Prog.emits_execute ?_) (fun _ ↦ Prog.emits_ret _)
    intro s ws hws w hw
    unfold insertCluster at hws
    split at hws
    · cases hws
    · cases hws
      rw [List.mem_singleton.mp hw]
      exact trivial

omit [Field R] in
theorem emits_upsertClusters (tick : ClusterTick) (cs : List (ComputedCluster R)) :
    ∀ matched k, (upsertClusters ext settings tick matched k cs).Emits KeepsAssets := by
  induction cs with
  | nil => exact fun _ _ ↦ Prog.emits_ret _
  | cons c rest ih =>
    intro matched k
    rw [upsertClusters]
    refine Prog.emits_bind (emits_upsertCluster ext settings tick matched k c) (fun id ↦ ?_)
    refine Prog.emits_bind (Prog.emits_effect trivial) (fun _ ↦ ?_)
    exact Prog.emits_bind (emits_insertLinks id _) (fun _ ↦ ih _ _)

/-- The clustering job inserts no report and no frame. -/
theorem emits_runClusterJob (tick : ClusterTick) :
    (runClusterJob ext settings tick).Emits KeepsAssets := by
  have hbody : ∀ stats meanLat cs,
      (clusterTransaction ext settings tick stats meanLat cs).Emits KeepsAssets := by
    intro stats meanLat cs
    rw [clusterTransaction]
    refine Prog.emits_bind (Prog.emits_execute ?_) (fun _ ↦ ?_)
    · intro s ws hws w hw
      unfold insertClusterRun at hws
      split at hws
      · cases hws
      · cases hws
        rw [List.mem_singleton.mp hw]
        exact trivial
    · exact Prog.emits_bind (emits_upsertClusters ext settings tick cs _ _)
        (fun _ ↦ Prog.emits_effect trivial)
  rw [runClusterJob]
  refine Prog.emits_bind Prog.emits_nothing (fun _ ↦ ?_)
  split
  · refine Prog.emits_tryFinally ?_ Prog.emits_nothing
    rw [clusterBody]
    refine Prog.emits_bind Prog.emits_fetch (fun stats ↦ ?_)
    split
    · exact Prog.emits_ret _
    · split
      · exact Prog.emits_ret _
      · exact Prog.emits_bind Prog.emits_fetch (fun cs ↦
          Prog.emits_bind (Prog.emits_transaction (hbody _ _ cs)) (fun _ ↦ Prog.emits_ret _))
  · exact Prog.emits_ret _

/-! ### A tick without faults -/

section Tick

variable {arr : Nat → List (LateArrival ext place)} {db s : Database R} {n : Nat}

theorem keepsAssets_tickWrites (model : Option (SensorModel R)) (runId : String) (now : DateTime)
    (ids : List String) (candidates : List (Candidate R)) :
    ∀ w ∈ tickWrites ext settings model runId now ids candidates, KeepsAssets w := by
  intro w hw
  simp only [tickWrites, List.mem_cons, List.mem_append, List.mem_map, List.not_mem_nil,
    or_false] at hw
  rcases hw with rfl | ⟨r, _, rfl⟩ | rfl | rfl
  · trivial
  · trivial
  · trivial
  · trivial

/-- Pairing without faults serves a batch of the frames. -/
theorem pairing_serves (model : Option (SensorModel R)) (runId : String) (now : DateTime)
    (hsize : 0 ≤ settings.fusionBatchSize) (hfresh : ¬s.fusionRun.HasKey runId) :
    ∃ a n' s', RunsTo arr (pairAndFuse ext settings model runId now) n s .auto (.ok a) n' s' .auto ∧
      Later place s s' ∧ (line place (waitingFrames s')).card ≤
        (line place (waitingFrames s)).card - settings.fusionBatchSize.toNat := by
  have hselect : Later place s (applyAll (arr n) s) := later_of_arrived ⟨arr n, rfl⟩
  have hfront := isFront_frames settings.fusionBatchSize.toNat (applyAll (arr n) s)
  have hshorter := Finset.card_le_card hselect.frames
  have hids := selectFrameBatch_eq hsize (applyAll (arr n) s)
  generalize (frameQueue (applyAll (arr n) s)).take settings.fusionBatchSize.toNat = batch
    at hfront hids
  by_cases hempty : batch = []
  · subst hempty
    refine ⟨0, n + 1, applyAll (arr n) s, ?_, hselect, ?_⟩
    · rw [pairAndFuse]
      exact runs_bind (runs_fetch_auto hids trivial) (runs_ret _)
    · have hcard := hfront.card_line (fun k (hk : k ∈ line place _) ↦ ⟨hk, Finset.notMem_empty k⟩)
      omega
  · have hne : batch.map (fun f ↦ f.clientId) ≠ [] := fun h ↦ hempty (List.map_eq_nil_iff.mp h)
    have hfresh' : ¬(applyAll (arr (n + 2)) (applyAll (arr (n + 1))
        (applyAll (arr n) s))).fusionRun.HasKey runId := by
      rw [fusionRun_of_arrived ⟨arr (n + 2), rfl⟩, fusionRun_of_arrived ⟨arr (n + 1), rfl⟩,
        fusionRun_of_arrived ⟨arr n, rfl⟩]
      exact hfresh
    obtain ⟨a, n', s₁, hview, hrun⟩ :=
      runsTo_pairAndFuse ext settings model runId now n s hids hne hfresh'
    have hpair : Arrived (LateArrival ext place) (applyAll (arr n) s) (pairingView arr n s) :=
      ⟨arr (n + 1) ++ arr (n + 2) ++ arr (n + 3), by
        rw [applyAll_append, applyAll_append]
        rfl⟩
    have hcommit : Later place (applyAll (arr n) s) s₁ := later_of_arrived (hpair.trans hview)
    generalize pairing ext settings (batch.map (fun f ↦ f.clientId)) (pairingView arr n s) =
      candidates at hrun
    have hwrites : Later place s₁ (applyAll (tickWrites ext settings model runId now
        (batch.map (fun f ↦ f.clientId)) candidates) s₁) :=
      later_applyAll (keepsAssets_tickWrites ext settings model runId now _ candidates) s₁
    refine ⟨a, n', _, hrun, hselect.trans (hcommit.trans hwrites), ?_⟩
    have hserved : ∀ k ∈ line place (waitingFrames (applyAll (tickWrites ext settings model runId
        now (batch.map (fun f ↦ f.clientId)) candidates) s₁)),
        k ∈ line place (waitingFrames (applyAll (arr n) s)) ∧ k ∉ keysOf framePlace batch := by
      intro k hk
      refine ⟨hcommit.frames (hwrites.frames hk), fun hin ↦ ?_⟩
      obtain ⟨f, hf, hp, rfl⟩ := mem_waitingFrames.mp (mem_line.mp hk).1
      obtain ⟨g, hg, hplace⟩ := mem_keysOf.mp hin
      obtain ⟨runs, heq⟩ := applyAll_tickWrites ext settings model now
        (batch.map (fun f ↦ f.clientId)) candidates runId s₁
      rw [heq] at hf
      have hid : g.clientId = f.clientId := congrArg (fun k : Place ↦ (ofLex k).2) hplace
      rcases mem_markAll.mp hf with ⟨_, hout⟩ | ⟨_, _, _, rfl⟩
      · exact hout ⟨hid ▸ List.mem_map_of_mem hg, hp⟩
      · cases hp
    have hcard := hfront.card_line hserved
    omega

/-- A labelled model scores every observation. -/
theorem not_scoringRaises {model : SensorModel R} (h : Labelled model)
    (rows : List (AssetObservation R)) : ¬ScoringRaises ext model rows := by
  rintro ⟨r, _, e, he⟩
  rcases le_or_gt (totalDensity ext model (zScores model r.magnitude r.accelStd r.gbarInMax)) 0
    with hnonpos | hpos
  · rw [scoreObservation_of_nonpos hnonpos] at he
    cases he
  · obtain ⟨best, rest, _, hscore⟩ := scoreObservation_of_pos r.speedMps h hpos
    rw [hscore] at he
    cases he

/-- After the scores are written their rows wait no longer. -/
theorem unscored_of_scoreWrites {model : SensorModel R} {now : DateTime}
    {rows : List (AssetObservation R)} {ws : List (Write R)}
    (hws : List.Forall₂ (ScoreWrite ext model now) rows ws) {o : AssetObservation R}
    (ho : o ∈ (applyAll ws s).assetObservation) (hs : o.scoredAt = none) :
    o ∈ s.assetObservation ∧ o.clientId ∉ rows.map (fun r ↦ r.clientId) := by
  induction hws generalizing s with
  | nil => exact ⟨ho, List.not_mem_nil⟩
  | @cons r w rest ws hw _ ih =>
    obtain ⟨res, _, rfl⟩ := hw
    obtain ⟨hmem, hout⟩ := ih ho
    have hupdate : o ∈ s.assetObservation.update (fun o ↦ o.clientId = r.clientId)
      (fun o ↦ o.setScores (scoresOf model res) now) (fun _ ↦ rfl) := hmem
    obtain ⟨u, hu, heq⟩ := Table.mem_update.mp hupdate
    split at heq
    · rw [← heq] at hs
      cases hs
    · next hid =>
      subst heq
      refine ⟨hu, ?_⟩
      rw [List.map_cons, List.mem_cons]
      rintro (heq | hin)
      · exact hid (decide_eq_true heq)
      · exact hout hin

theorem keepsAssets_scoreWrites {model : SensorModel R} {now : DateTime}
    {rows : List (AssetObservation R)} {ws : List (Write R)}
    (hws : List.Forall₂ (ScoreWrite ext model now) rows ws) : ∀ w ∈ ws, KeepsAssets w := by
  induction hws with
  | nil => exact fun _ h ↦ absurd h List.not_mem_nil
  | cons hw _ ih =>
    obtain ⟨res, _, rfl⟩ := hw
    exact List.forall_mem_cons.mpr ⟨trivial, ih⟩

theorem fusionRun_scoreWrites {model : SensorModel R} {now : DateTime}
    {rows : List (AssetObservation R)} {ws : List (Write R)}
    (hws : List.Forall₂ (ScoreWrite ext model now) rows ws) (s : Database R) :
    (applyAll ws s).fusionRun = s.fusionRun := by
  induction hws generalizing s with
  | nil => rfl
  | cons hw _ ih =>
    obtain ⟨res, _, rfl⟩ := hw
    exact ih _

/-- Scoring without faults serves a batch of the observations. -/
theorem scoring_serves {model : SensorModel R} (now : DateTime)
    (hsize : 0 ≤ settings.fusionBatchSize) (hmodel : Labelled model) :
    ∃ a n' s', RunsTo arr (scoreUnscored ext settings model now) 2 (seen arr db 2) .auto (.ok a) n'
        s' .auto ∧
      Later place db s' ∧ s'.fusionRun = db.fusionRun ∧ (line place (waitingReports s')).card ≤
        (line place (waitingReports db)).card - settings.fusionBatchSize.toNat := by
  have hselect : Later place db (seen arr db 3) := later_of_arrived (arrived_seen arr db 3)
  have hfront := isFront_reports settings.fusionBatchSize.toNat (seen arr db 3)
  have hshorter := Finset.card_le_card hselect.reports
  have hquiet : ¬ScoringRaises ext model (toScore settings (seen arr db 3)) :=
    not_scoringRaises ext hmodel _
  obtain ⟨ws, hws, hrun⟩ := runsTo_scoreUnscored ext settings model now hsize hquiet
  have hlate : 3 ≤ frameSlot settings arr db := by
    unfold frameSlot
    split <;> omega
  have harrived := arrived_seen_of_le arr db hlate
  have hcommit : Later place (seen arr db 3) (seen arr db (frameSlot settings arr db)) :=
    later_of_arrived harrived
  have hwrites : Later place (seen arr db (frameSlot settings arr db))
      (applyAll ws (seen arr db (frameSlot settings arr db))) :=
    later_applyAll (keepsAssets_scoreWrites ext hws) _
  refine ⟨_, _, _, hrun, hselect.trans (hcommit.trans hwrites), ?_, ?_⟩
  · rw [fusionRun_scoreWrites ext hws, fusionRun_of_arrived (arrived_seen arr db _)]
  · have hserved : ∀ k ∈ line place (waitingReports (applyAll ws
        (seen arr db (frameSlot settings arr db)))),
        k ∈ line place (waitingReports (seen arr db 3)) ∧
          k ∉ keysOf reportPlace (toScore settings (seen arr db 3)) := by
      intro k hk
      refine ⟨hcommit.reports (hwrites.reports hk), fun hin ↦ ?_⟩
      obtain ⟨o, ho, hs, rfl⟩ := mem_waitingReports.mp (mem_line.mp hk).1
      obtain ⟨r, hr, hplace⟩ := mem_keysOf.mp hin
      have hid : r.clientId = o.clientId := congrArg (fun k : Place ↦ (ofLex k).2) hplace
      apply (unscored_of_scoreWrites ext hws ho hs).2
      rw [← hid]
      exact List.mem_map_of_mem hr
    have hcard := hfront.card_line hserved
    omega

/-- A tick ends where its `try` block ends, after the unlock. -/
theorem store_of_try {t : Tick} (hlocked : t.locked = true) {r : Except Exn Unit}
    (h : RunsTo arr (fuseTick ext settings t) 1 (seen arr db 1) .auto r n s .auto) :
    ((runFusionJob ext settings t).run (arriving arr) (.fresh db)).conn.store =
      applyAll (arr n) s := by
  have hrun : RunsTo arr (runFusionJob ext settings t) 0 db .auto r (n + 1) (applyAll (arr n) s)
      .auto := by
    rw [runFusionJob, hlocked]
    exact runs_bind (runs_execute_auto trivial) (runs_tryFinally h (runs_execute_auto trivial))
  exact hrun.whole.1

/-- The `try` block without an active model: pairing only. -/
theorem runsTo_fuseTick_cold {t : Tick} {a n' : Nat} {s' : Database R}
    (hcold : Fusion.loadActiveModel (seen arr db 2) = none)
    (hpair : RunsTo arr (pairAndFuse ext settings none t.runId t.pairNow) 2 (seen arr db 2) .auto
      (.ok a) n' s' .auto) :
    RunsTo arr (fuseTick ext settings t) 1 (seen arr db 1) .auto (.ok ()) n' s' .auto := by
  rw [fuseTick]
  refine runs_bind (runs_fetch_auto rfl trivial) ?_
  change RunsTo arr (scoreIfModel ext settings (Fusion.loadActiveModel (seen arr db 2)) _ >>=
    fun _ ↦ pairAndFuse ext settings (Fusion.loadActiveModel (seen arr db 2)) _ _ >>= _)
    _ _ _ _ _ _ _
  rw [hcold]
  refine runs_bind (runs_ret _) ?_
  exact runs_bind hpair (runs_ret _)

/-- The `try` block with an active model: scoring, then pairing. -/
theorem runsTo_fuseTick_warm {t : Tick} {model : SensorModel R} {a b n' n'' : Nat}
    {s' s'' : Database R} (hwarm : Fusion.loadActiveModel (seen arr db 2) = some model)
    (hscore : RunsTo arr (scoreUnscored ext settings model t.scoreNow) 2 (seen arr db 2) .auto
      (.ok a) n' s' .auto)
    (hpair : RunsTo arr (pairAndFuse ext settings (some model) t.runId t.pairNow) n' s' .auto
      (.ok b) n'' s'' .auto) :
    RunsTo arr (fuseTick ext settings t) 1 (seen arr db 1) .auto (.ok ()) n'' s'' .auto := by
  rw [fuseTick]
  refine runs_bind (runs_fetch_auto rfl trivial) ?_
  change RunsTo arr (scoreIfModel ext settings (Fusion.loadActiveModel (seen arr db 2)) _ >>=
    fun _ ↦ pairAndFuse ext settings (Fusion.loadActiveModel (seen arr db 2)) _ _ >>= _)
    _ _ _ _ _ _ _
  rw [hwarm]
  refine runs_bind (runs_bind hscore (runs_ret _)) ?_
  exact runs_bind hpair (runs_ret _)

/-- A tick that gets the lock and meets no fault serves a batch of the frames and, with an active
model, a batch of the observations. -/
theorem tick_serves {t : Tick} (arr : Nat → List (LateArrival ext place))
    (hlocked : t.locked = true) (hsize : 0 ≤ settings.fusionBatchSize)
    (hfresh : ¬db.fusionRun.HasKey t.runId) (hlabelled : ∀ r ∈ db.sensorModel, Labelled r.model) :
    (line place (waitingFrames
        ((runFusionJob ext settings t).run (arriving arr) (.fresh db)).conn.store)).card ≤
          (line place (waitingFrames db)).card - settings.fusionBatchSize.toNat ∧
      (Fusion.loadActiveModel db ≠ none → (line place (waitingReports
        ((runFusionJob ext settings t).run (arriving arr) (.fresh db)).conn.store)).card ≤
          (line place (waitingReports db)).card - settings.fusionBatchSize.toNat) := by
  have hload : Later place db (seen arr db 2) := later_of_arrived (arrived_seen arr db 2)
  have hruns := fusionRun_of_arrived (arrived_seen arr db 2)
  cases hmodel : Fusion.loadActiveModel (seen arr db 2) with
  | none =>
    have hfresh₂ : ¬(seen arr db 2).fusionRun.HasKey t.runId := by
      rw [hruns]
      exact hfresh
    obtain ⟨a, n', s', hpair, hlater, hcard⟩ :=
      pairing_serves ext settings none t.runId t.pairNow hsize hfresh₂
    rw [store_of_try ext settings hlocked (runsTo_fuseTick_cold ext settings hmodel hpair)]
    have hend : Later place s' (applyAll (arr n') s') := later_of_arrived ⟨arr n', rfl⟩
    constructor
    · have hload' := Finset.card_le_card hload.frames
      have hend' := Finset.card_le_card hend.frames
      omega
    · intro hactive
      exact absurd hmodel (hload.active hactive)
  | some model =>
    obtain ⟨r, hr, hrow⟩ := exists_model_of_loaded hmodel
    have hmodelLabelled : Labelled model := by
      rw [← hrow]
      exact hload.labelled hlabelled r hr
    obtain ⟨a, n', s', hscore, hlater, hruns', hreports⟩ :=
      scoring_serves ext settings t.scoreNow hsize hmodelLabelled
    have hfresh' : ¬s'.fusionRun.HasKey t.runId := by
      rw [hruns']
      exact hfresh
    obtain ⟨b, n'', s'', hpair, hlater', hframes⟩ :=
      pairing_serves ext settings (some model) t.runId t.pairNow hsize hfresh'
    rw [store_of_try ext settings hlocked (runsTo_fuseTick_warm ext settings hmodel hscore hpair)]
    have hend : Later place s'' (applyAll (arr n'') s'') := later_of_arrived ⟨arr n'', rfl⟩
    constructor
    · have hbefore := Finset.card_le_card hlater.frames
      have hend' := Finset.card_le_card hend.frames
      omega
    · intro _
      have hafter := Finset.card_le_card (hend.reports.trans hlater'.reports)
      omega

end Tick

/-! ### Runs -/

/-- One step of a history behind a place: an arrival, a tick of the fusion job or a run of the
clustering job, with all that arrives and fails during it. -/
inductive Happening (ext : Externals R) (place : Place) where
  | arrival (u : LateArrival ext place)
  | fusion (t : Tick) (sch : Schedule (LateArrival ext place))
  | clustering (tick : ClusterTick) (sch : Schedule (LateArrival ext place))

variable {ext}

/-- The state after a step. -/
def Happening.next (db : Database R) : Happening ext place → Database R
  | .arrival u => Effect.apply u db
  | .fusion t sch => ((runFusionJob ext settings t).run sch (.fresh db)).conn.store
  | .clustering tick sch => ((runClusterJob ext settings tick).run sch (.fresh db)).conn.store

/-- A tick that gets the lock, draws a fresh run id and meets no fault. -/
def Happening.IsTurn (db : Database R) : Happening ext place → Prop
  | .fusion t sch => t.locked = true ∧ ¬db.fusionRun.HasKey t.runId ∧ ∀ n, (sch n).fault = none
  | .arrival _ | .clustering .. => False

/-- The states of histories with at least so many turns. -/
abbrev Reached (settings : Settings R) (ext : Externals R) (place : Place) (db : Database R)
    (turns : Nat) (db' : Database R) : Prop :=
  Turns (fun s (e : Happening ext place) ↦ e.next settings s) (fun s e ↦ e.IsTurn s) db turns db'

section Runs

variable {settings} {db db' : Database R} {turns : Nat}

theorem later_next (e : Happening ext place) (db : Database R) :
    Later place db (e.next settings db) := by
  cases e with
  | arrival u => exact later_arrival u db
  | fusion t sch => exact later_run (emits_runFusionJob ext settings t) sch db
  | clustering tick sch => exact later_run (emits_runClusterJob ext settings tick) sch db

theorem Reached.later (h : Reached settings ext place db turns db') : Later place db db' :=
  h.related (J := Later place) (.refl db) (fun _ e hs ↦ hs.trans (later_next e _))

/-- A turn serves both queues. -/
theorem turn_serves {e : Happening ext place} (he : e.IsTurn db)
    (hsize : 0 ≤ settings.fusionBatchSize) (hlabelled : ∀ r ∈ db.sensorModel, Labelled r.model) :
    (line place (waitingFrames (e.next settings db))).card ≤
        (line place (waitingFrames db)).card - settings.fusionBatchSize.toNat ∧
      (Fusion.loadActiveModel db ≠ none → (line place (waitingReports (e.next settings db))).card ≤
        (line place (waitingReports db)).card - settings.fusionBatchSize.toNat) := by
  cases e with
  | arrival u => exact he.elim
  | clustering tick sch => exact he.elim
  | fusion t sch =>
    obtain ⟨hlocked, hfresh, hfaults⟩ := he
    have hsch : sch = arriving (fun n ↦ (sch n).arrivals) := by
      funext n
      rw [arriving, ← hfaults n]
    rw [Happening.next, hsch]
    exact tick_serves ext settings _ hlocked hsize hfresh hlabelled

end Runs

/-- After as many turns as the frames up to a place take, all of them are processed, whatever else
happens before, between and during the turns, as long as what arrives comes after that place. -/
theorem frames_processed (ext : Externals R) (settings : Settings R)
    (hsize : 0 ≤ settings.fusionBatchSize) (place : Place) (db db' : Database R)
    (hlabelled : ∀ r ∈ db.sensorModel, Labelled r.model) (turns : Nat)
    (h : Reached settings ext place db turns db')
    (hturns : (line place (waitingFrames db)).card ≤ turns * settings.fusionBatchSize.toNat) :
    ∀ f ∈ db.assetFrame, framePlace f ≤ place →
      ∃ f' ∈ db'.assetFrame, f'.clientId = f.clientId ∧ f'.processedAt ≠ none := by
  intro f hf hplace
  obtain ⟨f', hf', hsame⟩ := h.later.frameKept f hf
  refine ⟨f', hf', congrArg (fun k : Place ↦ (ofLex k).2) hsame, fun hp ↦ ?_⟩
  have hserved : framePlace f ∉ waitingFrames db' := by
    refine h.served (J := Later place) (.refl db) (fun s e hs ↦ hs.trans (later_next e s)) ?_ ?_
      hturns hplace
    · exact fun s e _ ↦ (later_next e s).frames
    · exact fun s e hs he ↦ (turn_serves he hsize (hs.labelled hlabelled)).1
  exact hserved (mem_waitingFrames.mpr ⟨f', hf', hp, hsame⟩)

/-- With an active model the same holds of the observations and their scores. -/
theorem reports_scored (ext : Externals R) (settings : Settings R)
    (hsize : 0 ≤ settings.fusionBatchSize) (place : Place) (db db' : Database R)
    (hlabelled : ∀ r ∈ db.sensorModel, Labelled r.model)
    (hactive : Fusion.loadActiveModel db ≠ none) (turns : Nat)
    (h : Reached settings ext place db turns db')
    (hturns : (line place (waitingReports db)).card ≤ turns * settings.fusionBatchSize.toNat) :
    ∀ o ∈ db.assetObservation, reportPlace o ≤ place →
      ∃ o' ∈ db'.assetObservation, o'.clientId = o.clientId ∧ o'.scoredAt ≠ none := by
  intro o ho hplace
  obtain ⟨o', ho', hsame⟩ := h.later.reportKept o ho
  refine ⟨o', ho', congrArg (fun k : Place ↦ (ofLex k).2) hsame, fun hs ↦ ?_⟩
  have hserved : reportPlace o ∉ waitingReports db' := by
    refine h.served (J := Later place) (.refl db) (fun s e hs ↦ hs.trans (later_next e s)) ?_ ?_
      hturns hplace
    · exact fun s e _ ↦ (later_next e s).reports
    · exact fun s e hs he ↦ (turn_serves he hsize (hs.labelled hlabelled)).2 (hs.active hactive)
  exact hserved (mem_waitingReports.mpr ⟨o', ho', hs, hsame⟩)

/-! ### Batches of one -/

/-- The default settings, but one row at a time. -/
def oneByOne : Settings ℚ := { Settings.default ℚ with fusionBatchSize := 1 }

/-- Two reports and two frames wait, and a model is active. -/
def backlog : Database ℚ := Fusion.saveModel certainModel
  (applyAll [reportAt "first" 0 1, reportAt "second" 0 2, frameAt "near" 0 1, frameAt "far" 1 2]
    Database.empty)

/-- The place of the last of them. -/
def lastPlace : Place := toLex (2, "second")

/-- A report that comes later. -/
def lateReport : LateArrival .planar lastPlace :=
  ⟨.upload (reportAt "third" 0 3), by
    change lastPlace < toLex (3, "third")
    decide +kernel⟩

/-- A tick, a late report and another tick. -/
def twoTurns : List (Happening .planar lastPlace) :=
  [.fusion ⟨true, "one", 10, 11⟩ quiet, .arrival lateReport, .fusion ⟨true, "two", 20, 21⟩ quiet]

/-- The database after them. -/
def afterTurns : Database ℚ := twoTurns.foldl (fun s e ↦ e.next oneByOne s) backlog

theorem labelled_backlog : ∀ r ∈ backlog.sensorModel, Labelled r.model := by
  intro r hr
  rcases mem_of_mem_saveModel hr with hmodel | ⟨r', hr', _⟩
  · rw [hmodel]
    intro i hi
    have hcases : i = 0 ∨ i = 1 := by
      change i < 2 at hi
      omega
    rcases hcases with rfl | rfl <;> rfl
  · exact absurd hr' (Table.not_mem_empty r')

theorem reached_twoTurns : Reached oneByOne .planar lastPlace backlog 2 afterTurns := by
  refine .turn (Happening.fusion ⟨true, "two", 20, 21⟩ quiet) (.step (Happening.arrival lateReport)
    (.turn (Happening.fusion ⟨true, "one", 10, 11⟩ quiet) .start ?_)) ?_
  · exact ⟨rfl, by decide +kernel, fun _ ↦ rfl⟩
  · exact ⟨rfl, by decide +kernel, fun _ ↦ rfl⟩

theorem processed_twoTurns :
    ∃ f ∈ afterTurns.assetFrame, f.clientId = "far" ∧ f.processedAt ≠ none := by
  have hfar : ∃ f ∈ backlog.assetFrame.rows, f.clientId = "far" ∧ framePlace f ≤ lastPlace := by
    decide +kernel
  obtain ⟨f, hf, hid, hplace⟩ := hfar
  obtain ⟨f', hf', hid', hp⟩ := frames_processed .planar oneByOne (by decide) lastPlace backlog
    afterTurns labelled_backlog 2 reached_twoTurns (by decide +kernel) f hf hplace
  exact ⟨f', hf', hid'.trans hid, hp⟩

theorem scored_twoTurns :
    ∃ o ∈ afterTurns.assetObservation, o.clientId = "second" ∧ o.scoredAt ≠ none := by
  have hsecond : ∃ o ∈ backlog.assetObservation.rows,
      o.clientId = "second" ∧ reportPlace o ≤ lastPlace := by
    decide +kernel
  obtain ⟨o, ho, hid, hplace⟩ := hsecond
  obtain ⟨o', ho', hid', hs⟩ := reports_scored .planar oneByOne (by decide) lastPlace backlog
    afterTurns labelled_backlog (by decide +kernel) 2 reached_twoTurns (by decide +kernel) o ho
    hplace
  exact ⟨o', ho', hid'.trans hid, hs⟩

end PotholeServer.Pipeline
