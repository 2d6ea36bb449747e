import PotholeServer.Fusion.History

/-!
# Every frame is fused once, and the audit agrees

The invariant of the four tables that the fusion job writes, over every sequence of uploads and
ticks, at every state that is ever committed, whichever statement of a tick fails. A history
variable records, for each tick so far, the frames it moved from unprocessed to processed.
-/

namespace PotholeServer.Fusion

open Sql Db Sensor Ingest

variable {R : Type}

/-- One tick of the past: its run id, and the frames it moved to processed. -/
structure TickLog where
  runId : String
  moved : List String

/-- The frame has been processed. -/
def isProcessed (f : AssetFrame R) : Bool := f.processedAt.isSome

/-- The frames that are processed in `s'` and were not in `s`. -/
def newlyProcessed (s s' : Database R) : List String :=
  (s'.assetFrame.rows.filter (fun f ↦ isProcessed f &&
    !s.assetFrame.rows.any (fun g ↦ g.clientId = f.clientId ∧ isProcessed g))).map
      (fun f ↦ f.clientId)

/-- The number of pairs that carry the id of a run. -/
def pairsOf (runId : String) (db : Database R) : Nat :=
  (db.fusionPair.rows.filter (fun p ↦ p.fusionRunId = runId)).length

/-- The number of processed frames. -/
def processedCount (db : Database R) : Nat := (db.assetFrame.rows.filter isProcessed).length

variable [LinearOrder R]

/-- What the pairs, the frames and the runs say about each other. -/
structure Audited (ext : Externals R) (settings : Settings R) (db : Database R)
    (log : List TickLog) : Prop where
  pairProcessed : ∀ p ∈ db.fusionPair, ∃ f ∈ db.assetFrame, f.clientId = p.frameClientId ∧
    f.processedAt ≠ none
  pairUnique : ∀ p ∈ db.fusionPair, ∀ q ∈ db.fusionPair, p.frameClientId = q.frameClientId → p = q
  pairJoins : ∀ p ∈ db.fusionPair, ∃ f ∈ db.assetFrame, ∃ o ∈ db.assetObservation,
    f.clientId = p.frameClientId ∧ o.clientId = p.eventClientId ∧ o.deviceId = f.deviceId ∧
      |f.tsUtc - o.tsUtc| * 1000 < settings.fusionWindowMs * 1000000 ∧
      ext.stDistance f.geom o.geom ≤ settings.fusionWindowM
  runCompleted : ∀ r ∈ db.fusionRun, r.completedAt ≠ none
  runInputs : ∀ r ∈ db.fusionRun, ∃ e ∈ log, e.runId = r.runId ∧ r.inputsCount = e.moved.length
  runOutputs : ∀ r ∈ db.fusionRun, r.outputsCount = some (pairsOf r.runId db)
  inputsSum : (db.fusionRun.rows.map (fun r ↦ r.inputsCount)).sum = processedCount db

/-- The audit, and that every pair carries the id of a run. -/
structure AuditInv (ext : Externals R) (settings : Settings R) (db : Database R)
    (log : List TickLog) : Prop extends Audited ext settings db log where
  pairRun : ∀ p ∈ db.fusionPair, db.fusionRun.HasKey p.fusionRunId

/-! ### Uploads and scores -/

section Since

variable {s s' : Database R}

omit [LinearOrder R] in
theorem isProcessed_iff {f : AssetFrame R} : isProcessed f = true ↔ f.processedAt ≠ none := by
  rw [isProcessed, Option.isSome_iff_ne_none]

omit [LinearOrder R] in
/-- Uploads and scores leave the processed frames as they are. -/
theorem Since.mem_processed (h : Since s s') {f : AssetFrame R} :
    f ∈ s'.assetFrame ∧ f.processedAt ≠ none ↔ f ∈ s.assetFrame ∧ f.processedAt ≠ none := by
  constructor
  · rintro ⟨hf, hp⟩
    exact ⟨(h.frameNew f hf).resolve_right hp, hp⟩
  · rintro ⟨hf, hp⟩
    exact ⟨h.frameKept f hf, hp⟩

omit [LinearOrder R] in
theorem Since.processedCount_eq (h : Since s s') : processedCount s' = processedCount s := by
  unfold processedCount
  apply List.Perm.length_eq
  rw [List.perm_ext_iff_of_nodup (s'.assetFrame.rows_nodup.filter _)
    (s.assetFrame.rows_nodup.filter _)]
  intro f
  rw [List.mem_filter, List.mem_filter, isProcessed_iff]
  exact h.mem_processed

variable {ext : Externals R} {settings : Settings R} {log : List TickLog}

/-- A tick that commits no batch adds a log entry without frames. -/
theorem AuditInv.since (h : AuditInv ext settings s log) (hs : Since s s') {log' : List TickLog}
    (hlog : ∀ e ∈ log, e ∈ log') : AuditInv ext settings s' log' where
  pairProcessed := by
    intro p hp
    rw [hs.fusionPair] at hp
    obtain ⟨f, hf, hid, hproc⟩ := h.pairProcessed p hp
    exact ⟨f, hs.frameKept f hf, hid, hproc⟩
  pairUnique := by
    rw [hs.fusionPair]
    exact h.pairUnique
  pairJoins := by
    intro p hp
    rw [hs.fusionPair] at hp
    obtain ⟨f, hf, o, ho, hfid, hoid, hdev, hms, hm⟩ := h.pairJoins p hp
    obtain ⟨o', ho', hsame⟩ := hs.observationKept o ho
    refine ⟨f, hs.frameKept f hf, o', ho', hfid, hsame.clientId.trans hoid,
      hsame.deviceId.trans hdev, ?_, ?_⟩
    · rw [hsame.tsUtc]
      exact hms
    · rw [hsame.geom]
      exact hm
  runCompleted := by
    rw [hs.fusionRun]
    exact h.runCompleted
  runInputs := by
    intro r hr
    rw [hs.fusionRun] at hr
    obtain ⟨e, he, hid, hin⟩ := h.runInputs r hr
    exact ⟨e, hlog e he, hid, hin⟩
  runOutputs := by
    intro r hr
    rw [hs.fusionRun] at hr
    rw [h.runOutputs r hr, pairsOf, pairsOf, hs.fusionPair]
  inputsSum := by
    rw [hs.fusionRun, hs.processedCount_eq]
    exact h.inputsSum
  pairRun := by
    rw [hs.fusionPair, hs.fusionRun]
    exact h.pairRun

end Since

/-! ### The frames of a batch -/

section Moved

variable {s s' : Database R} {ids : List String} {now : DateTime}

/-- The ids are those of unprocessed frames, each once. -/
structure Waiting (ids : List String) (s : Database R) : Prop where
  nodup : ids.Nodup
  unprocessed : ∀ id ∈ ids, ∃ f ∈ s.assetFrame, f.clientId = id ∧ f.processedAt = none

omit [LinearOrder R] in
theorem Waiting.not_processed (h : Waiting ids s) {f : AssetFrame R} (hf : f ∈ s.assetFrame)
    (hp : f.processedAt ≠ none) : f.clientId ∉ ids := by
  intro hid
  obtain ⟨g, hg, hgid, hgp⟩ := h.unprocessed _ hid
  have heq : g = f := Table.eq_of_key hg hf hgid
  rw [heq] at hgp
  exact hp hgp

omit [LinearOrder R] in
theorem Waiting.mono (h : Waiting ids s) (hkept : ∀ f ∈ s.assetFrame, f ∈ s'.assetFrame) :
    Waiting ids s' where
  nodup := h.nodup
  unprocessed := by
    intro id hid
    obtain ⟨f, hf, hrest⟩ := h.unprocessed id hid
    exact ⟨f, hkept f hf, hrest⟩

omit [LinearOrder R] in
theorem mem_newlyProcessed {id : String} : id ∈ newlyProcessed s s' ↔
    (∃ f ∈ s'.assetFrame, f.clientId = id ∧ f.processedAt ≠ none) ∧
      ¬∃ g ∈ s.assetFrame, g.clientId = id ∧ g.processedAt ≠ none := by
  unfold newlyProcessed
  simp only [List.mem_map, List.mem_filter, Bool.and_eq_true, Bool.not_eq_true', List.any_eq_false,
    isProcessed_iff, decide_eq_true_eq]
  constructor
  · rintro ⟨f, ⟨hf, hp, hnew⟩, rfl⟩
    refine ⟨⟨f, hf, rfl, hp⟩, ?_⟩
    rintro ⟨g, hg, hgid, hgp⟩
    exact hnew g hg ⟨hgid, hgp⟩
  · rintro ⟨⟨f, hf, rfl, hp⟩, hnew⟩
    exact ⟨f, ⟨hf, hp, fun g hg h ↦ hnew ⟨g, hg, h⟩⟩, rfl⟩

omit [LinearOrder R] in
theorem nodup_newlyProcessed : (newlyProcessed s s').Nodup :=
  (List.filter_sublist.map key).nodup s'.assetFrame.keysNodup

omit [LinearOrder R] in
/-- The frames processed after a batch: those processed before it, and its own. -/
theorem exists_processed_markAll (hw : Waiting ids s) {id : String} :
    (∃ f ∈ markAll ids now s.assetFrame, f.clientId = id ∧ f.processedAt ≠ none) ↔
      (∃ f ∈ s.assetFrame, f.clientId = id ∧ f.processedAt ≠ none) ∨ id ∈ ids := by
  constructor
  · rintro ⟨f, hf, rfl, hp⟩
    rcases mem_markAll.mp hf with ⟨hf, _⟩ | ⟨g, _, ⟨hid, _⟩, rfl⟩
    · exact .inl ⟨f, hf, rfl, hp⟩
    · exact .inr hid
  · rintro (⟨f, hf, rfl, hp⟩ | hid)
    · exact ⟨f, mem_markAll_of_processed hf hp, rfl, hp⟩
    · obtain ⟨f, hf, rfl, hp⟩ := hw.unprocessed id hid
      exact ⟨{ f with processedAt := some now }, mem_markAll.mpr (.inr ⟨f, hf, ⟨hid, hp⟩, rfl⟩),
        rfl, by simp⟩

omit [LinearOrder R] in
/-- A batch adds its frames to the processed ones. -/
theorem countP_markAll (now : DateTime) (hw : Waiting ids s) :
    (markAll ids now s.assetFrame).rows.countP isProcessed =
      s.assetFrame.rows.countP isProcessed + ids.length := by
  have hids : s.assetFrame.rows.countP (fun f ↦ f.clientId ∈ ids) = ids.length := by
    rw [List.countP_eq_length_filter, ← List.length_map (f := fun f : AssetFrame R ↦ f.clientId)]
    apply List.Perm.length_eq
    rw [List.perm_ext_iff_of_nodup _ hw.nodup]
    · intro id
      simp only [List.mem_map, List.mem_filter, decide_eq_true_eq]
      constructor
      · rintro ⟨f, ⟨_, hid⟩, rfl⟩
        exact hid
      · intro hid
        obtain ⟨f, hf, rfl, _⟩ := hw.unprocessed id hid
        exact ⟨f, ⟨hf, hid⟩, rfl⟩
    · exact (List.filter_sublist.map key).nodup s.assetFrame.keysNodup
  rw [← hids, markAll, Table.rows_update, List.countP_map]
  -- no frame of the batch is processed before it
  have hsplit : ∀ rows : List (AssetFrame R), (∀ f ∈ rows, f ∈ s.assetFrame) →
      rows.countP (isProcessed ∘ fun f ↦ if decide (f.clientId ∈ ids ∧ f.processedAt = none) then
        { f with processedAt := some now } else f) =
      rows.countP isProcessed + rows.countP (fun f ↦ f.clientId ∈ ids) := by
    intro rows hrows
    induction rows with
    | nil => rfl
    | cons f rest ih =>
      have hrest := ih (fun g hg ↦ hrows g (List.mem_cons_of_mem _ hg))
      have hf := hrows f (List.mem_cons_self ..)
      rw [List.countP_cons, List.countP_cons, List.countP_cons, hrest]
      by_cases hp : f.processedAt = none
      · by_cases hid : f.clientId ∈ ids
        · simp [isProcessed, hp, hid]
          omega
        · simp [isProcessed, hp, hid]
      · have hid := hw.not_processed hf hp
        simp [hid]
        omega
  exact hsplit _ (fun _ h ↦ h)

end Moved

/-! ### A batch -/

section BatchStep

variable {ext : Externals R} {settings : Settings R} {s sPair : Database R} {ids : List String}
  {log : List TickLog}

/-- What a row of the pairing query says about the state at the commit. -/
theorem joins_of_mem_pairing (hup : Uploaded sPair s) {r : Candidate R}
    (hr : r ∈ pairing ext settings ids sPair) : r.frameClientId ∈ ids ∧
      ∃ f ∈ s.assetFrame, ∃ o ∈ s.assetObservation, f.clientId = r.frameClientId ∧
        o.clientId = r.eventClientId ∧ o.deviceId = f.deviceId ∧
          |f.tsUtc - o.tsUtc| * 1000 < settings.fusionWindowMs * 1000000 ∧
          ext.stDistance f.geom o.geom ≤ settings.fusionWindowM := by
  obtain ⟨f, hf, hid, o, hnear, rfl⟩ := mem_pairing.mp hr
  have hj := hnear.joins
  rw [joins, decide_eq_true_eq] at hj
  exact ⟨hid, f, hup.frameKept f hf, o, hup.observationKept o hnear.mem, rfl, rfl, hj.1, hj.2.2,
    hj.2.1⟩

/-- The frames of the candidates have no pair yet. -/
theorem AuditInv.frame_fresh (h : AuditInv ext settings s log) (hw : Waiting ids s)
    (hup : Uploaded sPair s) : ∀ p ∈ s.fusionPair,
      p.frameClientId ∉ (pairing ext settings ids sPair).map (fun r ↦ r.frameClientId) := by
  intro p hp hmem
  obtain ⟨r, hr, hid⟩ := List.mem_map.mp hmem
  obtain ⟨f, hf, hfid, hproc⟩ := h.pairProcessed p hp
  apply hw.not_processed hf hproc
  rw [hfid, ← hid]
  exact (joins_of_mem_pairing hup hr).1

omit [LinearOrder R] in
theorem mem_markAll_report (ids : List String) (now : DateTime) {f : AssetFrame R}
    (hf : f ∈ s.assetFrame) :
    ∃ g ∈ markAll ids now s.assetFrame, g.clientId = f.clientId ∧ g.deviceId = f.deviceId ∧
      g.tsUtc = f.tsUtc ∧ g.geom = f.geom := by
  by_cases h : f.clientId ∈ ids ∧ f.processedAt = none
  · exact ⟨_, mem_markAll.mpr (.inr ⟨f, hf, h, rfl⟩), rfl, rfl, rfl, rfl⟩
  · exact ⟨f, mem_markAll.mpr (.inl ⟨hf, h⟩), rfl, rfl, rfl, rfl⟩

/-- The tables after a batch of frames that had no pairs. -/
structure BatchApplied (engine : FusionEngine R) (model : Option (SensorModel R)) (runId : String)
    (now : DateTime) (ids : List String) (candidates : List (Candidate R)) (s s' : Database R) :
    Prop where
  assetObservation : s'.assetObservation = s.assetObservation
  assetFrame : s'.assetFrame = markAll ids now s.assetFrame
  fusionPair : s'.fusionPair.rows = s.fusionPair.rows ++ candidates.map (newPair engine runId now)
  fusionRun : s'.fusionRun.rows = s.fusionRun.rows ++
    [completedRun engine runId now model ids.length candidates.length]

variable {model : Option (SensorModel R)} {runId : String} {now : DateTime}

theorem batchApplied [Field R] (model : Option (SensorModel R)) (now : DateTime)
    (h : AuditInv ext settings s log) (hw : Waiting ids s)
    (hup : Uploaded sPair s) (hfresh : ¬s.fusionRun.HasKey runId) :
    BatchApplied (getEngine ext settings model) model runId now ids
      (pairing ext settings ids sPair) s (applyAll (tickWrites ext settings model runId now ids
        (pairing ext settings ids sPair)) s) := by
  have hruns := fusionRun_tickWrites ext settings model now ids (pairing ext settings ids sPair)
    hfresh
  obtain ⟨runs, heq⟩ := applyAll_tickWrites ext settings model now ids
    (pairing ext settings ids sPair) runId s
  rw [heq] at hruns ⊢
  exact ⟨rfl, rfl, rows_upsertAll pairing_frames_nodup (h.frame_fresh hw hup), hruns⟩

section Applied

variable {engine : FusionEngine R} {candidates : List (Candidate R)} {s' : Database R}

omit [LinearOrder R] in
theorem BatchApplied.mem_fusionPair (h : BatchApplied engine model runId now ids candidates s s')
    {p : FusionPair R} :
    p ∈ s'.fusionPair ↔ p ∈ s.fusionPair ∨ ∃ r ∈ candidates, newPair engine runId now r = p := by
  rw [Table.mem_def, h.fusionPair, List.mem_append, List.mem_map]
  rfl

omit [LinearOrder R] in
theorem BatchApplied.mem_fusionRun (h : BatchApplied engine model runId now ids candidates s s')
    {r : FusionRun R} : r ∈ s'.fusionRun ↔ r ∈ s.fusionRun ∨
      r = completedRun engine runId now model ids.length candidates.length := by
  rw [Table.mem_def, h.fusionRun, List.mem_append, List.mem_singleton]
  rfl

omit [LinearOrder R] in
/-- Older runs keep their pairs. -/
theorem BatchApplied.pairsOf_old (h : BatchApplied engine model runId now ids candidates s s')
    {runId' : String} (hne : runId' ≠ runId) : pairsOf runId' s' = pairsOf runId' s := by
  have hnone : (candidates.map (newPair engine runId now)).filter
      (fun p ↦ p.fusionRunId = runId') = [] := by
    rw [List.filter_eq_nil_iff]
    intro p hp hid
    obtain ⟨c, _, rfl⟩ := List.mem_map.mp hp
    exact hne (of_decide_eq_true hid).symm
  rw [pairsOf, pairsOf, h.fusionPair, List.filter_append, hnone, List.append_nil]

/-- The new run has all the new pairs. -/
theorem BatchApplied.pairsOf_new (h : BatchApplied engine model runId now ids candidates s s')
    (hinv : AuditInv ext settings s log) (hfresh : ¬s.fusionRun.HasKey runId) :
    pairsOf runId s' = candidates.length := by
  have hnone : s.fusionPair.rows.filter (fun p ↦ p.fusionRunId = runId) = [] := by
    rw [List.filter_eq_nil_iff]
    intro p hp hid
    apply hfresh
    rw [← of_decide_eq_true hid]
    exact hinv.pairRun p hp
  have hall : (candidates.map (newPair engine runId now)).filter (fun p ↦ p.fusionRunId = runId) =
      candidates.map (newPair engine runId now) := by
    rw [List.filter_eq_self]
    intro p hp
    obtain ⟨c, _, rfl⟩ := List.mem_map.mp hp
    exact decide_eq_true rfl
  rw [pairsOf, h.fusionPair, List.filter_append, hnone, hall, List.nil_append, List.length_map]

/-- The pair of a frame is unique after the batch too: the batch's frames had none. -/
theorem BatchApplied.pairUnique
    (h : BatchApplied engine model runId now ids (pairing ext settings ids sPair) s s')
    (hinv : AuditInv ext settings s log) (hw : Waiting ids s) (hup : Uploaded sPair s) :
    ∀ p ∈ s'.fusionPair, ∀ q ∈ s'.fusionPair, p.frameClientId = q.frameClientId → p = q := by
  intro p hp q hq hframe
  rcases h.mem_fusionPair.mp hp with hp | ⟨r, hr, rfl⟩
  · rcases h.mem_fusionPair.mp hq with hq | ⟨r', hr', rfl⟩
    · exact hinv.pairUnique p hp q hq hframe
    · exact absurd (hframe ▸ List.mem_map_of_mem hr') (hinv.frame_fresh hw hup p hp)
  · rcases h.mem_fusionPair.mp hq with hq | ⟨r', hr', rfl⟩
    · exact absurd (hframe ▸ List.mem_map_of_mem hr) (hinv.frame_fresh hw hup q hq)
    · rw [List.inj_on_of_nodup_map pairing_frames_nodup hr hr' hframe]

/-- Every pair of the new state joins a frame and an observation of one device in the window. -/
theorem BatchApplied.pairJoins
    (h : BatchApplied engine model runId now ids (pairing ext settings ids sPair) s s')
    (hinv : AuditInv ext settings s log) (hup : Uploaded sPair s) :
    ∀ p ∈ s'.fusionPair, ∃ f ∈ s'.assetFrame, ∃ o ∈ s'.assetObservation,
      f.clientId = p.frameClientId ∧ o.clientId = p.eventClientId ∧ o.deviceId = f.deviceId ∧
        |f.tsUtc - o.tsUtc| * 1000 < settings.fusionWindowMs * 1000000 ∧
        ext.stDistance f.geom o.geom ≤ settings.fusionWindowM := by
  intro p hp
  have hjoin : ∃ f ∈ s.assetFrame, ∃ o ∈ s.assetObservation, f.clientId = p.frameClientId ∧
      o.clientId = p.eventClientId ∧ o.deviceId = f.deviceId ∧
        |f.tsUtc - o.tsUtc| * 1000 < settings.fusionWindowMs * 1000000 ∧
        ext.stDistance f.geom o.geom ≤ settings.fusionWindowM := by
    rcases h.mem_fusionPair.mp hp with hp | ⟨r, hr, rfl⟩
    · exact hinv.pairJoins p hp
    · exact (joins_of_mem_pairing hup hr).2
  obtain ⟨f, hf, o, ho, hfid, hoid, hdev, hms, hm⟩ := hjoin
  obtain ⟨g, hg, hgid, hgdev, hgts, hggeom⟩ := mem_markAll_report ids now hf
  rw [h.assetFrame, h.assetObservation]
  refine ⟨g, hg, o, ho, hgid.trans hfid, hoid, hdev.trans hgdev.symm, ?_, ?_⟩
  · rw [hgts]
    exact hms
  · rw [hggeom]
    exact hm

/-- A committed batch keeps the audit and adds its own entry. -/
theorem BatchApplied.auditInv
    (h : BatchApplied engine model runId now ids (pairing ext settings ids sPair) s s')
    (hinv : AuditInv ext settings s log) (hw : Waiting ids s) (hup : Uploaded sPair s)
    (hfresh : ¬s.fusionRun.HasKey runId) {moved : List String}
    (hmoved : moved.length = ids.length) :
    AuditInv ext settings s' (⟨runId, moved⟩ :: log) where
  pairProcessed := by
    intro p hp
    rw [h.assetFrame]
    apply (exists_processed_markAll hw).mpr
    rcases h.mem_fusionPair.mp hp with hp | ⟨r, hr, rfl⟩
    · exact .inl (hinv.pairProcessed p hp)
    · exact .inr (joins_of_mem_pairing hup hr).1
  pairUnique := h.pairUnique hinv hw hup
  pairJoins := h.pairJoins hinv hup
  runCompleted := by
    intro r hr
    rcases h.mem_fusionRun.mp hr with hr | rfl
    · exact hinv.runCompleted r hr
    · simp [completedRun]
  runInputs := by
    intro r hr
    rcases h.mem_fusionRun.mp hr with hr | rfl
    · obtain ⟨e, he, hrest⟩ := hinv.runInputs r hr
      exact ⟨e, List.mem_cons_of_mem _ he, hrest⟩
    · exact ⟨_, List.mem_cons_self .., rfl, hmoved.symm⟩
  runOutputs := by
    intro r hr
    rcases h.mem_fusionRun.mp hr with hr | rfl
    · have hne : r.runId ≠ runId := by
        intro hid
        apply hfresh
        rw [← hid]
        exact Table.hasKey_of_mem hr
      rw [h.pairsOf_old hne]
      exact hinv.runOutputs r hr
    · have hnew := h.pairsOf_new hinv hfresh
      exact congrArg some hnew.symm
  inputsSum := by
    have hsum := hinv.inputsSum
    have hcount := countP_markAll now hw
    rw [processedCount, ← List.countP_eq_length_filter] at hsum ⊢
    rw [h.fusionRun, h.assetFrame, List.map_append, List.sum_append, hsum, hcount]
    simp [completedRun, newRun]
  pairRun := by
    intro p hp
    rw [Table.hasKey_iff]
    rcases h.mem_fusionPair.mp hp with hp | ⟨r, _, rfl⟩
    · obtain ⟨r, hr, hid⟩ := Table.hasKey_iff.mp (hinv.pairRun p hp)
      exact ⟨r, h.mem_fusionRun.mpr (.inl hr), hid⟩
    · exact ⟨_, h.mem_fusionRun.mpr (.inr rfl), rfl⟩

end Applied

end BatchStep

end PotholeServer.Fusion
