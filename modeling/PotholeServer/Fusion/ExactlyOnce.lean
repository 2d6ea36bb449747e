import PotholeServer.Fusion.Audit
import PotholeServer.Planar

/-!
# Every frame is fused exactly once

Runs of uploads and ticks, with a tick of any outcome: it may fail at every statement, and
uploads may commit between any two of its statements. In every state that is ever committed the
audit holds, no processed frame becomes unprocessed again, and a tick that does not fail on a
non-empty queue processes the oldest frames of the queue.
-/

namespace PotholeServer.Fusion

open Sql Db Sensor Ingest

variable {R : Type}

/-- Frames processed in the one state are in the other, unchanged. -/
def KeepsProcessed (s s' : Database R) : Prop :=
  ∀ f ∈ s.assetFrame, f.processedAt ≠ none → f ∈ s'.assetFrame

theorem KeepsProcessed.refl (s : Database R) : KeepsProcessed s s := fun _ h _ ↦ h

theorem KeepsProcessed.trans {s s' s'' : Database R} (h : KeepsProcessed s s')
    (h' : KeepsProcessed s' s'') : KeepsProcessed s s'' := fun f hf hp ↦ h' f (h f hf hp) hp

/-- No statement of the source changes a processed frame. -/
theorem keepsProcessed_write (w : Write R) (s : Database R) : KeepsProcessed s (s.write w) := by
  intro f hf hp
  cases w with
  | insertFrame row => exact Table.mem_insertNew_of_mem row hf
  | markProcessed ids now => exact mem_markAll_of_processed hf hp
  | _ => exact hf

section Batch

variable [LinearOrder R]

/-- The frames are the oldest `n` unprocessed ones of `s`, or all of them if there are less. -/
structure OldestBatch (n : Int) (s : Database R) (moved : List String) : Prop extends
    Waiting moved s where
  size : moved.length =
    min n.toNat (s.assetFrame.rows.filter (fun f ↦ f.processedAt = none)).length
  oldest : ∀ f ∈ s.assetFrame, ∀ g ∈ s.assetFrame, f.clientId ∈ moved → g.clientId ∉ moved →
    g.processedAt = none → toLex (f.receivedAt, f.clientId) ≤ toLex (g.receivedAt, g.clientId)

omit [LinearOrder R] in
theorem OldestBatch.perm {n : Int} {s : Database R} {ids moved : List String}
    (h : OldestBatch n s ids) (hperm : moved.Perm ids) : OldestBatch n s moved where
  nodup := hperm.nodup_iff.mpr h.nodup
  unprocessed := fun id hid ↦ h.unprocessed id (hperm.mem_iff.mp hid)
  size := by rw [hperm.length_eq, h.size]
  oldest := by
    intro f hf g hg hfid hgid hp
    exact h.oldest f hf g hg (hperm.mem_iff.mp hfid) (fun hid ↦ hgid (hperm.mem_iff.mpr hid)) hp

omit [LinearOrder R] in
/-- `_SELECT_FRAME_BATCH_SQL` returns the oldest batch of its snapshot. -/
theorem oldestBatch_of_selectFrameBatch {n : Int} {s : Database R} {ids : List String}
    (h : selectFrameBatch n s = .ok ids) : OldestBatch n s ids := by
  have hids : ids = ((frameQueue s).take n.toNat).map (fun f ↦ f.clientId) := by
    unfold selectFrameBatch limitTo at h
    split at h
    · cases h
    · cases h
      rfl
  have hwaiting : ∀ f, f ∈ frameQueue s ↔ f ∈ s.assetFrame ∧ f.processedAt = none := by
    intro f
    rw [frameQueue, mem_orderBy, List.mem_filter, Option.isNone_iff_eq_none]
    rfl
  have hkeys : ((frameQueue s).map (fun f ↦ f.clientId)).Nodup := by
    have hperm := (orderBy_perm (fun f : AssetFrame R ↦ toLex (f.receivedAt, f.clientId))
      (s.assetFrame.rows.filter (fun f ↦ f.processedAt.isNone))).map (fun f ↦ f.clientId)
    exact hperm.nodup_iff.mpr ((List.filter_sublist.map key).nodup s.assetFrame.keysNodup)
  have hmem : ∀ f ∈ s.assetFrame, f.clientId ∈ ids → f ∈ (frameQueue s).take n.toNat := by
    intro f hf hid
    rw [hids] at hid
    obtain ⟨g, hg, hgid⟩ := List.mem_map.mp hid
    have heq : g = f := Table.eq_of_key ((hwaiting g).mp (List.mem_of_mem_take hg)).1 hf hgid
    exact heq ▸ hg
  constructor
  · constructor
    · rw [hids]
      exact ((List.take_sublist _ _).map _).nodup hkeys
    · intro id hid
      rw [hids] at hid
      obtain ⟨f, hf, rfl⟩ := List.mem_map.mp hid
      obtain ⟨hmem, hp⟩ := (hwaiting f).mp (List.mem_of_mem_take hf)
      exact ⟨f, hmem, rfl, hp⟩
  · rw [hids, List.length_map, frameQueue, length_take_orderBy]
    congr 2
    apply List.filter_congr
    intro f _
    cases f.processedAt <;> rfl
  · intro f hf g hg hfid hgid hp
    have hqueued : g ∈ s.assetFrame.rows.filter (fun f ↦ f.processedAt.isNone) :=
      List.mem_filter.mpr ⟨hg, by rw [hp]; rfl⟩
    apply le_of_mem_take_orderBy (hmem f hf hfid) hqueued
    intro htake
    apply hgid
    rw [hids]
    exact List.mem_map_of_mem htake

variable [Field R] {ext : Externals R} {settings : Settings R} {t : Tick}
  {model : Option (SensorModel R)} {db s sSelect sPair sCommit : Database R} {ids : List String}

/-- The state at the commit has had uploads and scores only. -/
theorem BatchBefore.since (h : BatchBefore ext settings t model db s ids sSelect sPair sCommit) :
    Since db sCommit :=
  h.before.trans (since_of_uploaded (h.toPair.trans h.toCommit))

/-- The frames of the batch still wait at the commit. -/
theorem BatchBefore.waiting (h : BatchBefore ext settings t model db s ids sSelect sPair sCommit) :
    Waiting ids sCommit :=
  (oldestBatch_of_selectFrameBatch h.batch).toWaiting.mono (h.toPair.trans h.toCommit).frameKept

/-- A batch moves exactly its frames. -/
theorem BatchBefore.perm (h : BatchBefore ext settings t model db s ids sSelect sPair sCommit) :
    (newlyProcessed db s).Perm ids := by
  rw [List.perm_ext_iff_of_nodup nodup_newlyProcessed h.waiting.nodup]
  intro id
  have hold : (∃ g ∈ db.assetFrame, g.clientId = id ∧ g.processedAt ≠ none) ↔
      ∃ g ∈ sCommit.assetFrame, g.clientId = id ∧ g.processedAt ≠ none := by
    constructor
    · rintro ⟨g, hg, hid, hp⟩
      exact ⟨g, (h.since.mem_processed.mpr ⟨hg, hp⟩).1, hid, hp⟩
    · rintro ⟨g, hg, hid, hp⟩
      exact ⟨g, (h.since.mem_processed.mp ⟨hg, hp⟩).1, hid, hp⟩
  have hnew : (∃ f ∈ s.assetFrame, f.clientId = id ∧ f.processedAt ≠ none) ↔
      ∃ f ∈ markAll ids t.pairNow sCommit.assetFrame, f.clientId = id ∧ f.processedAt ≠ none := by
    obtain ⟨runs, heq⟩ := applyAll_tickWrites ext settings model t.pairNow ids
      (pairing ext settings ids sPair) t.runId sCommit
    have hafter := since_of_uploaded h.after
    rw [heq] at hafter
    constructor
    · rintro ⟨f, hf, hid, hp⟩
      exact ⟨f, (hafter.mem_processed.mp ⟨hf, hp⟩).1, hid, hp⟩
    · rintro ⟨f, hf, hid, hp⟩
      exact ⟨f, (hafter.mem_processed.mpr ⟨hf, hp⟩).1, hid, hp⟩
  rw [mem_newlyProcessed, hold, hnew, exists_processed_markAll h.waiting]
  constructor
  · rintro ⟨hproc | hid, hn⟩
    · exact absurd hproc hn
    · exact hid
  · intro hid
    refine ⟨.inr hid, ?_⟩
    rintro ⟨g, hg, rfl, hp⟩
    exact h.waiting.not_processed hg hp hid

/-- Every state that a tick commits satisfies the audit. -/
theorem AuditInv.committedBy {log : List TickLog} (h : AuditInv ext settings db log)
    {sch : Schedule (Upload R)} (hs : CommittedBy ext settings t sch db s) :
    AuditInv ext settings s (⟨t.runId, newlyProcessed db s⟩ :: log) := by
  rcases committedBy_cases ext settings hs with hsince | ⟨model, ids, s₀, s₁, s₂, hb⟩
  · exact h.since hsince (fun _ he ↦ List.mem_cons_of_mem _ he)
  · have hcommit := h.since hb.since (fun _ he ↦ he)
    have happlied := batchApplied model t.pairNow hcommit hb.waiting hb.toCommit hb.fresh
    have hbatch := happlied.auditInv hcommit hb.waiting hb.toCommit hb.fresh hb.perm.length_eq
    exact hbatch.since (since_of_uploaded hb.after) (fun _ he ↦ he)

end Batch

/-! ### Runs -/

section Runs

variable [Field R] [LinearOrder R] (ext : Externals R) (settings : Settings R)

/-- Histories of uploads and ticks: the committed states, latest first, and the log of the
ticks. No two ticks draw the same run id. -/
inductive Reachable : List (Database R) → List TickLog → Prop where
  | start (db : Database R) (hframe : db.assetFrame = .empty) (hpair : db.fusionPair = .empty)
    (hrun : db.fusionRun = .empty) : Reachable [db] []
  | upload {db : Database R} {old : List (Database R)} {log : List TickLog} (u : Upload R)
    (h : Reachable (db :: old) log) : Reachable (Effect.apply u db :: db :: old) log
  | tick {db : Database R} {old : List (Database R)} {log : List TickLog} (t : Tick)
    (sch : Schedule (Upload R)) (hnew : ∀ e ∈ log, e.runId ≠ t.runId)
    (h : Reachable (db :: old) log) :
    Reachable ((runTick ext settings t sch db).conn.store ::
        (committedStates (runTick ext settings t sch db).conn.trace ++ db :: old))
      (⟨t.runId, newlyProcessed db (runTick ext settings t sch db).conn.store⟩ :: log)

/-- A committed state, between two steps or during a tick, with the log up to it. -/
inductive CommittedState : Database R → List TickLog → Prop where
  | rest {s : Database R} {old : List (Database R)} {log : List TickLog}
    (h : Reachable ext settings (s :: old) log) : CommittedState s log
  | during {db s : Database R} {old : List (Database R)} {log : List TickLog} (t : Tick)
    (sch : Schedule (Upload R)) (hnew : ∀ e ∈ log, e.runId ≠ t.runId)
    (h : Reachable ext settings (db :: old) log) (hs : CommittedBy ext settings t sch db s) :
    CommittedState s (⟨t.runId, newlyProcessed db s⟩ :: log)

variable {ext settings}

omit [Field R] in
theorem auditInv_start {db : Database R} (hframe : db.assetFrame = .empty)
    (hpair : db.fusionPair = .empty) (hrun : db.fusionRun = .empty) :
    AuditInv ext settings db [] := by
  have hp : ∀ p, p ∉ db.fusionPair := by
    rw [hpair]
    exact Table.not_mem_empty
  have hr : ∀ r, r ∉ db.fusionRun := by
    rw [hrun]
    exact Table.not_mem_empty
  refine ⟨⟨?_, ?_, ?_, ?_, ?_, ?_, ?_⟩, ?_⟩
  · exact fun p h ↦ absurd h (hp p)
  · exact fun p h ↦ absurd h (hp p)
  · exact fun p h ↦ absurd h (hp p)
  · exact fun r h ↦ absurd h (hr r)
  · exact fun r h ↦ absurd h (hr r)
  · exact fun r h ↦ absurd h (hr r)
  · rw [processedCount, hframe, hrun]
    rfl
  · exact fun p h ↦ absurd h (hp p)

/-- The audit holds between any two steps. -/
theorem Reachable.auditInv {hist : List (Database R)} {log : List TickLog}
    (h : Reachable ext settings hist log) :
    (∀ s old, hist = s :: old → AuditInv ext settings s log) ∧
      (log.map (fun e ↦ e.runId)).Nodup := by
  induction h with
  | start db hframe hpair hrun =>
    refine ⟨?_, List.nodup_nil⟩
    intro s old hs
    cases hs
    exact auditInv_start hframe hpair hrun
  | upload u h ih =>
    refine ⟨?_, ih.2⟩
    intro s old hs
    cases hs
    exact (ih.1 _ _ rfl).since (since_of_uploaded (uploaded_write u _)) (fun _ he ↦ he)
  | tick t sch hnew h ih =>
    constructor
    · intro s old hs
      cases hs
      exact (ih.1 _ _ rfl).committedBy (.inr rfl)
    · rw [List.map_cons, List.nodup_cons]
      refine ⟨?_, ih.2⟩
      intro hmem
      obtain ⟨e, he, hid⟩ := List.mem_map.mp hmem
      exact hnew e he hid

theorem CommittedState.auditInv {s : Database R} {log : List TickLog}
    (h : CommittedState ext settings s log) :
    AuditInv ext settings s log ∧ (log.map (fun e ↦ e.runId)).Nodup := by
  cases h with
  | rest h => exact ⟨h.auditInv.1 _ _ rfl, h.auditInv.2⟩
  | during t sch hnew h hs =>
    refine ⟨(h.auditInv.1 _ _ rfl).committedBy hs, ?_⟩
    rw [List.map_cons, List.nodup_cons]
    refine ⟨?_, h.auditInv.2⟩
    intro hmem
    obtain ⟨e, he, hid⟩ := List.mem_map.mp hmem
    exact hnew e he hid

/-- Along a history no processed frame is ever unprocessed again. -/
theorem Reachable.keepsProcessed {hist : List (Database R)} {log : List TickLog}
    (h : Reachable ext settings hist log) :
    hist.Pairwise (fun later earlier ↦ KeepsProcessed earlier later) := by
  have hup : ∀ (u : Upload R) (s : Database R), KeepsProcessed s (Effect.apply u s) :=
    fun u s ↦ keepsProcessed_write u.write s
  induction h with
  | start db => exact List.pairwise_singleton _ _
  | upload u h ih =>
    rw [List.pairwise_cons]
    refine ⟨?_, ih⟩
    intro s hs
    rcases List.mem_cons.mp hs with rfl | hs
    · exact hup u _
    · exact ((List.pairwise_cons.mp ih).1 s hs).trans (hup u _)
  | @tick db old log t sch hnew h ih =>
    have hstart : Chain KeepsProcessed (db :: old) (.fresh db : DbConn R) := by
      change (db :: db :: old).Pairwise _
      rw [List.pairwise_cons]
      refine ⟨?_, ih⟩
      intro s hs
      rcases List.mem_cons.mp hs with rfl | hs
      · exact .refl _
      · exact (List.pairwise_cons.mp ih).1 s hs
    exact chain_run KeepsProcessed.refl (fun _ _ _ ↦ KeepsProcessed.trans) keepsProcessed_write hup
      _ sch hstart

/-- A tick that gets the lock and returns, on a queue that is not empty, moves the oldest frames
of the queue that its batch query saw. -/
theorem moves_oldest_of_ok {t : Tick} {sch : Schedule (Upload R)} {db : Database R}
    (hsize : 1 ≤ settings.fusionBatchSize) (hlocked : t.locked = true)
    (hok : (runTick ext settings t sch db).result = .ok ())
    (hqueue : ∃ f ∈ db.assetFrame, f.processedAt = none) :
    ∃ sSelect, .stmt (.selectFrameBatch settings.fusionBatchSize) sSelect [] ∈
        (runTick ext settings t sch db).conn.trace ∧
      (∀ f ∈ db.assetFrame, f ∈ sSelect.assetFrame) ∧
      OldestBatch settings.fusionBatchSize sSelect
        (newlyProcessed db (runTick ext settings t sch db).conn.store) := by
  rcases runTick_outcome ext settings t sch db with
    ⟨_, hempty⟩ | ⟨sModel, ids, s₀, s₁, s₂, s₃, _, hb⟩
  · -- the batch query cannot have been empty
    obtain ⟨s, hsince, hsel⟩ := hempty hok hlocked
    obtain ⟨f, hf, hp⟩ := hqueue
    have hold := oldestBatch_of_selectFrameBatch hsel
    have hlen := hold.size
    have hpos : 0 < (s.assetFrame.rows.filter (fun f ↦ f.processedAt = none)).length :=
      List.length_pos_of_mem (List.mem_filter.mpr ⟨hsince.frameKept f hf, decide_eq_true hp⟩)
    rw [List.length_nil] at hlen
    omega
  · refine ⟨s₀, hb.selected, hb.before.frameKept, ?_⟩
    have hbefore := hb.batchBefore ext settings hb.after
    exact (oldestBatch_of_selectFrameBatch hb.batch).perm hbefore.perm

/-- In every committed state of every history the audit holds and no run id occurs twice in the
log, along every history processed frames stay processed, and a tick that returns with the lock
on a non-empty queue moves the oldest frames. -/
theorem fused_exactly_once (ext : Externals R) (settings : Settings R) :
    (∀ s log, CommittedState ext settings s log →
      Audited ext settings s log ∧ (log.map (fun e ↦ e.runId)).Nodup) ∧
    (∀ hist log, Reachable ext settings hist log →
      hist.Pairwise (fun later earlier ↦ KeepsProcessed earlier later)) ∧
    (∀ db old log t sch, Reachable ext settings (db :: old) log →
      1 ≤ settings.fusionBatchSize → t.locked = true →
      (runTick ext settings t sch db).result = .ok () →
      (∃ f ∈ db.assetFrame, f.processedAt = none) →
      ∃ sSelect, .stmt (.selectFrameBatch settings.fusionBatchSize) sSelect [] ∈
          (runTick ext settings t sch db).conn.trace ∧
        (∀ f ∈ db.assetFrame, f ∈ sSelect.assetFrame) ∧
        OldestBatch settings.fusionBatchSize sSelect
          (newlyProcessed db (runTick ext settings t sch db).conn.store)) := by
  refine ⟨?_, ?_, ?_⟩
  · intro s log h
    exact ⟨h.auditInv.1.toAudited, h.auditInv.2⟩
  · intro hist log h
    exact h.keepsProcessed
  · intro db old log t sch _ hsize hlocked hok hqueue
    exact moves_oldest_of_ok hsize hlocked hok hqueue

end Runs

/-- The database after a report and a frame. -/
def onePairDb : Database ℚ := applyAll [reportAt "event" 0 1, frameAt "frame" 0 2] Database.empty

/-- A tick that gets the lock. -/
def onePairTick : Tick := ⟨true, "run", 10, 11⟩

theorem reachable_onePairDb : ∃ old, Reachable Externals.planar (Settings.default ℚ)
    (onePairDb :: old) [] :=
  ⟨_, .upload (frameAt "frame" 0 2) (.upload (reportAt "event" 0 1)
    (.start Database.empty rfl rfl rfl))⟩

/-- One tick pairs the frame: the state it leaves satisfies the audit. -/
theorem fused_exactly_once_one_pair : ∃ s log,
    CommittedState Externals.planar (Settings.default ℚ) s log ∧ s.fusionPair.rows.length = 1 ∧
      Audited Externals.planar (Settings.default ℚ) s log ∧
      ∃ sSelect : Database ℚ, OldestBatch 500 sSelect (newlyProcessed onePairDb s) := by
  obtain ⟨old, hreach⟩ := reachable_onePairDb
  have hall := fused_exactly_once Externals.planar (Settings.default ℚ)
  have hs := CommittedState.during onePairTick quiet (by simp) hreach (.inr rfl)
  refine ⟨_, _, hs, by decide +kernel, (hall.1 _ _ hs).1, ?_⟩
  obtain ⟨sSelect, _, _, hbatch⟩ := hall.2.2 onePairDb old [] onePairTick quiet hreach (by decide)
    rfl (by decide +kernel) (by decide +kernel)
  exact ⟨sSelect, hbatch⟩

end PotholeServer.Fusion
