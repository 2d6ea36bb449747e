import PotholeServer.Fusion.ExactlyOnce
import PotholeServer.Sql.Effects

/-!
# Upload order

A frame is processed once, with the observations committed by then. Histories of uploads and
ticks, in which a tick may fail and uploads may commit between its statements: if no frame is
processed before its nearest report has arrived, the pairs depend on the uploads alone.
-/

namespace PotholeServer.Fusion

open Sql Db Sensor Ingest

variable {R : Type}

/-! ### Uploads as rows -/

/-- The rows of the uploaded reports. -/
def observationsOf (ups : List (Upload R)) : List (AssetObservation R) :=
  ups.filterMap (fun u ↦ match u with
    | .event deviceId e ts receivedAt => some (newObservation deviceId e ts receivedAt)
    | .frame .. => none)

/-- The rows of the uploaded frames. -/
def framesOf (ups : List (Upload R)) : List (AssetFrame R) :=
  ups.filterMap (fun u ↦ match u with
    | .event .. => none
    | .frame deviceId m ts jpegUrl receivedAt => some (newFrame deviceId m ts jpegUrl receivedAt))

/-- Client ids identify the uploads: those of one id carry the same report or frame. -/
structure Identified (ups : List (Upload R)) : Prop where
  observation : ∀ o ∈ observationsOf ups, ∀ o' ∈ observationsOf ups, o.clientId = o'.clientId →
    SameReport o o'
  frame : ∀ f ∈ framesOf ups, ∀ f' ∈ framesOf ups, f.clientId = f'.clientId → SameFrame f f'

/-- An upload without the time at which it was received. -/
def withoutReceipt : Upload R → Upload R
  | .event deviceId e ts _ => .event deviceId e ts 0
  | .frame deviceId m ts jpegUrl _ => .frame deviceId m ts jpegUrl 0

/-- The same uploads, whatever their order, their repetitions and the times of receipt. -/
def SameUploads (ups ups' : List (Upload R)) : Prop :=
  ∀ u, u ∈ ups.map withoutReceipt ↔ u ∈ ups'.map withoutReceipt

/-- The asset tables hold the uploads. -/
structure Received (ups : List (Upload R)) (db : Database R) : Prop where
  observationSound : ∀ o ∈ db.assetObservation, ∃ o' ∈ observationsOf ups, SameReport o' o
  observationKey : ∀ o ∈ observationsOf ups, db.assetObservation.HasKey o.clientId
  frameSound : ∀ f ∈ db.assetFrame, ∃ f' ∈ framesOf ups, SameFrame f' f
  frameKey : ∀ f ∈ framesOf ups, db.assetFrame.HasKey f.clientId

/-- The effect inserts no report and no frame. -/
def KeepsAssets : Write R → Prop
  | .insertObservation _ => False
  | .insertFrame _ => False
  | _ => True

section Received

variable {ups : List (Upload R)} {db : Database R}

theorem mem_observationsOf_append {us vs : List (Upload R)} {o : AssetObservation R} :
    o ∈ observationsOf (us ++ vs) ↔ o ∈ observationsOf us ∨ o ∈ observationsOf vs := by
  rw [observationsOf, List.filterMap_append, List.mem_append]
  rfl

theorem mem_framesOf_append {us vs : List (Upload R)} {f : AssetFrame R} :
    f ∈ framesOf (us ++ vs) ↔ f ∈ framesOf us ∨ f ∈ framesOf vs := by
  rw [framesOf, List.filterMap_append, List.mem_append]
  rfl

theorem received_upload (h : Received ups db) (u : Upload R) :
    Received (ups ++ [u]) (db.write u.write) := by
  cases u with
  | event deviceId e ts receivedAt =>
    refine ⟨?_, ?_, ?_, ?_⟩
    · intro o ho
      rcases Table.mem_insertNew.mp ho with ho | ⟨rfl, _⟩
      · obtain ⟨o', ho', hs⟩ := h.observationSound o ho
        exact ⟨o', mem_observationsOf_append.mpr (.inl ho'), hs⟩
      · exact ⟨_, mem_observationsOf_append.mpr (.inr (List.mem_singleton.mpr rfl)), .refl _⟩
    · intro o ho
      apply Table.hasKey_insertNew.mpr
      rcases mem_observationsOf_append.mp ho with ho | ho
      · exact .inl (h.observationKey o ho)
      · rw [List.mem_singleton.mp ho]
        exact .inr rfl
    · intro f hf
      obtain ⟨f', hf', hs⟩ := h.frameSound f hf
      exact ⟨f', mem_framesOf_append.mpr (.inl hf'), hs⟩
    · intro f hf
      exact h.frameKey f ((mem_framesOf_append.mp hf).resolve_right List.not_mem_nil)
  | frame deviceId m ts jpegUrl receivedAt =>
    refine ⟨?_, ?_, ?_, ?_⟩
    · intro o ho
      obtain ⟨o', ho', hs⟩ := h.observationSound o ho
      exact ⟨o', mem_observationsOf_append.mpr (.inl ho'), hs⟩
    · intro o ho
      exact h.observationKey o
        ((mem_observationsOf_append.mp ho).resolve_right List.not_mem_nil)
    · intro f hf
      rcases Table.mem_insertNew.mp hf with hf | ⟨rfl, _⟩
      · obtain ⟨f', hf', hs⟩ := h.frameSound f hf
        exact ⟨f', mem_framesOf_append.mpr (.inl hf'), hs⟩
      · exact ⟨_, mem_framesOf_append.mpr (.inr (List.mem_singleton.mpr rfl)), .refl _⟩
    · intro f hf
      apply Table.hasKey_insertNew.mpr
      rcases mem_framesOf_append.mp hf with hf | hf
      · exact .inl (h.frameKey f hf)
      · rw [List.mem_singleton.mp hf]
        exact .inr rfl

theorem received_write (h : Received ups db) {w : Write R} (hw : KeepsAssets w) :
    Received ups (db.write w) := by
  cases w with
  | insertObservation row => exact hw.elim
  | insertFrame row => exact hw.elim
  | updateScored clientId scores now =>
    refine ⟨?_, ?_, h.frameSound, h.frameKey⟩
    · intro o ho
      have hupdate : ∃ a ∈ db.assetObservation,
          (if decide (a.clientId = clientId) then a.setScores scores now else a) = o :=
        List.mem_map.mp ho
      obtain ⟨a, ha, rfl⟩ := hupdate
      obtain ⟨o', ho', hs⟩ := h.observationSound a ha
      refine ⟨o', ho', hs.trans ?_⟩
      split
      · exact ⟨rfl, rfl, rfl, rfl⟩
      · exact .refl a
    · intro o ho
      exact (Table.hasKey_update (f := AssetObservation.setScores scores now) (fun _ ↦ rfl)).mpr
        (h.observationKey o ho)
  | markProcessed ids now =>
    refine ⟨h.observationSound, h.observationKey, ?_, ?_⟩
    · intro f hf
      have hmark : f ∈ markAll ids now db.assetFrame := hf
      rcases mem_markAll.mp hmark with ⟨hf, _⟩ | ⟨g, hg, _, rfl⟩
      · exact h.frameSound f hf
      · obtain ⟨f', hf', hs⟩ := h.frameSound g hg
        exact ⟨f', hf', hs.trans ⟨rfl, rfl, rfl, rfl⟩⟩
    · intro f hf
      exact (Table.hasKey_update (f := fun f ↦ { f with processedAt := some now })
        (fun _ ↦ rfl)).mpr (h.frameKey f hf)
  | _ => exact ⟨h.observationSound, h.observationKey, h.frameSound, h.frameKey⟩

end Received

section Job

variable [Field R] [LinearOrder R] (ext : Externals R) (settings : Settings R)

theorem emits_scoreRows (model : SensorModel R) (now : DateTime)
    (rows : List (AssetObservation R)) :
    (scoreRows ext model now rows).Emits KeepsAssets := by
  induction rows with
  | nil => exact Prog.emits_ret _
  | cons r rest ih =>
    rw [scoreRows]
    refine Prog.emits_bind (Prog.emits_ret _) (fun res ↦ Prog.emits_bind ?_ (fun _ ↦ ih))
    refine Prog.emits_execute ?_
    intro s ws hws w hw
    cases hws
    rw [List.mem_singleton.mp hw]
    exact trivial

omit [Field R] [LinearOrder R] in
theorem emits_upsertPairs (engine : FusionEngine R) (runId : String) (now : DateTime)
    (candidates : List (Candidate R)) :
    (upsertPairs engine runId now candidates).Emits KeepsAssets := by
  induction candidates with
  | nil => exact Prog.emits_ret _
  | cons r rest ih =>
    rw [upsertPairs]
    refine Prog.emits_bind (Prog.emits_execute ?_) (fun _ ↦ ih)
    intro s ws hws w hw
    cases hws
    rw [List.mem_singleton.mp hw]
    exact trivial

theorem emits_pairingTransaction (model : Option (SensorModel R)) (runId : String) (now : DateTime)
    (ids : List String) :
    (pairingTransaction ext settings model runId now ids).Emits KeepsAssets := by
  have hconst : ∀ (l : Statement) (w₀ : Write R), KeepsAssets w₀ →
      (Prog.execute l (fun _ ↦ .ok [w₀]) : DbProg R Unit).Emits KeepsAssets := by
    intro l w₀ hw₀
    refine Prog.emits_execute ?_
    intro s ws hws w hw
    cases hws
    rw [List.mem_singleton.mp hw]
    exact hw₀
  rw [pairingTransaction]
  refine Prog.emits_bind (Prog.emits_execute ?_) (fun _ ↦ Prog.emits_bind Prog.emits_fetch ?_)
  · intro s ws hws w hw
    unfold insertRun at hws
    split at hws
    · cases hws
    · cases hws
      rw [List.mem_singleton.mp hw]
      exact trivial
  · intro candidates
    refine Prog.emits_bind (emits_upsertPairs _ _ _ _) (fun _ ↦ ?_)
    refine Prog.emits_bind (hconst _ _ trivial) (fun _ ↦ ?_)
    exact Prog.emits_bind (hconst _ _ trivial) (fun _ ↦ Prog.emits_ret _)

/-- The job inserts no report and no frame. -/
theorem emits_runFusionJob (t : Tick) : (runFusionJob ext settings t).Emits KeepsAssets := by
  have hnone : ∀ l : Statement,
      (Prog.execute l (fun _ ↦ .ok []) : DbProg R Unit).Emits KeepsAssets := by
    intro l
    refine Prog.emits_execute ?_
    intro s ws hws w hw
    cases hws
    cases hw
  have hscore : ∀ model : Option (SensorModel R),
      (scoreIfModel ext settings model t.scoreNow).Emits KeepsAssets := by
    intro model
    unfold scoreIfModel
    split
    · rw [scoreUnscored]
      refine Prog.emits_bind (Prog.emits_bind Prog.emits_fetch (fun rows ↦ ?_))
        (fun _ ↦ Prog.emits_ret _)
      split
      · exact Prog.emits_ret _
      · exact Prog.emits_bind (Prog.emits_transaction (emits_scoreRows ext _ _ rows))
          (fun _ ↦ Prog.emits_ret _)
    · exact Prog.emits_ret _
  have hpair : ∀ model : Option (SensorModel R),
      (pairAndFuse ext settings model t.runId t.pairNow).Emits KeepsAssets := by
    intro model
    rw [pairAndFuse]
    refine Prog.emits_bind Prog.emits_fetch (fun ids ↦ ?_)
    split
    · exact Prog.emits_ret _
    · exact Prog.emits_transaction (emits_pairingTransaction ext settings _ _ _ _)
  rw [runFusionJob]
  refine Prog.emits_bind (hnone _) (fun _ ↦ ?_)
  split
  · refine Prog.emits_tryFinally ?_ (hnone _)
    rw [fuseTick]
    refine Prog.emits_bind Prog.emits_fetch (fun model ↦ Prog.emits_bind (hscore model) ?_)
    exact fun _ ↦ Prog.emits_bind (hpair model) (fun _ ↦ Prog.emits_ret _)
  · exact Prog.emits_ret _

/-- What arrives while a tick runs. -/
def arrivalsOf (t : Tick) (sch : Schedule (Upload R)) (db : Database R) : List (Upload R) :=
  (runFusionJob ext settings t).received sch (.fresh db)

/-- After a tick the asset tables hold what they held and what arrived. -/
theorem received_runTick {ups : List (Upload R)} {db : Database R} (h : Received ups db) (t : Tick)
    (sch : Schedule (Upload R)) :
    Received (ups ++ arrivalsOf ext settings t sch db) (runTick ext settings t sch db).conn.store :=
  Prog.run_keeps (I := Received) (P := KeepsAssets) (fun _ _ u h ↦ received_upload h u)
    (fun _ _ _ hw h ↦ received_write h hw) _ (emits_runFusionJob ext settings t) sch h
    (fun p hp ↦ by cases hp)

end Job

/-! ### A batch and what is uploaded -/

section Batch

variable [Field R] [LinearOrder R] {ext : Externals R} {settings : Settings R} {t : Tick}
  {model : Option (SensorModel R)} {db s sSelect sPair sCommit : Database R} {ids : List String}

/-- The pairs after a batch are those before it with the upserts of its candidates. -/
theorem BatchBefore.fusionPair
    (h : BatchBefore ext settings t model db s ids sSelect sPair sCommit) :
    s.fusionPair = upsertAll (getEngine ext settings model) t.runId t.pairNow db.fusionPair
      (pairing ext settings ids sPair) := by
  obtain ⟨runs, heq⟩ := applyAll_tickWrites ext settings model t.pairNow ids
    (pairing ext settings ids sPair) t.runId sCommit
  have hafter := h.after.fusionPair
  rw [heq] at hafter
  rw [hafter, ← h.since.fusionPair]

/-- What the pairing query saw is still there. -/
theorem BatchBefore.kept (h : BatchBefore ext settings t model db s ids sSelect sPair sCommit) :
    (∀ o ∈ sPair.assetObservation, o ∈ s.assetObservation) ∧
      ∀ f ∈ sPair.assetFrame, ∃ g ∈ s.assetFrame, SameFrame g f := by
  obtain ⟨runs, heq⟩ := applyAll_tickWrites ext settings model t.pairNow ids
    (pairing ext settings ids sPair) t.runId sCommit
  have hafter := h.after
  rw [heq] at hafter
  constructor
  · intro o ho
    exact hafter.observationKept o (h.toCommit.observationKept o ho)
  · intro f hf
    obtain ⟨g, hg, hid, hdev, hts, hgeom⟩ := mem_markAll_report ids t.pairNow
      (h.toCommit.frameKept f hf)
    exact ⟨g, hafter.frameKept g hg, hid.symm, hdev.symm, hts.symm, hgeom.symm⟩

/-- A frame that is processed after a batch was processed before it, or belongs to it. -/
theorem BatchBefore.processed (h : BatchBefore ext settings t model db s ids sSelect sPair sCommit)
    {f : AssetFrame R} (hf : f ∈ s.assetFrame) (hp : f.processedAt ≠ none) :
    (f ∈ db.assetFrame ∧ f.processedAt ≠ none) ∨ f.clientId ∈ ids := by
  by_cases hold : ∃ g ∈ db.assetFrame, g.clientId = f.clientId ∧ g.processedAt ≠ none
  · obtain ⟨g, hg, hid, hgp⟩ := hold
    obtain ⟨runs, heq⟩ := applyAll_tickWrites ext settings model t.pairNow ids
      (pairing ext settings ids sPair) t.runId sCommit
    have hafter := since_of_uploaded h.after
    rw [heq] at hafter
    have hcommit := (h.since.mem_processed.mpr ⟨hg, hgp⟩).1
    have hlast := (hafter.mem_processed.mpr ⟨mem_markAll_of_processed hcommit hgp, hgp⟩).1
    have hsame : g = f := Table.eq_of_key hlast hf hid
    exact .inl (hsame ▸ ⟨hg, hgp⟩)
  · exact .inr (h.perm.mem_iff.mp (mem_newlyProcessed.mpr ⟨⟨f, hf, rfl, hp⟩, hold⟩))

/-- Every frame of a batch is there when its candidates are queried. -/
theorem BatchBefore.exists_frame
    (h : BatchBefore ext settings t model db s ids sSelect sPair sCommit) {id : String}
    (hid : id ∈ ids) : ∃ f ∈ sPair.assetFrame, f.clientId = id := by
  obtain ⟨f, hf, hfid, _⟩ := (oldestBatch_of_selectFrameBatch h.batch).unprocessed id hid
  exact ⟨f, h.toPair.frameKept f hf, hfid⟩

end Batch

/-! ### Histories -/

section History

variable [Field R] [LinearOrder R] (ext : Externals R) (settings : Settings R)

/-- Histories of uploads and ticks from empty tables, with the uploads so far. For each frame
that a tick moves to processed, `ok` holds of the snapshot of its pairing query. -/
inductive History (ok : String → Database R → Prop) : List (Upload R) → Database R → Prop where
  | start (db : Database R) (hobservation : db.assetObservation = .empty)
    (hframe : db.assetFrame = .empty) (hpair : db.fusionPair = .empty) : History ok [] db
  | upload {ups : List (Upload R)} {db : Database R} (u : Upload R) (h : History ok ups db) :
    History ok (ups ++ [u]) (Effect.apply u db)
  | tick {ups : List (Upload R)} {db : Database R} (t : Tick) (sch : Schedule (Upload R))
    (hok : ∀ id ∈ newlyProcessed db (runTick ext settings t sch db).conn.store, ∀ ids v,
      .stmt (.pairing ids) v [] ∈ (runTick ext settings t sch db).conn.trace → id ∈ ids → ok id v)
    (h : History ok ups db) :
    History ok (ups ++ arrivalsOf ext settings t sch db) (runTick ext settings t sch db).conn.store

/-- The report that is nearest to the frame among all uploads has arrived. -/
def NearestArrived (ups : List (Upload R)) (id : String) (v : Database R) : Prop :=
  ∀ f ∈ framesOf ups, f.clientId = id → ∀ o, IsNearest ext settings f (observationsOf ups) o →
    v.assetObservation.HasKey o.clientId

/-- The key of a frame's pair with its nearest report among all uploads. -/
def NearestKey (ups : List (Upload R)) (k : String × String) : Prop :=
  ∃ f ∈ framesOf ups, ∃ o, IsNearest ext settings f (observationsOf ups) o ∧
    (o.clientId, f.clientId) = k

/-- What holds along a history towards the uploads `all`. -/
structure OrderInv (all ups : List (Upload R)) (db : Database R) : Prop where
  received : Received ups db
  sound : ∀ k, db.fusionPair.HasKey k → NearestKey ext settings all k
  complete : ∀ g ∈ db.assetFrame, g.processedAt ≠ none → ∀ f ∈ framesOf all,
    f.clientId = g.clientId → ∀ o, IsNearest ext settings f (observationsOf all) o →
      db.fusionPair.HasKey (o.clientId, f.clientId)

variable {ext settings} {all ups : List (Upload R)} {db s : Database R}

omit [Field R] in
/-- Uploads and scores. -/
theorem OrderInv.since (h : OrderInv ext settings all ups db) (hs : Since db s)
    {ups' : List (Upload R)} (hreceived : Received ups' s) : OrderInv ext settings all ups' s where
  received := hreceived
  sound := by
    rw [hs.fusionPair]
    exact h.sound
  complete := by
    intro g hg hp
    rw [hs.fusionPair]
    exact h.complete g (hs.mem_processed.mp ⟨hg, hp⟩).1 hp

omit [Field R] in
/-- A frame of a batch whose nearest report has arrived is paired with it, and with nothing
else. -/
theorem nearest_of_arrived (hid : Identified all) (hreceived : Received ups s)
    (hsub : ∀ u ∈ ups, u ∈ all) {sPair : Database R}
    (hobs : ∀ o ∈ sPair.assetObservation, o ∈ s.assetObservation) {g f : AssetFrame R}
    (hframe : SameFrame f g) (hf : f ∈ framesOf all)
    (harrived : NearestArrived ext settings all f.clientId sPair) :
    (∀ o, IsNearest ext settings f (observationsOf all) o → ∃ o' ∈ sPair.assetObservation,
      o'.clientId = o.clientId ∧ IsNearest ext settings g sPair.assetObservation.rows o') ∧
    ∀ o', IsNearest ext settings g sPair.assetObservation.rows o' →
      ∃ o, IsNearest ext settings f (observationsOf all) o ∧ o.clientId = o'.clientId := by
  have hreports : ∀ o' ∈ sPair.assetObservation, ∃ o ∈ observationsOf all, SameReport o o' := by
    intro o' ho'
    obtain ⟨o, ho, hs⟩ := hreceived.observationSound o' (hobs o' ho')
    refine ⟨o, ?_, hs⟩
    obtain ⟨u, hu, heq⟩ := List.mem_filterMap.mp ho
    exact List.mem_filterMap.mpr ⟨u, hsub u hu, heq⟩
  have hforward : ∀ o, IsNearest ext settings f (observationsOf all) o →
      ∃ o' ∈ sPair.assetObservation, o'.clientId = o.clientId ∧
        IsNearest ext settings g sPair.assetObservation.rows o' := by
    intro o ho
    obtain ⟨o', ho', hkey⟩ := Table.hasKey_iff.mp (harrived f hf rfl o ho)
    obtain ⟨a, ha, hs⟩ := hreports o' ho'
    have hsame : SameReport o o' :=
      (hid.observation o ho.mem a ha (hkey.symm.trans hs.clientId)).trans hs
    exact ⟨o', ho', hkey, ho.of_sameReport hframe hreports ho' hsame⟩
  refine ⟨hforward, ?_⟩
  intro o' ho'
  -- some upload is nearest, and what the query saw of it is nearest too
  obtain ⟨a, ha, hs⟩ := hreports o' ho'.mem
  have hja : joins ext settings f a = true := (SameReport.joins hframe hs).symm.trans ho'.joins
  obtain ⟨o, ho⟩ := exists_nearest ha hja
  obtain ⟨b, hb, hbid, hbnear⟩ := hforward o (isNearest_of_nearest ho)
  exact ⟨o, isNearest_of_nearest ho, hbid.symm.trans (hbnear.clientId_eq ho')⟩

/-- A batch whose frames have their nearest reports. -/
theorem OrderInv.batch (h : OrderInv ext settings all ups db) (hid : Identified all) {t : Tick}
    {model : Option (SensorModel R)} {ids : List String} {sSelect sPair sCommit : Database R}
    (hb : BatchBefore ext settings t model db s ids sSelect sPair sCommit)
    {ups' : List (Upload R)} (hreceived : Received ups' s) (hsub : ∀ u ∈ ups', u ∈ all)
    (harrived : ∀ id ∈ ids, NearestArrived ext settings all id sPair) :
    OrderInv ext settings all ups' s := by
  have hframes : ∀ g ∈ sPair.assetFrame, ∃ f ∈ framesOf all, SameFrame f g := by
    intro g hg
    obtain ⟨g', hg', hsame⟩ := hb.kept.2 g hg
    obtain ⟨f, hf, hs⟩ := hreceived.frameSound g' hg'
    obtain ⟨u, hu, heq⟩ := List.mem_filterMap.mp hf
    exact ⟨f, List.mem_filterMap.mpr ⟨u, hsub u hu, heq⟩, hs.trans hsame⟩
  refine ⟨hreceived, ?_, ?_⟩
  · intro k hk
    rw [hb.fusionPair, hasKey_upsertAll] at hk
    rcases hk with hk | ⟨r, hr, rfl⟩
    · exact h.sound k hk
    · obtain ⟨g, hg, hgid, o', ho', rfl⟩ := mem_pairing.mp hr
      obtain ⟨f, hf, hsame⟩ := hframes g hg
      have hnear := nearest_of_arrived hid hreceived hsub hb.kept.1 hsame hf
        (harrived f.clientId (hsame.clientId ▸ hgid))
      obtain ⟨o, ho, hoid⟩ := hnear.2 o' ho'
      refine ⟨f, hf, o, ho, ?_⟩
      rw [hoid, ← hsame.clientId]
      rfl
  · intro g hg hp f hf hfid o ho
    rw [hb.fusionPair, hasKey_upsertAll]
    rcases hb.processed hg hp with ⟨hg, hp⟩ | hgid
    · exact .inl (h.complete g hg hp f hf hfid o ho)
    · obtain ⟨g₀, hg₀, hid₀⟩ := hb.exists_frame hgid
      obtain ⟨f₀, hf₀, hsame₀⟩ := hframes g₀ hg₀
      have hff₀ : f.clientId = f₀.clientId := by
        rw [hfid, ← hid₀, hsame₀.clientId]
      have hsame : SameFrame f g₀ := (hid.frame f hf f₀ hf₀ hff₀).trans hsame₀
      have hnear := nearest_of_arrived hid hreceived hsub hb.kept.1 hsame hf
        (harrived f.clientId (hfid ▸ hgid))
      obtain ⟨o', ho', hoid, hnear'⟩ := hnear.1 o ho
      have hcand : candidate ext g₀ o' ∈ pairing ext settings ids sPair :=
        mem_pairing.mpr ⟨g₀, hg₀, hid₀ ▸ hgid, o', hnear', rfl⟩
      refine .inr ⟨candidate ext g₀ o', hcand, ?_⟩
      rw [← hoid, ← hsame.clientId]
      rfl

/-- Along a history in which no frame is processed before its nearest report has arrived. -/
theorem History.orderInv (hid : Identified all)
    (h : History ext settings (NearestArrived ext settings all) ups db)
    (hsub : ∀ u ∈ ups, u ∈ all) : OrderInv ext settings all ups db := by
  induction h with
  | start db hobservation hframe hpair =>
    refine ⟨⟨?_, ?_, ?_, ?_⟩, ?_, ?_⟩
    · intro o ho
      rw [hobservation] at ho
      exact absurd ho (Table.not_mem_empty o)
    · intro o ho
      cases ho
    · intro f hf
      rw [hframe] at hf
      exact absurd hf (Table.not_mem_empty f)
    · intro f hf
      cases hf
    · intro k hk
      rw [hpair] at hk
      cases hk
    · intro g hg
      rw [hframe] at hg
      exact absurd hg (Table.not_mem_empty g)
  | upload u h ih =>
    have hinv := ih (fun v hv ↦ hsub v (List.mem_append_left _ hv))
    exact hinv.since (since_of_uploaded (uploaded_write u _)) (received_upload hinv.received u)
  | @tick ups db t sch hok h ih =>
    have hinv := ih (fun v hv ↦ hsub v (List.mem_append_left _ hv))
    have hreceived := received_runTick ext settings hinv.received t sch
    rcases runTick_outcome ext settings t sch db with
      ⟨hfol, _⟩ | ⟨sModel, ids, s₀, s₁, s₂, s₃, _, hb⟩
    · exact hinv.since hfol.store hreceived
    · have hbefore := hb.batchBefore ext settings hb.after
      refine hinv.batch hid hbefore hreceived hsub ?_
      intro id hmem
      obtain ⟨v, hv, hobs, _⟩ := hb.asked
      have harrived := hok id (hbefore.perm.mem_iff.mpr hmem) ids v hv hmem
      intro f hf hfid o ho
      exact hobs ▸ harrived f hf hfid o ho

/-- The keys of a history that leaves no frame unprocessed. -/
theorem History.hasKey_iff (hid : Identified ups)
    (h : History ext settings (NearestArrived ext settings ups) ups db)
    (hdone : ∀ f ∈ db.assetFrame, f.processedAt ≠ none) {k : String × String} :
    db.fusionPair.HasKey k ↔ NearestKey ext settings ups k := by
  have hinv := h.orderInv hid (fun _ hu ↦ hu)
  constructor
  · exact hinv.sound k
  · rintro ⟨f, hf, o, ho, rfl⟩
    obtain ⟨g, hg, hgid⟩ := Table.hasKey_iff.mp (hinv.received.frameKey f hf)
    exact hinv.complete g hg (hdone g hg) f hf hgid.symm o ho

/-! ### Two histories -/

omit [Field R] [LinearOrder R] in
/-- The reports of the same uploads. -/
theorem exists_report_of_sameUploads {ups' : List (Upload R)} (h : SameUploads ups ups')
    {o : AssetObservation R} (ho : o ∈ observationsOf ups) :
    ∃ o' ∈ observationsOf ups', SameReport o o' := by
  obtain ⟨u, hu, hrow⟩ := List.mem_filterMap.mp ho
  obtain ⟨v, hv, heq⟩ := List.mem_map.mp ((h _).mp (List.mem_map_of_mem hu))
  cases u with
  | frame => cases hrow
  | event deviceId e ts receivedAt =>
    cases hrow
    cases v with
    | frame => cases heq
    | event deviceId' e' ts' receivedAt' =>
      cases heq
      exact ⟨_, List.mem_filterMap.mpr ⟨_, hv, rfl⟩, rfl, rfl, rfl, rfl⟩

omit [Field R] [LinearOrder R] in
/-- The frames of the same uploads. -/
theorem exists_frame_of_sameUploads {ups' : List (Upload R)} (h : SameUploads ups ups')
    {f : AssetFrame R} (hf : f ∈ framesOf ups) : ∃ f' ∈ framesOf ups', SameFrame f f' := by
  obtain ⟨u, hu, hrow⟩ := List.mem_filterMap.mp hf
  obtain ⟨v, hv, heq⟩ := List.mem_map.mp ((h _).mp (List.mem_map_of_mem hu))
  cases u with
  | event => cases hrow
  | frame deviceId m ts jpegUrl receivedAt =>
    cases hrow
    cases v with
    | event => cases heq
    | frame deviceId' m' ts' jpegUrl' receivedAt' =>
      cases heq
      exact ⟨_, List.mem_filterMap.mpr ⟨_, hv, rfl⟩, rfl, rfl, rfl, rfl⟩

omit [Field R] [LinearOrder R] in
theorem SameUploads.symm {ups' : List (Upload R)} (h : SameUploads ups ups') :
    SameUploads ups' ups := fun u ↦ (h u).symm

omit [Field R] [LinearOrder R] in
theorem Identified.of_sameUploads {ups' : List (Upload R)} (hid : Identified ups)
    (h : SameUploads ups ups') : Identified ups' where
  observation := by
    intro o ho o' ho' heq
    obtain ⟨a, ha, hs⟩ := exists_report_of_sameUploads h.symm ho
    obtain ⟨a', ha', hs'⟩ := exists_report_of_sameUploads h.symm ho'
    have hkey : a.clientId = a'.clientId := by
      rw [hs.clientId, hs'.clientId, heq]
    exact hs.trans ((hid.observation a ha a' ha' hkey).trans hs'.symm)
  frame := by
    intro f hf f' hf' heq
    obtain ⟨g, hg, hs⟩ := exists_frame_of_sameUploads h.symm hf
    obtain ⟨g', hg', hs'⟩ := exists_frame_of_sameUploads h.symm hf'
    have hkey : g.clientId = g'.clientId := by
      rw [hs.clientId, hs'.clientId, heq]
    exact hs.trans ((hid.frame g hg g' hg' hkey).trans hs'.symm)

omit [Field R] in
theorem NearestKey.of_sameUploads {ups' : List (Upload R)} (h : SameUploads ups ups')
    {k : String × String} (hk : NearestKey ext settings ups k) :
    NearestKey ext settings ups' k := by
  obtain ⟨f, hf, o, ho, rfl⟩ := hk
  obtain ⟨f', hf', hsf⟩ := exists_frame_of_sameUploads h hf
  obtain ⟨o', ho', hso⟩ := exists_report_of_sameUploads h ho.mem
  refine ⟨f', hf', o', ho.of_sameReport hsf ?_ ho' hso, ?_⟩
  · intro a' ha'
    obtain ⟨a, ha, hs⟩ := exists_report_of_sameUploads h.symm ha'
    exact ⟨a, ha, hs.symm⟩
  · rw [hso.clientId, hsf.clientId]

/-- A tick during which nothing is uploaded and nothing fails. -/
theorem History.quietTick {ok : String → Database R → Prop} (t : Tick)
    (hok : ∀ id ∈ newlyProcessed db (runTick ext settings t quiet db).conn.store, ∀ ids v,
      .stmt (.pairing ids) v [] ∈ (runTick ext settings t quiet db).conn.trace → id ∈ ids → ok id v)
    (h : History ext settings ok ups db) :
    History ext settings ok ups (runTick ext settings t quiet db).conn.store := by
  have htick := History.tick t quiet hok h
  rw [arrivalsOf, Prog.received_quiet, List.append_nil] at htick
  exact htick

end History

/-! ### A frame and a report -/

/-- A failure-free tick without arrivals, on the default settings. -/
def tickDb (runId : String) (db : Database ℚ) : Database ℚ :=
  (runTick Externals.planar (Settings.default ℚ) ⟨true, runId, 10, 11⟩ quiet db).conn.store

/-- A frame and then a report of the same time and place. -/
def frameThenReport : List (Upload ℚ) := [frameAt "frame" 0 1, reportAt "event" 0 2]

theorem identified_frameThenReport : Identified frameThenReport where
  observation := by
    intro o ho o' ho' _
    rw [List.mem_singleton.mp ho, List.mem_singleton.mp ho']
    exact .refl _
  frame := by
    intro f hf f' hf' _
    rw [List.mem_singleton.mp hf, List.mem_singleton.mp hf']
    exact .refl _

/-- A tick between the two uploads leaves the frame without a pair for good. -/
theorem upload_order_matters :
    ¬∀ (ups ups' : List (Upload ℚ)) (db db' : Database ℚ), Identified ups → SameUploads ups ups' →
      History Externals.planar (Settings.default ℚ) (fun _ _ ↦ True) ups db →
      History Externals.planar (Settings.default ℚ) (fun _ _ ↦ True) ups' db' →
      (∀ f ∈ db.assetFrame, f.processedAt ≠ none) → (∀ f ∈ db'.assetFrame, f.processedAt ≠ none) →
      ∀ k, db.fusionPair.HasKey k ↔ db'.fusionPair.HasKey k := by
  intro h
  have hstart : History Externals.planar (Settings.default ℚ) (fun _ _ ↦ True) [] Database.empty :=
    .start _ rfl rfl rfl
  have hearly := (((hstart.upload (frameAt "frame" 0 1)).quietTick ⟨true, "r1", 10, 11⟩
    (fun _ _ _ _ _ _ ↦ trivial)).upload (reportAt "event" 0 2)).quietTick ⟨true, "r2", 10, 11⟩
      (fun _ _ _ _ _ _ ↦ trivial)
  have hlate := ((hstart.upload (frameAt "frame" 0 1)).upload (reportAt "event" 0 2)).quietTick
    ⟨true, "r1", 10, 11⟩ (fun _ _ _ _ _ _ ↦ trivial)
  have hkeys := h frameThenReport frameThenReport _ _ identified_frameThenReport (fun _ ↦ Iff.rfl)
    hlate hearly (by decide +kernel) (by decide +kernel) ("event", "frame")
  revert hkeys
  decide +kernel

section Independent

variable [Field R] [LinearOrder R]

/-- Two histories of the same uploads that leave no frame unprocessed, and in which no frame is
processed before its nearest report has arrived, end with the same pairs: each frame with its
nearest report. -/
theorem pairs_order_independent (ext : Externals R) (settings : Settings R)
    (ups ups' : List (Upload R)) (db db' : Database R) (hid : Identified ups)
    (hsame : SameUploads ups ups')
    (h : History ext settings (NearestArrived ext settings ups) ups db)
    (h' : History ext settings (NearestArrived ext settings ups') ups' db')
    (hdone : ∀ f ∈ db.assetFrame, f.processedAt ≠ none)
    (hdone' : ∀ f ∈ db'.assetFrame, f.processedAt ≠ none) (k : String × String) :
    (db.fusionPair.HasKey k ↔ db'.fusionPair.HasKey k) ∧
      (db.fusionPair.HasKey k ↔ ∃ f ∈ framesOf ups, ∃ o,
        IsNearest ext settings f (observationsOf ups) o ∧ (o.clientId, f.clientId) = k) := by
  have hkeys := h.hasKey_iff hid hdone (k := k)
  have hkeys' := h'.hasKey_iff (hid.of_sameUploads hsame) hdone' (k := k)
  refine ⟨?_, hkeys⟩
  rw [hkeys, hkeys']
  exact ⟨fun hk ↦ hk.of_sameUploads hsame, fun hk ↦ hk.of_sameUploads hsame.symm⟩

end Independent

/-- In both orders of a report and a frame before the tick the two are paired. -/
theorem pairs_order_independent_frameThenReport :
    (applyAll frameThenReport Database.empty |> tickDb "r1").fusionPair.HasKey ("event", "frame") ↔
      (applyAll frameThenReport.reverse Database.empty |> tickDb "r1").fusionPair.HasKey
        ("event", "frame") := by
  have hstart : ∀ ok, History Externals.planar (Settings.default ℚ) ok [] Database.empty :=
    fun _ ↦ .start _ rfl rfl rfl
  have hsame : SameUploads frameThenReport frameThenReport.reverse := by
    intro u
    rw [List.map_reverse, List.mem_reverse]
  -- the report has arrived in every snapshot of the pairing query
  have harrived : ∀ ups : List (Upload ℚ), (∀ o ∈ observationsOf ups, o.clientId = "event") →
      ∀ (db : Database ℚ), (runTick Externals.planar (Settings.default ℚ) ⟨true, "r1", 10, 11⟩ quiet
        db).conn.trace.all (fun e ↦ match e with
          | .stmt (.pairing _) v _ => v.assetObservation.HasKey "event"
          | _ => true) = true →
      ∀ id ids v, .stmt (.pairing ids) v [] ∈ (runTick Externals.planar (Settings.default ℚ)
        ⟨true, "r1", 10, 11⟩ quiet db).conn.trace →
          NearestArrived Externals.planar (Settings.default ℚ) ups id v := by
    intro ups hups db hall id ids v hv f _ _ o ho
    rw [hups o ho.mem]
    exact of_decide_eq_true (List.all_eq_true.mp hall _ hv)
  have hone := (((hstart (NearestArrived Externals.planar (Settings.default ℚ)
    frameThenReport)).upload (frameAt "frame" 0 1)).upload (reportAt "event" 0 2)).quietTick
      ⟨true, "r1", 10, 11⟩ (fun id _ ids v hv _ ↦
        harrived _ (by decide +kernel) _ (by decide +kernel) id ids v hv)
  have hother := (((hstart (NearestArrived Externals.planar (Settings.default ℚ)
    frameThenReport.reverse)).upload (reportAt "event" 0 2)).upload (frameAt "frame" 0 1)).quietTick
      ⟨true, "r1", 10, 11⟩ (fun id _ ids v hv _ ↦
        harrived _ (by decide +kernel) _ (by decide +kernel) id ids v hv)
  exact (pairs_order_independent Externals.planar (Settings.default ℚ) frameThenReport
    frameThenReport.reverse _ _ identified_frameThenReport hsame hone hother (by decide +kernel)
      (by decide +kernel) ("event", "frame")).1

end PotholeServer.Fusion
