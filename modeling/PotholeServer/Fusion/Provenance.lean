import PotholeServer.Fusion.Scoring
import PotholeServer.Runs
import PotholeServer.Sensor.Store
import PotholeServer.Sql.Effects

/-!
# Where a fused confidence comes from

An observation is scored once, with the model that is active at that tick. A pair records, through
its run, the model that is active at the tick of its frame. Uploads and activations come between
ticks and between the statements of a tick.
-/

namespace PotholeServer.Fusion

open Sql Db Sensor Ingest

variable {R : Type}

/-! ### Other clients -/

/-- What other clients commit: an uploaded row, or a `save_model`. -/
inductive Change (R : Type) where
  | upload (u : Upload R)
  | activate (model : SensorModel R)

/-- A committed `save_model`. When its version is taken it raises, and nothing is committed. -/
def saveModel (model : SensorModel R) (db : Database R) : Database R :=
  if db.sensorModel.HasKey model.modelVersion then db
  else
    { db with
      sensorModel := Store.activate model db.sensorModel
      activeUnique := Store.atMostOneActive_activate model db.sensorModel }

/-- The effect of a change. -/
def Change.apply : Change R → Database R → Database R
  | .upload u, db => db.write u.write
  | .activate model, db => saveModel model db

instance : Effect (Change R) (Database R) := ⟨Change.apply⟩

/-- From one database to a later one other clients have added rows and switched models. -/
structure Changed (s s' : Database R) : Prop where
  observationKept : ∀ o ∈ s.assetObservation, o ∈ s'.assetObservation
  observationNew : ∀ o ∈ s'.assetObservation, o ∈ s.assetObservation ∨ o.sensorPPothole = none
  modelKept : ∀ r ∈ s.sensorModel, ∃ r' ∈ s'.sensorModel, r'.model = r.model
  frameKept : ∀ f ∈ s.assetFrame, f ∈ s'.assetFrame
  fusionRun : s'.fusionRun = s.fusionRun
  fusionPair : s'.fusionPair = s.fusionPair

theorem Changed.refl (s : Database R) : Changed s s where
  observationKept := fun _ h ↦ h
  observationNew := fun _ h ↦ .inl h
  modelKept := fun r h ↦ ⟨r, h, rfl⟩
  frameKept := fun _ h ↦ h
  fusionRun := rfl
  fusionPair := rfl

theorem Changed.trans {s s' s'' : Database R} (h : Changed s s') (h' : Changed s' s'') :
    Changed s s'' where
  observationKept := fun o ho ↦ h'.observationKept o (h.observationKept o ho)
  observationNew := by
    intro o ho
    rcases h'.observationNew o ho with ho | ho
    · exact h.observationNew o ho
    · exact .inr ho
  modelKept := by
    intro r hr
    obtain ⟨r', hr', hmodel⟩ := h.modelKept r hr
    obtain ⟨r'', hr'', hmodel'⟩ := h'.modelKept r' hr'
    exact ⟨r'', hr'', hmodel'.trans hmodel⟩
  frameKept := fun f hf ↦ h'.frameKept f (h.frameKept f hf)
  fusionRun := h'.fusionRun.trans h.fusionRun
  fusionPair := h'.fusionPair.trans h.fusionPair

theorem changed_saveModel (model : SensorModel R) (s : Database R) :
    Changed s (saveModel model s) := by
  unfold saveModel
  split
  · exact .refl s
  · refine ⟨fun _ h ↦ h, fun _ h ↦ .inl h, ?_, fun _ h ↦ h, rfl, rfl⟩
    intro r hr
    have hmem := Table.mem_update_of_mem (p := SensorModelRow.isActive)
      (f := fun r ↦ { r with isActive := false }) (fun _ ↦ rfl) hr
    refine ⟨_, Table.mem_insertNew_of_mem _ hmem, ?_⟩
    split <;> rfl

theorem changed_apply (u : Change R) (s : Database R) : Changed s (Effect.apply u s) := by
  cases u with
  | activate model => exact changed_saveModel model s
  | upload u =>
    cases u with
    | event deviceId e ts receivedAt =>
      refine ⟨?_, ?_, fun r h ↦ ⟨r, h, rfl⟩, fun _ h ↦ h, rfl, rfl⟩
      · intro o ho
        exact Table.mem_insertNew_of_mem _ ho
      · intro o ho
        rcases Table.mem_insertNew.mp ho with ho | ⟨rfl, _⟩
        · exact .inl ho
        · exact .inr rfl
    | frame deviceId m ts jpegUrl receivedAt =>
      refine ⟨fun _ h ↦ h, fun _ h ↦ .inl h, fun r h ↦ ⟨r, h, rfl⟩, ?_, rfl, rfl⟩
      intro f hf
      exact Table.mem_insertNew_of_mem _ hf

theorem changed_of_arrived {s s' : Database R} (h : Arrived (Change R) s s') : Changed s s' := by
  refine h.invariant (I := Changed s) ?_ (Changed.refl s)
  intro u t ht
  exact ht.trans (changed_apply u t)

/-! ### Scores and their model -/

section Scores

variable [Field R] [LinearOrder R]

/-- The scores of the observation are those that the model gives it. -/
structure ScoredBy (ext : Externals R) (model : SensorModel R) (o : AssetObservation R) :
    Prop where
  scored : o.scoredAt ≠ none
  version : o.sensorModelVersion = some model.modelVersion
  score : ∃ res,
    scoreObservation ext model o.magnitude o.accelStd o.gbarInMax o.speedMps = .ok res ∧
      o.sensorPPothole = some res.pPothole

/-- From one database to a later one other clients have made changes, and a tick that loaded
`model` has scored. -/
structure ScoredSince (ext : Externals R) (model : Option (SensorModel R)) (s s' : Database R) :
    Prop where
  scoredKept : ∀ o ∈ s.assetObservation, o.scoredAt ≠ none → o ∈ s'.assetObservation
  observation : ∀ o ∈ s'.assetObservation, o ∈ s.assetObservation ∨ o.sensorPPothole = none ∨
    ∃ r ∈ s'.sensorModel, some r.model = model ∧ ScoredBy ext r.model o
  modelKept : ∀ r ∈ s.sensorModel, ∃ r' ∈ s'.sensorModel, r'.model = r.model
  frameKept : ∀ f ∈ s.assetFrame, f ∈ s'.assetFrame
  fusionRun : s'.fusionRun = s.fusionRun
  fusionPair : s'.fusionPair = s.fusionPair

variable {ext : Externals R} {model : Option (SensorModel R)} {s s' s'' : Database R}

theorem Changed.scoredSince (h : Changed s s') : ScoredSince ext model s s' where
  scoredKept := fun o ho _ ↦ h.observationKept o ho
  observation := fun o ho ↦ (h.observationNew o ho).imp id .inl
  modelKept := h.modelKept
  frameKept := h.frameKept
  fusionRun := h.fusionRun
  fusionPair := h.fusionPair

theorem ScoredSince.trans (h : ScoredSince ext model s s') (h' : ScoredSince ext model s' s'') :
    ScoredSince ext model s s'' where
  scoredKept := fun o ho hs ↦ h'.scoredKept o (h.scoredKept o ho hs) hs
  observation := by
    intro o ho
    rcases h'.observation o ho with ho | ho
    · rcases h.observation o ho with ho | ho | ⟨r, hr, hmodel, hscored⟩
      · exact .inl ho
      · exact .inr (.inl ho)
      · obtain ⟨r', hr', heq⟩ := h'.modelKept r hr
        exact .inr (.inr ⟨r', hr', heq ▸ hmodel, heq ▸ hscored⟩)
    · exact .inr ho
  modelKept := by
    intro r hr
    obtain ⟨r', hr', hmodel⟩ := h.modelKept r hr
    obtain ⟨r'', hr'', hmodel'⟩ := h'.modelKept r' hr'
    exact ⟨r'', hr'', hmodel'.trans hmodel⟩
  frameKept := fun f hf ↦ h'.frameKept f (h.frameKept f hf)
  fusionRun := h'.fusionRun.trans h.fusionRun
  fusionPair := h'.fusionPair.trans h.fusionPair

/-- The effects of a scoring step: they rewrite the rows with the selected ids, and no other. -/
theorem applyAll_scoreWrites {m : SensorModel R} {now : DateTime} {rows : List (AssetObservation R)}
    {ws : List (Write R)} (h : List.Forall₂ (ScoreWrite ext m now) rows ws) (s : Database R) :
    ∃ t : Table (AssetObservation R), applyAll ws s = { s with assetObservation := t } ∧
      (∀ o ∈ s.assetObservation, (∀ row ∈ rows, row.clientId ≠ o.clientId) → o ∈ t) ∧
      ∀ o ∈ t, o ∈ s.assetObservation ∨ ∃ o₀ ∈ s.assetObservation, ∃ row ∈ rows, ∃ res,
        row.clientId = o₀.clientId ∧
        scoreObservation ext m row.magnitude row.accelStd row.gbarInMax row.speedMps = .ok res ∧
        o = o₀.setScores (scoresOf m res) now := by
  induction h generalizing s with
  | nil => exact ⟨s.assetObservation, rfl, fun o ho _ ↦ ho, fun o ho ↦ .inl ho⟩
  | @cons row w rows ws hw _ ih =>
    obtain ⟨res, hres, rfl⟩ := hw
    obtain ⟨t, heq, hkept, hnew⟩ := ih (s.write (.updateScored row.clientId (scoresOf m res) now))
    -- a row of the first effect is one of `s`, rewritten if it has the id
    have hfirst : ∀ o, o ∈ (s.write (.updateScored row.clientId (scoresOf m res)
        now)).assetObservation → o ∈ s.assetObservation ∨ ∃ o₀ ∈ s.assetObservation,
          row.clientId = o₀.clientId ∧ o = o₀.setScores (scoresOf m res) now := by
      intro o ho
      obtain ⟨o₀, ho₀, rfl⟩ := List.mem_map.mp ho
      split
      · next hid => exact .inr ⟨o₀, ho₀, (of_decide_eq_true hid).symm, rfl⟩
      · exact .inl ho₀
    refine ⟨t, heq, ?_, ?_⟩
    · intro o ho hne
      refine hkept o ?_ (fun row' hrow' ↦ hne row' (List.mem_cons_of_mem _ hrow'))
      have hmem := Table.mem_update_of_mem (p := fun r ↦ r.clientId = row.clientId)
        (f := AssetObservation.setScores (scoresOf m res) now) (fun _ ↦ rfl) ho
      rwa [if_neg (by simpa using (hne row (List.mem_cons_self ..)).symm)] at hmem
    · intro o ho
      rcases hnew o ho with ho | ⟨o₁, ho₁, row', hrow', res', hid, hres', rfl⟩
      · rcases hfirst o ho with ho | ⟨o₀, ho₀, hid, rfl⟩
        · exact .inl ho
        · exact .inr ⟨o₀, ho₀, row, List.mem_cons_self .., res, hid, hres, rfl⟩
      · refine .inr ?_
        rcases hfirst o₁ ho₁ with ho₁ | ⟨o₀, ho₀, hid₀, rfl⟩
        · exact ⟨o₁, ho₁, row', List.mem_cons_of_mem _ hrow', res', hid, hres', rfl⟩
        · -- the second score of a row replaces the first
          exact ⟨o₀, ho₀, row', List.mem_cons_of_mem _ hrow', res', hid, hres', rfl⟩

/-- Scoring rows that still have no scores, with a stored model. -/
theorem scoredSince_scoreWrites {m : SensorModel R} {now : DateTime}
    {rows : List (AssetObservation R)} {ws : List (Write R)}
    (h : List.Forall₂ (ScoreWrite ext m now) rows ws)
    (hrows : ∀ row ∈ rows, row ∈ s.assetObservation ∧ row.scoredAt = none)
    (hmodel : ∃ r ∈ s.sensorModel, r.model = m) :
    ScoredSince ext (some m) s (applyAll ws s) := by
  obtain ⟨t, heq, hkept, hnew⟩ := applyAll_scoreWrites h s
  rw [heq]
  refine ⟨?_, ?_, fun r hr ↦ ⟨r, hr, rfl⟩, fun _ hf ↦ hf, rfl, rfl⟩
  · intro o ho hscored
    refine hkept o ho ?_
    intro row hrow hid
    have hsame : row = o := Table.eq_of_key (hrows row hrow).1 ho hid
    exact hscored (hsame ▸ (hrows row hrow).2)
  · intro o ho
    rcases hnew o ho with ho | ⟨o₀, ho₀, row, hrow, res, hid, hres, rfl⟩
    · exact .inl ho
    · have hsame : row = o₀ := Table.eq_of_key (hrows row hrow).1 ho₀ hid
      subst hsame
      obtain ⟨r, hr, rfl⟩ := hmodel
      exact .inr (.inr ⟨r, hr, rfl, Option.some_ne_none _, rfl, res, hres, rfl⟩)

omit [Field R] [LinearOrder R] in
/-- The model that a tick loads is stored. -/
theorem exists_model_of_loaded {m : SensorModel R} (h : loadActiveModel s = some m) :
    ∃ r ∈ s.sensorModel, r.model = m := by
  obtain ⟨r, hfind, hr⟩ := Option.map_eq_some_iff.mp h
  exact ⟨r, List.mem_of_find?_eq_some hfind, hr⟩

omit [Field R] [LinearOrder R] in
/-- The rows that a tick scores have no scores yet. -/
theorem unscored_of_selectUnscored {n : Int} {rows : List (AssetObservation R)}
    (h : selectUnscored n s = .ok rows) {row : AssetObservation R} (hrow : row ∈ rows) :
    row ∈ s.assetObservation ∧ row.scoredAt = none := by
  unfold selectUnscored limitTo at h
  split at h
  · cases h
  · cases h
    have hqueued := (mem_orderBy ..).mp (List.mem_of_mem_take hrow)
    rw [List.mem_filter, Option.isNone_iff_eq_none] at hqueued
    exact hqueued

end Scores

/-! ### The pairing query of a tick -/

/-- The statement is `_PAIRING_SQL`. -/
def isPairing : Statement → Bool
  | .pairing _ => true
  | _ => false

section Asks

variable [Field R] [LinearOrder R] (ext : Externals R) (settings : Settings R)

theorem asks_scoreRows (model : SensorModel R) (now : DateTime) (rows : List (AssetObservation R)) :
    (scoreRows ext model now rows).Asks isPairing 0 := by
  induction rows with
  | nil => exact Prog.asks_ret _ 0
  | cons row rest ih =>
    refine Prog.asks_bind (m := 0) (n := 0) (Prog.asks_ret _ 0) ?_
    intro res
    exact Prog.asks_bind (m := 0) (n := 0) (Prog.asks_execute ..) (fun _ ↦ ih)

omit [Field R] [LinearOrder R] in
theorem asks_upsertPairs (engine : FusionEngine R) (runId : String) (now : DateTime)
    (candidates : List (Candidate R)) :
    (upsertPairs engine runId now candidates).Asks isPairing 0 := by
  induction candidates with
  | nil => exact Prog.asks_ret _ 0
  | cons r rest ih =>
    exact Prog.asks_bind (m := 0) (n := 0) (Prog.asks_execute ..) (fun _ ↦ ih)

theorem asks_scoreIfModel (model : Option (SensorModel R)) (now : DateTime) :
    (scoreIfModel ext settings model now).Asks isPairing 0 := by
  cases model with
  | none => exact Prog.asks_ret _ 0
  | some m =>
    refine Prog.asks_bind (m := 0) (n := 0) ?_ (fun _ ↦ Prog.asks_ret _ 0)
    refine Prog.asks_bind (m := 0) (n := 0) (Prog.asks_fetch ..) ?_
    intro rows
    split
    · exact Prog.asks_ret _ 0
    · refine Prog.asks_bind (m := 0) (n := 0) ?_ (fun _ ↦ Prog.asks_ret _ 0)
      exact Prog.asks_transaction (asks_scoreRows ext m now rows)

theorem asks_pairAndFuse (model : Option (SensorModel R)) (runId : String) (now : DateTime) :
    (pairAndFuse ext settings model runId now).Asks isPairing 1 := by
  refine Prog.asks_bind (m := 0) (n := 1) (Prog.asks_fetch ..) ?_
  intro ids
  split
  · exact Prog.asks_ret _ 1
  refine Prog.asks_transaction ?_
  refine Prog.asks_bind (m := 0) (n := 1) (Prog.asks_execute ..) (fun _ ↦ ?_)
  refine Prog.asks_bind (m := 1) (n := 0) (Prog.asks_fetch ..) ?_
  intro candidates
  refine Prog.asks_bind (m := 0) (n := 0) (asks_upsertPairs ..) (fun _ ↦ ?_)
  refine Prog.asks_bind (m := 0) (n := 0) (Prog.asks_execute ..) (fun _ ↦ ?_)
  exact Prog.asks_bind (m := 0) (n := 0) (Prog.asks_execute ..) (fun _ ↦ Prog.asks_ret _ 0)

/-- A tick makes the pairing query once at most. -/
theorem asks_runFusionJob (tick : Tick) : (runFusionJob ext settings tick).Asks isPairing 1 := by
  refine Prog.asks_bind (m := 0) (n := 1) (Prog.asks_execute ..) (fun _ ↦ ?_)
  split
  · refine Prog.asks_tryFinally (m := 1) (n := 0) ?_ (Prog.asks_execute ..)
    refine Prog.asks_bind (m := 0) (n := 1) (Prog.asks_fetch ..) ?_
    intro model
    refine Prog.asks_bind (m := 0) (n := 1) (asks_scoreIfModel ..) (fun _ ↦ ?_)
    exact Prog.asks_bind (m := 1) (n := 0) (asks_pairAndFuse ..) (fun _ ↦ Prog.asks_ret _ 0)
  · exact Prog.asks_ret _ 1

end Asks

/-! ### Histories -/

/-- The database, and for each pair that a run has committed with a sensor term the run, the event
and the frame. No code reads the second. -/
structure Ledger (R : Type) where
  db : Database R
  used : List (String × String × String)

/-- A change by another client, or a tick with what the schedule brings between its statements. -/
inductive Event (R : Type) where
  | change (u : Change R)
  | tick (t : Tick) (sch : Schedule (Change R))

section History

variable [Field R] [LinearOrder R] (ext : Externals R) (settings : Settings R)

/-- The connection that a tick leaves. -/
def tickConn (t : Tick) (sch : Schedule (Change R)) (db : Database R) : DbConn R :=
  ((runFusionJob ext settings t).run sch (.fresh db)).conn

/-- The pairs with a sensor term that the pairing query of a trace has returned. -/
def sensorPairs (runId : String) (trace : List (Entry (Database R) (Write R) Statement)) :
    List (String × String × String) :=
  trace.flatMap (fun e ↦ match e with
    | .stmt (.pairing ids) v _ =>
      ((pairing ext settings ids v).filter (fun r ↦ r.sensorPPothole.isSome)).map
        (fun r ↦ (runId, r.eventClientId, r.frameClientId))
    | _ => [])

/-- One event. A tick that commits its run has used the sensor terms of its pairs. -/
def Ledger.step (s : Ledger R) : Event R → Ledger R
  | .change u => { s with db := Effect.apply u s.db }
  | .tick t sch =>
    let c := tickConn ext settings t sch s.db
    { db := c.store
      used := if ¬s.db.fusionRun.HasKey t.runId ∧ c.store.fusionRun.HasKey t.runId then
          s.used ++ sensorPairs ext settings t.runId c.trace
        else s.used }

/-- The stored model, frame and weights give the confidence of the pair again. -/
def Reproduces (db : Database R) (run : FusionRun R) (o : AssetObservation R)
    (p : FusionPair R) : Prop :=
  ∃ f ∈ db.assetFrame, f.clientId = p.frameClientId ∧ ∃ r ∈ db.sensorModel,
    o.sensorModelVersion = some r.model.modelVersion ∧ ∃ res wS wV,
      scoreObservation ext r.model o.magnitude o.accelStd o.gbarInMax o.speedMps = .ok res ∧
      run.weights = [("w_s", wS), ("w_v", wV)] ∧
      ∀ inp : FusionInput R, inp.sensorPPothole = some res.pPothole →
        inp.visualConfidence = f.deviceProbability →
        (matlabPortV1Fuse ext wS wV inp).fusedConfidence = p.fusedConfidence

/-- The pair has a run. When that is one of the primary engine, it records the version of the model
that has scored the observation, and the fused confidence can be reproduced. -/
def HasProvenance (db : Database R) (p : FusionPair R) : Prop :=
  ∃ run ∈ db.fusionRun, run.runId = p.fusionRunId ∧ (run.engineVersion = matlabV1 →
    ∃ o ∈ db.assetObservation, o.clientId = p.eventClientId ∧ o.sensorPPothole ≠ none ∧
      ∃ metrics, run.metrics = some metrics ∧
        o.sensorModelVersion = metrics.sensorModelVersion ∧ Reproduces ext db run o p)

/-- Every pair whose sensor term was used has a provenance. -/
def Ledger.Provenance (s : Ledger R) : Prop :=
  ∀ p ∈ s.db.fusionPair, (p.fusionRunId, p.eventClientId, p.frameClientId) ∈ s.used →
    HasProvenance ext s.db p

/-- The primary engine of a tick pairs no frame with an observation that had its scores before the
tick, from another model than the one loaded. -/
def NoStaleScore (s : Ledger R) : Event R → Prop
  | .change _ => True
  | .tick t sch => ∀ vModel ws ids v ws',
    .stmt .selectActive vModel ws ∈ (tickConn ext settings t sch s.db).trace →
    .stmt (.pairing ids) v ws' ∈ (tickConn ext settings t sch s.db).trace →
    (getEngine ext settings (loadActiveModel vModel)).version = matlabV1 →
    ∀ f ∈ v.assetFrame, f.clientId ∈ ids →
      ∀ o ∈ s.db.assetObservation, IsNearest ext settings f v.assetObservation.rows o →
        o.sensorPPothole ≠ none →
        o.sensorModelVersion = (loadActiveModel vModel).map SensorModel.modelVersion

/-! ### The invariant -/

/-- What the tables record: every score comes from a stored model, and every pair, with a sensor
term or not, from a stored run. -/
structure Recorded (s : Ledger R) : Prop where
  scored : ∀ o ∈ s.db.assetObservation, o.sensorPPothole ≠ none →
    ∃ r ∈ s.db.sensorModel, ScoredBy ext r.model o
  pairRun : ∀ p ∈ s.db.fusionPair, s.db.fusionRun.HasKey p.fusionRunId
  usedRun : ∀ u ∈ s.used, s.db.fusionRun.HasKey u.1
  provenance : s.Provenance ext

variable {ext settings}

/-- A provenance stays when scores, models and runs do, and frames keep what the device saw. -/
theorem HasProvenance.mono {db db' : Database R} {p : FusionPair R} (h : HasProvenance ext db p)
    (hrun : ∀ r ∈ db.fusionRun, r ∈ db'.fusionRun)
    (hobs : ∀ o ∈ db.assetObservation, o.sensorPPothole ≠ none → o ∈ db'.assetObservation)
    (hmodel : ∀ r ∈ db.sensorModel, ∃ r' ∈ db'.sensorModel, r'.model = r.model)
    (hframe : ∀ f ∈ db.assetFrame, ∃ f' ∈ db'.assetFrame, f'.clientId = f.clientId ∧
      f'.deviceProbability = f.deviceProbability) : HasProvenance ext db' p := by
  obtain ⟨run, hr, hid, hprimary⟩ := h
  refine ⟨run, hrun run hr, hid, ?_⟩
  intro hengine
  obtain ⟨o, ho, hevent, hscored, metrics, hmetrics, hversion, f, hf, hfid, r, hr, hrest⟩ :=
    hprimary hengine
  obtain ⟨f', hf', hfid', hprob⟩ := hframe f hf
  obtain ⟨r', hr', hsame⟩ := hmodel r hr
  refine ⟨o, hobs o ho hscored, hevent, hscored, metrics, hmetrics, hversion, f', hf',
    hfid'.trans hfid, r', hr', ?_⟩
  rw [hsame, hprob]
  exact hrest

theorem Recorded.subset {db : Database R} {used used' : List (String × String × String)}
    (h : Recorded ext ⟨db, used⟩) (hsub : ∀ u ∈ used', u ∈ used) : Recorded ext ⟨db, used'⟩ where
  scored := h.scored
  pairRun := h.pairRun
  usedRun := fun u hu ↦ h.usedRun u (hsub u hu)
  provenance := fun p hp hu ↦ h.provenance p hp (hsub _ hu)

/-- Changes and scores keep what the tables record. -/
theorem Recorded.scoredSince {db db' : Database R} {used : List (String × String × String)}
    {model : Option (SensorModel R)} (h : Recorded ext ⟨db, used⟩)
    (hs : ScoredSince ext model db db') : Recorded ext ⟨db', used⟩ where
  scored := by
    intro o ho hp
    rcases hs.observation o ho with ho | hnone | ⟨r, hr, -, hscored⟩
    · obtain ⟨r, hr, hscored⟩ := h.scored o ho hp
      obtain ⟨r', hr', hsame⟩ := hs.modelKept r hr
      exact ⟨r', hr', hsame ▸ hscored⟩
    · exact absurd hnone hp
    · exact ⟨r, hr, hscored⟩
  pairRun := by
    intro p hp
    change db'.fusionRun.HasKey p.fusionRunId
    rw [hs.fusionRun]
    exact h.pairRun p (hs.fusionPair ▸ hp)
  usedRun := by
    intro u hu
    change db'.fusionRun.HasKey u.1
    rw [hs.fusionRun]
    exact h.usedRun u hu
  provenance := by
    intro p hp hu
    refine (h.provenance p (hs.fusionPair ▸ hp) hu).mono ?_ ?_ hs.modelKept ?_
    · intro r hr
      exact hs.fusionRun ▸ hr
    · intro o ho hscored
      obtain ⟨_, _, hby⟩ := h.scored o ho hscored
      exact hs.scoredKept o ho hby.scored
    · intro f hf
      exact ⟨f, hs.frameKept f hf, rfl, rfl⟩

theorem Recorded.changed {db db' : Database R} {used : List (String × String × String)}
    (h : Recorded ext ⟨db, used⟩) (hs : Changed db db') : Recorded ext ⟨db', used⟩ :=
  h.scoredSince (hs.scoredSince : ScoredSince ext none db db')

/-! ### The batch of a tick -/

/-- Only the primary engine has its version. -/
theorem getEngine_of_version {model : Option (SensorModel R)}
    (h : (getEngine ext settings model).version = matlabV1) :
    getEngine ext settings model =
      matlabPortV1Engine ext settings.fusionWS settings.fusionWV := by
  unfold getEngine at h ⊢
  split
  · rfl
  · next hcold =>
    rw [if_neg hcold] at h
    have hother : pythonV1 ≠ matlabV1 := by decide
    exact absurd h hother

/-- The confidence of the primary engine comes from two probabilities. -/
theorem fusedConfidence_congr (wS wV : R) {inp inp' : FusionInput R}
    (hsensor : inp.sensorPPothole = inp'.sensorPPothole)
    (hvisual : inp.visualConfidence = inp'.visualConfidence) :
    (matlabPortV1Fuse ext wS wV inp).fusedConfidence =
      (matlabPortV1Fuse ext wS wV inp').fusedConfidence := by
  unfold matlabPortV1Fuse
  rw [hsensor, hvisual]

section Batch

variable {db s₀ s₁ s₂ s₃ : Database R} {model : Option (SensorModel R)} {t : Tick} {c : DbConn R}
  {ids : List String} {used : List (String × String × String)}

theorem BatchCommit.scoredSince
    (hb : BatchCommit ext settings (Change R) (ScoredSince ext model) model t.runId t.pairNow
      (.fresh db) c ids s₀ s₁ s₂ s₃) : ScoredSince ext model db s₂ :=
  hb.before.trans (((changed_of_arrived hb.toInsert).trans
    (changed_of_arrived hb.toPair)).scoredSince)

/-- A frame of the batch and its scored observation get a pair with a provenance. -/
theorem BatchCommit.hasProvenance
    (hb : BatchCommit ext settings (Change R) (ScoredSince ext model) model t.runId t.pairNow
      (.fresh db) c ids s₀ s₁ s₂ s₃) (hrec : Recorded ext ⟨s₃, used⟩)
    (hfresh : ¬s₃.fusionRun.HasKey t.runId) {f : AssetFrame R} {o : AssetObservation R}
    (hf : f ∈ s₂.assetFrame) (ho : IsNearest ext settings f s₂.assetObservation.rows o)
    (hscored : o.sensorPPothole ≠ none)
    (hstale : (getEngine ext settings model).version = matlabV1 → o ∈ db.assetObservation →
      o.sensorModelVersion = model.map SensorModel.modelVersion) {p : FusionPair R}
    (hp : { p with createdAt := t.pairNow } =
      newPair (getEngine ext settings model) t.runId t.pairNow (candidate ext f o)) :
    HasProvenance ext (applyAll (tickWrites ext settings model t.runId t.pairNow ids
      (pairing ext settings ids s₂)) s₃) p := by
  have hlater := changed_of_arrived hb.toCommit
  have ho₃ := hlater.observationKept o ho.mem
  obtain ⟨runs, heq⟩ := applyAll_tickWrites ext settings model t.pairNow ids
    (pairing ext settings ids s₂) t.runId s₃
  have hrows := fusionRun_tickWrites ext settings model t.pairNow ids (pairing ext settings ids s₂)
    hfresh
  rw [heq] at hrows ⊢
  have hevent : p.eventClientId = o.clientId := congrArg FusionPair.eventClientId hp
  have hframe : p.frameClientId = f.clientId := congrArg FusionPair.frameClientId hp
  have hrun : p.fusionRunId = t.runId := congrArg FusionPair.fusionRunId hp
  have hfused : p.fusedConfidence = ((getEngine ext settings model).fuse
    (candidate ext f o).fusionInput).fusedConfidence := congrArg FusionPair.fusedConfidence hp
  refine ⟨completedRun (getEngine ext settings model) t.runId t.pairNow model ids.length
    (pairing ext settings ids s₂).length, ?_, hrun.symm, ?_⟩
  · rw [Table.mem_def, hrows]
    exact List.mem_append_right _ (List.mem_singleton_self _)
  intro hengine
  have hprimary := getEngine_of_version hengine
  refine ⟨o, ho₃, hevent.symm, hscored, _, rfl, ?_, ?_⟩
  · -- the scores are from before the tick, or from its own model
    rcases hb.scoredSince.observation o ho.mem with hold | hnone | ⟨r, -, rfl, hby⟩
    · exact hstale hengine hold
    · exact absurd hnone hscored
    · exact hby.version
  · obtain ⟨r, hr, hby⟩ := hrec.scored o ho₃ hscored
    obtain ⟨res, hres, hprob⟩ := hby.score
    have hmarked : ∃ f' ∈ markAll ids t.pairNow s₃.assetFrame, f'.clientId = f.clientId ∧
        f'.deviceProbability = f.deviceProbability := by
      refine ⟨_, Table.mem_update_of_mem (key_setProcessed t.pairNow)
        (hlater.frameKept f hf), ?_⟩
      split <;> exact ⟨rfl, rfl⟩
    obtain ⟨f', hf', hfid, hvisual⟩ := hmarked
    refine ⟨f', hf', hfid.trans hframe.symm, r, hr, hby.version, res, settings.fusionWS,
      settings.fusionWV, hres, ?_, ?_⟩
    · change (getEngine ext settings model).weights = _
      rw [hprimary]
      rfl
    · intro inp hsensor hinput
      rw [hfused, hprimary]
      exact fusedConfidence_congr _ _ (hsensor.trans hprob.symm) (hinput.trans hvisual)

/-- The pairing query that a trace names is the one of the batch. -/
theorem mem_sensorPairs {sch : Schedule (Change R)} {s : Database R}
    (hc : c = tickConn ext settings t sch s) {v : Database R}
    (hv : .stmt (.pairing ids) v [] ∈ c.trace) {u : String × String × String}
    (hu : u ∈ sensorPairs ext settings t.runId c.trace) :
    ∃ r ∈ pairing ext settings ids v, r.sensorPPothole ≠ none ∧
      u = (t.runId, r.eventClientId, r.frameClientId) := by
  have hasked : Prog.asked isPairing c.trace ≤ 1 := by
    rw [hc, tickConn]
    exact Prog.asked_run (asks_runFusionJob ext settings t) sch (.fresh s)
  obtain ⟨e, he, hmem⟩ := List.mem_flatMap.mp hu
  cases e with
  | commit s => cases hmem
  | stmt l v' ws =>
    cases l with
    | pairing ids' =>
      cases Prog.entry_unique hasked rfl rfl hv he
      obtain ⟨r, hr, rfl⟩ := List.mem_map.mp hmem
      obtain ⟨hr, hsome⟩ := List.mem_filter.mp hr
      exact ⟨r, hr, Option.isSome_iff_ne_none.mp hsome, rfl⟩
    | _ => cases hmem

/-- A batch keeps the records, and adds those of its pairs. -/
theorem Recorded.batch {sch : Schedule (Change R)} (h : Recorded ext ⟨db, used⟩)
    (hc : c = tickConn ext settings t sch db) {sModel : Database R}
    (hloaded : .stmt .selectActive sModel [] ∈ c.trace) (hmodel : model = loadActiveModel sModel)
    (hstale : NoStaleScore ext settings ⟨db, used⟩ (.tick t sch))
    (hb : BatchCommit ext settings (Change R) (ScoredSince ext model) model t.runId t.pairNow
      (.fresh db) c ids s₀ s₁ s₂ s₃) :
    Recorded ext ⟨c.store, used ++ sensorPairs ext settings t.runId c.trace⟩ := by
  have hlater := changed_of_arrived hb.toCommit
  have hrec : Recorded ext ⟨s₃, used⟩ := h.scoredSince (hb.scoredSince.trans hlater.scoredSince)
  have hfresh : ¬s₃.fusionRun.HasKey t.runId := by
    rw [hlater.fusionRun, (changed_of_arrived hb.toPair).fusionRun]
    exact hb.fresh
  suffices happlied : Recorded ext ⟨applyAll (tickWrites ext settings model t.runId t.pairNow ids
      (pairing ext settings ids s₂)) s₃, used ++ sensorPairs ext settings t.runId c.trace⟩ from
    happlied.changed (changed_of_arrived hb.after)
  have hnew := fun f o ↦ hb.hasProvenance hrec hfresh (f := f) (o := o)
  obtain ⟨runs, heq⟩ := applyAll_tickWrites ext settings model t.pairNow ids
    (pairing ext settings ids s₂) t.runId s₃
  have hrows := fusionRun_tickWrites ext settings model t.pairNow ids (pairing ext settings ids s₂)
    hfresh
  rw [heq] at hrows hnew ⊢
  obtain ⟨v, hv, hvo, hvf⟩ := hb.asked
  have hold : ∀ r ∈ s₃.fusionRun, r ∈ runs := by
    intro r hr
    rw [Table.mem_def, hrows]
    exact List.mem_append_left _ hr
  have hrun : runs.HasKey t.runId := by
    refine Table.hasKey_iff.mpr ⟨completedRun (getEngine ext settings model) t.runId t.pairNow model
      ids.length (pairing ext settings ids s₂).length, ?_, rfl⟩
    rw [Table.mem_def, hrows]
    exact List.mem_append_right _ (List.mem_singleton_self _)
  have hkept : ∀ {id}, s₃.fusionRun.HasKey id → runs.HasKey id := by
    intro id hid
    obtain ⟨r, hr, hk⟩ := Table.hasKey_iff.mp hid
    exact Table.hasKey_iff.mpr ⟨r, hold r hr, hk⟩
  have hpairing : pairing ext settings ids v = pairing ext settings ids s₂ := by
    unfold pairing
    rw [hvo, hvf]
  refine ⟨hrec.scored, ?_, ?_, ?_⟩
  · intro p hp
    rcases of_mem_upsertAll hp with hp | ⟨r, hr, hcols⟩
    · exact hkept (hrec.pairRun p hp)
    · rw [show p.fusionRunId = t.runId from congrArg FusionPair.fusionRunId hcols]
      exact hrun
  · intro u hu
    rcases List.mem_append.mp hu with hu | hu
    · exact hkept (hrec.usedRun u hu)
    · obtain ⟨r, _, _, rfl⟩ := mem_sensorPairs hc hv hu
      exact hrun
  · intro p hp hu
    rcases of_mem_upsertAll hp with hp | ⟨r, hr, hcols⟩
    · rcases List.mem_append.mp hu with hu | hu
      · refine (hrec.provenance p hp hu).mono hold (fun o ho _ ↦ ho) (fun r hr ↦ ⟨r, hr, rfl⟩) ?_
        intro f hf
        refine ⟨_, Table.mem_update_of_mem (key_setProcessed t.pairNow) hf, ?_⟩
        split <;> exact ⟨rfl, rfl⟩
      · -- an older pair has another run
        obtain ⟨r, _, _, heq⟩ := mem_sensorPairs hc hv hu
        have hid : p.fusionRunId = t.runId := congrArg Prod.fst heq
        exact absurd (hid ▸ hrec.pairRun p hp) hfresh
    · have hid : p.fusionRunId = t.runId := congrArg FusionPair.fusionRunId hcols
      rcases List.mem_append.mp hu with hu | hu
      · exact absurd (hid ▸ hrec.usedRun _ hu) hfresh
      · obtain ⟨r', hr', hsome, heq⟩ := mem_sensorPairs hc hv hu
        rw [hpairing] at hr'
        have hframe : r'.frameClientId = r.frameClientId :=
          (congrArg (fun u ↦ u.2.2) heq).symm.trans (congrArg FusionPair.frameClientId hcols)
        have hsame : r' = r := List.inj_on_of_nodup_map pairing_frames_nodup hr' hr hframe
        subst hsame
        obtain ⟨f, hf, hfid, o, ho, rfl⟩ := mem_pairing.mp hr
        refine hnew f o hf ho hsome ?_ hcols
        intro hengine hoDb
        subst hmodel
        exact hstale sModel [] ids v [] (hc ▸ hloaded) (hc ▸ hv) hengine f (hvf ▸ hf) hfid o hoDb
          (hvo ▸ ho) hsome

end Batch

/-! ### Runs -/

/-- A tick that meets the condition keeps the records. -/
theorem Recorded.tick {s : Ledger R} (h : Recorded ext s) (t : Tick)
    (sch : Schedule (Change R)) (hstale : NoStaleScore ext settings s (.tick t sch)) :
    Recorded ext (s.step ext settings (.tick t sch)) := by
  have houtcome := spec_runFusionJob_loaded ext settings (U := Change R)
    (G := fun m ↦ ScoredSince ext m) (c := .fresh s.db) t rfl
    (fun _ _ _ harr ↦ (changed_of_arrived harr).scoredSince) (fun _ _ _ _ ↦ ScoredSince.trans) (by
      intro sm m su rows ws s' hm hloaded hsu hrows _ hws hs'
      have hlater := changed_of_arrived hs'
      refine scoredSince_scoreWrites hws ?_ ?_
      · intro row hrow
        obtain ⟨hmem, hnone⟩ := unscored_of_selectUnscored hrows hrow
        exact ⟨hlater.observationKept row hmem, hnone⟩
      · obtain ⟨r, hr, rfl⟩ := exists_model_of_loaded hloaded
        exact ((changed_of_arrived hsu).trans hlater).modelKept r hr) sch
  -- without a batch no run is committed
  have hsince : ∀ {m}, ScoredSince ext m s.db (tickConn ext settings t sch s.db).store →
      Recorded ext (s.step ext settings (.tick t sch)) := by
    intro m hm
    refine (h.scoredSince hm).subset ?_
    intro u hu
    change u ∈ (if _ ∧ (tickConn ext settings t sch s.db).store.fusionRun.HasKey t.runId then _
      else _) at hu
    rw [hm.fusionRun, if_neg (fun hrun ↦ hrun.1 hrun.2)] at hu
    exact hu
  rcases houtcome with ⟨hfol, _⟩ | ⟨sModel, _, hloaded, ⟨hfol, _⟩ | ⟨ids, s₀, s₁, s₂, s₃, hb⟩⟩
  · exact hsince (m := none) (changed_of_arrived hfol.store).scoredSince
  · exact hsince hfol.store
  · refine (Recorded.batch (c := tickConn ext settings t sch s.db) h rfl hloaded rfl hstale
      hb).subset ?_
    intro u hu
    change u ∈ (if _ then s.used ++ sensorPairs ext settings t.runId
      (tickConn ext settings t sch s.db).trace else s.used) at hu
    split at hu
    · exact hu
    · exact List.mem_append_left _ hu

end History

/-- From a database without scores and pairs, in every history whose ticks meet the condition every
pair whose sensor term was used by the primary engine has its provenance. -/
theorem provenance_recorded [Field R] [LinearOrder R] (ext : Externals R) (settings : Settings R)
    (db : Database R) (hscores : ∀ o ∈ db.assetObservation, o.sensorPPothole = none)
    (hpairs : db.fusionPair = .empty) (s : Ledger R)
    (h : Reaches (fun s e ↦ some (s.step ext settings e)) (NoStaleScore ext settings) ⟨db, []⟩ s) :
    s.Provenance ext := by
  refine (h.invariant (Recorded ext) ?_ ?_).provenance
  · refine ⟨fun o ho hp ↦ absurd (hscores o ho) hp, ?_, fun u hu ↦ absurd hu List.not_mem_nil,
      fun p _ hu ↦ absurd hu List.not_mem_nil⟩
    intro p hp
    change p ∈ db.fusionPair at hp
    rw [hpairs] at hp
    exact absurd hp (Table.not_mem_empty p)
  · intro s e s' hrec hok hstep
    cases hstep
    cases e with
    | change u => exact hrec.changed (changed_apply u s.db)
    | tick t sch => exact hrec.tick t sch hok

/-! ### A model between the report and its frame -/

/-- An empty database after some events. -/
def afterEvents (events : List (Event ℚ)) : Ledger ℚ :=
  events.foldl (Ledger.step Externals.planar (Settings.default ℚ)) ⟨Database.empty, []⟩

/-- A tick that gets the lock, and nothing happens meanwhile. -/
def quietTick (runId : String) (now : DateTime) : Event ℚ := .tick ⟨true, runId, now, now⟩ quiet

/-- A model, a report that a tick scores, and its frame. -/
def scoredBefore : List (Event ℚ) :=
  [.change (.activate meridianModel), .change (.upload (reportAt "event" 0 1)),
    quietTick "run" 10, .change (.upload (frameAt "frame" 0 11))]

/-- The entry loads no other model than this one. -/
def loadsOnly (version : String) : Entry (Database ℚ) (Write ℚ) Statement → Bool
  | .stmt .selectActive v _ => (loadActiveModel v).map SensorModel.modelVersion = some version
  | _ => true

/-- The next tick pairs the report, which has the version of the loaded model; the pair has its
provenance. -/
theorem provenance_recorded_scoredBefore :
    (∃ o ∈ (afterEvents scoredBefore).db.assetObservation.rows, o.sensorPPothole ≠ none) ∧
    (afterEvents (scoredBefore ++ [quietTick "next" 20])).used = [("next", "event", "frame")] ∧
    (afterEvents (scoredBefore ++ [quietTick "next" 20])).Provenance Externals.planar := by
  refine ⟨by decide +kernel, by decide +kernel, ?_⟩
  refine provenance_recorded Externals.planar (Settings.default ℚ) Database.empty
    (fun o ho ↦ absurd ho (Table.not_mem_empty o)) rfl _ ?_
  have hfirst : ∀ o ∈ (afterEvents (scoredBefore.take 2)).db.assetObservation.rows,
      o.sensorPPothole = none := by
    decide +kernel
  have hscored : ∀ o ∈ (afterEvents scoredBefore).db.assetObservation.rows,
      o.sensorModelVersion = some "model" := by
    decide +kernel
  have hloads : ∀ e ∈ (tickConn Externals.planar (Settings.default ℚ) ⟨true, "next", 20, 20⟩ quiet
      (afterEvents scoredBefore).db).trace, loadsOnly "model" e = true := by
    decide +kernel
  refine .next (quietTick "next" 20) (.next (.change (.upload (frameAt "frame" 0 11)))
    (.next (quietTick "run" 10) (.next (.change (.upload (reportAt "event" 0 1)))
      (.next (.change (.activate meridianModel)) .start trivial rfl) trivial rfl) ?_ rfl) trivial
        rfl) ?_ rfl
  · -- the report has no scores before the first tick
    intro vModel ws ids v ws' _ _ _ f _ _ o ho _ hp
    exact absurd (hfirst o ho) hp
  · intro vModel ws ids v ws' hmodel _ _ f _ _ o ho _ _
    have hversion := of_decide_eq_true (hloads _ hmodel)
    exact (hscored o ho).trans hversion.symm

/-- The report is scored, a new model is activated, and only then the frame arrives. -/
def refitBetween : List (Event ℚ) :=
  [.change (.activate meridianModel), .change (.upload (reportAt "event" 0 1)),
    quietTick "run" 10, .change (.activate { meridianModel with modelVersion := "refit" }),
    .change (.upload (frameAt "frame" 0 11)), quietTick "next" 20]

/-- The observation has the version of the first model, and the run records the second. -/
theorem refit_between_report_and_frame :
    ("next", "event", "frame") ∈ (afterEvents refitBetween).used ∧
    (∃ p ∈ (afterEvents refitBetween).db.fusionPair.rows,
      p.fusionRunId = "next" ∧ p.eventClientId = "event" ∧ p.frameClientId = "frame") ∧
    (∃ run ∈ (afterEvents refitBetween).db.fusionRun.rows, run.runId = "next" ∧
      run.engineVersion = matlabV1 ∧
      run.metrics.map FusionMetrics.sensorModelVersion = some (some "refit")) ∧
    (∃ o ∈ (afterEvents refitBetween).db.assetObservation.rows, o.clientId = "event" ∧
      o.sensorModelVersion = some "model") ∧
    ¬(afterEvents refitBetween).Provenance Externals.planar := by
  have hused : ("next", "event", "frame") ∈ (afterEvents refitBetween).used := by decide +kernel
  have hpair : ∃ p ∈ (afterEvents refitBetween).db.fusionPair.rows,
      p.fusionRunId = "next" ∧ p.eventClientId = "event" ∧ p.frameClientId = "frame" := by
    decide +kernel
  have hrun : ∃ run ∈ (afterEvents refitBetween).db.fusionRun.rows, run.runId = "next" ∧
      run.engineVersion = matlabV1 ∧
      run.metrics.map FusionMetrics.sensorModelVersion = some (some "refit") := by
    decide +kernel
  have hobs : ∃ o ∈ (afterEvents refitBetween).db.assetObservation.rows, o.clientId = "event" ∧
      o.sensorModelVersion = some "model" := by
    decide +kernel
  refine ⟨hused, hpair, hrun, hobs, ?_⟩
  intro hprov
  obtain ⟨p, hp, hpr, hpe, hpf⟩ := hpair
  obtain ⟨run, hr, hid, hengine, hmetrics⟩ := hrun
  obtain ⟨o, ho, hoid, hversion⟩ := hobs
  obtain ⟨run', hr', hid', hprimary⟩ := hprov p hp (by rw [hpr, hpe, hpf]; exact hused)
  have hsame : run' = run := Table.eq_of_key hr' hr (hid'.trans (hpr.trans hid.symm))
  subst hsame
  obtain ⟨o', ho', hoid', _, metrics, hm, hv, _⟩ := hprimary hengine
  have hsameObs : o' = o := Table.eq_of_key ho' ho (hoid'.trans (hpe.trans hoid.symm))
  subst hsameObs
  rw [hm, Option.map_some, Option.some_inj] at hmetrics
  rw [hmetrics, hversion] at hv
  exact absurd hv (by decide)

end PotholeServer.Fusion
