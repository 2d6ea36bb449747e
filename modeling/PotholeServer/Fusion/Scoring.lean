import PotholeServer.Fusion.History
import PotholeServer.Sql.Timeline

/-!
# Is every pair computed from a scored observation?

A tick scores the oldest unscored observations up to the batch size, and later pairs the oldest
unprocessed frames up to the same size; the two selections are independent, and reports may
arrive in between. A failure-free tick under arbitrary arrivals is followed slot by slot, which
gives the exact condition under which all its pairs come from scored observations.
-/

namespace PotholeServer.Fusion

open Sql Db Sensor Ingest

variable {R : Type} [Field R] [LinearOrder R]

/-! ### A tick slot by slot -/

section Slots

variable (ext : Externals R) (settings : Settings R) {U : Type} [Effect U (Database R)]
  {arr : Nat → List U} {db : Database R}

/-- The rows that a tick selects for scoring from a snapshot. -/
def toScore (s : Database R) : List (AssetObservation R) :=
  (unscoredQueue s).take settings.fusionBatchSize.toNat

/-- Scoring one of the rows raises. -/
def ScoringRaises (model : SensorModel R) (rows : List (AssetObservation R)) : Prop :=
  ∃ r ∈ rows, ∃ e,
    scoreObservation ext model r.magnitude r.accelStd r.gbarInMax r.speedMps = .error e

/-- The slot of the frame batch query: after the query for the rows to score and, if there are
any, `BEGIN`, one update for each row and `COMMIT`. -/
def frameSlot (arr : Nat → List U) (db : Database R) : Nat :=
  if (toScore settings (seen arr db 3)).isEmpty then 3
  else (toScore settings (seen arr db 3)).length + 5

theorem runsTo_scoreRows (arr : Nat → List U) (db : Database R) (model : SensorModel R)
    (now : DateTime) {rows : List (AssetObservation R)} (h : ¬ScoringRaises ext model rows)
    (n : Nat) (p : List (Write R)) :
    ∃ ws, List.Forall₂ (ScoreWrite ext model now) rows ws ∧
      RunsTo arr (scoreRows ext model now rows) n (seen arr db n) (.active p) (.ok ())
        (n + rows.length) (seen arr db (n + rows.length)) (.active (p ++ ws)) := by
  induction rows generalizing n p with
  | nil =>
    refine ⟨[], .nil, ?_⟩
    rw [List.append_nil]
    exact runs_ret _
  | cons r rest ih =>
    cases hres : scoreObservation ext model r.magnitude r.accelStd r.gbarInMax r.speedMps with
    | error e => exact absurd ⟨r, List.mem_cons_self .., e, hres⟩ h
    | ok res =>
      have hrest : ¬ScoringRaises ext model rest := by
        rintro ⟨r', hr', hraises⟩
        exact h ⟨r', List.mem_cons_of_mem _ hr', hraises⟩
      obtain ⟨ws, hws, hrun⟩ := ih hrest (n + 1)
        (p ++ [.updateScored r.clientId (scoresOf model res) now])
      refine ⟨.updateScored r.clientId (scoresOf model res) now :: ws,
        .cons ⟨res, hres, rfl⟩ hws, ?_⟩
      have hlen : n + (r :: rest).length = n + 1 + rest.length := by
        rw [List.length_cons]
        omega
      rw [scoreRows, hres, hlen]
      rw [List.append_assoc, List.singleton_append] at hrun
      exact runs_bind (runs_ret _) (runs_bind (runs_execute_active rfl trivial) hrun)

theorem runsTo_scoreRows_error (arr : Nat → List U) (db : Database R) (model : SensorModel R)
    (now : DateTime) {rows : List (AssetObservation R)} (h : ScoringRaises ext model rows) (n : Nat)
    (p : List (Write R)) :
    ∃ e n' p', RunsTo arr (scoreRows ext model now rows) n (seen arr db n) (.active p) (.error e)
      n' (seen arr db n') (.active p') := by
  induction rows generalizing n p with
  | nil =>
    obtain ⟨r, hr, _⟩ := h
    cases hr
  | cons r rest ih =>
    rw [scoreRows]
    cases hres : scoreObservation ext model r.magnitude r.accelStd r.gbarInMax r.speedMps with
    | error e => exact ⟨e, n, p, runs_bind_error (runs_ret _)⟩
    | ok res =>
      have hrest : ScoringRaises ext model rest := by
        obtain ⟨r', hr', e, he⟩ := h
        rcases List.mem_cons.mp hr' with rfl | hr'
        · rw [hres] at he
          cases he
        · exact ⟨r', hr', e, he⟩
      obtain ⟨e, n', p', hrun⟩ := ih hrest (n + 1)
        (p ++ [.updateScored r.clientId (scoresOf model res) now])
      exact ⟨e, n', p',
        runs_bind (runs_ret _) (runs_bind (runs_execute_active rfl trivial) hrun)⟩

omit [Field R] [LinearOrder R] in
theorem selectUnscored_eq (hsize : 0 ≤ settings.fusionBatchSize) (s : Database R) :
    selectUnscored settings.fusionBatchSize s = .ok (toScore settings s) := by
  rw [selectUnscored, limitTo, if_neg (not_lt.mpr hsize), toScore]

/-- Scoring that does not raise has committed its scores when the frames are selected. -/
theorem runsTo_scoreUnscored (model : SensorModel R) (now : DateTime)
    (hsize : 0 ≤ settings.fusionBatchSize)
    (h : ¬ScoringRaises ext model (toScore settings (seen arr db 3))) :
    ∃ ws, List.Forall₂ (ScoreWrite ext model now) (toScore settings (seen arr db 3)) ws ∧
      RunsTo arr (scoreUnscored ext settings model now) 2 (seen arr db 2) .auto
        (.ok (toScore settings (seen arr db 3)).length) (frameSlot settings arr db)
        (applyAll ws (seen arr db (frameSlot settings arr db))) .auto := by
  have hfetch : RunsTo arr (Prog.fetch (.selectUnscored settings.fusionBatchSize)
      (selectUnscored settings.fusionBatchSize) : DbProg R _) 2 (seen arr db 2) .auto
      (.ok (toScore settings (seen arr db 3))) 3 (seen arr db 3) .auto :=
    runs_fetch_auto (selectUnscored_eq settings hsize _) trivial
  obtain ⟨ws, hws, hrun⟩ := runsTo_scoreRows ext arr db model now h 4 []
  refine ⟨ws, hws, ?_⟩
  rw [scoreUnscored]
  refine runs_bind hfetch ?_
  unfold frameSlot
  cases hempty : (toScore settings (seen arr db 3)).isEmpty with
  | true =>
    have hnil := List.isEmpty_iff.mp hempty
    rw [hnil] at hws ⊢
    cases hws
    exact runs_ret _
  | false =>
    have hslot : (toScore settings (seen arr db 3)).length + 5 =
        4 + (toScore settings (seen arr db 3)).length + 1 := by omega
    rw [if_neg (by simp), if_neg (by simp), hslot]
    exact runs_bind (runs_transaction hrun) (runs_ret _)

/-- A negative batch size is refused by the query for the rows to score. -/
theorem runsTo_scoreUnscored_refused (model : SensorModel R) (now : DateTime)
    (hsize : settings.fusionBatchSize < 0) :
    RunsTo arr (scoreUnscored ext settings model now) 2 (seen arr db 2) .auto
      (.error (.postgresError negativeLimit)) 3 (seen arr db 3) .auto := by
  have hrefused :
      selectUnscored settings.fusionBatchSize (seen arr db 3) = .error negativeLimit := by
    rw [selectUnscored, limitTo, if_pos hsize]
  rw [scoreUnscored]
  exact runs_bind_error (runs_fetch_error hrefused)

/-- Scoring that raises leaves no effect. -/
theorem runsTo_scoreUnscored_error (model : SensorModel R) (now : DateTime)
    (hsize : 0 ≤ settings.fusionBatchSize)
    (h : ScoringRaises ext model (toScore settings (seen arr db 3))) :
    ∃ e n', RunsTo arr (scoreUnscored ext settings model now) 2 (seen arr db 2) .auto (.error e) n'
      (seen arr db n') .auto := by
  have hfetch : RunsTo arr (Prog.fetch (.selectUnscored settings.fusionBatchSize)
      (selectUnscored settings.fusionBatchSize) : DbProg R _) 2 (seen arr db 2) .auto
      (.ok (toScore settings (seen arr db 3))) 3 (seen arr db 3) .auto :=
    runs_fetch_auto (selectUnscored_eq settings hsize _) trivial
  obtain ⟨e, n', p', hrun⟩ := runsTo_scoreRows_error ext arr db model now h 4 []
  refine ⟨e, n' + 1, ?_⟩
  rw [scoreUnscored]
  refine runs_bind hfetch ?_
  cases hempty : (toScore settings (seen arr db 3)).isEmpty with
  | true =>
    obtain ⟨r, hr, _⟩ := h
    rw [List.isEmpty_iff.mp hempty] at hr
    cases hr
  | false =>
    rw [if_neg (by simp)]
    exact runs_bind_error (runs_transaction_error hrun)

omit [Field R] [LinearOrder R] in
theorem runsTo_upsertPairs (arr : Nat → List U) (engine : FusionEngine R) (runId : String)
    (now : DateTime) (candidates : List (Candidate R)) (n : Nat) (s : Database R)
    (p : List (Write R)) :
    ∃ n' s', Arrived U s s' ∧ RunsTo arr (upsertPairs engine runId now candidates) n s (.active p)
      (.ok ()) n' s'
      (.active (p ++ candidates.map (fun r ↦ .upsertPair (newPair engine runId now r)))) := by
  induction candidates generalizing n s p with
  | nil =>
    refine ⟨n, s, Arrived.refl s, ?_⟩
    rw [List.map_nil, List.append_nil]
    exact runs_ret _
  | cons r rest ih =>
    obtain ⟨n', s', hs', hrun⟩ := ih (n + 1) (applyAll (arr n) s)
      (p ++ [.upsertPair (newPair engine runId now r)])
    rw [List.append_assoc, List.singleton_append] at hrun
    refine ⟨n', s', Arrived.trans ⟨arr n, rfl⟩ hs', ?_⟩
    rw [upsertPairs, List.map_cons]
    exact runs_bind (runs_execute_active rfl trivial) hrun

/-- The state of the pairing query of a batch selected in slot `n` on store `s`. -/
def pairingView (arr : Nat → List U) (n : Nat) (s : Database R) : Database R :=
  applyAll (arr (n + 3)) (applyAll (arr (n + 2)) (applyAll (arr (n + 1)) (applyAll (arr n) s)))

/-- Pairing a batch commits its effects. -/
theorem runsTo_pairAndFuse (model : Option (SensorModel R)) (runId : String) (now : DateTime)
    (n : Nat) (s : Database R) {ids : List String}
    (hids : selectFrameBatch settings.fusionBatchSize (applyAll (arr n) s) = .ok ids)
    (hne : ids ≠ [])
    (hfresh : ¬(applyAll (arr (n + 2)) (applyAll (arr (n + 1))
      (applyAll (arr n) s))).fusionRun.HasKey runId) :
    ∃ a n' s', Arrived U (pairingView arr n s) s' ∧
      RunsTo arr (pairAndFuse ext settings model runId now) n s .auto (.ok a) n'
        (applyAll (tickWrites ext settings model runId now ids
          (pairing ext settings ids (pairingView arr n s))) s') .auto := by
  have hinsert : insertRun (newRun (getEngine ext settings model) runId now ids.length)
      (applyAll ([] : List (Write R)) (applyAll (arr (n + 2)) (applyAll (arr (n + 1))
        (applyAll (arr n) s)))) =
      .ok [.insertRun (newRun (getEngine ext settings model) runId now ids.length)] := by
    rw [insertRun]
    exact if_neg hfresh
  obtain ⟨n', s', hs', hupserts⟩ := runsTo_upsertPairs arr (getEngine ext settings model)
    runId now (pairing ext settings ids (pairingView arr n s)) (n + 4) (pairingView arr n s)
    ([] ++ [.insertRun (newRun (getEngine ext settings model) runId now ids.length)])
  have hpending : [] ++ [.insertRun (newRun (getEngine ext settings model) runId now ids.length)] ++
      (pairing ext settings ids (pairingView arr n s)).map (fun r ↦
        .upsertPair (newPair (getEngine ext settings model) runId now r)) ++
      [.markProcessed ids now] ++
      [.updateRun runId (pairing ext settings ids (pairingView arr n s)).length
        { frames := ids.length
          pairs := (pairing ext settings ids (pairingView arr n s)).length
          sensorModelVersion := model.map SensorModel.modelVersion } now] =
      tickWrites ext settings model runId now ids
        (pairing ext settings ids (pairingView arr n s)) := by
    simp [tickWrites]
  have hbody : RunsTo arr (pairingTransaction ext settings model runId now ids) (n + 2)
      (applyAll (arr (n + 1)) (applyAll (arr n) s)) (.active [])
      (.ok (pairing ext settings ids (pairingView arr n s)).length) (n' + 2)
      (applyAll (arr (n' + 1)) (applyAll (arr n') s'))
      (.active (tickWrites ext settings model runId now ids
        (pairing ext settings ids (pairingView arr n s)))) := by
    rw [pairingTransaction, ← hpending]
    refine runs_bind (runs_execute_active hinsert trivial) ?_
    refine runs_bind (a := pairing ext settings ids (pairingView arr n s))
      (runs_fetch_active rfl trivial) ?_
    refine runs_bind hupserts ?_
    refine runs_bind (runs_execute_active rfl trivial) ?_
    refine runs_bind (runs_execute_active rfl trivial) ?_
    exact runs_ret _
  refine ⟨(pairing ext settings ids (pairingView arr n s)).length, n' + 2 + 1,
    applyAll (arr (n' + 2)) (applyAll (arr (n' + 1)) (applyAll (arr n') s')), ?_, ?_⟩
  · exact hs'.trans ⟨arr n' ++ arr (n' + 1) ++ arr (n' + 2), by
      rw [applyAll_append, applyAll_append]⟩
  · rw [pairAndFuse]
    refine runs_bind (runs_fetch_auto hids trivial) ?_
    rw [if_neg (by simpa using hne)]
    exact runs_transaction hbody

end Slots

/-! ### With and without the scores -/

section Shadow

/-- The same report; a scored one has both columns, any other is unchanged. -/
structure ScoredAs (scored : List String) (o o' : AssetObservation R) : Prop where
  same : SameReport o o'
  set : o.clientId ∈ scored → o'.sensorPPothole ≠ none ∧ o'.sensorSeverity ≠ none
  kept : o.clientId ∉ scored → o' = o

/-- The two databases differ in the scores of some observations only. -/
structure Shadow (scored : List String) (u s : Database R) : Prop where
  assetFrame : s.assetFrame = u.assetFrame
  fusionRun : s.fusionRun = u.fusionRun
  fusionPair : s.fusionPair = u.fusionPair
  forward : ∀ o ∈ u.assetObservation, ∃ o' ∈ s.assetObservation, ScoredAs scored o o'
  backward : ∀ o' ∈ s.assetObservation, ∃ o ∈ u.assetObservation, ScoredAs scored o o'
  present : ∀ id ∈ scored, u.assetObservation.HasKey id

variable {scored : List String} {u s : Database R}

omit [Field R] [LinearOrder R] in
theorem ScoredAs.refl {o : AssetObservation R} (h : o.clientId ∉ scored) : ScoredAs scored o o :=
  ⟨.refl o, fun hin ↦ absurd hin h, fun _ ↦ rfl⟩

omit [Field R] [LinearOrder R] in
theorem Shadow.refl (s : Database R) : Shadow [] s s where
  assetFrame := rfl
  fusionRun := rfl
  fusionPair := rfl
  forward := fun o ho ↦ ⟨o, ho, .refl List.not_mem_nil⟩
  backward := fun o ho ↦ ⟨o, ho, .refl List.not_mem_nil⟩
  present := fun _ h ↦ absurd h List.not_mem_nil

omit [Field R] [LinearOrder R] in
theorem Shadow.hasKey_iff (h : Shadow scored u s) {id : String} :
    s.assetObservation.HasKey id ↔ u.assetObservation.HasKey id := by
  rw [Table.hasKey_iff, Table.hasKey_iff]
  constructor
  · rintro ⟨o', ho', hid⟩
    obtain ⟨o, ho, hscored⟩ := h.backward o' ho'
    exact ⟨o, ho, hscored.same.clientId.symm.trans hid⟩
  · rintro ⟨o, ho, hid⟩
    obtain ⟨o', ho', hscored⟩ := h.forward o ho
    exact ⟨o', ho', hscored.same.clientId.trans hid⟩

omit [Field R] [LinearOrder R] in
/-- An upload does the same to both. -/
theorem Shadow.upload (h : Shadow scored u s) (up : Upload R) :
    Shadow scored (u.write up.write) (s.write up.write) := by
  cases up with
  | frame deviceId m ts jpegUrl receivedAt =>
    refine ⟨?_, h.fusionRun, h.fusionPair, h.forward, h.backward, h.present⟩
    simp only [Upload.write, Database.write, h.assetFrame]
  | event deviceId e ts receivedAt =>
    have hnew : ¬u.assetObservation.HasKey (key (newObservation deviceId e ts receivedAt)) →
        (newObservation deviceId e ts receivedAt).clientId ∉ scored := by
      intro hfree hin
      exact hfree (h.present _ hin)
    refine ⟨h.assetFrame, h.fusionRun, h.fusionPair, ?_, ?_, ?_⟩
    · intro o ho
      rcases Table.mem_insertNew.mp ho with ho | ⟨rfl, hfree⟩
      · obtain ⟨o', ho', hscored⟩ := h.forward o ho
        exact ⟨o', Table.mem_insertNew_of_mem _ ho', hscored⟩
      · exact ⟨_, Table.mem_insertNew.mpr (.inr ⟨rfl, fun hs ↦ hfree (h.hasKey_iff.mp hs)⟩),
          .refl (hnew hfree)⟩
    · intro o' ho'
      rcases Table.mem_insertNew.mp ho' with ho' | ⟨rfl, hfree⟩
      · obtain ⟨o, ho, hscored⟩ := h.backward o' ho'
        exact ⟨o, Table.mem_insertNew_of_mem _ ho, hscored⟩
      · have hfree' := fun hu ↦ hfree (h.hasKey_iff.mpr hu)
        exact ⟨_, Table.mem_insertNew.mpr (.inr ⟨rfl, hfree'⟩), .refl (hnew hfree')⟩
    · intro id hid
      exact Table.hasKey_insertNew.mpr (.inl (h.present id hid))

omit [Field R] [LinearOrder R] in
theorem Shadow.uploads (h : Shadow scored u s) (ups : List (Upload R)) :
    Shadow scored (applyAll ups u) (applyAll ups s) := by
  induction ups generalizing u s with
  | nil => exact h
  | cons up rest ih => exact ih (h.upload up)

omit [Field R] [LinearOrder R] in
/-- Scoring one more observation. -/
theorem Shadow.score (h : Shadow scored u s) {id : String} (hid : u.assetObservation.HasKey id)
    (scores : Scores R) (now : DateTime) :
    Shadow (id :: scored) u (s.write (.updateScored id scores now)) := by
  have hone : ∀ o o', ScoredAs scored o o' → ScoredAs (id :: scored) o
      (if decide (o'.clientId = id) then o'.setScores scores now else o') := by
    intro o o' hs
    by_cases heq : o'.clientId = id
    · rw [if_pos (decide_eq_true heq)]
      refine ⟨hs.same.trans ⟨rfl, rfl, rfl, rfl⟩, fun _ ↦ ⟨by simp [AssetObservation.setScores],
        by simp [AssetObservation.setScores]⟩, fun hout ↦ absurd ?_ hout⟩
      rw [← heq, hs.same.clientId]
      exact List.mem_cons_self ..
    · rw [if_neg (by simpa using heq)]
      have hne : o.clientId ≠ id := fun he ↦ heq (hs.same.clientId.trans he)
      refine ⟨hs.same, ?_, fun hout ↦ hs.kept (fun hin ↦ hout (List.mem_cons_of_mem _ hin))⟩
      intro hin
      exact hs.set ((List.mem_cons.mp hin).resolve_left hne)
  refine ⟨h.assetFrame, h.fusionRun, h.fusionPair, ?_, ?_, ?_⟩
  · intro o ho
    obtain ⟨o', ho', hs⟩ := h.forward o ho
    exact ⟨_, Table.mem_update_of_mem (p := fun r ↦ r.clientId = id)
      (f := AssetObservation.setScores scores now) (fun _ ↦ rfl) ho', hone o o' hs⟩
  · intro o'' ho''
    have hupdate : ∃ o' ∈ s.assetObservation,
        (if decide (o'.clientId = id) then o'.setScores scores now else o') = o'' :=
      List.mem_map.mp ho''
    obtain ⟨o', ho', rfl⟩ := hupdate
    obtain ⟨o, ho, hs⟩ := h.backward o' ho'
    exact ⟨o, ho, hone o o' hs⟩
  · intro id' hid'
    rcases List.mem_cons.mp hid' with rfl | hid'
    · exact hid
    · exact h.present id' hid'

omit [Field R] [LinearOrder R] in
theorem Shadow.congr {scored' : List String} (h : Shadow scored u s)
    (heq : ∀ id, id ∈ scored ↔ id ∈ scored') : Shadow scored' u s where
  assetFrame := h.assetFrame
  fusionRun := h.fusionRun
  fusionPair := h.fusionPair
  forward := by
    intro o ho
    obtain ⟨o', ho', hs⟩ := h.forward o ho
    exact ⟨o', ho', hs.same, fun hin ↦ hs.set ((heq _).mpr hin),
      fun hout ↦ hs.kept (fun hin ↦ hout ((heq _).mp hin))⟩
  backward := by
    intro o' ho'
    obtain ⟨o, ho, hs⟩ := h.backward o' ho'
    exact ⟨o, ho, hs.same, fun hin ↦ hs.set ((heq _).mpr hin),
      fun hout ↦ hs.kept (fun hin ↦ hout ((heq _).mp hin))⟩
  present := fun id hid ↦ h.present id ((heq id).mpr hid)

/-- The scores of the selected rows. -/
theorem Shadow.scores {ext : Externals R} {model : SensorModel R} {now : DateTime}
    {rows : List (AssetObservation R)} {ws : List (Write R)}
    (hws : List.Forall₂ (ScoreWrite ext model now) rows ws)
    (hrows : ∀ r ∈ rows, u.assetObservation.HasKey r.clientId) (h : Shadow scored u s) :
    Shadow (rows.map (fun r ↦ r.clientId) ++ scored) u (applyAll ws s) := by
  induction hws generalizing scored s with
  | nil => exact h
  | @cons r w rest ws hw _ ih =>
    obtain ⟨res, _, rfl⟩ := hw
    have hstep := h.score (hrows r (List.mem_cons_self ..)) (scoresOf model res) now
    have hrest := ih (fun r' hr' ↦ hrows r' (List.mem_cons_of_mem _ hr')) hstep
    refine hrest.congr ?_
    intro id
    simp only [List.map_cons, List.cons_append, List.mem_append, List.mem_cons]
    tauto

omit [Field R] in
/-- The nearest observation is the same one, with or without the scores. -/
theorem Shadow.isNearest (h : Shadow scored u s) {ext : Externals R} {settings : Settings R}
    {f : AssetFrame R} {o o' : AssetObservation R} (ho' : o' ∈ s.assetObservation)
    (hs : ScoredAs scored o o') (ho : o ∈ u.assetObservation) :
    IsNearest ext settings f s.assetObservation.rows o' ↔
      IsNearest ext settings f u.assetObservation.rows o := by
  constructor
  · intro hn
    refine hn.of_sameReport (.refl f) ?_ ho hs.same.symm
    intro a ha
    obtain ⟨a', ha', hsa⟩ := h.forward a ha
    exact ⟨a', ha', hsa.same.symm⟩
  · intro hn
    refine hn.of_sameReport (.refl f) ?_ ho' hs.same
    intro a' ha'
    obtain ⟨a, ha, hsa⟩ := h.backward a' ha'
    exact ⟨a, ha, hsa.same⟩

end Shadow

/-! ### The condition -/

section Condition

/-- Both columns of the sensor model are set. -/
def HasScores (o : AssetObservation R) : Prop := o.sensorPPothole ≠ none ∧ o.sensorSeverity ≠ none

instance [DecidableEq R] (o : AssetObservation R) : Decidable (HasScores o) :=
  inferInstanceAs (Decidable (_ ∧ _))

/-- Every pair of the run was computed from an observation with both columns set. -/
def PairsScored (runId : String) (db : Database R) : Prop :=
  ∀ p ∈ db.fusionPair, p.fusionRunId = runId →
    ∃ o ∈ db.assetObservation, o.clientId = p.eventClientId ∧ HasScores o

/-- Scoring raises, so that nothing is paired, or the nearest report of every frame of the batch,
as the tables stand at the pairing query, is among the rows selected for scoring or was scored
before. -/
def ScoredInTime (ext : Externals R) (settings : Settings R) (model : SensorModel R)
    (arr : Nat → List (Upload R)) (db : Database R) : Prop :=
  ScoringRaises ext model (toScore settings (seen arr db 3)) ∨
    ∀ f ∈ (frameQueue (seen arr db (frameSlot settings arr db + 1))).take
        settings.fusionBatchSize.toNat,
      ∀ o, IsNearest ext settings f
          (seen arr db (frameSlot settings arr db + 4)).assetObservation.rows o →
        o.clientId ∈ (toScore settings (seen arr db 3)).map (fun r ↦ r.clientId) ∨ HasScores o

variable {ext : Externals R} {settings : Settings R} {arr : Nat → List (Upload R)}
  {db : Database R}

omit [Field R] [LinearOrder R] in
theorem pairsScored_of_fusionPair {runId : String} {s : Database R}
    (hpair : ∀ p ∈ db.fusionPair, p.fusionRunId ≠ runId) (h : s.fusionPair = db.fusionPair) :
    PairsScored runId s := by
  intro p hp hrun
  rw [h] at hp
  exact absurd hrun (hpair p hp)

/-- A committed batch: its pairs are computed from scored observations exactly if the nearest
reports of its frames were selected for scoring or had been scored before. -/
theorem pairsScored_batch_iff {model : Option (SensorModel R)} {runId : String} {now : DateTime}
    {ids scored : List String} {u s s' final : Database R} (hshadow : Shadow scored u s)
    (hs' : Uploaded s s')
    (hfinal : Uploaded (applyAll (tickWrites ext settings model runId now ids
      (pairing ext settings ids s)) s') final)
    (hpair : ∀ p ∈ s'.fusionPair, p.fusionRunId ≠ runId) :
    PairsScored runId final ↔ ∀ f ∈ u.assetFrame, f.clientId ∈ ids →
      ∀ o, IsNearest ext settings f u.assetObservation.rows o →
        o.clientId ∈ scored ∨ HasScores o := by
  obtain ⟨runs, heq⟩ := applyAll_tickWrites ext settings model now ids
    (pairing ext settings ids s) runId s'
  rw [heq] at hfinal
  have hkept : ∀ o ∈ s.assetObservation, o ∈ final.assetObservation :=
    fun o ho ↦ hfinal.observationKept o (hs'.observationKept o ho)
  have hpairs := hfinal.fusionPair
  dsimp only at hpairs
  constructor
  · intro h f hf hid o ho
    obtain ⟨o', ho', hscored⟩ := hshadow.forward o ho.mem
    have hnear := (hshadow.isNearest ho' hscored ho.mem).mpr ho
    have hcand : candidate ext f o' ∈ pairing ext settings ids s :=
      mem_pairing.mpr ⟨f, hshadow.assetFrame ▸ hf, hid, o', hnear, rfl⟩
    obtain ⟨p, hp, hkey, hrun⟩ := exists_mem_upsertAll (getEngine ext settings model) runId
      now s'.fusionPair hcand
    obtain ⟨o'', ho'', hid'', hset⟩ := h p (hpairs ▸ hp) hrun
    have hsame : o'' = o' := by
      have hevent : p.eventClientId = o'.clientId := congrArg Prod.fst hkey
      exact Table.eq_of_key ho'' (hkept o' ho') (hid''.trans hevent)
    by_cases hin : o.clientId ∈ scored
    · exact .inl hin
    · rw [hsame, hscored.kept hin] at hset
      exact .inr hset
  · intro h p hp hrun
    rw [hpairs] at hp
    rcases of_mem_upsertAll hp with hp | ⟨r, hr, hcols⟩
    · exact absurd hrun (hpair p hp)
    · obtain ⟨f, hf, hid, o', hnear, rfl⟩ := mem_pairing.mp hr
      obtain ⟨o, ho, hscored⟩ := hshadow.backward o' hnear.mem
      have hevent : p.eventClientId = o'.clientId := congrArg (fun p ↦ p.eventClientId) hcols
      refine ⟨o', hkept o' hnear.mem, hevent.symm, ?_⟩
      by_cases hin : o.clientId ∈ scored
      · exact hscored.set hin
      · have hcond := h f (hshadow.assetFrame ▸ hf) hid o
          ((hshadow.isNearest hnear.mem hscored ho).mp hnear)
        rw [hscored.kept hin]
        exact hcond.resolve_left hin

/-- A whole tick ends where its `try` block ends, after the unlock. -/
theorem store_of_fuseTick {t : Tick} (hlocked : t.locked = true) {r : Except Exn Unit} {n : Nat}
    {s : Database R}
    (h : RunsTo arr (fuseTick ext settings t) 1 (seen arr db 1) .auto r n s .auto) :
    (runTick ext settings t (arriving arr) db).conn.store = applyAll (arr n) s := by
  have hrun : RunsTo arr (runFusionJob ext settings t) 0 db .auto r (n + 1) (applyAll (arr n) s)
      .auto := by
    rw [runFusionJob, hlocked]
    exact runs_bind (runs_execute_auto trivial) (runs_tryFinally h (runs_execute_auto trivial))
  exact hrun.whole.1

omit [Field R] [LinearOrder R] in
theorem loadActiveModel_of_uploaded {s : Database R} (h : Uploaded db s) :
    loadActiveModel s = loadActiveModel db := by
  rw [loadActiveModel, h.sensorModel, loadActiveModel]

/-- The `try` block with an active model, when scoring raises or is refused. -/
theorem runsTo_fuseTick_error {t : Tick} {model : SensorModel R} {e : Exn} {n : Nat}
    {s : Database R} (hactive : loadActiveModel (seen arr db 2) = some model)
    (h : RunsTo arr (scoreUnscored ext settings model t.scoreNow) 2 (seen arr db 2) .auto
      (.error e) n s .auto) :
    RunsTo arr (fuseTick ext settings t) 1 (seen arr db 1) .auto (.error e) n s .auto := by
  rw [fuseTick]
  refine runs_bind (runs_fetch_auto rfl trivial) ?_
  refine runs_bind_error ?_
  change RunsTo arr (scoreIfModel ext settings (loadActiveModel (seen arr db 2)) _) _ _ _ _ _ _ _
  rw [hactive]
  exact runs_bind_error h

/-- The `try` block with an active model: scoring, then pairing. -/
theorem runsTo_fuseTick {t : Tick} {model : SensorModel R} {a b n n' : Nat} {s s' : Database R}
    (hactive : loadActiveModel (seen arr db 2) = some model)
    (hscore : RunsTo arr (scoreUnscored ext settings model t.scoreNow) 2 (seen arr db 2) .auto
      (.ok a) n s .auto)
    (hpair : RunsTo arr (pairAndFuse ext settings (some model) t.runId t.pairNow) n s .auto
      (.ok b) n' s' .auto) :
    RunsTo arr (fuseTick ext settings t) 1 (seen arr db 1) .auto (.ok ()) n' s' .auto := by
  rw [fuseTick]
  refine runs_bind (runs_fetch_auto rfl trivial) ?_
  change RunsTo arr (scoreIfModel ext settings (loadActiveModel (seen arr db 2)) _ >>= fun _ ↦
    pairAndFuse ext settings (loadActiveModel (seen arr db 2)) _ _ >>= _) _ _ _ _ _ _ _
  rw [hactive]
  refine runs_bind (runs_bind hscore (runs_ret _)) ?_
  exact runs_bind hpair (runs_ret _)

omit [Field R] [LinearOrder R] in
theorem selectFrameBatch_eq (hsize : 0 ≤ settings.fusionBatchSize) (s : Database R) :
    selectFrameBatch settings.fusionBatchSize s =
      .ok (((frameQueue s).take settings.fusionBatchSize.toNat).map (fun f ↦ f.clientId)) := by
  rw [selectFrameBatch, limitTo, if_neg (not_lt.mpr hsize)]
  rfl

omit [Field R] [LinearOrder R] in
theorem frameQueue_congr {s s' : Database R} (h : s.assetFrame = s'.assetFrame) :
    frameQueue s = frameQueue s' := by
  rw [frameQueue, frameQueue, h]

omit [Field R] [LinearOrder R] in
/-- The frames of the batch in a later state are those that the batch query returned. -/
theorem frames_of_batch_iff {s u : Database R} (hu : Uploaded s u) {n : Nat}
    {P : AssetFrame R → Prop} :
    (∀ f ∈ u.assetFrame, f.clientId ∈ ((frameQueue s).take n).map (fun f ↦ f.clientId) → P f) ↔
      ∀ f ∈ (frameQueue s).take n, P f := by
  have hqueue : ∀ f ∈ (frameQueue s).take n, f ∈ u.assetFrame := by
    intro f hf
    have hmem := List.mem_of_mem_take hf
    rw [frameQueue, mem_orderBy] at hmem
    exact hu.frameKept f (List.mem_filter.mp hmem).1
  constructor
  · intro h f hf
    exact h f (hqueue f hf) (List.mem_map_of_mem hf)
  · intro h f hf hid
    obtain ⟨g, hg, hgid⟩ := List.mem_map.mp hid
    have heq : g = f := Table.eq_of_key (hqueue g hg) hf hgid
    exact heq ▸ h g hg

section Cases

variable {t : Tick} {model : SensorModel R}

omit [Field R] [LinearOrder R] in
theorem uploaded_seen (arr : Nat → List (Upload R)) (db : Database R) (n : Nat) :
    Uploaded db (seen arr db n) := uploaded_of_arrived (arrived_seen arr db n)

omit [Field R] [LinearOrder R] in
theorem uploaded_arrivals (us : List (Upload R)) (s : Database R) : Uploaded s (applyAll us s) :=
  uploaded_of_arrived ⟨us, rfl⟩

/-- A tick whose scoring fails writes no pair. -/
theorem pairsScored_of_error (hlocked : t.locked = true)
    (hmodel : loadActiveModel (seen arr db 2) = some model)
    (hpair : ∀ p ∈ db.fusionPair, p.fusionRunId ≠ t.runId) {e : Exn} {n : Nat}
    (hscore : RunsTo arr (scoreUnscored ext settings model t.scoreNow) 2 (seen arr db 2) .auto
      (.error e) n (seen arr db n) .auto) :
    PairsScored t.runId (runTick ext settings t (arriving arr) db).conn.store := by
  rw [store_of_fuseTick hlocked (runsTo_fuseTick_error hmodel hscore)]
  exact pairsScored_of_fusionPair hpair
    ((uploaded_seen arr db n).trans (uploaded_arrivals (arr n) _)).fusionPair

/-- When scoring succeeds, the frames are selected from a database that has the scores. -/
theorem exists_shadow (t : Tick) (model : SensorModel R) (hsize : 0 ≤ settings.fusionBatchSize)
    (h : ¬ScoringRaises ext model (toScore settings (seen arr db 3))) :
    ∃ s a, Shadow ((toScore settings (seen arr db 3)).map (fun r ↦ r.clientId))
        (seen arr db (frameSlot settings arr db)) s ∧
      RunsTo arr (scoreUnscored ext settings model t.scoreNow) 2 (seen arr db 2) .auto (.ok a)
        (frameSlot settings arr db) s .auto := by
  obtain ⟨ws, hws, hscore⟩ := runsTo_scoreUnscored ext settings model t.scoreNow hsize h
  have hlate : 3 ≤ frameSlot settings arr db := by
    unfold frameSlot
    split <;> omega
  have hkeys : ∀ r ∈ toScore settings (seen arr db 3),
      (seen arr db (frameSlot settings arr db)).assetObservation.HasKey r.clientId := by
    intro r hr
    have hmem := List.mem_of_mem_take hr
    rw [unscoredQueue, mem_orderBy] at hmem
    have hup := uploaded_of_arrived (arrived_seen_of_le arr db hlate)
    exact Table.hasKey_of_mem (hup.observationKept r (List.mem_filter.mp hmem).1)
  have hshadow := (Shadow.refl (seen arr db (frameSlot settings arr db))).scores hws hkeys
  rw [List.append_nil] at hshadow
  exact ⟨_, _, hshadow, hscore⟩

variable {scored : List String} {k a : Nat} {s : Database R}

/-- Without a waiting frame the tick writes no pair. -/
theorem pairsScored_of_no_frame (hlocked : t.locked = true)
    (hmodel : loadActiveModel (seen arr db 2) = some model)
    (hpair : ∀ p ∈ db.fusionPair, p.fusionRunId ≠ t.runId)
    (hsize : 0 ≤ settings.fusionBatchSize) (hshadow : Shadow scored (seen arr db k) s)
    (hscore : RunsTo arr (scoreUnscored ext settings model t.scoreNow) 2 (seen arr db 2) .auto
      (.ok a) k s .auto)
    (hempty : (frameQueue (seen arr db (k + 1))).take settings.fusionBatchSize.toNat = []) :
    PairsScored t.runId (runTick ext settings t (arriving arr) db).conn.store := by
  have hids := selectFrameBatch_eq hsize (applyAll (arr k) s)
  rw [frameQueue_congr (hshadow.uploads (arr k)).assetFrame] at hids
  have hpairing : RunsTo arr (pairAndFuse ext settings (some model) t.runId t.pairNow) k s .auto
      (.ok 0) (k + 1) (applyAll (arr k) s) .auto := by
    rw [pairAndFuse]
    apply runs_bind (runs_fetch_auto hids trivial)
    change RunsTo arr (if (((frameQueue (seen arr db (k + 1))).take _).map _).isEmpty then _
      else _) _ _ _ _ _ _ _
    rw [hempty]
    exact runs_ret _
  rw [store_of_fuseTick hlocked (runsTo_fuseTick hmodel hscore hpairing)]
  apply pairsScored_of_fusionPair hpair
  rw [((uploaded_arrivals (arr k) s).trans (uploaded_arrivals (arr (k + 1)) _)).fusionPair,
    hshadow.fusionPair, (uploaded_seen arr db k).fusionPair]

/-- A tick that pairs a batch, selected in slot `k` and paired in slot `k + 3`. -/
theorem pairsScored_paired_iff (hlocked : t.locked = true)
    (hmodel : loadActiveModel (seen arr db 2) = some model)
    (hrun : ¬db.fusionRun.HasKey t.runId)
    (hpair : ∀ p ∈ db.fusionPair, p.fusionRunId ≠ t.runId)
    (hsize : 0 ≤ settings.fusionBatchSize) (hshadow : Shadow scored (seen arr db k) s)
    (hscore : RunsTo arr (scoreUnscored ext settings model t.scoreNow) 2 (seen arr db 2) .auto
      (.ok a) k s .auto)
    (hne : (frameQueue (seen arr db (k + 1))).take settings.fusionBatchSize.toNat ≠ []) :
    PairsScored t.runId (runTick ext settings t (arriving arr) db).conn.store ↔
      ∀ f ∈ (frameQueue (seen arr db (k + 1))).take settings.fusionBatchSize.toNat,
        ∀ o, IsNearest ext settings f (seen arr db (k + 4)).assetObservation.rows o →
          o.clientId ∈ scored ∨ HasScores o := by
  have hids := selectFrameBatch_eq hsize (applyAll (arr k) s)
  rw [frameQueue_congr (hshadow.uploads (arr k)).assetFrame] at hids
  have hfresh : ¬(applyAll (arr (k + 2)) (applyAll (arr (k + 1)) (applyAll (arr k)
      s))).fusionRun.HasKey t.runId := by
    have hup := ((uploaded_arrivals (arr k) s).trans (uploaded_arrivals (arr (k + 1)) _)).trans
      (uploaded_arrivals (arr (k + 2)) _)
    rw [hup.fusionRun, hshadow.fusionRun, (uploaded_seen arr db k).fusionRun]
    exact hrun
  obtain ⟨_, n, s', hs', hpairing⟩ := runsTo_pairAndFuse ext settings (some model) t.runId
    t.pairNow k s hids (fun hnil ↦ hne (List.map_eq_nil_iff.mp hnil)) hfresh
  have hview : Shadow scored (seen arr db (k + 4)) (pairingView arr k s) :=
    (((hshadow.uploads (arr k)).uploads (arr (k + 1))).uploads (arr (k + 2))).uploads (arr (k + 3))
  have hafter := uploaded_of_arrived hs'
  have hpair' : ∀ p ∈ s'.fusionPair, p.fusionRunId ≠ t.runId := by
    rw [hafter.fusionPair, hview.fusionPair, (uploaded_seen arr db (k + 4)).fusionPair]
    exact hpair
  rw [store_of_fuseTick hlocked (runsTo_fuseTick hmodel hscore hpairing),
    pairsScored_batch_iff hview hafter (uploaded_arrivals (arr n) _) hpair']
  have hlater : Uploaded (seen arr db (k + 1)) (seen arr db (k + 4)) :=
    uploaded_of_arrived (arrived_seen_of_le arr db (by omega))
  exact frames_of_batch_iff hlater

end Cases

/-- A tick that gets the lock, with an active model, under any arrivals: all its pairs are
computed from scored observations exactly under `ScoredInTime`. -/
theorem pairsScored_iff (ext : Externals R) (settings : Settings R) (t : Tick)
    (arr : Nat → List (Upload R)) (db : Database R) (model : SensorModel R)
    (hlocked : t.locked = true) (hactive : loadActiveModel db = some model)
    (hrun : ¬db.fusionRun.HasKey t.runId) (hpair : ∀ p ∈ db.fusionPair, p.fusionRunId ≠ t.runId) :
    PairsScored t.runId (runTick ext settings t (arriving arr) db).conn.store ↔
      ScoredInTime ext settings model arr db := by
  have hmodel : loadActiveModel (seen arr db 2) = some model :=
    (loadActiveModel_of_uploaded (uploaded_seen arr db 2)).trans hactive
  by_cases hsize : 0 ≤ settings.fusionBatchSize
  swap
  · -- the query for the rows to score is refused
    have hneg := not_le.mp hsize
    have hscored := pairsScored_of_error hlocked hmodel hpair
      (runsTo_scoreUnscored_refused ext settings model t.scoreNow hneg)
    have htime : ScoredInTime ext settings model arr db := by
      refine .inr ?_
      rw [Int.toNat_of_nonpos hneg.le]
      intro f hf
      cases hf
    exact iff_of_true hscored htime
  by_cases hraises : ScoringRaises ext model (toScore settings (seen arr db 3))
  · -- nothing is committed
    obtain ⟨e, n, hscore⟩ := runsTo_scoreUnscored_error ext settings model t.scoreNow hsize hraises
    exact iff_of_true (pairsScored_of_error hlocked hmodel hpair hscore) (.inl hraises)
  obtain ⟨s, a, hshadow, hscore⟩ := exists_shadow t model hsize hraises
  rw [ScoredInTime, or_iff_right hraises]
  by_cases hempty : (frameQueue (seen arr db (frameSlot settings arr db + 1))).take
      settings.fusionBatchSize.toNat = []
  · rw [hempty]
    exact iff_of_true
      (pairsScored_of_no_frame hlocked hmodel hpair hsize hshadow hscore hempty)
      (fun _ hf ↦ absurd hf List.not_mem_nil)
  · exact pairsScored_paired_iff hlocked hmodel hrun hpair hsize hshadow hscore hempty

end Condition

/-! ### A report that arrives too late -/

/-- A model with one component, which stands for potholes. -/
def meridianModel : SensorModel ℚ where
  modelVersion := "model"
  standardization := ⟨0, 1, 0, 1⟩
  classMap := [(0, .pothole)]
  severityCalib := ⟨5, 2⟩
  k := 1
  nObservations := 100
  iforest := none
  components := [⟨[0, 0], [[1, 0], [0, 1]], 1⟩]

/-- A database with an active model and nothing else. -/
def modelDb : Database ℚ :=
  { Database.empty with
    sensorModel := Table.empty.insertNew ⟨meridianModel, true⟩
    activeUnique := by
      intro m hm m' hm' _ _
      rcases Table.mem_insertNew.mp hm with hm | ⟨rfl, _⟩
      · exact absurd hm (Table.not_mem_empty m)
      · rcases Table.mem_insertNew.mp hm' with hm' | ⟨rfl, _⟩
        · exact absurd hm' (Table.not_mem_empty m')
        · rfl }

/-- A report and a frame that are uploaded between scoring and the batch query. -/
def lateArrivals (n : Nat) : List (Upload ℚ) :=
  if n = 3 then [reportAt "event" 0 1, frameAt "frame" 0 2] else []

/-- Two unscored reports, the older one far away, and a frame near the younger one. -/
def backlogDb : Database ℚ :=
  applyAll [reportAt "far" 1 1, reportAt "near" 0 2, frameAt "frame" 0 3] modelDb

/-- A tick that gets the lock. -/
def scoringTick : Tick := ⟨true, "run", 10, 11⟩

/-- With the default settings a report that arrives after scoring is paired without scores; so is
one that the batch size leaves in the backlog. -/
theorem unscored_paired :
    (loadActiveModel modelDb = some meridianModel ∧
      (Settings.default ℚ).fusionEngineVersion = matlabV1 ∧
      ¬PairsScored "run" (runTick Externals.planar (Settings.default ℚ) scoringTick
        (arriving lateArrivals) modelDb).conn.store) ∧
    loadActiveModel backlogDb = some meridianModel ∧
      ¬PairsScored "run" (runTick Externals.planar
        { Settings.default ℚ with fusionBatchSize := 1 }
        scoringTick quiet backlogDb).conn.store := by
  refine ⟨⟨rfl, rfl, ?_⟩, rfl, ?_⟩
  · change ¬∀ p ∈ (runTick Externals.planar (Settings.default ℚ) scoringTick
      (arriving lateArrivals) modelDb).conn.store.fusionPair.rows, _ → ∃ o ∈ (runTick
        Externals.planar (Settings.default ℚ) scoringTick (arriving lateArrivals)
          modelDb).conn.store.assetObservation.rows, _
    decide +kernel
  · change ¬∀ p ∈ (runTick Externals.planar { Settings.default ℚ with fusionBatchSize := 1 }
      scoringTick quiet backlogDb).conn.store.fusionPair.rows, _ → ∃ o ∈ (runTick Externals.planar
        { Settings.default ℚ with fusionBatchSize := 1 } scoringTick quiet
          backlogDb).conn.store.assetObservation.rows, _
    decide +kernel

/-- The condition at the late report. -/
theorem pairsScored_iff_late :
    PairsScored "run" (runTick Externals.planar (Settings.default ℚ) scoringTick
      (arriving lateArrivals) modelDb).conn.store ↔
      ScoredInTime Externals.planar (Settings.default ℚ) meridianModel lateArrivals modelDb :=
  pairsScored_iff Externals.planar (Settings.default ℚ) scoringTick lateArrivals modelDb
    meridianModel rfl rfl (by decide) (fun p hp ↦ absurd hp (Table.not_mem_empty p))

end PotholeServer.Fusion
