import Mathlib.Tactic.NormNum
import PotholeServer.Ingest.Events
import PotholeServer.Sql.Session

/-!
# What an acknowledgement means

One call of `insert_events` under an arbitrary pattern of per-event errors. Without a
server-side error every event that raises none is stored, exactly as on its own. With
one, the transaction is rolled back as a whole, but `accepted` keeps what came before the
error: the two theorems give the exact batches on which the answer is still true, and on
which each event fares as it would alone.
-/

namespace PotholeServer.Ingest

open Sql Db

variable {R : Type} [Field R] [LinearOrder R] {ext : Externals R}

/-- An event of a batch, and the error its `INSERT` raises, if any. -/
abbrev Attempt (ext : Externals R) := EventPayload ext × Option Fault

/-- The error is reported by the server. -/
def Attempt.serverFails (a : Attempt ext) : Bool :=
  match a.2 with
  | some (.server _) => true
  | _ => false

/-- One call of `insert_events` on a fresh connection; each `INSERT` fails as its event says. -/
def callInsertEvents (deviceId : String) (now : DateTime) (batch : List (Attempt ext))
    (db : Database R) :
    Outcome (Database R) (Write R) Statement Empty (List String × List RejectedEvent) :=
  (insertEvents ext deviceId now (batch.map Prod.fst)).run
    (faultsAt (none :: batch.map Prod.snd)) (.fresh db)

/-- The effect of one successful `INSERT`. -/
def insertWrite (deviceId : String) (now : DateTime) (e : EventPayload ext) : Write R :=
  .insertObservation (newObservation deviceId e.toEventFields
    (((parseTs ext e.ts).map IsoDateTime.instant).getD 0) now)

/-- The events that raise no error. -/
def succeeding (batch : List (Attempt ext)) : List (EventPayload ext) :=
  (batch.filter (fun a ↦ a.2 = none)).map Prod.fst

theorem mem_succeeding {batch : List (Attempt ext)} {e : EventPayload ext} :
    e ∈ succeeding batch ↔ (e, none) ∈ batch := by
  simp [succeeding]

/-- The attempts before the first server-side error. -/
def beforeFailure (batch : List (Attempt ext)) : List (Attempt ext) :=
  batch.takeWhile (fun a ↦ !a.serverFails)

/-- A validated timestamp parses, so the `try` block is one statement. -/
theorem insertEvent_eq (deviceId : String) (now : DateTime) (e : EventPayload ext) :
    insertEvent ext deviceId now e =
      Prog.execute .insertEvent (fun _ ↦ .ok [insertWrite deviceId now e]) := by
  obtain ⟨dt, hdt, _⟩ := e.valid.ts
  simp [insertEvent, insertWrite, hdt]

/-! ### The loop -/

section Loop

variable (deviceId : String) (now : DateTime)

/-- The request of one event. -/
def insertRequest (e : EventPayload ext) : Request (Database R) (Write R) Statement :=
  .sql .insertEvent (fun _ ↦ .ok [insertWrite deviceId now e])

/-- One round of the loop: the reply decides which accumulator takes the event. -/
theorem run_insertEventsLoop_cons {U : Type} [Effect U (Database R)] (e : EventPayload ext)
    (rest : List (EventPayload ext)) (acc : List String) (rej : List RejectedEvent)
    (sch : Schedule U) (c : Conn (Database R) (Write R) Statement) :
    (insertEventsLoop ext deviceId now (e :: rest) acc rej).run sch c =
      match c.serve (insertRequest deviceId now e) (sch 0) with
      | (.ok _, c') =>
        (insertEventsLoop ext deviceId now rest (acc ++ [e.clientId]) rej).run
          (fun n ↦ sch (n + 1)) c'
      | (.error err, c') =>
        (insertEventsLoop ext deviceId now rest acc (rej ++ [⟨e.clientId, err.message⟩])).run
          (fun n ↦ sch (n + 1)) c' := by
  rw [insertEventsLoop, Prog.run_bind, Prog.run_attempt, insertEvent_eq, Prog.run_execute,
    insertRequest]
  generalize c.serve _ (sch 0) = served
  obtain ⟨_ | _, c'⟩ := served
  · rfl
  · rfl

/-- Whatever happens, the loop returns, and `accepted` and `rejected` partition the batch. -/
theorem insertEventsLoop_partition {U : Type} [Effect U (Database R)] (es : List (EventPayload ext))
    (acc : List String) (rej : List RejectedEvent) (sch : Schedule U)
    (c : Conn (Database R) (Write R) Statement) :
    ∃ acc' rej',
      ((insertEventsLoop ext deviceId now es acc rej).run sch c).result = .ok (acc', rej') ∧
      (acc' ++ rej'.map RejectedEvent.clientId).Perm
        (acc ++ rej.map RejectedEvent.clientId ++ es.map (fun e ↦ e.clientId)) := by
  induction es generalizing acc rej sch c with
  | nil => exact ⟨acc, rej, rfl, by simp⟩
  | cons e rest ih =>
    rw [run_insertEventsLoop_cons]
    obtain ⟨_ | _, c'⟩ := c.serve (insertRequest deviceId now e) (sch 0)
    · next err =>
      obtain ⟨acc', rej', hr, hp⟩ :=
        ih acc (rej ++ [⟨e.clientId, err.message⟩]) (fun n ↦ sch (n + 1)) c'
      refine ⟨acc', rej', hr, hp.trans ?_⟩
      simp
    · obtain ⟨acc', rej', hr, hp⟩ := ih (acc ++ [e.clientId]) rej (fun n ↦ sch (n + 1)) c'
      refine ⟨acc', rej', hr, hp.trans ?_⟩
      simp only [List.append_assoc, List.map_cons, List.singleton_append]
      exact List.Perm.append_left acc List.perm_middle.symm

/-- In an aborted transaction every further event is refused. -/
theorem run_insertEventsLoop_aborted (batch : List (Attempt ext)) (acc : List String)
    (rej : List RejectedEvent) (s : Database R)
    (tr : List (Entry (Database R) (Write R) Statement)) :
    ∃ rej', (insertEventsLoop ext deviceId now (batch.map Prod.fst) acc rej).run
        (faultsAt (batch.map Prod.snd) : Schedule Empty) ⟨s, .aborted, tr⟩ =
      ⟨.ok (acc, rej'), quiet, ⟨s, .aborted, tr⟩⟩ := by
  induction batch generalizing rej with
  | nil => exact ⟨rej, by simp [insertEventsLoop]⟩
  | cons a rest ih =>
    obtain ⟨e, f⟩ := a
    have hreply : ∃ err, (⟨s, .aborted, tr⟩ : Conn (Database R) (Write R) Statement).serve
        (insertRequest deviceId now e) ({ fault := f } : Slot Empty) =
          (.error err, ⟨s, .aborted, tr⟩) := by
      rcases f with _ | ⟨err | err⟩
      · exact ⟨_, rfl⟩
      · exact ⟨err, rfl⟩
      · exact ⟨err, rfl⟩
    obtain ⟨err, herr⟩ := hreply
    obtain ⟨rej', hrej⟩ := ih (rej ++ [⟨e.clientId, err.message⟩])
    refine ⟨rej', ?_⟩
    rw [List.map_cons, List.map_cons, run_insertEventsLoop_cons, faultsAt_zero, herr, faultsAt_succ]
    exact hrej

/-- As long as the server reports no error, the transaction collects the successful rows. -/
theorem run_insertEventsLoop_active (batch : List (Attempt ext)) (acc : List String)
    (rej : List RejectedEvent) (s : Database R) (p : List (Write R))
    (tr : List (Entry (Database R) (Write R) Statement))
    (h : batch.any Attempt.serverFails = false) :
    ∃ rej' tr', (insertEventsLoop ext deviceId now (batch.map Prod.fst) acc rej).run
        (faultsAt (batch.map Prod.snd) : Schedule Empty) ⟨s, .active p, tr⟩ =
      ⟨.ok (acc ++ (succeeding batch).map (fun e ↦ e.clientId), rej'), quiet,
        ⟨s, .active (p ++ (succeeding batch).map (insertWrite deviceId now)), tr'⟩⟩ := by
  induction batch generalizing acc rej p tr with
  | nil => exact ⟨rej, tr, by simp [insertEventsLoop, succeeding]⟩
  | cons a rest ih =>
    obtain ⟨e, f⟩ := a
    rw [List.any_cons, Bool.or_eq_false_iff] at h
    rw [List.map_cons, List.map_cons, run_insertEventsLoop_cons, faultsAt_zero, faultsAt_succ]
    rcases f with _ | ⟨err | err⟩
    · obtain ⟨rej', tr', hr⟩ := ih (acc ++ [e.clientId]) rej (p ++ [insertWrite deviceId now e])
        (.stmt .insertEvent (applyAll p s) [insertWrite deviceId now e] :: tr) h.2
      refine ⟨rej', tr', hr.trans ?_⟩
      simp [succeeding]
    · obtain ⟨rej', tr', hr⟩ := ih acc (rej ++ [⟨e.clientId, err.message⟩]) p tr h.2
      refine ⟨rej', tr', hr.trans ?_⟩
      simp [succeeding]
    · have := h.1
      simp [Attempt.serverFails] at this

/-- From the first server-side error on, the loop runs in an aborted transaction. -/
theorem run_insertEventsLoop_fails (batch : List (Attempt ext)) (acc : List String)
    (rej : List RejectedEvent) (s : Database R) (p : List (Write R))
    (tr : List (Entry (Database R) (Write R) Statement))
    (h : batch.any Attempt.serverFails = true) :
    ∃ rej' tr', (insertEventsLoop ext deviceId now (batch.map Prod.fst) acc rej).run
        (faultsAt (batch.map Prod.snd) : Schedule Empty) ⟨s, .active p, tr⟩ =
      ⟨.ok (acc ++ (succeeding (beforeFailure batch)).map (fun e ↦ e.clientId), rej'), quiet,
        ⟨s, .aborted, tr'⟩⟩ := by
  induction batch generalizing acc rej p tr with
  | nil => simp at h
  | cons a rest ih =>
    obtain ⟨e, f⟩ := a
    rw [List.map_cons, List.map_cons, run_insertEventsLoop_cons, faultsAt_zero, faultsAt_succ]
    rcases f with _ | ⟨err | err⟩
    · obtain ⟨rej', tr', hr⟩ := ih (acc ++ [e.clientId]) rej (p ++ [insertWrite deviceId now e])
        (.stmt .insertEvent (applyAll p s) [insertWrite deviceId now e] :: tr)
        (by simpa [Attempt.serverFails] using h)
      refine ⟨rej', tr', hr.trans ?_⟩
      simp [succeeding, beforeFailure, Attempt.serverFails]
    · obtain ⟨rej', tr', hr⟩ := ih acc (rej ++ [⟨e.clientId, err.message⟩]) p tr
        (by simpa [Attempt.serverFails] using h)
      refine ⟨rej', tr', hr.trans ?_⟩
      simp [succeeding, beforeFailure, Attempt.serverFails]
    · -- the failing statement aborts the transaction; nothing before it is lost from `acc`
      obtain ⟨rej', hr⟩ := run_insertEventsLoop_aborted deviceId now rest acc
        (rej ++ [⟨e.clientId, err.message⟩]) s tr
      refine ⟨rej', tr, hr.trans ?_⟩
      simp [succeeding, beforeFailure, Attempt.serverFails]

end Loop

/-! ### One call -/

/-- The client ids of a batch, in order. -/
def clientIds (batch : List (Attempt ext)) : List String := batch.map (fun a ↦ a.1.clientId)

section Call

variable (deviceId : String) (now : DateTime) (db : Database R) {batch : List (Attempt ext)}

/-- The two lists that the loop returns partition the batch. -/
theorem partition_of_run {deviceId : String} {now : DateTime} {db : Database R}
    {acc : List String} {rej : List RejectedEvent} {rest : Schedule Empty}
    {c : Conn (Database R) (Write R) Statement}
    (h : (insertEventsLoop ext deviceId now (batch.map Prod.fst) [] []).run
      (faultsAt (batch.map Prod.snd)) ⟨db, .active [], []⟩ = ⟨.ok (acc, rej), rest, c⟩) :
    (acc ++ rej.map RejectedEvent.clientId).Perm (clientIds batch) := by
  obtain ⟨acc', rej', hres, hp⟩ := insertEventsLoop_partition deviceId now (batch.map Prod.fst) []
    [] (faultsAt (batch.map Prod.snd) : Schedule Empty) ⟨db, .active [], []⟩
  rw [h] at hres
  cases hres
  simpa [clientIds, Function.comp_def] using hp

/-- Without a server-side error the call stores and accepts the successful events. -/
theorem callInsertEvents_ok (h : batch.any Attempt.serverFails = false) :
    ∃ rej, (callInsertEvents deviceId now batch db).result =
        .ok ((succeeding batch).map (fun e ↦ e.clientId), rej) ∧
      ((succeeding batch).map (fun e ↦ e.clientId) ++ rej.map RejectedEvent.clientId).Perm
        (clientIds batch) ∧
      (callInsertEvents deviceId now batch db).conn.store =
        applyAll ((succeeding batch).map (insertWrite deviceId now)) db := by
  obtain ⟨rej, tr, hr⟩ := run_insertEventsLoop_active deviceId now batch [] [] db [] [] h
  refine ⟨rej, ?_, partition_of_run hr, ?_⟩
  all_goals
    rw [callInsertEvents, insertEvents, Prog.run_transaction, Prog.run_control, faultsAt_zero,
      faultsAt_succ]
    simp only [Conn.serve, Conn.receive, Conn.answer, Conn.fresh, Prog.raised, List.foldl_nil, hr]
    simp [Prog.run_control, Conn.serve, Conn.receive, Conn.answer, Conn.commitTxn, Conn.install,
      Conn.dropTxn, Prog.raised, quiet]

/-- After a server-side error nothing is stored, and what came before it is accepted. -/
theorem callInsertEvents_fails (h : batch.any Attempt.serverFails = true) :
    ∃ rej, (callInsertEvents deviceId now batch db).result =
        .ok ((succeeding (beforeFailure batch)).map (fun e ↦ e.clientId), rej) ∧
      ((succeeding (beforeFailure batch)).map (fun e ↦ e.clientId) ++
        rej.map RejectedEvent.clientId).Perm (clientIds batch) ∧
      (callInsertEvents deviceId now batch db).conn.store = db := by
  obtain ⟨rej, tr, hr⟩ := run_insertEventsLoop_fails deviceId now batch [] [] db [] [] h
  refine ⟨rej, ?_, partition_of_run hr, ?_⟩
  all_goals
    rw [callInsertEvents, insertEvents, Prog.run_transaction, Prog.run_control, faultsAt_zero,
      faultsAt_succ]
    simp only [Conn.serve, Conn.receive, Conn.answer, Conn.fresh, Prog.raised, List.foldl_nil, hr]
    simp [Prog.run_control, Conn.serve, Conn.receive, Conn.answer, Conn.commitTxn,
      Conn.dropTxn, Prog.raised, quiet]

end Call

/-! ### What ends up in the table -/

section Stored

variable (deviceId : String) (now : DateTime)

/-- The row that the `INSERT` of an event tries to store. -/
def insertRow (e : EventPayload ext) : AssetObservation R :=
  newObservation deviceId e.toEventFields
    (((parseTs ext e.ts).map IsoDateTime.instant).getD 0) now

/-- After inserts, a key is looked up among the old rows, then among the events in order. -/
theorem find_applyAll_insertWrite (es : List (EventPayload ext)) (db : Database R) (k : String) :
    (applyAll (es.map (insertWrite deviceId now)) db).assetObservation.find k =
      (db.assetObservation.find k).or
        ((es.find? (fun e ↦ e.clientId = k)).map (insertRow deviceId now)) := by
  induction es generalizing db with
  | nil => simp
  | cons e rest ih =>
    rw [List.map_cons, applyAll_cons, ih]
    have hw : (Effect.apply (insertWrite deviceId now e) db).assetObservation =
        db.assetObservation.insertNew (insertRow deviceId now e) := rfl
    rw [hw, Table.find_insertNew, Option.or_assoc, List.find?_cons]
    by_cases hk : e.clientId = k
    · simp [hk, insertRow, newObservation, key]
    · simp [hk, insertRow, newObservation, key]

/-- After inserts a key is present if it was, or if one of the events carries it. -/
theorem hasKey_applyAll_insertWrite (es : List (EventPayload ext)) (db : Database R) (k : String) :
    (applyAll (es.map (insertWrite deviceId now)) db).assetObservation.HasKey k ↔
      db.assetObservation.HasKey k ∨ k ∈ es.map (fun e ↦ e.clientId) := by
  rw [← not_iff_not, ← Table.find_eq_none, find_applyAll_insertWrite, Option.or_eq_none_iff,
    Table.find_eq_none, not_or]
  apply and_congr_right
  intro _
  simp

end Stored

/-! ### Acknowledged means stored -/

/-- Every client id the call reports as accepted has a row in the committed table. -/
def AckedStored
    (o : Outcome (Database R) (Write R) Statement Empty (List String × List RejectedEvent)) :
    Prop :=
  ∀ accepted rejected, o.result = .ok (accepted, rejected) →
    ∀ id ∈ accepted, o.conn.store.assetObservation.HasKey id

/-- An acknowledgement is true exactly if no `INSERT` fails on the server, or if every event
accepted before the first such failure was stored already. -/
theorem ackedStored_callInsertEvents_iff (deviceId : String) (now : DateTime)
    (batch : List (Attempt ext)) (db : Database R) :
    AckedStored (callInsertEvents deviceId now batch db) ↔
      (batch.any Attempt.serverFails = true →
        ∀ a ∈ beforeFailure batch, a.2 = none → db.assetObservation.HasKey a.1.clientId) := by
  cases h : batch.any Attempt.serverFails with
  | false =>
    obtain ⟨rej, hres, -, hstore⟩ := callInsertEvents_ok deviceId now db h
    constructor
    · intro _ hc
      cases hc
    · intro _ accepted rejected hr id hid
      rw [hres] at hr
      cases hr
      rw [hstore, hasKey_applyAll_insertWrite]
      exact .inr hid
  | true =>
    obtain ⟨rej, hres, -, hstore⟩ := callInsertEvents_fails deviceId now db h
    constructor
    · intro hacked _ a ha hnone
      have hstored := hacked _ _ hres a.1.clientId
      rw [hstore] at hstored
      apply hstored
      apply List.mem_map_of_mem
      rw [mem_succeeding]
      have hae : (a.1, none) = a := by rw [← hnone]
      rwa [hae]
    · intro hcond accepted rejected hr id hid
      rw [hres] at hr
      cases hr
      obtain ⟨e, he, rfl⟩ := List.mem_map.mp hid
      rw [hstore]
      exact hcond rfl (e, none) (mem_succeeding.mp he) rfl

theorem report_valid {clientId : String} {window : Option String}
    (hid : 1 ≤ clientId.length ∧ clientId.length ≤ 64)
    (hwindow : ∀ s ∈ window, s.length ≤ 50000) :
    (report clientId window).Valid .planar where
  clientId := hid
  schemaVersion := by norm_num [report]
  ts := ⟨_, rfl, rfl⟩
  lat := by norm_num [report]
  lon := by norm_num [report]
  speedMps := by norm_num [report]
  bearingDeg := by norm_num [report]
  speedAccuracyMps := by simp [report, Within]
  accelMaxG := by norm_num [report]
  accelStd := by norm_num [report]
  magnitude := by norm_num [report]
  gbarInMax := by simp [report, Within]
  timeInMax := by simp [report]
  timeInMin := by simp [report]
  confidence := by norm_num [report]
  rawWindowB64 := hwindow
  frameClientId := by simp [report]

/-- The report `a`, as the validated payload. -/
def goodEvent : EventPayload Externals.planar :=
  ⟨report "a" none, report_valid (by decide) (by simp)⟩

/-- The report `b`; its window passes the validation, but PostgreSQL refuses a NUL in a text. -/
def nulEvent : EventPayload Externals.planar :=
  ⟨report "b" (some "\u0000"), report_valid (by decide) (by simp; decide)⟩

/-- `CharacterNotInRepertoireError` -/
def nulError : Fault := .server ⟨"invalid byte sequence for encoding \"UTF8\": 0x00"⟩

/-- A fresh event followed by one that the server refuses. -/
def mixedBatch : List (Attempt Externals.planar) := [(goodEvent, none), (nulEvent, some nulError)]

/-- In the mixed batch `a` is accepted and not stored. -/
theorem accepted_not_stored :
    ¬AckedStored (callInsertEvents "device" 0 mixedBatch Database.empty) := by
  intro h
  have hstored := h ["a"] _ rfl "a" (List.mem_singleton.mpr rfl)
  revert hstored
  decide

/-! ### Partial batch acceptance -/

section Independent

variable (deviceId : String) (now : DateTime) (db : Database R) {batch : List (Attempt ext)}

/-- The batch is answered, every event is either accepted or rejected, and each gets the
verdict and the stored row that it gets in a batch of its own. -/
def Independent (deviceId : String) (now : DateTime) (batch : List (Attempt ext))
    (db : Database R) : Prop :=
  ∃ accepted rejected,
    (callInsertEvents deviceId now batch db).result = .ok (accepted, rejected) ∧
    (accepted ++ rejected.map RejectedEvent.clientId).Perm (clientIds batch) ∧
    ∀ a ∈ batch, ∃ accepted' rejected',
      (callInsertEvents deviceId now [a] db).result = .ok (accepted', rejected') ∧
      (a.1.clientId ∈ accepted ↔ a.1.clientId ∈ accepted') ∧
      (callInsertEvents deviceId now batch db).conn.store.assetObservation.find a.1.clientId =
        (callInsertEvents deviceId now [a] db).conn.store.assetObservation.find a.1.clientId

/-- What becomes of an event on its own. -/
theorem callInsertEvents_singleton (a : Attempt ext) :
    ∃ accepted rejected,
      (callInsertEvents deviceId now [a] db).result = .ok (accepted, rejected) ∧
      (a.1.clientId ∈ accepted ↔ a.2 = none) ∧
      (callInsertEvents deviceId now [a] db).conn.store.assetObservation.find a.1.clientId =
        (db.assetObservation.find a.1.clientId).or
          (if a.2 = none then some (insertRow deviceId now a.1) else none) := by
  cases h : [a].any Attempt.serverFails with
  | false =>
    obtain ⟨rej, hres, -, hstore⟩ := callInsertEvents_ok deviceId now db h
    refine ⟨_, rej, hres, ?_, ?_⟩
    · by_cases hn : a.2 = none <;> simp [succeeding, hn]
    · rw [hstore, find_applyAll_insertWrite]
      by_cases hn : a.2 = none <;> simp [succeeding, hn]
  | true =>
    obtain ⟨rej, hres, -, hstore⟩ := callInsertEvents_fails deviceId now db h
    have hf : a.serverFails = true := by simpa using h
    have hn : a.2 ≠ none := by
      intro hn
      rw [Attempt.serverFails, hn] at hf
      cases hf
    refine ⟨_, rej, hres, ?_, ?_⟩
    · simp [succeeding, beforeFailure, hf, hn]
    · simp [hstore, hn]

/-- With distinct client ids an event is found among the successful ones of a part of the
batch only if it is there and succeeds itself. -/
theorem clientId_mem_succeeding (hids : (clientIds batch).Nodup) {part : List (Attempt ext)}
    (hpart : part ⊆ batch) {a : Attempt ext} (ha : a ∈ batch) :
    a.1.clientId ∈ (succeeding part).map (fun e ↦ e.clientId) ↔ a ∈ part ∧ a.2 = none := by
  constructor
  · intro h
    obtain ⟨e, he, hid⟩ := List.mem_map.mp h
    rw [mem_succeeding] at he
    have hea : (e, none) = a := List.inj_on_of_nodup_map hids (hpart he) ha hid
    subst hea
    exact ⟨he, rfl⟩
  · rintro ⟨hp, hn⟩
    apply List.mem_map_of_mem (f := fun e : EventPayload ext ↦ e.clientId)
    rw [mem_succeeding, ← hn]
    exact hp

/-- The successful event with the client id of `a` is `a` itself, if it succeeds. -/
theorem find?_succeeding (hids : (clientIds batch).Nodup) {a : Attempt ext} (ha : a ∈ batch) :
    (succeeding batch).find? (fun e ↦ e.clientId = a.1.clientId) =
      if a.2 = none then some a.1 else none := by
  cases hf : (succeeding batch).find? (fun e ↦ e.clientId = a.1.clientId) with
  | none =>
    rw [List.find?_eq_none] at hf
    have hn : a.2 ≠ none := by
      intro hn
      have hmem := (clientId_mem_succeeding hids (List.Subset.refl batch) ha).mpr ⟨ha, hn⟩
      obtain ⟨e, he, hid⟩ := List.mem_map.mp hmem
      exact hf e he (by simpa using hid)
    rw [if_neg hn]
  | some e =>
    have he := mem_succeeding.mp (List.mem_of_find?_eq_some hf)
    have hid : e.clientId = a.1.clientId := by simpa using List.find?_some hf
    have hea : (e, none) = a := List.inj_on_of_nodup_map hids he ha hid
    subst hea
    rfl

/-- The events of a batch with distinct client ids fare independently exactly if no `INSERT`
fails on the server, or if every event that would succeed comes before the first such failure
and was stored already. -/
theorem independent_iff (batch : List (Attempt ext)) (hids : (clientIds batch).Nodup) :
    Independent deviceId now batch db ↔
      (batch.any Attempt.serverFails = true → ∀ a ∈ batch, a.2 = none →
        a ∈ beforeFailure batch ∧ db.assetObservation.HasKey a.1.clientId) := by
  cases h : batch.any Attempt.serverFails with
  | false =>
    obtain ⟨rej, hres, hp, hstore⟩ := callInsertEvents_ok deviceId now db h
    refine iff_of_true ⟨_, rej, hres, hp, ?_⟩ (fun hc ↦ by cases hc)
    intro a ha
    obtain ⟨accepted', rejected', hres', hacc, hfind⟩ := callInsertEvents_singleton
      deviceId now db a
    refine ⟨accepted', rejected', hres', ?_, ?_⟩
    · rw [hacc, clientId_mem_succeeding hids (List.Subset.refl batch) ha]
      exact and_iff_right ha
    · rw [hfind, hstore, find_applyAll_insertWrite, find?_succeeding hids ha]
      split <;> rfl
  | true =>
    obtain ⟨rej, hres, hp, hstore⟩ := callInsertEvents_fails deviceId now db h
    have hpart : beforeFailure batch ⊆ batch := List.takeWhile_subset _
    constructor
    · rintro ⟨accepted, rejected, hres', -, hall⟩ - a ha hn
      rw [hres] at hres'
      cases hres'
      obtain ⟨accepted', rejected', hres', hacc, hfind⟩ := hall a ha
      obtain ⟨_, _, hres'', hacc', hfind'⟩ := callInsertEvents_singleton
        deviceId now db a
      rw [hres'] at hres''
      cases hres''
      constructor
      · exact ((clientId_mem_succeeding hids hpart ha).mp (hacc.mpr (hacc'.mpr hn))).1
      · -- alone the event is stored, so a missing row would tell the two runs apart
        by_contra hkey
        rw [hstore, hfind', Table.find_eq_none.mpr hkey, if_pos hn] at hfind
        cases hfind
    · intro hcond
      refine ⟨_, rej, hres, hp, ?_⟩
      intro a ha
      obtain ⟨accepted', rejected', hres', hacc, hfind⟩ := callInsertEvents_singleton
        deviceId now db a
      refine ⟨accepted', rejected', hres', ?_, ?_⟩
      · rw [hacc, clientId_mem_succeeding hids hpart ha]
        constructor
        · exact And.right
        · intro hn
          exact ⟨(hcond rfl a ha hn).1, hn⟩
      · rw [hfind, hstore]
        split
        · next hn =>
          cases hf : db.assetObservation.find a.1.clientId with
          | none => exact absurd (hcond rfl a ha hn).2 (Table.find_eq_none.mp hf)
          | some _ => rfl
        · exact (Option.or_none).symm

end Independent

/-- On the mixed batch the condition fails, although its client ids are distinct. -/
theorem independent_iff_mixedBatch :
    (clientIds mixedBatch).Nodup ∧
      (Independent "device" 0 mixedBatch Database.empty ↔
        (mixedBatch.any Attempt.serverFails = true → ∀ a ∈ mixedBatch, a.2 = none →
          a ∈ beforeFailure mixedBatch ∧
            (Database.empty : Database ℚ).assetObservation.HasKey a.1.clientId)) :=
  ⟨by decide, independent_iff "device" 0 Database.empty mixedBatch (by decide)⟩

/-- The refused event of the mixed batch takes the row of `a` with it. -/
theorem mixedBatch_not_independent :
    (clientIds mixedBatch).Nodup ∧ ¬Independent "device" 0 mixedBatch Database.empty := by
  refine ⟨by decide, ?_⟩
  rintro ⟨accepted, rejected, -, -, hall⟩
  obtain ⟨_, _, -, -, hfind⟩ := hall (goodEvent, none) (List.mem_cons_self ..)
  have hlost : (callInsertEvents "device" 0 mixedBatch
      Database.empty).conn.store.assetObservation.find "a" = none := by rfl
  have halone : ((callInsertEvents "device" 0 [((goodEvent, none) : Attempt Externals.planar)]
      Database.empty).conn.store.assetObservation.find "a").isSome = true := by rfl
  have hsame := congrArg Option.isSome (hlost.symm.trans hfind)
  exact Bool.noConfusion (hsame.trans halone)

end PotholeServer.Ingest
