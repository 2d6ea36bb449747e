import PotholeServer.Ingest.Delivery
import PotholeServer.Sql.Calls

/-!
# Devices beside each other

Calls of `insert_events` from several devices, with their statements interleaved in any way and no
errors. The client id is the key of the whole table, and an event whose id is taken is accepted
like one that is stored. So what a device is told is its own affair, but not what is stored: the
first call to commit an id has it, whoever sends it. An insert that PostgreSQL would let wait for
another transaction's row of the same id goes on here, and has no effect if it commits later.
-/

namespace PotholeServer.Ingest

open Sql Db

variable {R : Type} [Field R] [LinearOrder R] {ext : Externals R}

/-- A call of `insert_events`. -/
structure UploadCall (ext : Externals R) where
  deviceId : String
  now : DateTime
  events : List (EventPayload ext)

namespace UploadCall

/-- The call on its connection. -/
def program (c : UploadCall ext) : DbProg R (List String × List RejectedEvent) :=
  insertEvents ext c.deviceId c.now c.events

/-- The client ids of its events. -/
def ids (c : UploadCall ext) : List String := c.events.map (fun e ↦ e.clientId)

/-- The row that the call inserts for a client id, if there is none yet. -/
def row (id : String) (c : UploadCall ext) : Option (AssetObservation R) :=
  (c.events.find? (fun e ↦ e.clientId = id)).map (insertRow c.deviceId c.now)

end UploadCall

section Script

variable {deviceId : String} {now : DateTime} {α : Type} {r : Except Exn α} {ws : List (Write R)}

/-- The loop collects the rows of its events and accepts all of them. -/
theorem script_insertEventsLoop (es : List (EventPayload ext)) {acc : List String}
    {rej : List RejectedEvent} {p : List (Write R)}
    {next : Except Exn (List String × List RejectedEvent) → DbProg R α}
    (hnext : Script r ws (next (.ok (acc ++ es.map (fun e ↦ e.clientId), rej)))
      (.active (p ++ es.map (insertWrite deviceId now)))) :
    Script r ws ((insertEventsLoop ext deviceId now es acc rej).attempt >>= next) (.active p) := by
  induction es generalizing acc p with
  | nil =>
    rw [List.map_nil, List.map_nil, List.append_nil, List.append_nil] at hnext
    exact hnext
  | cons e rest ih =>
    rw [insertEventsLoop, insertEvent_eq]
    refine Script.sql (fun _ ↦ rfl) (fun _ ↦ rfl) (ih ?_)
    rw [List.append_assoc, List.append_assoc]
    exact hnext

/-- A call accepts all its events and commits their rows at once. -/
theorem UploadCall.script (c : UploadCall ext) :
    Script (.ok (c.ids, [])) (c.events.map (insertWrite c.deviceId c.now)) c.program .auto := by
  refine Script.begin (fun _ ↦ rfl) (script_insertEventsLoop c.events ?_)
  rw [List.nil_append, List.nil_append]
  exact Script.commit (fun _ ↦ rfl)

end Script

/-! ### Runs of calls -/

variable {I : Type} [DecidableEq I] (calls : I → UploadCall ext)

/-- The server after it has answered the requests of the calls in this order. -/
def uploads (init : Database R) (schedule : List I) :
    Calls I (List String × List RejectedEvent) (Database R) (Write R) Statement :=
  (Calls.opened (fun i ↦ (calls i).program) init).play schedule

/-- The calls of a device. -/
def ownCalls (deviceId : String) (i : I) : Bool := (calls i).deviceId = deviceId

/-- The row belongs to the device and has a payload that the device uploads in these calls. -/
def OwnUpload (deviceId : String) (schedule : List I) (o : AssetObservation R) : Prop :=
  o.deviceId = deviceId ∧ ∃ i ∈ schedule, (calls i).deviceId = deviceId ∧
    ∃ e ∈ (calls i).events, ingested o = deliveredRow (deviceId, e)

/-- Every id that a call of the device reports as accepted has a row of the device with a payload
that it uploaded; and without the calls of others it gets the same answers and the same rows. -/
structure Isolated (deviceId : String) (init : Database R) (schedule : List I) : Prop where
  stored : ∀ i accepted rejected, (calls i).deviceId = deviceId →
    ((uploads calls init schedule).prog i).answer = some (.ok (accepted, rejected)) →
      ∀ id ∈ accepted, ∃ o ∈ (uploads calls init schedule).store.assetObservation,
        o.clientId = id ∧ OwnUpload calls deviceId schedule o
  answers : ∀ i, (calls i).deviceId = deviceId →
    ((uploads calls init schedule).prog i).answer =
      ((uploads calls init (schedule.filter (ownCalls calls deviceId))).prog i).answer
  rows : ∀ o : AssetObservation R, o.deviceId = deviceId →
    (o ∈ (uploads calls init schedule).store.assetObservation ↔
      o ∈ (uploads calls init (schedule.filter (ownCalls calls deviceId))).store.assetObservation)

/-- Every id in a call of the device that ends is stored at the start as an upload of the device,
or is not stored then and committed first by a call of the device. -/
def OwnsIds (deviceId : String) (init : Database R) (schedule : List I) : Prop :=
  ∀ i ∈ (uploads calls init schedule).finished, (calls i).deviceId = deviceId →
    ∀ id ∈ (calls i).ids,
      (∀ o ∈ init.assetObservation, o.clientId = id → OwnUpload calls deviceId schedule o) ∧
      (¬init.assetObservation.HasKey id →
        ∀ j ∈ (uploads calls init schedule).finished.find? (fun j ↦ id ∈ (calls j).ids),
          (calls j).deviceId = deviceId)

section Rows

variable {calls} {id : String} {i : I} {init : Database R} {o : AssetObservation R}

omit [DecidableEq I] in
theorem UploadCall.row_eq_none {c : UploadCall ext} : c.row id = none ↔ id ∉ c.ids := by
  simp [UploadCall.row, UploadCall.ids]

omit [DecidableEq I] in
/-- The row of a call has its device, the id and one of its payloads. -/
theorem UploadCall.of_row {c : UploadCall ext} (h : c.row id = some o) : o.clientId = id ∧
    o.deviceId = c.deviceId ∧ ∃ e ∈ c.events, ingested o = deliveredRow (c.deviceId, e) := by
  rw [UploadCall.row, Option.map_eq_some_iff] at h
  obtain ⟨e, hfind, rfl⟩ := h
  have hid : e.clientId = id := by simpa using List.find?_some hfind
  exact ⟨hid, rfl, e, List.mem_of_find?_eq_some hfind, rfl⟩

omit [DecidableEq I] in
/-- After the commits of these calls an id has its old row, or the one of the first call with it. -/
theorem find_committed (ended : List I) (init : Database R) (id : String) :
    (applyAll (ended.flatMap (fun i ↦ (calls i).events.map
      (insertWrite (calls i).deviceId (calls i).now))) init).assetObservation.find id =
      (init.assetObservation.find id).or
        ((ended.find? (fun i ↦ id ∈ (calls i).ids)).bind (fun i ↦ (calls i).row id)) := by
  induction ended generalizing init with
  | nil => simp
  | cons i rest ih =>
    rw [List.flatMap_cons, applyAll_append, ih, find_applyAll_insertWrite, Option.or_assoc]
    congr 1
    show ((calls i).row id).or _ = _
    by_cases hid : id ∈ (calls i).ids
    · obtain ⟨o, ho⟩ := Option.ne_none_iff_exists'.mp (fun h ↦ UploadCall.row_eq_none.mp h hid)
      rw [List.find?_cons_of_pos (by simpa using hid), ho, Option.some_or, Option.bind_some, ho]
    · rw [List.find?_cons_of_neg (by simpa using hid), UploadCall.row_eq_none.mpr hid,
        Option.none_or]

end Rows

/-! ### What the device sees -/

section Runs

variable {calls} {deviceId id : String} {init : Database R} {schedule : List I} {i : I}
  {o : AssetObservation R}

/-- The calls of a run are scripts, and go on in the same way without those of others. -/
theorem uploads_purged (calls : I → UploadCall ext) (deviceId : String) (init : Database R)
    (schedule : List I) :
    Calls.Scripted (fun i ↦ .ok ((calls i).ids, []))
      (fun i ↦ (calls i).events.map (insertWrite (calls i).deviceId (calls i).now)) init
      (uploads calls init schedule) ∧
    Calls.Purged (ownCalls calls deviceId) (uploads calls init schedule)
      (uploads calls init (schedule.filter (ownCalls calls deviceId))) := by
  have hopened := Calls.scripted_opened init (fun i ↦ (calls i).script)
  exact ⟨hopened.play schedule,
    (Calls.purged_opened (ownCalls calls deviceId) _ init).play hopened hopened schedule⟩

theorem find_uploads (init : Database R) (schedule : List I) (id : String) :
    (uploads calls init schedule).store.assetObservation.find id =
      (init.assetObservation.find id).or
        (((uploads calls init schedule).finished.find? (fun i ↦ id ∈ (calls i).ids)).bind
          (fun i ↦ (calls i).row id)) := by
  rw [(uploads_purged calls "" init schedule).1.store, find_committed]

/-- A call that answers has ended, and accepts all its ids. -/
theorem finished_of_answer {answer : Except Exn (List String × List RejectedEvent)}
    (h : ((uploads calls init schedule).prog i).answer = some answer) :
    i ∈ (uploads calls init schedule).finished ∧ answer = .ok ((calls i).ids, []) := by
  obtain ⟨hscripted, _⟩ := uploads_purged calls "" init schedule
  by_cases hi : i ∈ (uploads calls init schedule).finished
  · rw [hscripted.ended i hi] at h
    exact ⟨hi, (Option.some.inj h).symm⟩
  · rw [(hscripted.going i hi).answer] at h
    cases h

/-- The row of an id that an own call was the first to commit. -/
theorem stored_of_first (hnew : ¬init.assetObservation.HasKey id)
    (hfirst : (uploads calls init schedule).finished.find? (fun j ↦ id ∈ (calls j).ids) = some i) :
    (uploads calls init schedule).store.assetObservation.find id = (calls i).row id := by
  rw [find_uploads, Table.find_eq_none.mpr hnew, hfirst, Option.none_or, Option.bind_some]

theorem OwnsIds.stored (h : OwnsIds calls deviceId init schedule)
    (hi : i ∈ (uploads calls init schedule).finished) (hown : (calls i).deviceId = deviceId)
    (hid : id ∈ (calls i).ids) : ∃ o ∈ (uploads calls init schedule).store.assetObservation,
      o.clientId = id ∧ OwnUpload calls deviceId schedule o := by
  obtain ⟨hold, hnew⟩ := h i hi hown id hid
  by_cases hkey : init.assetObservation.HasKey id
  · obtain ⟨o, ho, hoid⟩ := Table.hasKey_iff.mp hkey
    have hfind : (uploads calls init schedule).store.assetObservation.find id = some o := by
      rw [find_uploads, Table.find_eq_some.mpr ⟨ho, hoid⟩, Option.some_or]
    exact ⟨o, (Table.find_eq_some.mp hfind).1, hoid, hold o ho hoid⟩
  · cases hfirst : (uploads calls init schedule).finished.find? (fun j ↦ id ∈ (calls j).ids) with
    | none => exact absurd hid (by simpa using List.find?_eq_none.mp hfirst i hi)
    | some j =>
      have hj : (calls j).deviceId = deviceId := hnew hkey j hfirst
      have hcarries : id ∈ (calls j).ids := by simpa using List.find?_some hfirst
      obtain ⟨o, ho⟩ := Option.ne_none_iff_exists'.mp
        (fun h ↦ UploadCall.row_eq_none.mp h hcarries)
      obtain ⟨hoid, hdevice, e, he, hpayload⟩ := UploadCall.of_row ho
      have hschedule : j ∈ schedule :=
        (Calls.mem_schedule schedule (List.mem_of_find?_eq_some hfirst)).resolve_left
          List.not_mem_nil
      refine ⟨o, ?_, hoid, hdevice.trans hj, j, hschedule, hj, e, he, hj ▸ hpayload⟩
      exact (Table.find_eq_some.mp ((stored_of_first hkey hfirst).trans ho)).1

/-- Without the calls of others the first call with an id of the device stays the first. -/
theorem OwnsIds.find_own (h : OwnsIds calls deviceId init schedule)
    (hnew : ¬init.assetObservation.HasKey id)
    (hi : (uploads calls init schedule).finished.find?
      (fun i ↦ ownCalls calls deviceId i = true ∧ decide (id ∈ (calls i).ids) = true) = some i) :
    (uploads calls init schedule).finished.find? (fun i ↦ id ∈ (calls i).ids) = some i := by
  obtain ⟨hboth, before, after, hsplit, hbefore⟩ := List.find?_eq_some_iff_append.mp hi
  rw [decide_eq_true_iff] at hboth
  have hmem := List.mem_of_find?_eq_some hi
  have howns := (h i hmem (of_decide_eq_true hboth.1) id (of_decide_eq_true hboth.2)).2 hnew
  refine List.find?_eq_some_iff_append.mpr ⟨hboth.2, before, after, hsplit, ?_⟩
  -- an earlier call with the id would be the first one, so one of the device
  by_contra hcarries
  cases hfirst : before.find? (fun j ↦ id ∈ (calls j).ids) with
  | none => exact hcarries (by simpa using hfirst)
  | some j =>
    have hown : (calls j).deviceId = deviceId := by
      apply howns
      rw [hsplit, List.find?_append, hfirst]
      rfl
    have hother := hbefore j (List.mem_of_find?_eq_some hfirst)
    rw [Bool.not_eq_true', decide_eq_false_iff_not] at hother
    have hid : id ∈ (calls j).ids := by simpa using List.find?_some hfirst
    exact hother ⟨decide_eq_true hown, decide_eq_true hid⟩

/-- Where an own call commits an id first, its row is the same without the calls of others. -/
theorem OwnsIds.rows (h : OwnsIds calls deviceId init schedule) (hown : o.deviceId = deviceId) :
    o ∈ (uploads calls init schedule).store.assetObservation ↔
      o ∈ (uploads calls init
        (schedule.filter (ownCalls calls deviceId))).store.assetObservation := by
  have hmem : ∀ t : Table (AssetObservation R), o ∈ t ↔ t.find o.clientId = some o := fun t ↦
    ⟨fun ho ↦ Table.find_eq_some.mpr ⟨ho, rfl⟩, fun ho ↦ (Table.find_eq_some.mp ho).1⟩
  obtain ⟨_, hpurged⟩ := uploads_purged calls deviceId init schedule
  rw [hmem, hmem, find_uploads, find_uploads, hpurged.finished, List.find?_filter]
  by_cases hkey : init.assetObservation.HasKey o.clientId
  · obtain ⟨o', ho', hid⟩ := Table.hasKey_iff.mp hkey
    rw [Table.find_eq_some.mpr ⟨ho', hid⟩, Option.some_or, Option.some_or]
  rw [Table.find_eq_none.mpr hkey, Option.none_or, Option.none_or, Option.bind_eq_some_iff,
    Option.bind_eq_some_iff]
  constructor
  · rintro ⟨j, hfirst, hrow⟩
    have hj : ownCalls calls deviceId j = true :=
      decide_eq_true ((UploadCall.of_row hrow).2.1.symm.trans hown)
    obtain ⟨hcarries, before, after, hsplit, hbefore⟩ := List.find?_eq_some_iff_append.mp hfirst
    refine ⟨j, List.find?_eq_some_iff_append.mpr ⟨?_, before, after, hsplit, ?_⟩, hrow⟩
    · exact decide_eq_true ⟨hj, hcarries⟩
    · intro j' hj'
      have hnot := hbefore j' hj'
      rw [Bool.not_eq_true'] at hnot ⊢
      exact decide_eq_false (fun hboth ↦ Bool.noConfusion (hboth.2.symm.trans hnot))
  · rintro ⟨j, hfirst, hrow⟩
    exact ⟨j, h.find_own hkey hfirst, hrow⟩

end Runs

/-- A device is isolated in a run exactly if every id that it uploads there is its own: stored at
the start as one of its uploads, or first committed by one of its calls. -/
theorem isolated_iff (deviceId : String) (init : Database R) (schedule : List I) :
    Isolated calls deviceId init schedule ↔ OwnsIds calls deviceId init schedule := by
  obtain ⟨hscripted, hpurged⟩ := uploads_purged calls deviceId init schedule
  constructor
  · intro h i hi hown id hid
    have hanswer : ((uploads calls init schedule).prog i).answer = some (.ok ((calls i).ids, [])) :=
      congrArg Prog.answer (hscripted.ended i hi)
    obtain ⟨o, ho, hoid, hupload⟩ := h.stored i _ _ hown hanswer id hid
    have hfind := Table.find_eq_some.mpr ⟨ho, hoid⟩
    constructor
    · intro o' ho' hoid'
      rw [find_uploads, Table.find_eq_some.mpr ⟨ho', hoid'⟩, Option.some_or] at hfind
      cases hfind
      exact hupload
    · intro hnew j hfirst
      rw [stored_of_first hnew hfirst] at hfind
      exact (UploadCall.of_row hfind).2.1.symm.trans hupload.1
  · intro h
    refine ⟨?_, ?_, fun o hown ↦ h.rows hown⟩
    · intro i accepted rejected hown hanswer id hid
      obtain ⟨hi, heq⟩ := finished_of_answer hanswer
      cases heq
      exact h.stored hi hown hid
    · intro i hown
      rw [hpurged.prog i (decide_eq_true hown)]

/-- Two devices upload a report with the id `a`. -/
def sameIds : Bool → UploadCall Externals.planar
  | false => ⟨"A", 1, [goodEvent]⟩
  | true => ⟨"B", 2, [goodEvent]⟩

/-- The other device comes first: the report of `A` is accepted, and not stored. -/
theorem other_device_first :
    ¬Isolated sameIds "A" Database.empty [true, true, true, false, false, false] := by
  intro h
  obtain ⟨o, ho, _, hdevice, _⟩ := h.stored false ["a"] [] rfl rfl "a" (List.mem_singleton_self _)
  have hother : ∀ o ∈ (uploads sameIds Database.empty
      [true, true, true, false, false, false]).store.assetObservation, o.deviceId ≠ "A" := by
    decide +kernel
  exact hother o ho hdevice

end PotholeServer.Ingest
