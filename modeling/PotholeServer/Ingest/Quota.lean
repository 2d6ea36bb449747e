import PotholeServer.Ingest.EventUpload
import PotholeServer.Sql.Budget

/-!
# What a device can write in an hour

One server process from its start: requests in any order, the statements of all its transactions
in any interleaving, with failures and lost connections, and what others commit. The rate limit is
checked when a request comes, and its rows are committed later or not at all. Still the events of
a device that are new after 59 minutes are no more than its limit and what was under way before.
-/

namespace PotholeServer.Ingest

open Sql Db Validation

variable {K R : Type}

/-! ### Rows of a device -/

/-- The number of events of a device. -/
def rowsOf (deviceId : String) (db : Database R) : Nat :=
  db.assetObservation.rows.countP (fun o ↦ o.deviceId = deviceId)

/-- The number of events of the device that an effect can add. -/
def rowCost (deviceId : String) : Write R → Nat
  | .insertObservation row => if row.deviceId = deviceId then 1 else 0
  | _ => 0

section Rows

variable {ρ κ : Type} [Keyed ρ κ] [DecidableEq κ]

theorem countP_insertNew (p : ρ → Bool) (t : Table ρ) (row : ρ) :
    (t.insertNew row).rows.countP p ≤ t.rows.countP p + if p row then 1 else 0 := by
  by_cases hkey : t.HasKey (key row)
  · rw [Table.insertNew_of_hasKey hkey]
    omega
  · rw [Table.rows_insertNew hkey]
    simp [List.countP_append, List.countP_singleton]

omit [DecidableEq κ] in
theorem countP_update {p q : ρ → Bool} {f : ρ → ρ} (hf : ∀ r, key (f r) = key r)
    (hp : ∀ r, p (f r) = p r) (t : Table ρ) :
    (t.update q f hf).rows.countP p = t.rows.countP p := by
  rw [Table.rows_update, List.countP_map]
  apply List.countP_congr
  intro r _
  simp only [Function.comp_apply]
  split <;> simp [hp]

/-- An effect adds no more rows than its cost. -/
theorem rowsOf_write (deviceId : String) (w : Write R) (db : Database R) :
    rowsOf deviceId (db.write w) ≤ rowsOf deviceId db + rowCost deviceId w := by
  unfold rowsOf
  cases w with
  | insertObservation row =>
    have hinsert := countP_insertNew (fun o : AssetObservation R ↦ decide (o.deviceId = deviceId))
      db.assetObservation row
    simpa [rowCost, Database.write] using hinsert
  | updateScored clientId scores now =>
    have hsame := countP_update (p := fun o : AssetObservation R ↦ decide (o.deviceId = deviceId))
      (q := fun o ↦ decide (o.clientId = clientId)) (f := fun o ↦ o.setScores scores now)
      (fun _ ↦ rfl) (fun _ ↦ rfl) db.assetObservation
    exact hsame.le.trans (Nat.le_add_right _ _)
  | _ => exact Nat.le_add_right _ _

end Rows

/-! ### The insertion of a batch -/

/-- The insertion of a batch that has passed its checks. -/
structure EventJob [Field R] [LinearOrder R] (ext : EventExternals R) where
  deviceId : String
  now : DateTime
  batch : ValidBatch ext

section Jobs

variable [Field R] [LinearOrder R] {ext : EventExternals R}

/-- The program of a job. -/
def EventJob.program (j : EventJob ext) : DbProg (PyFloat R) (List String × List RejectedEvent) :=
  insertValidEvents ext j.deviceId j.now j.batch.1

/-- The number of events of the device that a job can add. -/
def EventJob.size (deviceId : String) (j : EventJob ext) : Nat :=
  if j.deviceId = deviceId then j.batch.1.length else 0

/-- An event is one row of its device. -/
theorem within_insertValidEvent (deviceId deviceId' : String) (now : DateTime)
    (e : ValidEvent ext) : (insertValidEvent ext deviceId' now e).Within (rowCost deviceId)
      (if deviceId' = deviceId then 1 else 0) := by
  rw [insertValidEvent_eq]
  apply Prog.within_execute
  intro s ws hws
  cases hws
  simp [price, rowCost, eventRow, newObservation]

/-- The loop inserts at most one row for each event, whatever fails. -/
theorem within_insertLoop (deviceId deviceId' : String) (now : DateTime)
    (es : List (ValidEvent ext)) (acc : List String) (rej : List RejectedEvent) :
    (insertLoop (insertValidEvent ext deviceId' now) (fun e ↦ e.clientId.1) es acc rej).Within
      (rowCost deviceId) (if deviceId' = deviceId then es.length else 0) := by
  induction es generalizing acc rej with
  | nil => exact Prog.within_ret _ _
  | cons e rest ih =>
    rw [insertLoop]
    have hone := Prog.within_attempt (within_insertValidEvent deviceId deviceId' now e)
    refine Prog.within_mono (Prog.within_bind hone (m := if deviceId' = deviceId then rest.length
      else 0) ?_) ?_
    · intro r
      split
      · exact ih _ _
      · exact ih _ _
      · exact Prog.within_ret _ _
    · rw [List.length_cons]
      split <;> omega

theorem EventJob.within_program (deviceId : String) (j : EventJob ext) :
    j.program.Within (rowCost deviceId) (j.size deviceId) :=
  Prog.within_transaction (within_insertLoop deviceId j.deviceId j.now j.batch.1 [] [])

end Jobs

/-! ### The process -/

/-- The database with the sessions of the batches. -/
abbrev BatchServer (R : Type) [Field R] [LinearOrder R] (ext : EventExternals R) :=
  Server (EventJob ext) (fun _ ↦ List String × List RejectedEvent) (Database (PyFloat R))
    (Write (PyFloat R)) Statement

/-- A server process. The calls of `check_rate_limit` are a history variable. -/
structure IngestProcess (K R : Type) [Field R] [LinearOrder R] (ext : EventExternals R) where
  limits : RateLimits K
  server : BatchServer R ext
  calls : List (Call K)

/-- What happens to a process: a request to the events endpoint, the check of a request to the
frames endpoint, or a step of the database. -/
inductive IngestAct (K R : Type) [Field R] [LinearOrder R] (ext : EventExternals R) where
  | events (request : EventsRequest) (clock : K) (now : DateTime)
  | frame (deviceId : String) (clock : K)
  | database (a : Act (EventJob ext) (Write (PyFloat R)))

section Process

variable [Field R] [LinearOrder R] {ext : EventExternals R}

/-- A new process on a database. -/
def IngestProcess.start (db : Database (PyFloat R)) : IngestProcess K R ext :=
  ⟨.empty, Server.idle db, []⟩

/-- A job is started by its request only. -/
def startsJob : Act (EventJob ext) (Write (PyFloat R)) → Bool
  | .start _ => true
  | _ => false

/-- One step of the database. No statement waits for a lock, so that the steps include those of a
database that makes it wait. -/
def databaseStep (σ : BatchServer R ext) (a : Act (EventJob ext) (Write (PyFloat R))) :
    Option (BatchServer R ext) :=
  σ.step (fun _ ↦ ([] : List Empty)) EventJob.program (fun _ ↦ []) a

variable [Field K] [LinearOrder K] [FloorRing K] (maxBatchSize : Int) (depth : Nat)
  (settings : Settings K)

/-- The call of `check_rate_limit` for an upload of a frame. -/
def frameCall (deviceId : String) (clock : K) : Call K := ⟨deviceId, "frames", 1, clock⟩

/-- The call of `check_rate_limit` for a request to the events endpoint, if it gets there. -/
def eventsCall (ext : EventExternals R) (request : EventsRequest) (clock : K) : List (Call K) :=
  match checkRequest ext maxBatchSize depth request with
  | .error _ => []
  | .ok (deviceId, batch) => [⟨deviceId, "events", batch.1.length, clock⟩]

/-- One step of the process. -/
def IngestProcess.step (σ : IngestProcess K R ext) :
    IngestAct K R ext → Option (IngestProcess K R ext)
  | .events request clock now =>
    let calls := σ.calls ++ eventsCall maxBatchSize depth ext request clock
    match receiveEvents ext maxBatchSize depth settings request clock σ.limits with
    | (.error _, limits) => some { σ with limits, calls }
    | (.ok (deviceId, batch), limits) =>
      (databaseStep σ.server (.start ⟨deviceId, now, batch⟩)).map
        (fun server ↦ { limits, server, calls })
  | .frame deviceId clock =>
    some { σ with
      limits := (checkRateLimit settings σ.limits deviceId "frames" 1 clock).1
      calls := σ.calls ++ [frameCall deviceId clock] }
  | .database a =>
    if startsJob a then none
    else (databaseStep σ.server a).map (fun server ↦ { σ with server })

/-- The time of a request. -/
def IngestAct.clock : IngestAct K R ext → Option K
  | .events _ clock _ | .frame _ clock => some clock
  | .database _ => none

/-- The clock of the process does not go back. -/
def InOrder (σ : IngestProcess K R ext) (e : IngestAct K R ext) : Prop :=
  ∀ clock ∈ e.clock, ∀ c ∈ σ.calls, c.now ≤ clock

/-- The requests come in the 59 minutes before `T`, and what others commit adds no events of the
device. -/
structure Recent (deviceId : String) (T : K) (σ : IngestProcess K R ext)
    (e : IngestAct K R ext) : Prop where
  inOrder : InOrder σ e
  recent : ∀ clock ∈ e.clock, T - 3540 < clock ∧ clock ≤ T
  outside : ∀ w, e = .database (.commit w) → rowCost deviceId w = 0

/-- What a step does. A call of `check_rate_limit` starts a job if it is admitted and a batch came
with it. -/
inductive IngestProcess.Moves (σ : IngestProcess K R ext) :
    IngestAct K R ext → IngestProcess K R ext → Prop where
  | unchecked {e : IngestAct K R ext} : Moves σ e σ
  | refused {e : IngestAct K R ext} {c : Call K} (hclock : e.clock = some c.now)
    (hcount : 1 ≤ c.count) :
    Moves σ e { σ with
      limits := (checkRateLimit settings σ.limits c.deviceId c.resource c.count c.now).1
      calls := σ.calls ++ [c] }
  | accepted {e : IngestAct K R ext} {c : Call K} {j : EventJob ext} {server : BatchServer R ext}
    (hclock : e.clock = some c.now) (hcount : c.count = j.batch.1.length)
    (hresource : c.resource = "events") (hdevice : c.deviceId = j.deviceId)
    (hadmitted :
      (checkRateLimit settings σ.limits c.deviceId c.resource c.count c.now).2 = .ok ())
    (hserver : databaseStep σ.server (.start j) = some server) :
    Moves σ e {
      limits := (checkRateLimit settings σ.limits c.deviceId c.resource c.count c.now).1
      server := server
      calls := σ.calls ++ [c] }
  | database {a : Act (EventJob ext) (Write (PyFloat R))} {server : BatchServer R ext}
    (hstarts : startsJob a = false) (hserver : databaseStep σ.server a = some server) :
    Moves σ (.database a) { σ with server }

variable {maxBatchSize depth settings} {σ σ' σ₀ : IngestProcess K R ext} {e : IngestAct K R ext}

omit [FloorRing K] in
theorem recent_database {deviceId : String} {T : K} {a : Act (EventJob ext) (Write (PyFloat R))}
    (h : ∀ w, a ≠ .commit w) : Recent deviceId T σ (.database a) where
  inOrder := by
    intro clock hclock
    cases hclock
  recent := by
    intro clock hclock
    cases hclock
  outside := by
    intro w hw
    exact absurd (IngestAct.database.inj hw) (h w)

theorem IngestProcess.moves_of_step (h : σ.step maxBatchSize depth settings e = some σ') :
    σ.Moves settings e σ' := by
  cases e with
  | events request clock now =>
    simp only [IngestProcess.step, receiveEvents, eventsCall] at h
    cases hcheck : checkRequest ext maxBatchSize depth request with
    | error err =>
      simp only [hcheck, List.append_nil, Option.some.injEq] at h
      rw [← h]
      exact .unchecked
    | ok checked =>
      obtain ⟨deviceId, batch⟩ := checked
      simp only [hcheck] at h
      cases hlimit : checkRateLimit settings σ.limits deviceId "events" batch.1.length clock with
      | mk limits answer =>
        have hlimits : limits =
            (checkRateLimit settings σ.limits deviceId "events" batch.1.length clock).1 := by
          rw [hlimit]
        cases answer with
        | error err =>
          simp only [hlimit, Option.some.injEq] at h
          rw [← h, hlimits]
          exact .refused (c := ⟨deviceId, "events", batch.1.length, clock⟩) rfl
            (by have := batch.2.1; simp only; omega)
        | ok u =>
          simp only [hlimit, Option.map_eq_some_iff] at h
          obtain ⟨server, hserver, rfl⟩ := h
          rw [hlimits]
          exact .accepted (c := ⟨deviceId, "events", batch.1.length, clock⟩) rfl rfl rfl rfl
            (by rw [hlimit]) hserver
  | frame deviceId clock =>
    simp only [IngestProcess.step, Option.some.injEq] at h
    rw [← h]
    exact .refused (c := frameCall deviceId clock) rfl (le_refl 1)
  | database a =>
    simp only [IngestProcess.step] at h
    split at h
    · cases h
    · next hstarts =>
      obtain ⟨server, hserver, rfl⟩ := Option.map_eq_some_iff.mp h
      exact .database (Bool.eq_false_of_not_eq_true hstarts) hserver

/-! ### Runs of the process -/

/-- The process has answered its calls in order, and its sessions keep within the budgets of their
jobs. -/
structure Coherent (settings : Settings K) (deviceId : String) (σ : IngestProcess K R ext) :
    Prop where
  limits : σ.limits = (answerCalls settings σ.calls).1
  sorted : σ.calls.Pairwise (fun a b ↦ a.now ≤ b.now)
  counted : ∀ c ∈ σ.calls, 1 ≤ c.count
  spends : ∀ i ss, σ.server.session i = some ss →
    Server.Spends (rowCost deviceId) (ss.job.size deviceId) ss

theorem Coherent.start (deviceId : String) (db : Database (PyFloat R)) :
    Coherent settings deviceId (IngestProcess.start db : IngestProcess K R ext) where
  limits := rfl
  sorted := List.Pairwise.nil
  counted := by simp [IngestProcess.start]
  spends := by
    intro i ss hss
    simp [IngestProcess.start, Server.idle, Server.session] at hss

/-- One more call keeps the order. -/
theorem Coherent.concat {deviceId : String} (hσ : Coherent settings deviceId σ) {c : Call K}
    (hclock : e.clock = some c.now) (hcount : 1 ≤ c.count) (he : InOrder σ e) :
    (checkRateLimit settings σ.limits c.deviceId c.resource c.count c.now).1 =
        (answerCalls settings (σ.calls ++ [c])).1 ∧
      (σ.calls ++ [c]).Pairwise (fun a b ↦ a.now ≤ b.now) ∧
      ∀ d ∈ σ.calls ++ [c], 1 ≤ d.count := by
  refine ⟨?_, ?_, ?_⟩
  · rw [answerCalls_concat, answerCall, hσ.limits]
  · rw [List.pairwise_append]
    refine ⟨hσ.sorted, List.pairwise_singleton _ _, ?_⟩
    intro a ha b hb
    rw [List.mem_singleton.mp hb]
    exact he c.now hclock a ha
  · intro d hd
    rcases List.mem_append.mp hd with hd | hd
    · exact hσ.counted d hd
    · rw [List.mem_singleton.mp hd]
      exact hcount

/-- A step of the database keeps the budgets. -/
theorem spends_databaseStep {deviceId : String} {server server' : BatchServer R ext}
    {a : Act (EventJob ext) (Write (PyFloat R))}
    (h : databaseStep server a = some server')
    (hspends : ∀ i ss, server.session i = some ss →
      Server.Spends (rowCost deviceId) (ss.job.size deviceId) ss) :
    ∀ i ss, server'.session i = some ss →
      Server.Spends (rowCost deviceId) (ss.job.size deviceId) ss :=
  (Server.moves_of_step h).spends (rowsOf_write deviceId) (EventJob.within_program deviceId) hspends

theorem Coherent.step {deviceId : String} (hσ : Coherent settings deviceId σ)
    (h : σ.Moves settings e σ') (he : InOrder σ e) : Coherent settings deviceId σ' := by
  cases h with
  | unchecked => exact hσ
  | refused hclock hcount =>
    obtain ⟨hlimits, hsorted, hcounted⟩ := hσ.concat hclock hcount he
    exact ⟨hlimits, hsorted, hcounted, hσ.spends⟩
  | @accepted _ c j _ hclock hcount hresource hdevice hadmitted hserver =>
    have hone : 1 ≤ c.count := by
      have := j.batch.2.1
      omega
    obtain ⟨hlimits, hsorted, hcounted⟩ := hσ.concat hclock hone he
    exact ⟨hlimits, hsorted, hcounted, spends_databaseStep hserver hσ.spends⟩
  | database hstarts hserver =>
    exact ⟨hσ.limits, hσ.sorted, hσ.counted, spends_databaseStep hserver hσ.spends⟩

/-- The events of the device that were admitted and whose bucket starts in the hour before `T`. -/
def admittedBefore (settings : Settings K) (deviceId : String) (T : K) (calls : List (Call K)) :
    Int :=
  total (admittedInBuckets deviceId "events" T) (answerCalls settings calls).2

theorem admittedBefore_concat (deviceId : String) (T : K) (calls : List (Call K)) (c : Call K) :
    admittedBefore settings deviceId T (calls ++ [c]) = admittedBefore settings deviceId T calls +
      if admittedInBuckets deviceId "events" T { toCall := c, answer := (checkRateLimit settings
        (answerCalls settings calls).1 c.deviceId c.resource c.count c.now).2 } then c.count
      else 0 := by
  rw [admittedBefore, answerCalls_concat, answerCall, total_append, total_singleton]
  rfl

theorem admittedBefore_nonneg (deviceId : String) (T : K) {calls : List (Call K)}
    (hcounted : ∀ c ∈ calls, 1 ≤ c.count) : 0 ≤ admittedBefore settings deviceId T calls := by
  have hnone := total_mono (p := fun _ ↦ false) (q := admittedInBuckets deviceId "events" T)
    (count_nonneg_of_answered settings hcounted) (fun _ _ h ↦ by cases h)
  have hzero : total (fun _ ↦ false) (answerCalls settings calls).2 = 0 := by simp [total]
  rw [hzero] at hnone
  exact hnone

/-- What the database holds of the device, and what its open sessions can add, was there before or
has been admitted since. -/
def Covered (settings : Settings K) (deviceId : String) (T : K) (before : Int)
    (σ : IngestProcess K R ext) : Prop :=
  ∃ bound : Nat,
    Server.Budgeted (rowCost deviceId) (rowsOf deviceId) σ.server bound ∧
      bound ≤ before + admittedBefore settings deviceId T σ.calls

theorem covered_start {deviceId : String} (hσ : Coherent settings deviceId σ) (T : K) :
    Covered settings deviceId T (rowsOf deviceId σ.server.store +
      Server.inFlight (EventJob.size deviceId) σ.server -
        admittedBefore settings deviceId T σ.calls) σ := by
  refine ⟨_, Server.budgeted_of_spends hσ.spends, ?_⟩
  push_cast
  omega

/-- A step of the database that starts no job and commits no events of the device. -/
theorem budgeted_databaseStep {deviceId : String} {bound : Nat} {server server' : BatchServer R ext}
    {a : Act (EventJob ext) (Write (PyFloat R))} (h : databaseStep server a = some server')
    (houtside : ∀ w, a = .commit w → rowCost deviceId w = 0)
    (hbudget : Server.Budgeted (rowCost deviceId) (rowsOf deviceId) server bound) :
    Server.Budgeted (rowCost deviceId) (rowsOf deviceId) server'
      (bound + Server.granted (EventJob.size deviceId) a) := by
  refine (Server.moves_of_step h).budgeted (rowsOf_write deviceId)
    (EventJob.within_program deviceId) ?_ hbudget
  intro w hw
  have hgain := rowsOf_write deviceId w server.store
  rw [houtside w hw] at hgain
  exact hgain

variable [IsStrictOrderedRing K]

theorem Covered.step {deviceId : String} {T : K} {before : Int}
    (hcovered : Covered settings deviceId T before σ) (hσ : Coherent settings deviceId σ)
    (h : σ.Moves settings e σ') (he : Recent deviceId T σ e) :
    Covered settings deviceId T before σ' := by
  obtain ⟨bound, hbudget, hbound⟩ := hcovered
  cases h with
  | unchecked => exact ⟨bound, hbudget, hbound⟩
  | @refused _ c hclock hcount =>
    refine ⟨bound, hbudget, ?_⟩
    rw [admittedBefore_concat]
    split <;> omega
  | @accepted _ c j server hclock hcount hresource hdevice hadmitted hserver =>
    refine ⟨_, budgeted_databaseStep hserver (fun w hw ↦ by cases hw) hbudget, ?_⟩
    rw [admittedBefore_concat, ← hσ.limits]
    simp only [Server.granted, EventJob.size]
    by_cases hmine : j.deviceId = deviceId
    · -- the bucket of a call in the 59 minutes before `T` starts in the hour before `T`
      obtain ⟨hfrom, hto⟩ := he.recent c.now hclock
      have hstart : T - windowSeconds ≤ currentBucketTs c.now := by
        have hb := sub_lt_currentBucketTs c.now
        norm_num [bucketSeconds, windowSeconds] at hb ⊢
        linarith
      have hselected : admittedInBuckets deviceId "events" T { toCall := c, answer :=
          (checkRateLimit settings σ.limits c.deviceId c.resource c.count c.now).2 } = true := by
        rw [hadmitted, admittedInBuckets, decide_eq_true_eq, inBuckets, decide_eq_true_eq]
        exact ⟨rfl, ⟨hresource, hdevice.trans hmine, hstart⟩, hto⟩
      rw [hselected, if_pos hmine, if_pos rfl]
      push_cast
      omega
    · rw [if_neg hmine]
      split <;> omega
  | @database a server hstarts hserver =>
    have hgranted : Server.granted (EventJob.size deviceId) a = 0 := by
      cases a with
      | start j => cases hstarts
      | _ => rfl
    have hnext := budgeted_databaseStep hserver
      (fun w hw ↦ he.outside w (by rw [hw])) hbudget
    rw [hgranted] at hnext
    exact ⟨bound, hnext, hbound⟩

/-- From any state of a process on, with requests of 59 minutes only, the database gains no more
events of a device than the limit allows and what was under way at first. -/
theorem events_gained_le_limit (deviceId : String) {db : Database (PyFloat R)} {T : K}
    (hbefore : Reaches (IngestProcess.step maxBatchSize depth settings) InOrder
      (IngestProcess.start db) σ₀)
    (hrecent : Reaches (IngestProcess.step maxBatchSize depth settings) (Recent deviceId T) σ₀ σ) :
    (rowsOf deviceId σ.server.store : Int) ≤ rowsOf deviceId σ₀.server.store +
      Server.inFlight (EventJob.size deviceId) σ₀.server +
        max settings.rateLimitEventsPerHour 0 := by
  have hσ₀ : Coherent settings deviceId σ₀ :=
    hbefore.invariant (Coherent settings deviceId) (Coherent.start deviceId db)
      (fun _ _ _ hσ he hstep ↦ hσ.step (IngestProcess.moves_of_step hstep) he)
  obtain ⟨hσ, bound, hbudget, hbound⟩ := hrecent.invariant
    (fun σ ↦ Coherent settings deviceId σ ∧ Covered settings deviceId T
      (rowsOf deviceId σ₀.server.store + Server.inFlight (EventJob.size deviceId) σ₀.server -
        admittedBefore settings deviceId T σ₀.calls) σ)
    ⟨hσ₀, covered_start hσ₀ T⟩
    (fun _ _ _ hI he hstep ↦ ⟨hI.1.step (IngestProcess.moves_of_step hstep) he.inOrder,
      hI.2.step hI.1 (IngestProcess.moves_of_step hstep) he⟩)
  have hrows := hbudget.weight_le
  have hlimit : admittedBefore settings deviceId T σ.calls ≤
      max settings.rateLimitEventsPerHour 0 :=
    total_admittedInBuckets_le settings deviceId hσ.sorted hσ.counted (.inl rfl) T
  have hpositive : 0 ≤ admittedBefore settings deviceId T σ₀.calls :=
    admittedBefore_nonneg deviceId T hσ₀.counted
  omega

end Process

/-! ### Two events under way, and a third -/

/-- A request with two events. -/
def pairArrives : List (IngestAct ℚ ℚ .plain) := [.events (pairRequest "43" "44") 0 0]

/-- A new process that has received the two events. -/
def waitingPair : IngestProcess ℚ ℚ .plain :=
  play (IngestProcess.step 100 1000 (Settings.default ℚ)) (IngestProcess.start .empty) pairArrives

/-- Another event of the device arrives an hour later, and both transactions end. -/
def thirdArrives : List (IngestAct ℚ ℚ .plain) :=
  .events (requestOf [eventText "c" "43"]) 3600 3600 ::
    [.serve 0, .serve 1, .serve 0, .serve 1, .serve 0, .serve 1, .finish 1, .serve 0, .finish 0].map
      .database

/-- The process after the transactions. -/
def storedThree : IngestProcess ℚ ℚ .plain :=
  play (IngestProcess.step 100 1000 (Settings.default ℚ)) waitingPair thirdArrives

/-- Two events that were under way, and an hour later a request that is admitted. -/
theorem events_gained_le_limit_pair :
    (rowsOf "device" waitingPair.server.store = 0 ∧
      Server.inFlight (EventJob.size "device") waitingPair.server = 2 ∧
      rowsOf "device" storedThree.server.store = 3) ∧
    (rowsOf "device" storedThree.server.store : Int) ≤ rowsOf "device" waitingPair.server.store +
      Server.inFlight (EventJob.size "device") waitingPair.server +
        max (Settings.default ℚ).rateLimitEventsPerHour 0 := by
  refine ⟨by decide +kernel, ?_⟩
  have hfirst : Admits (IngestProcess.step 100 1000 (Settings.default ℚ)) InOrder
      (IngestProcess.start .empty) pairArrives := by
    refine ⟨?_, trivial⟩
    intro clock _ c hc
    cases hc
  have hcalls : ∀ c ∈ waitingPair.calls, c.now ≤ 3600 := by decide +kernel
  have hrest : Admits (IngestProcess.step 100 1000 (Settings.default ℚ)) (Recent "device" 3600)
      waitingPair thirdArrives := by
    constructor
    · constructor
      · rintro clock ⟨⟩ c hc
        exact hcalls c hc
      · rintro clock ⟨⟩
        norm_num
      · intro w hw
        cases hw
    · apply admits_of_forall
      intro e he σ
      obtain ⟨a, ha, rfl⟩ := List.mem_map.mp he
      apply recent_database
      rintro w rfl
      simp at ha
  exact events_gained_le_limit "device" (Reaches.start.play hfirst) (Reaches.start.play hrest)

end PotholeServer.Ingest
