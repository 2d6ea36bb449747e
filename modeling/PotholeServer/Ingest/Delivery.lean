import PotholeServer.Fusion.Order
import PotholeServer.Fusion.Scoring
import PotholeServer.Ingest.Acknowledged
import PotholeServer.Sql.Server

/-!
# At-least-once delivery

Clients upload their events until an answer acknowledges them: in any batches, on any number of
connections, each of which can be lost before or after its commit. Ticks of the fusion job and
other jobs go on beside. The first commit of an id stays; an insert that PostgreSQL would let wait
for another transaction's row of the same id goes on here, and has no effect if it commits later.
So what the answers acknowledge ends up in the table once, whatever the schedule.
-/

namespace PotholeServer.Ingest

open Sql Db Fusion

variable {R : Type}

/-! ### Ingested columns -/

/-- The effect inserts a report. -/
def insertsReport : Write R → Bool
  | .insertObservation _ => true
  | _ => false

theorem insertsReport_of_keepsAssets {w : Write R} (h : KeepsAssets w) :
    insertsReport w = false := by
  cases w with
  | insertObservation => exact h.elim
  | _ => rfl

/-- What other jobs commit: effects that insert no report. -/
structure Beside (R : Type) where
  effect : Write R
  other : insertsReport effect = false

instance : Effect (Beside R) (Database R) := ⟨fun u db ↦ db.write u.effect⟩

/-- A row without `received_at` and the scores. -/
def ingested (o : AssetObservation R) : AssetObservation R :=
  { o with
    receivedAt := 0
    sensorClass := none
    sensorPPothole := none
    sensorSeverity := none
    sensorIsOutlier := none
    sensorModelVersion := none
    scoredAt := none }

/-- The ingested columns of the table. -/
def ingestedRows (db : Database R) : List (AssetObservation R) :=
  db.assetObservation.rows.map ingested

section Rows

variable {db : Database R} {w : Write R} {o : AssetObservation R}

theorem ingestedRows_ids_nodup (db : Database R) :
    ((ingestedRows db).map AssetObservation.clientId).Nodup := by
  rw [ingestedRows, List.map_map]
  exact db.assetObservation.keysNodup

/-- Only inserts change the ingested columns. -/
theorem ingestedRows_write (hw : insertsReport w = false) :
    ingestedRows (db.write w) = ingestedRows db := by
  cases w with
  | insertObservation => cases hw
  | updateScored clientId scores now =>
    change (db.assetObservation.rows.map (fun o ↦
      if decide (o.clientId = clientId) then o.setScores scores now else o)).map ingested = _
    rw [List.map_map]
    refine List.map_congr_left ?_
    intro o _
    rw [Function.comp_apply]
    split
    · rfl
    · rfl
  | _ => rfl

/-- A row after an insert: an old one or the new one. -/
theorem of_mem_insert {row : AssetObservation R}
    (h : o ∈ ingestedRows (db.write (.insertObservation row))) :
    o ∈ ingestedRows db ∨ o = ingested row := by
  obtain ⟨r, hr, rfl⟩ := List.mem_map.mp h
  rcases Table.mem_insertNew.mp hr with hold | ⟨rfl, _⟩
  · exact .inl (List.mem_map.mpr ⟨r, hold, rfl⟩)
  · exact .inr rfl

theorem mem_insert_of_mem {row : AssetObservation R} (h : o ∈ ingestedRows db) :
    o ∈ ingestedRows (db.write (.insertObservation row)) := by
  obtain ⟨r, hr, rfl⟩ := List.mem_map.mp h
  exact List.mem_map.mpr ⟨r, Table.mem_insertNew_of_mem row hr, rfl⟩

/-- An id has one row. -/
theorem filter_clientId (h : o ∈ ingestedRows db) :
    (ingestedRows db).filter (fun r ↦ r.clientId = o.clientId) = [o] := by
  have hnodup := ingestedRows_ids_nodup db
  refine List.perm_singleton.mp ?_
  rw [List.perm_ext_iff_of_nodup (hnodup.of_map.filter _) (List.nodup_singleton _)]
  intro r
  rw [List.mem_filter, List.mem_singleton, decide_eq_true_eq]
  constructor
  · rintro ⟨hr, hid⟩
    exact List.inj_on_of_nodup_map hnodup hr h hid
  · rintro rfl
    exact ⟨h, rfl⟩

end Rows

/-! ### Keys of the table -/

/-- No report is removed. -/
def KeysKept (s s' : Database R) : Prop :=
  ∀ k, s.assetObservation.HasKey k → s'.assetObservation.HasKey k

/-- The transaction inserts a row of this id. -/
def Inserting (p : List (Write R)) (id : String) : Prop :=
  ∃ row, .insertObservation row ∈ p ∧ row.clientId = id

section Keys

variable {s s' s'' : Database R} {p : List (Write R)} {id : String}

theorem KeysKept.trans (h : KeysKept s s') (h' : KeysKept s' s'') : KeysKept s s'' :=
  fun k hk ↦ h' k (h k hk)

theorem keysKept_write (w : Write R) (s : Database R) : KeysKept s (s.write w) := by
  intro k hk
  cases w with
  | insertObservation row => exact Table.hasKey_insertNew.mpr (.inl hk)
  | updateScored clientId scores now =>
    exact (Table.hasKey_update (f := AssetObservation.setScores scores now) (fun _ ↦ rfl)).mpr hk
  | _ => exact hk

theorem keysKept_applyAll (ws : List (Write R)) (s : Database R) : KeysKept s (applyAll ws s) := by
  induction ws generalizing s with
  | nil => exact fun _ hk ↦ hk
  | cons w ws ih => exact (keysKept_write w s).trans (ih _)

theorem Inserting.hasKey (h : Inserting p id) (s : Database R) :
    (applyAll p s).assetObservation.HasKey id := by
  obtain ⟨row, hrow, rfl⟩ := h
  induction p generalizing s with
  | nil => cases hrow
  | cons w p ih =>
    rcases List.mem_cons.mp hrow with rfl | hrow
    · exact keysKept_applyAll p _ _ (Table.hasKey_insertNew.mpr (.inr rfl))
    · exact ih _ hrow

end Keys

variable [Field R] [LinearOrder R] {ext : Externals R}

/-! ### Jobs -/

/-- What runs on the server: a call of `insert_events`, or a tick of the fusion job. -/
inductive IngestJob (ext : Externals R) where
  | upload (deviceId : String) (now : DateTime) (events : List (EventPayload ext))
  | tick (t : Tick)

namespace IngestJob

/-- What a job returns. -/
def Answer : IngestJob ext → Type
  | upload .. => List String × List RejectedEvent
  | tick _ => Unit

/-- The ids that an answer acknowledges. -/
def acknowledged : (j : IngestJob ext) → Except Exn j.Answer → List String
  | upload .., .ok answer => answer.1
  | upload .., .error _ => []
  | tick _, _ => []

/-- The job is a call of `insert_events`. -/
def isUpload : IngestJob ext → Bool
  | upload .. => true
  | tick _ => false

/-- The program of a job. -/
def program (settings : Settings R) : (j : IngestJob ext) → DbProg R j.Answer
  | upload deviceId now events => insertEvents ext deviceId now events
  | tick t => runFusionJob ext settings t

end IngestJob

/-- A server with uploads and ticks. -/
abbrev IngestServer (ext : Externals R) :=
  Server (IngestJob ext) IngestJob.Answer (Database R) (Write R) Statement

/-- One step of the server; nothing waits. -/
abbrev ingestStep (settings : Settings R) (σ : IngestServer ext)
    (a : Act (IngestJob ext) (Beside R)) : Option (IngestServer ext) :=
  σ.step (fun _ ↦ ([] : List Empty)) (IngestJob.program settings) (fun _ ↦ []) a

/-! ### What the table holds -/

/-- The ingested columns of an event of a device. -/
def deliveredRow (x : String × EventPayload ext) : AssetObservation R := insertRow x.1 0 x.2

/-- Equal client ids carry the same device and payload. -/
def OneEventPerId (family : List (String × EventPayload ext)) : Prop :=
  ∀ x ∈ family, ∀ y ∈ family, x.2.clientId = y.2.clientId → x = y

/-- The effects that a job can have. -/
def Carries (family : List (String × EventPayload ext)) : IngestJob ext → Write R → Prop
  | .upload .., w => ∃ x ∈ family, ∃ now, w = insertWrite x.1 now x.2
  | .tick _, w => insertsReport w = false

/-- The ingested columns are those from the start, and those of delivered events. -/
structure Carried (family : List (String × EventPayload ext)) (init s : Database R) : Prop where
  kept : ∀ o ∈ ingestedRows init, o ∈ ingestedRows s
  sound : ∀ o ∈ ingestedRows s, o ∈ ingestedRows init ∨ ∃ x ∈ family, o = deliveredRow x

section Carried

variable {family : List (String × EventPayload ext)} {init s s' : Database R} {w : Write R}

theorem carried_start (family : List (String × EventPayload ext)) (init : Database R) :
    Carried family init init where
  kept := fun _ ho ↦ ho
  sound := fun _ ho ↦ .inl ho

theorem Carried.other (h : Carried family init s) (hw : insertsReport w = false) :
    Carried family init (s.write w) := by
  refine ⟨?_, ?_⟩
  · rw [ingestedRows_write hw]
    exact h.kept
  · rw [ingestedRows_write hw]
    exact h.sound

theorem Carried.write {j : IngestJob ext} (h : Carried family init s) (hw : Carries family j w) :
    Carried family init (s.write w) := by
  cases j with
  | tick t => exact h.other hw
  | upload deviceId now events =>
    obtain ⟨x, hx, now', rfl⟩ := hw
    refine ⟨fun o ho ↦ mem_insert_of_mem (h.kept o ho), ?_⟩
    intro o ho
    rcases of_mem_insert ho with hold | rfl
    · exact h.sound o hold
    · exact .inr ⟨x, hx, rfl⟩

/-- An event whose id has a row has its own row, and no other. -/
theorem Carried.delivered (h : Carried family init s) (hfamily : OneEventPerId family)
    (hinit : ∀ o ∈ ingestedRows init, ∀ x ∈ family, o.clientId = x.2.clientId → o = deliveredRow x)
    {x : String × EventPayload ext} (hx : x ∈ family)
    (hkey : s.assetObservation.HasKey x.2.clientId) : deliveredRow x ∈ ingestedRows s := by
  obtain ⟨o, ho, hid⟩ := Table.hasKey_iff.mp hkey
  have hmem : ingested o ∈ ingestedRows s := List.mem_map.mpr ⟨o, ho, rfl⟩
  rcases h.sound _ hmem with hold | ⟨y, hy, heq⟩
  · rw [← hinit _ hold x hx hid]
    exact hmem
  · have hsame : y.2.clientId = x.2.clientId :=
      (congrArg AssetObservation.clientId heq).symm.trans hid
    rw [← hfamily y hy x hx hsame, ← heq]
    exact hmem

/-- When all events are in the table, its ingested columns are determined. -/
theorem Carried.mem_iff (h : Carried family init s)
    (hall : ∀ x ∈ family, deliveredRow x ∈ ingestedRows s) {o : AssetObservation R} :
    o ∈ ingestedRows s ↔ o ∈ ingestedRows init ∨ ∃ x ∈ family, o = deliveredRow x := by
  constructor
  · exact h.sound o
  · rintro (hold | ⟨x, hx, rfl⟩)
    · exact h.kept o hold
    · exact hall x hx

theorem Carried.perm (h : Carried family init s) (h' : Carried family init s')
    (hall : ∀ x ∈ family, deliveredRow x ∈ ingestedRows s)
    (hall' : ∀ x ∈ family, deliveredRow x ∈ ingestedRows s') :
    (ingestedRows s).Perm (ingestedRows s') := by
  rw [List.perm_ext_iff_of_nodup (ingestedRows_ids_nodup s).of_map
    (ingestedRows_ids_nodup s').of_map]
  intro o
  rw [h.mem_iff hall, h'.mem_iff hall']

end Carried

/-! ### What an answer means -/

/-- The keys of the table stay, and the requests of an upload do not fail. -/
def uploadEnv (j : IngestJob ext) : Surroundings (Database R) (Write R) where
  rely := KeysKept
  made := fun _ _ _ _ ↦ True
  fails := fun _ ↦ j.isUpload = false

/-- What is acknowledged is in the table. -/
def Truthful (j : IngestJob ext) (r : Except Exn j.Answer) (s : Database R) : Prop :=
  ∀ id ∈ j.acknowledged r, s.assetObservation.HasKey id

section Uploads

variable {deviceId : String} {now : DateTime} {s : Database R}

theorem emits_insertEvents {P : Write R → Prop} {events : List (EventPayload ext)}
    (h : ∀ e ∈ events, P (insertWrite deviceId now e)) :
    (insertEvents ext deviceId now events).Emits P := by
  have hloop : ∀ (es : List (EventPayload ext)) (acc : List String) (rej : List RejectedEvent),
      (∀ e ∈ es, P (insertWrite deviceId now e)) →
      (insertEventsLoop ext deviceId now es acc rej).Emits P := by
    intro es
    induction es with
    | nil => exact fun _ _ _ ↦ Prog.emits_ret _
    | cons e rest ih =>
      intro acc rej hes
      have hrest := fun acc rej ↦ ih acc rej (fun e' he' ↦ hes e' (List.mem_cons_of_mem _ he'))
      rw [insertEventsLoop, insertEvent_eq]
      refine Prog.emits_bind (Prog.emits_attempt (Prog.emits_execute ?_)) ?_
      · intro _ ws hws w hw
        cases hws
        rw [List.mem_singleton.mp hw]
        exact hes e (List.mem_cons_self ..)
      · intro r
        split
        · exact hrest _ _
        · exact hrest _ _
        · exact Prog.emits_ret _
  exact Prog.emits_transaction (hloop events [] [] h)

/-- Without failures every accepted id waits in the transaction. -/
theorem under_insertEventsLoop {j : IngestJob ext} (hj : j.isUpload = true)
    (es : List (EventPayload ext)) {acc : List String} (rej : List RejectedEvent)
    {p : List (Write R)} (hacc : ∀ id ∈ acc, Inserting p id) :
    (insertEventsLoop ext deviceId now es acc rej).Under (uploadEnv j)
      (fun r t _ ↦ ∃ p', t = .active p' ∧ ∀ a, r = .ok a → ∀ id ∈ a.1, Inserting p' id)
      (.active p) s := by
  induction es generalizing acc rej p s with
  | nil =>
    refine Prog.under_pure ⟨p, rfl, ?_⟩
    intro a ha
    cases ha
    exact hacc
  | cons e rest ih =>
    rw [insertEventsLoop, insertEvent_eq]
    refine Prog.under_bind (Prog.under_attempt (Prog.under_execute ?_ ?_ ?_))
    · exact fun _ _ _ _ _ ↦ trivial
    · intro s' ws _ _ hws
      cases hws
      refine ⟨?_, fun e he ↦ by cases he⟩
      intro r hr
      cases hr
      refine ih rej ?_
      intro id hid
      rcases List.mem_append.mp hid with hid | hid
      · obtain ⟨row, hrow, hrowId⟩ := hacc id hid
        exact ⟨row, List.mem_append_left _ hrow, hrowId⟩
      · rw [List.mem_singleton.mp hid]
        exact ⟨_, List.mem_append_right _ (List.mem_singleton_self _), rfl⟩
    · rintro s' err t' _ (⟨f, hf⟩ | haborted | ⟨err, herr⟩) _
      · exact absurd (hj.symm.trans hf) (by decide)
      · cases haborted
      · cases herr

/-- The answer of a job is true where it ends. -/
theorem under_program (settings : Settings R) (j : IngestJob ext) :
    (j.program settings).Under (uploadEnv j) (fun r _ s ↦ Truthful j r s) .auto s := by
  cases j with
  | tick t =>
    refine Prog.under_of_emits (emits_runFusionJob ext settings t) (fun _ _ _ _ _ ↦ trivial) ?_
    exact fun _ _ _ _ hid ↦ absurd hid List.not_mem_nil
  | upload deviceId now events =>
    refine Prog.under_transaction ?_ ?_
    · exact fun _ _ _ _ hf ↦ by cases hf
    · intro s' _
      refine Prog.under_mono (under_insertEventsLoop rfl events [] (p := [])
        (fun _ hid ↦ absurd hid List.not_mem_nil)) ?_
      rintro r t s₁ ⟨p, rfl, hp⟩ s₂ _
      refine ⟨?_, fun e _ id hid ↦ absurd hid List.not_mem_nil⟩
      rintro a rfl id hid
      exact (hp a rfl id hid).hasKey s₂

end Uploads

/-! ### Runs -/

/-- What may happen: uploads of these events, whose requests do not fail. Connections may be lost
at any time. -/
def Delivers (family : List (String × EventPayload ext)) (σ : IngestServer ext) :
    Act (IngestJob ext) (Beside R) → Prop
  | .start (.upload deviceId _ events) => ∀ e ∈ events, (deviceId, e) ∈ family
  | .fail i _ => ∀ ss, σ.session i = some ss → ss.job.isUpload = false
  | _ => True

/-- Every event has been acknowledged. -/
def AllAcknowledged (family : List (String × EventPayload ext)) (σ : IngestServer ext) : Prop :=
  ∀ x ∈ family, ∃ res ∈ σ.results, x.2.clientId ∈ res.1.acknowledged res.2

/-- The step is one of an upload. -/
def ByUpload (σ : IngestServer ext) : Act (IngestJob ext) (Beside R) → Prop
  | .start j => j.isUpload = true
  | .serve i | .fail i _ | .finish i | .lose i =>
    ∃ ss, σ.session i = some ss ∧ ss.job.isUpload = true
  | .commit _ => False

/-- The invariant of a delivery. -/
structure Delivering (family : List (String × EventPayload ext)) (init : Database R)
    (σ : IngestServer ext) : Prop where
  carried : Carried family init σ.store
  emits : ∀ i ss, σ.session i = some ss → Server.EmitsIn (Carries family) ss
  under : ∀ i ss, σ.session i = some ss → ∃ s, KeysKept s σ.store ∧
    ss.prog.Under (uploadEnv ss.job) (fun r _ s ↦ Truthful ss.job r s) ss.txn s
  acknowledged : ∀ res ∈ σ.results, Truthful res.1 res.2 σ.store

section Delivering

variable {settings : Settings R} {family : List (String × EventPayload ext)} {init : Database R}
  {σ σ' : IngestServer ext} {a : Act (IngestJob ext) (Beside R)}

theorem Truthful.mono {j : IngestJob ext} {r : Except Exn j.Answer} {s s' : Database R}
    (h : Truthful j r s) (hs : KeysKept s s') : Truthful j r s' :=
  fun id hid ↦ hs id (h id hid)

theorem delivering_idle (family : List (String × EventPayload ext)) (init : Database R) :
    Delivering family init (Server.idle init) where
  carried := carried_start family init
  emits := fun _ _ h ↦ by cases h
  under := fun _ _ h ↦ by cases h
  acknowledged := fun _ h ↦ absurd h List.not_mem_nil

/-- The store after a step. -/
theorem Delivering.stored (h : Delivering family init σ)
    (hmoves : Server.Moves (fun _ ↦ ([] : List Empty)) (IngestJob.program settings) (fun _ ↦ [])
      σ a σ') : Carried family init σ'.store ∧ KeysKept σ.store σ'.store := by
  rcases hmoves.store with hsame | ⟨i, j, r, k, t, rfl, hs, hstore⟩ | ⟨u, rfl, hstore⟩
  · rw [hsame]
    exact ⟨h.carried, fun _ hk ↦ hk⟩
  · obtain ⟨_, ws, hws, happly⟩ := (h.emits i _ hs).serve (s := σ.store)
      (answerOn σ.store t r).1
    rw [hstore, happly]
    refine ⟨?_, keysKept_applyAll ws σ.store⟩
    exact Prog.applyAll_keeps (fun _ _ hw hs ↦ hs.write hw) hws h.carried
  · rw [hstore]
    exact ⟨h.carried.other u.other, keysKept_write u.effect σ.store⟩

theorem Delivering.step (h : Delivering family init σ) (hok : Delivers family σ a)
    (hstep : ingestStep settings σ a = some σ') : Delivering family init σ' := by
  have hmoves := Server.moves_of_step hstep
  obtain ⟨hcarried, hkept⟩ := h.stored hmoves
  refine ⟨hcarried, ?_, ?_, ?_⟩
  · refine hmoves.emitsIn h.emits ?_
    rintro j rfl
    cases j with
    | tick t =>
      exact Prog.emits_mono (emits_runFusionJob ext settings t)
        (fun _ ↦ insertsReport_of_keepsAssets)
    | upload deviceId now events =>
      exact emits_insertEvents (fun e he ↦ ⟨(deviceId, e), hok e he, now, rfl⟩)
  · refine hmoves.sessions (P := fun ss s' ↦ ∃ s, KeysKept s s' ∧
      ss.prog.Under (uploadEnv ss.job) (fun r _ s ↦ Truthful ss.job r s) ss.txn s) h.under ?_ ?_
      ?_ ?_
    · exact fun j _ ↦ ⟨σ.store, fun _ hk ↦ hk, under_program settings j⟩
    · intro i j r k t _ hs _
      obtain ⟨s, hs₀, hunder⟩ := h.under i _ hs
      exact ⟨_, fun _ hk ↦ hk, (hunder σ.store hs₀).2.1⟩
    · rintro i j r k t f rfl hs
      obtain ⟨s, hs₀, hunder⟩ := h.under i _ hs
      have hstore : (failOn σ.store t r f).2.store = σ.store :=
        (fail_eq (⟨σ.store, t, []⟩ : Conn (Database R) (Write R) Statement) r f).2.1
      refine ⟨_, ?_, (hunder σ.store hs₀).2.2 f (hok _ hs)⟩
      rw [hstore]
      exact fun _ hk ↦ hk
    · intro i ss hss _
      obtain ⟨s, hs₀, hunder⟩ := h.under i ss hss
      exact ⟨s, hs₀.trans hkept, hunder⟩
  · intro res hres
    cases hmoves with
    | @finish i j r t hs =>
      rcases List.mem_cons.mp hres with rfl | hold
      · obtain ⟨s, hs₀, hunder⟩ := h.under i _ hs
        exact Truthful.mono hunder hs₀
      · exact h.acknowledged res hold
    | start | serve | fail | lose | commit => exact (h.acknowledged res hres).mono hkept

end Delivering

/-- Every session of an upload can only insert reports. -/
def OnlyInserts (σ : IngestServer ext) : Prop :=
  ∀ i ss, σ.session i = some ss →
    Server.EmitsIn (fun j w ↦ j.isUpload = true → insertsReport w = true) ss

section OnlyInserts

variable {settings : Settings R} {σ σ' : IngestServer ext} {a : Act (IngestJob ext) (Beside R)}

theorem OnlyInserts.step (h : OnlyInserts σ) (hstep : ingestStep settings σ a = some σ') :
    OnlyInserts σ' := by
  refine (Server.moves_of_step hstep).emitsIn h ?_
  rintro j _
  cases j with
  | upload deviceId now events => exact emits_insertEvents (fun e _ _ ↦ rfl)
  | tick t => exact Prog.emits_mono (emits_runFusionJob ext settings t) (fun _ _ h ↦ by cases h)

/-- A step of an upload keeps the rows as they are. -/
theorem OnlyInserts.rows (h : OnlyInserts σ) (hstep : ingestStep settings σ a = some σ')
    (ha : ByUpload σ a) {o : AssetObservation R} (ho : o ∈ σ.store.assetObservation) :
    o ∈ σ'.store.assetObservation := by
  rcases (Server.moves_of_step hstep).store with hsame | ⟨i, j, r, k, t, rfl, hs, hstore⟩ |
    ⟨u, rfl, _⟩
  · rw [hsame]
    exact ho
  · obtain ⟨ss, hss, hupload⟩ := ha
    have hj : j.isUpload = true := by
      rw [hs] at hss
      cases hss
      exact hupload
    obtain ⟨_, ws, hws, happly⟩ := (h i _ hs).serve (s := σ.store) (answerOn σ.store t r).1
    rw [hstore, happly]
    refine Prog.applyAll_keeps (J := fun s : Database R ↦ o ∈ s.assetObservation) ?_
      (fun w hw ↦ hws w hw hj) ho
    intro s w hw hmem
    cases w with
    | insertObservation row => exact Table.mem_insertNew_of_mem row hmem
    | _ => cases hw
  · exact ha.elim

end OnlyInserts

/-- Whatever the batches, their order, repetitions and lost connections, and whatever happens
beside: when every event has been acknowledged, each has exactly one row with its payload, and the
ingested columns are the same after every such run. No step of an upload changes a row. -/
theorem delivery_converges (settings : Settings R) (family : List (String × EventPayload ext))
    (hfamily : OneEventPerId family) (init : Database R)
    (hinit : ∀ o ∈ ingestedRows init, ∀ x ∈ family, o.clientId = x.2.clientId →
      o = deliveredRow x) :
    (∀ σ : IngestServer ext, Reaches (ingestStep settings) (Delivers family) (Server.idle init) σ →
      AllAcknowledged family σ →
        (∀ x ∈ family, (ingestedRows σ.store).filter (fun o ↦ o.clientId = x.2.clientId) =
          [deliveredRow x]) ∧
        ∀ σ' : IngestServer ext,
          Reaches (ingestStep settings) (Delivers family) (Server.idle init) σ' →
          AllAcknowledged family σ' → (ingestedRows σ.store).Perm (ingestedRows σ'.store)) ∧
    ∀ σ : IngestServer ext, Reaches (ingestStep settings) (fun _ _ ↦ True) (Server.idle init) σ →
      ∀ a σ', ByUpload σ a → ingestStep settings σ a = some σ' →
        ∀ o ∈ σ.store.assetObservation, o ∈ σ'.store.assetObservation := by
  have hdelivering : ∀ σ : IngestServer ext,
      Reaches (ingestStep settings) (Delivers family) (Server.idle init) σ →
      Delivering family init σ := fun σ h ↦
    h.invariant (Delivering family init) (delivering_idle family init)
      (fun _ _ _ hs hok hstep ↦ hs.step hok hstep)
  have hall : ∀ σ : IngestServer ext, Delivering family init σ → AllAcknowledged family σ →
      ∀ x ∈ family, deliveredRow x ∈ ingestedRows σ.store := by
    intro σ hσ hack x hx
    obtain ⟨res, hres, hid⟩ := hack x hx
    exact hσ.carried.delivered hfamily hinit hx (hσ.acknowledged res hres _ hid)
  refine ⟨?_, ?_⟩
  · intro σ hreach hack
    have hσ := hdelivering σ hreach
    refine ⟨fun x hx ↦ filter_clientId (hall σ hσ hack x hx), ?_⟩
    intro σ' hreach' hack'
    have hσ' := hdelivering σ' hreach'
    exact hσ.carried.perm hσ'.carried (hall σ hσ hack) (hall σ' hσ' hack')
  · intro σ hreach a σ' ha hstep o ho
    have hinserts : OnlyInserts σ := hreach.invariant OnlyInserts (fun _ _ h ↦ by cases h)
      (fun _ _ _ hs _ hstep ↦ hs.step hstep)
    exact hinserts.rows hstep ha ho

/-! ### Two deliveries of two reports -/

/-- The report `b`. -/
def secondEvent : EventPayload Externals.planar :=
  ⟨report "b" none, report_valid (by decide) (by simp)⟩

/-- Two reports of a device. -/
def twoReports : List (String × EventPayload Externals.planar) :=
  [("device", goodEvent), ("device", secondEvent)]

/-- The first connection is lost before its commit, the second one after it. A tick scores `b`, then
all is uploaded again. -/
def withLosses : List (Act (IngestJob Externals.planar) (Beside ℚ)) :=
  List.flatten [
    [.start (.upload "device" 1 [goodEvent, secondEvent]), .serve 0, .serve 0, .lose 0],
    [.start (.upload "device" 2 [secondEvent, secondEvent])],
    List.replicate 4 (.serve 1), [.lose 1],
    [.start (.tick ⟨true, "run", 10, 11⟩)], List.replicate 8 (.serve 2), [.finish 2],
    [.start (.upload "device" 12 [goodEvent, secondEvent, goodEvent])],
    List.replicate 5 (.serve 3), [.finish 3]]

/-- One batch, and nothing is lost. -/
def inOneBatch : List (Act (IngestJob Externals.planar) (Beside ℚ)) :=
  .start (.upload "device" 1 [goodEvent, secondEvent]) :: List.replicate 4 (.serve 0) ++
    [.finish 0]

/-- The server after a delivery. -/
def afterDelivery (acts : List (Act (IngestJob Externals.planar) (Beside ℚ))) :
    IngestServer Externals.planar :=
  play (ingestStep (Settings.default ℚ)) (Server.idle modelDb) acts

/-- Both deliveries end in the same ingested columns, and the scores of `b` are not lost. -/
theorem delivery_converges_lossy :
    (afterDelivery withLosses).store.assetObservation.rows.map
      (fun o ↦ (o.clientId, o.scoredAt)) = [("b", some 10), ("a", none)] ∧
    (ingestedRows (afterDelivery withLosses).store).Perm
      (ingestedRows (afterDelivery inOneBatch).store) := by
  refine ⟨by decide +kernel, ?_⟩
  have hfamily : OneEventPerId twoReports := by
    intro x hx y hy hid
    simp only [twoReports, List.mem_cons, List.not_mem_nil, or_false] at hx hy
    rcases hx with rfl | rfl
    · rcases hy with rfl | rfl
      · rfl
      · exact absurd hid (by decide)
    · rcases hy with rfl | rfl
      · exact absurd hid (by decide)
      · rfl
  have hlossy : ∀ a ∈ withLosses, ∀ σ, Delivers twoReports σ a := by
    simp [Delivers, twoReports, withLosses]
  have hplain : ∀ a ∈ inOneBatch, ∀ σ, Delivers twoReports σ a := by
    simp [Delivers, twoReports, inOneBatch]
  have hconverges := (delivery_converges (Settings.default ℚ) twoReports hfamily modelDb
    (fun _ ho ↦ absurd ho List.not_mem_nil)).1
  refine (hconverges (afterDelivery withLosses)
    (Reaches.start.play (admits_of_forall hlossy _)) ?_).2 (afterDelivery inOneBatch)
    (Reaches.start.play (admits_of_forall hplain _)) ?_
  · unfold AllAcknowledged
    decide +kernel
  · unfold AllAcknowledged
    decide +kernel

end PotholeServer.Ingest
