import PotholeServer.Fusion.Job
import PotholeServer.Runs

/-!
# Activating a sensor model

`app/sensor_model/store.py: save_model`, run by any number of transactions under READ COMMITTED.
The `UPDATE` takes its snapshot, waits at each row that another transaction has deactivated, and
checks the row again when that one is over. The `INSERT` waits as long as another transaction may
still add or free the place of the active row, and fails when a committed row has it.

A save that commits has the effect of deactivating every row and inserting its own at that moment;
all others have none.
-/

namespace PotholeServer.Sensor.Store

open Sql Db

variable {τ R : Type}

/-- Where a save stands in its transaction. -/
inductive Phase (R : Type) where
  | idle
  /-- After `BEGIN`. -/
  | begun (model : SensorModel R)
  /-- In the `UPDATE`, with the rows of its snapshot that it has not visited. -/
  | updating (model : SensorModel R) (unvisited : List String)
  | updated (model : SensorModel R)
  | inserted (model : SensorModel R)
  | committed (model : SensorModel R)
  /-- The transaction is rolled back, and the save raises. -/
  | raised

/-- Committed rows and open transactions: the rows each one has deactivated, and those that have a
row of their own. `commits` remembers the saves that committed, in order; no code reads it. -/
structure State (τ R : Type) where
  table : Table (SensorModelRow R)
  phase : τ → Phase R
  locks : List (τ × String)
  pending : List τ
  commits : List (τ × SensorModel R)

/-- One step of a save. -/
inductive Event (τ R : Type) where
  | begin (t : τ) (model : SensorModel R)
  | snapshot (t : τ)
  | visit (t : τ) (version : String)
  | updateDone (t : τ)
  | insert (t : τ)
  | commit (t : τ)
  /-- A statement or the `COMMIT` fails, or the connection is lost before it. -/
  | fail (t : τ)

/-- `UPDATE sensor_model SET is_active = FALSE`, on the selected rows. -/
def deactivate (p : SensorModelRow R → Bool) (table : Table (SensorModelRow R)) :
    Table (SensorModelRow R) :=
  table.update p (fun r ↦ { r with isActive := false }) (fun _ ↦ rfl)

/-- The effect of a whole `save_model`. -/
def activate (model : SensorModel R) (table : Table (SensorModelRow R)) :
    Table (SensorModelRow R) :=
  (deactivate SensorModelRow.isActive table).insertNew ⟨model, true⟩

/-- The model that `_SELECT_ACTIVE_SQL` returns. -/
def activeModel (table : Table (SensorModelRow R)) : Option (SensorModel R) :=
  (table.rows.find? SensorModelRow.isActive).map SensorModelRow.model

/-- The keys of the active rows. -/
def activeVersions (table : Table (SensorModelRow R)) : List String :=
  (table.rows.filter SensorModelRow.isActive).map key

section Machine

variable [DecidableEq τ]

namespace State

/-- Nothing has started. -/
def start (table : Table (SensorModelRow R)) : State τ R := ⟨table, fun _ ↦ .idle, [], [], []⟩

/-- The save goes on to another phase. -/
def goto (s : State τ R) (t : τ) (p : Phase R) : State τ R :=
  { s with phase := Function.update s.phase t p }

/-- The transaction is over: its locks and its row are gone. -/
def close (s : State τ R) (t : τ) (p : Phase R) : State τ R :=
  { s.goto t p with
    locks := s.locks.filter (fun x ↦ x.1 ≠ t)
    pending := s.pending.filter (fun u ↦ u ≠ t) }

end State

/-- The `UPDATE` at one row. It waits while another transaction has deactivated the row, and then
takes the committed version if that is still active. -/
def visit (s : State τ R) (t : τ) (model : SensorModel R) (unvisited : List String)
    (version : String) : Option (State τ R) :=
  if version ∉ unvisited ∨ ∃ x ∈ s.locks, x.1 ≠ t ∧ x.2 = version then none
  else
    let rest := s.goto t (.updating model (unvisited.erase version))
    some (if version ∈ activeVersions s.table then { rest with locks := (t, version) :: rest.locks }
      else rest)

/-- The `INSERT`. A committed row with the version violates the primary key. An active row that
this transaction has not deactivated violates `idx_sensor_model_active`, unless another one may
still take it away or add one, which is waited for. -/
def insert (s : State τ R) (t : τ) (model : SensorModel R) : Option (State τ R) :=
  if s.table.HasKey model.modelVersion then some (s.close t .raised)
  else if ∃ u ∈ s.pending, u ≠ t then none
  else if ∃ v ∈ activeVersions s.table, (t, v) ∉ s.locks then
    if ∃ v ∈ activeVersions s.table, ∃ x ∈ s.locks, x.1 ≠ t ∧ x.2 = v then none
    else some (s.close t .raised)
  else some { s.goto t (.inserted model) with pending := t :: s.pending }

/-- The `COMMIT`: the pending versions become the committed ones. -/
def commit (s : State τ R) (t : τ) (model : SensorModel R) : State τ R :=
  { s.close t (.committed model) with
    table := (deactivate (fun r ↦ (t, key r) ∈ s.locks) s.table).insertNew ⟨model, true⟩
    commits := s.commits ++ [(t, model)] }

/-- One step of one save; `none` when it is not at that point or has to wait. -/
def step (s : State τ R) : Event τ R → Option (State τ R)
  | .begin t model => match s.phase t with
    | .idle => some (s.goto t (.begun model))
    | _ => none
  | .snapshot t => match s.phase t with
    | .begun model => some (s.goto t (.updating model (activeVersions s.table)))
    | _ => none
  | .visit t version => match s.phase t with
    | .updating model unvisited => visit s t model unvisited version
    | _ => none
  | .updateDone t => match s.phase t with
    | .updating model [] => some (s.goto t (.updated model))
    | _ => none
  | .insert t => match s.phase t with
    | .updated model => insert s t model
    | _ => none
  | .commit t => match s.phase t with
    | .inserted model => some (commit s t model)
    | _ => none
  | .fail t => match s.phase t with
    | .idle | .committed _ | .raised => none
    | _ => some (s.close t .raised)

end Machine

/-! ### Tables -/

/-- No two rows are active. -/
def AtMostOneActive (table : Table (SensorModelRow R)) : Prop :=
  ∀ r ∈ table, ∀ r' ∈ table, r.isActive = true → r'.isActive = true → r = r'

theorem mem_activeVersions {table : Table (SensorModelRow R)} {v : String} :
    v ∈ activeVersions table ↔ ∃ r ∈ table, r.isActive = true ∧ key r = v := by
  simp only [activeVersions, List.mem_map, List.mem_filter, Table.mem_def, and_assoc]

theorem hasKey_deactivate {p : SensorModelRow R → Bool} {table : Table (SensorModelRow R)}
    {v : String} : (deactivate p table).HasKey v ↔ table.HasKey v := Table.hasKey_update _

/-- After an activation the new row is active and no other. -/
theorem eq_of_mem_activate {model : SensorModel R} {table : Table (SensorModelRow R)}
    {r : SensorModelRow R} (h : r ∈ activate model table) (hactive : r.isActive = true) :
    r = ⟨model, true⟩ := by
  rcases Table.mem_insertNew.mp h with h | ⟨rfl, _⟩
  · obtain ⟨r₀, -, rfl⟩ := Table.mem_update.mp h
    cases h₀ : r₀.isActive <;> simp [h₀] at hactive
  · rfl

theorem mem_activate_self {model : SensorModel R} {table : Table (SensorModelRow R)}
    (h : ¬table.HasKey model.modelVersion) : ⟨model, true⟩ ∈ activate model table := by
  refine Table.mem_insertNew.mpr (.inr ⟨rfl, ?_⟩)
  rw [hasKey_deactivate]
  exact h

theorem atMostOneActive_activate (model : SensorModel R) (table : Table (SensorModelRow R)) :
    AtMostOneActive (activate model table) := by
  intro r hr r' hr' hactive hactive'
  rw [eq_of_mem_activate hr hactive, eq_of_mem_activate hr' hactive']

/-- After an activation the query returns its model. -/
theorem activeModel_activate {model : SensorModel R} {table : Table (SensorModelRow R)}
    (h : ¬table.HasKey model.modelVersion) : activeModel (activate model table) = some model := by
  rw [activeModel]
  cases hfind : (activate model table).rows.find? SensorModelRow.isActive with
  | none => exact absurd rfl (List.find?_eq_none.mp hfind _ (mem_activate_self h))
  | some r =>
    rw [eq_of_mem_activate (List.mem_of_find?_eq_some hfind) (List.find?_some hfind)]
    rfl

/-- `load_active_model` reads the table of models. -/
theorem loadActiveModel_eq (db : Database R) :
    Fusion.loadActiveModel db = activeModel db.sensorModel := rfl

/-! ### What one step does -/

/-- The save has not inserted its row and is not over. -/
def Phase.early : Phase R → Prop
  | .idle | .begun _ | .updating .. | .updated _ => True
  | .inserted _ | .committed _ | .raised => False

section Steps

variable [DecidableEq τ] {s s' : State τ R}

/-- The kinds of steps. -/
inductive Moves (s : State τ R) : State τ R → Prop where
  | goto (t : τ) (p : Phase R) (hold : (s.phase t).early) (hnew : p.early) : Moves s (s.goto t p)
  | lock (t : τ) (p : Phase R) (v : String) (hold : (s.phase t).early) (hnew : p.early)
    (hactive : v ∈ activeVersions s.table) (hfree : ∀ x ∈ s.locks, x.2 = v → x.1 = t) :
    Moves s { s.goto t p with locks := (t, v) :: s.locks }
  | insert (t : τ) (model : SensorModel R) (hold : (s.phase t).early)
    (hkey : ¬s.table.HasKey model.modelVersion) (hpending : ∀ u ∈ s.pending, u = t)
    (hlocked : ∀ v ∈ activeVersions s.table, (t, v) ∈ s.locks) :
    Moves s { s.goto t (.inserted model) with pending := t :: s.pending }
  | raise (t : τ) (hold : ∀ model, s.phase t ≠ .committed model) : Moves s (s.close t .raised)
  | commit (t : τ) (model : SensorModel R) (hold : s.phase t = .inserted model) :
    Moves s (commit s t model)

theorem moves_visit {t : τ} {model : SensorModel R} {unvisited : List String} {v : String}
    (hold : (s.phase t).early) (h : visit s t model unvisited v = some s') : Moves s s' := by
  unfold visit at h
  split at h
  · cases h
  · next hwait =>
    rw [not_or] at hwait
    cases h
    split
    · next hactive =>
      refine .lock t _ v hold trivial hactive ?_
      intro x hx hv
      by_contra hne
      exact hwait.2 ⟨x, hx, hne, hv⟩
    · exact .goto t _ hold trivial

theorem moves_insert {t : τ} {model : SensorModel R} (hold : (s.phase t).early)
    (h : insert s t model = some s') : Moves s s' := by
  have hraise : Moves s (s.close t .raised) := by
    refine .raise t ?_
    intro m hm
    rw [hm] at hold
    exact hold
  unfold insert at h
  split at h
  · cases h
    exact hraise
  · next hkey =>
    split at h
    · cases h
    · next hpending =>
      split at h
      · split at h
        · cases h
        · cases h
          exact hraise
      · next hlocked =>
        cases h
        refine .insert t model hold hkey ?_ ?_
        · intro u hu
          by_contra hne
          exact hpending ⟨u, hu, hne⟩
        · intro v hv
          by_contra hnot
          exact hlocked ⟨v, hv, hnot⟩

/-- Every step is of one of these kinds. -/
theorem moves_step {e : Event τ R} (h : step s e = some s') : Moves s s' := by
  cases e with
  | begin t model =>
    simp only [step] at h
    split at h
    · next hold => cases h; exact .goto t _ (by rw [hold]; trivial) trivial
    · cases h
  | snapshot t =>
    simp only [step] at h
    split at h
    · next hold => cases h; exact .goto t _ (by rw [hold]; trivial) trivial
    · cases h
  | visit t v =>
    simp only [step] at h
    split at h
    · next hold => exact moves_visit (by rw [hold]; trivial) h
    · cases h
  | updateDone t =>
    simp only [step] at h
    split at h
    · next hold => cases h; exact .goto t _ (by rw [hold]; trivial) trivial
    · cases h
  | insert t =>
    simp only [step] at h
    split at h
    · next hold => exact moves_insert (by rw [hold]; trivial) h
    · cases h
  | commit t =>
    simp only [step] at h
    split at h
    · next hold => cases h; exact .commit t _ hold
    · cases h
  | fail t =>
    simp only [step] at h
    split at h
    · cases h
    · cases h
    · cases h
    · next hcommitted _ => cases h; exact .raise t hcommitted

end Steps

/-! ### Which save is running -/

/-- The save that a step belongs to. -/
def Event.save : Event τ R → τ
  | .begin t _ | .snapshot t | .visit t _ | .updateDone t | .insert t | .commit t | .fail t => t

/-- The model of a save whose transaction is open. -/
def Phase.running : Phase R → Option (SensorModel R)
  | .begun model | .updating model _ | .updated model | .inserted model => some model
  | .idle | .committed _ | .raised => none

section Running

variable [DecidableEq τ] {s s' : State τ R}

/-- A step sets the phase of its save. A save that is running afterwards has begun with this step,
or was running with the same model. -/
theorem running_step {e : Event τ R} (h : step s e = some s') :
    ∃ p, s'.phase = Function.update s.phase e.save p ∧ ∀ model, p.running = some model →
      e = .begin e.save model ∨ (s.phase e.save).running = some model := by
  cases e with
  | begin t model =>
    simp only [step] at h
    split at h
    · cases h
      refine ⟨_, rfl, ?_⟩
      rintro m ⟨⟩
      exact .inl rfl
    · cases h
  | snapshot t =>
    simp only [step] at h
    split at h
    · next hold => cases h; exact ⟨_, rfl, fun m hm ↦ .inr (by rw [Event.save, hold]; exact hm)⟩
    · cases h
  | visit t v =>
    simp only [step, visit] at h
    split at h
    · next model unvisited hold =>
      split at h
      · cases h
      · cases h
        refine ⟨.updating model (unvisited.erase v), ?_, fun m hm ↦ .inr ?_⟩
        · split <;> rfl
        · rw [Event.save, hold]
          exact hm
    · cases h
  | updateDone t =>
    simp only [step] at h
    split at h
    · next hold => cases h; exact ⟨_, rfl, fun m hm ↦ .inr (by rw [Event.save, hold]; exact hm)⟩
    · cases h
  | insert t =>
    simp only [step, insert] at h
    split at h
    · next hold =>
      split at h
      · cases h
        exact ⟨.raised, rfl, fun m hm ↦ by cases hm⟩
      · split at h
        · cases h
        · split at h
          · split at h
            · cases h
            · cases h
              exact ⟨.raised, rfl, fun m hm ↦ by cases hm⟩
          · cases h
            exact ⟨_, rfl, fun m hm ↦ .inr (by rw [Event.save, hold]; exact hm)⟩
    · cases h
  | commit t =>
    simp only [step] at h
    split at h
    · cases h
      exact ⟨_, rfl, fun m hm ↦ by cases hm⟩
    · cases h
  | fail t =>
    simp only [step] at h
    split at h
    · cases h
    · cases h
    · cases h
    · cases h
      exact ⟨.raised, rfl, fun m hm ↦ by cases hm⟩

end Running

/-! ### The invariant -/

/-- The table is what the committed saves made of the initial one, in the order of their commits.
Locks are exclusive and on active rows; a save that has inserted its row is the only one, and has
locked every active row. -/
structure Inv (table : Table (SensorModelRow R)) (s : State τ R) : Prop where
  applied : s.table = s.commits.foldl (fun t c ↦ activate c.2 t) table
  last : ∀ c ∈ s.commits.getLast?, ∃ before : Table (SensorModelRow R),
    ¬before.HasKey c.2.modelVersion ∧ s.table = activate c.2 before
  committed : ∀ t model, (t, model) ∈ s.commits ↔ s.phase t = .committed model
  lockActive : ∀ x ∈ s.locks, x.2 ∈ activeVersions s.table
  lockUnique : ∀ x ∈ s.locks, ∀ y ∈ s.locks, x.2 = y.2 → x.1 = y.1
  pendingInserted : ∀ t, t ∈ s.pending ↔ ∃ model, s.phase t = .inserted model
  pendingUnique : ∀ t ∈ s.pending, ∀ u ∈ s.pending, t = u
  insertedLocks : ∀ t model, s.phase t = .inserted model →
    (∀ v ∈ activeVersions s.table, (t, v) ∈ s.locks) ∧ ¬s.table.HasKey model.modelVersion

theorem Inv.start [DecidableEq τ] (table : Table (SensorModelRow R)) :
    Inv table (State.start table : State τ R) where
  applied := rfl
  last := fun _ h ↦ by cases h
  committed := fun t model ↦ by simp [State.start]
  lockActive := fun _ h ↦ by cases h
  lockUnique := fun _ h ↦ by cases h
  pendingInserted := fun t ↦ by simp [State.start]
  pendingUnique := fun _ h ↦ by cases h
  insertedLocks := fun _ _ h ↦ by cases h

section Invariant

variable [DecidableEq τ] {table : Table (SensorModelRow R)} {s : State τ R} {t : τ}

theorem phase_goto_self (p : Phase R) : (s.goto t p).phase t = p := by simp [State.goto]

theorem phase_goto_of_ne {u : τ} (p : Phase R) (h : u ≠ t) : (s.goto t p).phase u = s.phase u := by
  simp [State.goto, h]

omit [DecidableEq τ] in
/-- A step of a save that has not committed and does not. -/
theorem Inv.committed_of (h : Inv table s) {s' : State τ R} (hcommits : s'.commits = s.commits)
    (hphase : ∀ u, u ≠ t → s'.phase u = s.phase u)
    (hold : ∀ model, s.phase t ≠ .committed model)
    (hnew : ∀ model, s'.phase t ≠ .committed model) (u : τ) (model : SensorModel R) :
    (u, model) ∈ s'.commits ↔ s'.phase u = .committed model := by
  rw [hcommits, h.committed]
  by_cases hu : u = t
  · subst hu
    exact iff_of_false (hold model) (hnew model)
  · rw [hphase u hu]

theorem Phase.early.not_committed {p : Phase R} (h : p.early) (model : SensorModel R) :
    p ≠ .committed model := by
  rintro rfl
  exact h

theorem Phase.early.not_inserted {p : Phase R} (h : p.early) (model : SensorModel R) :
    p ≠ .inserted model := by
  rintro rfl
  exact h

/-- A save that moves before its insert. -/
theorem Inv.goto (h : Inv table s) {p : Phase R} (hold : (s.phase t).early) (hnew : p.early) :
    Inv table (s.goto t p) := by
  have hinserted : ∀ u model, (s.goto t p).phase u = .inserted model ↔
      s.phase u = .inserted model := by
    intro u model
    by_cases hu : u = t
    · subst hu
      rw [phase_goto_self]
      exact iff_of_false (hnew.not_inserted model) (hold.not_inserted model)
    · rw [phase_goto_of_ne p hu]
  refine ⟨h.applied, h.last, ?_, h.lockActive, h.lockUnique, ?_, h.pendingUnique, ?_⟩
  · refine h.committed_of rfl (fun u hu ↦ phase_goto_of_ne p hu) hold.not_committed ?_
    rw [phase_goto_self]
    exact hnew.not_committed
  · intro u
    simp only [hinserted]
    exact h.pendingInserted u
  · intro u model hu
    exact h.insertedLocks u model ((hinserted u model).mp hu)

omit [DecidableEq τ] in
/-- A save that takes a free lock on an active row. -/
theorem Inv.lock (h : Inv table s) {v : String} (hactive : v ∈ activeVersions s.table)
    (hfree : ∀ x ∈ s.locks, x.2 = v → x.1 = t) :
    Inv table { s with locks := (t, v) :: s.locks } := by
  refine ⟨h.applied, h.last, h.committed, ?_, ?_, h.pendingInserted, h.pendingUnique, ?_⟩
  · intro x hx
    rcases List.mem_cons.mp hx with rfl | hx
    · exact hactive
    · exact h.lockActive x hx
  · intro x hx y hy hxy
    rcases List.mem_cons.mp hx with rfl | hx
    · rcases List.mem_cons.mp hy with rfl | hy
      · rfl
      · exact (hfree y hy hxy.symm).symm
    · rcases List.mem_cons.mp hy with rfl | hy
      · exact hfree x hx hxy
      · exact h.lockUnique x hx y hy hxy
  · intro u model hu
    obtain ⟨hlocked, hkey⟩ := h.insertedLocks u model hu
    exact ⟨fun v hv ↦ List.mem_cons_of_mem _ (hlocked v hv), hkey⟩

/-- A save that inserts its row. -/
theorem Inv.insert (h : Inv table s) {model : SensorModel R} (hold : (s.phase t).early)
    (hkey : ¬s.table.HasKey model.modelVersion) (hpending : ∀ u ∈ s.pending, u = t)
    (hlocked : ∀ v ∈ activeVersions s.table, (t, v) ∈ s.locks) :
    Inv table { s.goto t (.inserted model) with pending := t :: s.pending } := by
  have honly : ∀ u ∈ t :: s.pending, u = t := by
    intro u hu
    rcases List.mem_cons.mp hu with rfl | hu
    · rfl
    · exact hpending u hu
  refine ⟨h.applied, h.last, ?_, h.lockActive, h.lockUnique, ?_, ?_, ?_⟩
  · refine h.committed_of rfl (fun u hu ↦ phase_goto_of_ne (.inserted model) hu)
      hold.not_committed ?_
    intro m hm
    rw [phase_goto_self] at hm
    cases hm
  · intro u
    by_cases hu : u = t
    · subst hu
      exact iff_of_true (List.mem_cons_self ..) ⟨model, phase_goto_self _⟩
    · have hphase := phase_goto_of_ne (s := s) (.inserted model) hu
      simp only [hphase, List.mem_cons, hu, false_or]
      exact h.pendingInserted u
  · intro u hu u' hu'
    rw [honly u hu, honly u' hu']
  · intro u m hu
    by_cases hut : u = t
    · subst hut
      rw [phase_goto_self, Phase.inserted.injEq] at hu
      subst hu
      exact ⟨hlocked, hkey⟩
    · rw [phase_goto_of_ne _ hut] at hu
      exact h.insertedLocks u m hu

/-- A save that is rolled back. -/
theorem Inv.raise (h : Inv table s) (hold : ∀ model, s.phase t ≠ .committed model) :
    Inv table (s.close t .raised) := by
  have hlocks : ∀ x, x ∈ (s.close t .raised).locks ↔ x ∈ s.locks ∧ x.1 ≠ t := by
    intro x
    simp [State.close]
  have hpending : ∀ u, u ∈ (s.close t .raised).pending ↔ u ∈ s.pending ∧ u ≠ t := by
    intro u
    simp [State.close]
  have hself : (s.close t .raised).phase t = .raised := phase_goto_self _
  have hphase : ∀ u, u ≠ t → (s.close t .raised).phase u = s.phase u :=
    fun u hu ↦ phase_goto_of_ne _ hu
  refine ⟨h.applied, h.last, ?_, ?_, ?_, ?_, ?_, ?_⟩
  · refine h.committed_of rfl hphase hold ?_
    intro model hmodel
    rw [hself] at hmodel
    cases hmodel
  · intro x hx
    exact h.lockActive x ((hlocks x).mp hx).1
  · intro x hx y hy
    exact h.lockUnique x ((hlocks x).mp hx).1 y ((hlocks y).mp hy).1
  · intro u
    by_cases hu : u = t
    · subst hu
      simp [hpending, hself]
    · simp only [hpending, hphase u hu, hu, ne_eq, not_false_eq_true, and_true]
      exact h.pendingInserted u
  · intro u hu u' hu'
    exact h.pendingUnique u ((hpending u).mp hu).1 u' ((hpending u').mp hu').1
  · intro u model hu
    have hut : u ≠ t := by
      rintro rfl
      rw [hself] at hu
      cases hu
    rw [hphase u hut] at hu
    obtain ⟨hlocked, hkey⟩ := h.insertedLocks u model hu
    exact ⟨fun v hv ↦ (hlocks _).mpr ⟨hlocked v hv, hut⟩, hkey⟩

/-- The rows that a save with an inserted row has deactivated are the active ones. -/
theorem Inv.commit_table (h : Inv table s) {model : SensorModel R}
    (hold : s.phase t = .inserted model) : (commit s t model).table = activate model s.table := by
  have hsame : deactivate (fun r ↦ (t, key r) ∈ s.locks) s.table =
      deactivate SensorModelRow.isActive s.table := by
    refine Table.ext (List.map_congr_left ?_)
    intro r hr
    by_cases hlock : (t, key r) ∈ s.locks
    · obtain ⟨r', hr', hactive, hkey⟩ := mem_activeVersions.mp (h.lockActive _ hlock)
      have he : r' = r := Table.eq_of_key hr' hr hkey
      subst he
      simp [hlock, hactive]
    · have hinactive : r.isActive = false := by
        rw [Bool.eq_false_iff]
        intro hactive
        exact hlock ((h.insertedLocks t model hold).1 _
          (mem_activeVersions.mpr ⟨r, hr, hactive, rfl⟩))
      simp [hlock, hinactive]
  show Table.insertNew _ _ = _
  rw [hsame]
  rfl

/-- A save that commits. Nobody else has a lock or a row then. -/
theorem Inv.commit (h : Inv table s) {model : SensorModel R} (hold : s.phase t = .inserted model) :
    Inv table (commit s t model) := by
  have htable := h.commit_table hold
  obtain ⟨hlocked, hkey⟩ := h.insertedLocks t model hold
  have hpending : t ∈ s.pending := (h.pendingInserted t).mpr ⟨model, hold⟩
  have hnolocks : (Store.commit s t model).locks = [] := by
    refine List.filter_eq_nil_iff.mpr ?_
    intro x hx
    have hother := h.lockUnique x hx (t, x.2) (hlocked _ (h.lockActive x hx)) rfl
    simpa using hother
  have hnopending : (Store.commit s t model).pending = [] := by
    refine List.filter_eq_nil_iff.mpr ?_
    intro u hu
    simpa using h.pendingUnique u hu t hpending
  have hself : (Store.commit s t model).phase t = .committed model := phase_goto_self _
  have hphase : ∀ u, u ≠ t → (Store.commit s t model).phase u = s.phase u :=
    fun u hu ↦ phase_goto_of_ne _ hu
  have hnone : ∀ u m, (Store.commit s t model).phase u ≠ .inserted m := by
    intro u m hu
    by_cases hut : u = t
    · subst hut
      rw [hself] at hu
      cases hu
    · rw [hphase u hut] at hu
      exact hut (h.pendingUnique u ((h.pendingInserted u).mpr ⟨m, hu⟩) t hpending)
  have hcommits : (Store.commit s t model).commits = s.commits ++ [(t, model)] := rfl
  refine ⟨?_, ?_, ?_, ?_, ?_, ?_, ?_, ?_⟩
  · rw [htable, hcommits, List.foldl_append, ← h.applied]
    rfl
  · intro c hc
    rw [hcommits, List.getLast?_concat, Option.mem_some_iff] at hc
    subst hc
    exact ⟨s.table, hkey, htable⟩
  · intro u m
    rw [hcommits, List.mem_append, List.mem_singleton, h.committed, Prod.mk.injEq]
    by_cases hut : u = t
    · subst hut
      rw [hold, hself]
      simp [eq_comm]
    · rw [hphase u hut]
      simp [hut]
  · intro x hx
    rw [hnolocks] at hx
    cases hx
  · intro x hx
    rw [hnolocks] at hx
    cases hx
  · intro u
    rw [hnopending]
    refine iff_of_false List.not_mem_nil ?_
    rintro ⟨m, hm⟩
    exact hnone u m hm
  · intro u hu
    rw [hnopending] at hu
    cases hu
  · intro u m hu
    exact absurd hu (hnone u m)

/-- Every step keeps the invariant. -/
theorem Inv.moves {s' : State τ R} (h : Inv table s) (hs : Moves s s') : Inv table s' := by
  cases hs with
  | goto t p hold hnew => exact h.goto hold hnew
  | lock t p v hold hnew hactive hfree => exact (h.goto hold hnew).lock hactive hfree
  | insert t model hold hkey hpending hlocked => exact h.insert hold hkey hpending hlocked
  | raise t hold => exact h.raise hold
  | commit t model hold => exact h.commit hold

end Invariant

/-- In every state reached by any number of concurrent saves at most one committed row is active.
From the first commit on it is the row of the last save to commit, and `load_active_model` returns
that model. The table is what the commits alone made of the initial one: a save that raises has
left it as it was. -/
theorem one_active_model [DecidableEq τ] {table : Table (SensorModelRow R)}
    (htable : AtMostOneActive table) {s : State τ R}
    (h : Reaches step (fun _ _ ↦ True) (State.start table) s) :
    AtMostOneActive s.table ∧
      (∀ c ∈ s.commits.getLast?, ⟨c.2, true⟩ ∈ s.table ∧
        (∀ r ∈ s.table, r.isActive = true → r = ⟨c.2, true⟩) ∧
        ∀ db : Database R, db.sensorModel = s.table → Fusion.loadActiveModel db = some c.2) ∧
      s.table = s.commits.foldl (fun t c ↦ activate c.2 t) table ∧
      ∀ t model, (t, model) ∈ s.commits ↔ s.phase t = .committed model := by
  have hinv : Inv table s :=
    h.invariant (Inv table) (Inv.start table) (fun _ _ _ hs _ hstep ↦ hs.moves (moves_step hstep))
  refine ⟨?_, ?_, hinv.applied, hinv.committed⟩
  · cases hlast : s.commits.getLast? with
    | none =>
      have hcommits := List.getLast?_eq_none_iff.mp hlast
      have hsame := hinv.applied
      rw [hcommits] at hsame
      rw [hsame]
      exact htable
    | some c =>
      obtain ⟨before, -, hbefore⟩ := hinv.last c hlast
      rw [hbefore]
      exact atMostOneActive_activate c.2 before
  · intro c hc
    obtain ⟨before, hkey, hbefore⟩ := hinv.last c hc
    refine ⟨?_, ?_, ?_⟩
    · rw [hbefore]
      exact mem_activate_self hkey
    · intro r hr
      rw [hbefore] at hr
      exact eq_of_mem_activate hr
    · intro db hdb
      rw [loadActiveModel_eq, hdb, hbefore]
      exact activeModel_activate hkey

/-- A fitted model without components. -/
def fitted (version : String) (nObservations : Nat) : SensorModel ℚ where
  modelVersion := version
  standardization := ⟨0, 1, 0, 1⟩
  classMap := []
  severityCalib := ⟨5, 2⟩
  k := 3
  nObservations := nObservations
  iforest := none
  components := []

/-- Two saves of which the second one waits for the first one's row, and finds its successor when
it checks again. -/
def overlappingSaves : List (Event Bool ℚ) :=
  [.begin true (fitted "second" 400), .snapshot true, .visit true "first", .updateDone true,
    .insert true, .begin false (fitted "third" 600), .snapshot false, .commit true,
    .visit false "first", .updateDone false, .insert false]

/-- The table with one active model. -/
def oneModel : Table (SensorModelRow ℚ) := Table.empty.insertNew ⟨fitted "first" 200, true⟩

/-- The save that commits has its model active; the other one violates the index and raises. -/
theorem one_active_model_overlapping :
    ∃ s, runEvents step (State.start oneModel) overlappingSaves = some s ∧
      (∀ r ∈ s.table, r.isActive = true → r = ⟨fitted "second" 400, true⟩) ∧
      s.phase false = .raised := by
  refine ⟨_, rfl, ?_, rfl⟩
  have hone : AtMostOneActive oneModel := by
    intro r hr r' hr' _ _
    rw [List.mem_singleton.mp hr, List.mem_singleton.mp hr']
  have hreach : Reaches step (fun _ _ ↦ True) (State.start oneModel) _ :=
    reaches_of_runEvents overlappingSaves .start rfl
  exact ((one_active_model hone hreach).2.1 (true, fitted "second" 400) rfl).2.1

end PotholeServer.Sensor.Store
