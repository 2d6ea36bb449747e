import PotholeServer.Ingest.Events
import PotholeServer.Sensor.Fit
import PotholeServer.Sensor.Store

/-!
# Refits

`app/fusion/service.py: run_fit_job`, run by any number of processes. The gate compares a count
with the active model, each of them one statement; the rows are fetched and the model is fitted
and activated later, without another look at the active model and without a lock. A second job
that passed the gate meanwhile is activated on top of the first one.
-/

namespace PotholeServer.Fusion

open Sql Db Sensor

variable {ι R : Type}

/-- Where a fit job stands: after which of its statements. -/
inductive FitPhase (R : Type) where
  | idle
  /-- After `_COUNT_FITTABLE_SQL`. -/
  | counted (total : Nat)
  /-- After `load_active_model`, past the gate. -/
  | loaded (total : Nat)
  /-- After `_SELECT_FITTABLE_SQL`. -/
  | fetched (total : Nat) (rows : List (AssetObservation R))
  /-- Fitted, in `save_model`. -/
  | saving (total : Nat) (model : SensorModel R)
  | returned (version : Option String)
  | raised

/-- Observations, models and jobs. `activations` remembers for each activation the model that was
active before it; no code reads it. -/
structure FitState (ι R : Type) where
  observations : Table (AssetObservation R)
  models : Store.State ι R
  phase : ι → FitPhase R
  activations : List (Option (SensorModel R) × SensorModel R)

/-- An upload, or a statement of a job. -/
inductive FitEvent (ι R : Type) where
  | insertObservation (row : AssetObservation R)
  | count (j : ι)
  | load (j : ι)
  | fetch (j : ι)
  | fit (j : ι) (hex : String)
  | beginSave (j : ι)
  | save (e : Store.Event ι R)
  | fail (j : ι)

/-- `WHERE magnitude IS NOT NULL AND accel_std IS NOT NULL` -/
def fittable (observations : Table (AssetObservation R)) : List (AssetObservation R) :=
  observations.rows.filter (fun o ↦ o.magnitude.isSome && o.accelStd.isSome)

/-- The second test of the gate: enough new observations since the active model. -/
def gateOpen (nMin : Int) (total : Nat) (active : Option (SensorModel R)) : Bool :=
  match active with
  | some model => ¬(total - model.nObservations : Int) < nMin
  | none => true

/-- The job goes on to another phase. -/
def FitState.goto [DecidableEq ι] (s : FitState ι R) (j : ι) (p : FitPhase R) : FitState ι R :=
  { s with phase := Function.update s.phase j p }

/-- The phase of a job after a statement of its `save_model`. -/
def afterSave (p : FitPhase R) : Store.Phase R → FitPhase R
  | .committed model => .returned (some model.modelVersion)
  | .raised => .raised
  | _ => p

section Machine

variable [DecidableEq ι] [Field R] [LinearOrder R] (sk : Sklearn R) (settings : FitSettings R)

/-- A statement of a `save_model`; its `COMMIT` activates the model. -/
def saveStep (s : FitState ι R) (e : Store.Event ι R) : Option (FitState ι R) :=
  (Store.step s.models e).map (fun models ↦
    { s.goto e.save (afterSave (s.phase e.save) (models.phase e.save)) with
      models := models
      activations := match e, s.models.phase e.save with
        | .commit _, .inserted model =>
          s.activations ++ [(Store.activeModel s.models.table, model)]
        | _, _ => s.activations })

/-- One upload, or one statement of one job; `none` when the job is not at that point. -/
def fitStep (s : FitState ι R) : FitEvent ι R → Option (FitState ι R)
  | .insertObservation row => some { s with observations := s.observations.insertNew row }
  | .count j => match s.phase j with
    | .idle =>
      let total := (fittable s.observations).length
      some (s.goto j (if total < settings.sensorFitMinObservations then .returned none
        else .counted total))
    | _ => none
  | .load j => match s.phase j with
    | .counted total =>
      let active := Store.activeModel s.models.table
      some (s.goto j (if gateOpen settings.sensorFitMinObservations total active then .loaded total
        else .returned none))
    | _ => none
  | .fetch j => match s.phase j with
    | .loaded total => some (s.goto j (.fetched total (fittable s.observations)))
    | _ => none
  | .fit j hex => match s.phase j with
    | .fetched total rows =>
      some (s.goto j (match fitSensorModel sk settings hex rows with
        | .ok model => .saving total model
        | .error (.fitError _) => .returned none
        | .error .raised => .raised))
    | _ => none
  | .beginSave j => match s.phase j with
    | .saving _ model => saveStep s (.begin j model)
    | _ => none
  | .save e => match e with
    | .begin .. => none
    | _ => saveStep s e
  | .fail j => match s.phase j, s.models.phase j with
    | .returned _, _ | .raised, _ => none
    | _, .idle => some (s.goto j .raised)
    | _, _ => none

end Machine

/-- Nothing has started. -/
def FitState.start (observations : Table (AssetObservation R))
    (models : Table (SensorModelRow R)) : FitState ι R where
  observations := observations
  models := .start models
  phase := fun _ ↦ .idle
  activations := []

/-- The model has enough observations more than the one it replaces. -/
def EnoughNew (nMin : Int) (active : Option (SensorModel R)) (model : SensorModel R) : Prop :=
  match active with
  | some previous => nMin ≤ model.nObservations - previous.nObservations
  | none => nMin ≤ model.nObservations

instance (nMin : Int) (active : Option (SensorModel R)) (model : SensorModel R) :
    Decidable (EnoughNew nMin active model) :=
  match active with
  | some previous =>
    inferInstanceAs (Decidable (nMin ≤ model.nObservations - previous.nObservations))
  | none => inferInstanceAs (Decidable (nMin ≤ model.nObservations))

/-- At a commit the gate, asked again with the count of the job, would still let it through. -/
def GateStillOpen (nMin : Int) (s : FitState ι R) : FitEvent ι R → Prop
  | .save (.commit j) => ∀ total model, s.phase j = .saving total model →
    gateOpen nMin total (Store.activeModel s.models.table) = true
  | _ => True

instance (nMin : Int) (s : FitState ι R) (e : FitEvent ι R) :
    Decidable (GateStillOpen nMin s e) :=
  match e with
  | .save (.commit j) =>
    match h : s.phase j with
    | .saving total _ =>
      decidable_of_iff (gateOpen nMin total (Store.activeModel s.models.table) = true)
        ⟨fun hopen _ _ hp ↦ (FitPhase.saving.inj (h.symm.trans hp)).1 ▸ hopen,
          fun hall ↦ hall _ _ h⟩
    | .idle | .counted _ | .loaded _ | .fetched .. | .returned _ | .raised =>
      isTrue (fun _ _ hp ↦ by rw [h] at hp; cases hp)
  | .save (.begin ..) | .save (.snapshot _) | .save (.visit ..) | .save (.updateDone _)
  | .save (.insert _) | .save (.fail _) => isTrue trivial
  | .insertObservation _ | .count _ | .load _ | .fetch _ | .fit .. | .beginSave _ | .fail _ =>
    isTrue trivial

/-! ### The invariant -/

/-- What a job knows: the count passed the first test of the gate, the observations have not
become fewer since, and a fitted model has them all. -/
def FitPhase.Counted (nMin : Int) (observations : Table (AssetObservation R)) : FitPhase R → Prop
  | .counted total | .loaded total => nMin ≤ total ∧ total ≤ (fittable observations).length
  | .fetched total rows => nMin ≤ total ∧ total ≤ rows.length
  | .saving total model => nMin ≤ total ∧ total ≤ model.nObservations
  | .idle | .returned _ | .raised => True

/-- Every job has counted, and saves its own model; the activations are spaced. -/
structure FitInv (nMin : Int) (s : FitState ι R) : Prop where
  counted : ∀ j, (s.phase j).Counted nMin s.observations
  saving : ∀ j model, (s.models.phase j).running = some model →
    ∃ total, s.phase j = .saving total model
  spaced : ∀ a ∈ s.activations, EnoughNew nMin a.1 a.2

theorem fittable_insertNew_length (observations : Table (AssetObservation R))
    (row : AssetObservation R) :
    (fittable observations).length ≤ (fittable (observations.insertNew row)).length := by
  by_cases h : observations.HasKey (key row)
  · rw [Table.insertNew_of_hasKey h]
  · unfold fittable
    rw [Table.rows_insertNew h, List.filter_append, List.length_append]
    exact Nat.le_add_right _ _

theorem FitPhase.Counted.insertNew {nMin : Int} {observations : Table (AssetObservation R)}
    {p : FitPhase R} (h : p.Counted nMin observations) (row : AssetObservation R) :
    p.Counted nMin (observations.insertNew row) := by
  have hle := fittable_insertNew_length observations row
  cases p with
  | counted total => exact ⟨h.1, h.2.trans hle⟩
  | loaded total => exact ⟨h.1, h.2.trans hle⟩
  | fetched total rows => exact h
  | saving total model => exact h
  | idle => trivial
  | returned version => trivial
  | raised => trivial

/-- A counted job past both tests of the gate has enough new observations. -/
theorem enoughNew_of_gateOpen {nMin : Int} {total : Nat} {active : Option (SensorModel R)}
    {model : SensorModel R} (hmin : nMin ≤ total) (hle : total ≤ model.nObservations)
    (h : gateOpen nMin total active = true) : EnoughNew nMin active model := by
  cases active with
  | none =>
    show nMin ≤ (model.nObservations : Int)
    omega
  | some previous =>
    have hgate := not_lt.mp (of_decide_eq_true h)
    show nMin ≤ (model.nObservations : Int) - previous.nObservations
    omega

section Steps

variable [DecidableEq ι] {nMin : Int} {s s' : FitState ι R} {j : ι}

/-- A job that moves outside its `save_model`. -/
theorem FitInv.goto (h : FitInv nMin s) {p : FitPhase R} (hp : p.Counted nMin s.observations)
    (hidle : (s.models.phase j).running = none) : FitInv nMin (s.goto j p) := by
  refine ⟨?_, ?_, h.spaced⟩
  · intro i
    by_cases hi : i = j
    · subst hi
      simpa [FitState.goto] using hp
    · simpa [FitState.goto, hi] using h.counted i
  · intro i model hi
    have hne : i ≠ j := by
      rintro rfl
      rw [show (s.goto i p).models = s.models from rfl, hidle] at hi
      cases hi
    simpa [FitState.goto, hne] using h.saving i model hi

/-- A statement of a `save_model`: the job keeps its phase until the save is over. -/
theorem FitInv.saveStep (h : FitInv nMin s) {e : Store.Event ι R}
    (hbegin : ∀ model, e = .begin e.save model → ∃ total, s.phase e.save = .saving total model)
    (hgate : ∀ j, e = .commit j → ∀ total model, s.phase j = .saving total model →
      gateOpen nMin total (Store.activeModel s.models.table) = true)
    (hs : saveStep s e = some s') : FitInv nMin s' := by
  unfold Fusion.saveStep at hs
  cases hmodels : Store.step s.models e with
  | none =>
    rw [hmodels] at hs
    cases hs
  | some models =>
    rw [hmodels] at hs
    cases hs
    obtain ⟨p, hphase, hrunning⟩ := Store.running_step hmodels
    have hself : models.phase e.save = p := by rw [hphase, Function.update_self]
    have hsaving : ∀ model, p.running = some model →
        ∃ total, s.phase e.save = .saving total model := by
      intro model hp
      rcases hrunning model hp with hnew | hold
      · exact hbegin model hnew
      · exact h.saving e.save model hold
    refine ⟨?_, ?_, ?_⟩
    · intro i
      by_cases hi : i = e.save
      · subst hi
        simp only [FitState.goto, Function.update_self, afterSave]
        split
        · trivial
        · trivial
        · exact h.counted e.save
      · simpa [FitState.goto, hi] using h.counted i
    · intro i model hi
      by_cases hsame : i = e.save
      · subst hsame
        rw [hself] at hi
        obtain ⟨total, htotal⟩ := hsaving model hi
        refine ⟨total, ?_⟩
        simp only [FitState.goto, Function.update_self, hself]
        cases p <;> first | exact htotal | cases hi
      · rw [hphase, Function.update_of_ne hsame] at hi
        simpa [FitState.goto, hsame] using h.saving i model hi
    · intro a ha
      simp only at ha
      split at ha
      · next j model hinserted =>
        rcases List.mem_append.mp ha with ha | ha
        · exact h.spaced a ha
        · rw [List.mem_singleton.mp ha]
          obtain ⟨total, htotal⟩ := h.saving j model (congrArg Store.Phase.running hinserted)
          have hcounted := h.counted j
          rw [htotal] at hcounted
          exact enoughNew_of_gateOpen hcounted.1 hcounted.2 (hgate j rfl total model htotal)
      · exact h.spaced a ha

omit [DecidableEq ι] in
/-- A job that is not in its `save_model` has no open transaction there. -/
theorem FitInv.not_running (h : FitInv nMin s)
    (hphase : ∀ total model, s.phase j ≠ .saving total model) :
    (s.models.phase j).running = none := by
  cases hrunning : (s.models.phase j).running with
  | none => rfl
  | some model =>
    obtain ⟨total, htotal⟩ := h.saving j model hrunning
    exact absurd htotal (hphase total model)

/-- One upload, or one statement of one job. -/
theorem FitInv.step [Field R] [LinearOrder R] {sk : Sklearn R} {settings : FitSettings R}
    {e : FitEvent ι R} (h : FitInv settings.sensorFitMinObservations s)
    (hgate : GateStillOpen settings.sensorFitMinObservations s e)
    (hs : fitStep sk settings s e = some s') : FitInv settings.sensorFitMinObservations s' := by
  cases e with
  | insertObservation row =>
    cases hs
    exact ⟨fun i ↦ (h.counted i).insertNew row, h.saving, h.spaced⟩
  | count j =>
    simp only [fitStep] at hs
    split at hs
    · next hphase =>
      cases hs
      refine h.goto ?_ (h.not_running (by simp [hphase]))
      split
      · trivial
      · next hmin => exact ⟨not_lt.mp hmin, le_refl _⟩
    · cases hs
  | load j =>
    simp only [fitStep] at hs
    split at hs
    · next total hphase =>
      cases hs
      have hcounted := h.counted j
      rw [hphase] at hcounted
      refine h.goto ?_ (h.not_running (by simp [hphase]))
      split
      · exact hcounted
      · trivial
    · cases hs
  | fetch j =>
    simp only [fitStep] at hs
    split at hs
    · next total hphase =>
      cases hs
      have hcounted := h.counted j
      rw [hphase] at hcounted
      exact h.goto hcounted (h.not_running (by simp [hphase]))
    · cases hs
  | fit j hex =>
    simp only [fitStep] at hs
    split at hs
    · next total rows hphase =>
      cases hs
      have hcounted := h.counted j
      rw [hphase] at hcounted
      refine h.goto ?_ (h.not_running (by simp [hphase]))
      split
      · next model hmodel =>
        refine ⟨hcounted.1, ?_⟩
        rw [(fitted_of_ok sk hmodel).nObservations]
        exact hcounted.2
      · trivial
      · trivial
    · cases hs
  | beginSave j =>
    simp only [fitStep] at hs
    split at hs
    · next total model hphase =>
      refine h.saveStep ?_ (by simp) hs
      rintro m ⟨⟩
      exact ⟨total, hphase⟩
    · cases hs
  | save e =>
    simp only [fitStep] at hs
    split at hs
    · cases hs
    · next hnot =>
      refine h.saveStep ?_ ?_ hs
      · intro model he
        exact absurd he (hnot _ model)
      · rintro j rfl
        exact hgate
  | fail j =>
    simp only [fitStep] at hs
    split at hs
    · cases hs
    · cases hs
    · next hidle _ _ =>
      cases hs
      exact h.goto trivial (congrArg Store.Phase.running hidle)
    · cases hs

end Steps

/-- In every run of uploads and fit jobs in which each commit finds a gate that would still let its
job through, every activated model has enough observations more than the model active before it,
and the first one has enough. -/
theorem refits_spaced [DecidableEq ι] [Field R] [LinearOrder R] (sk : Sklearn R)
    (settings : FitSettings R) {observations : Table (AssetObservation R)}
    {models : Table (SensorModelRow R)} {s : FitState ι R}
    (h : Reaches (fitStep sk settings) (GateStillOpen settings.sensorFitMinObservations)
      (.start observations models) s) :
    ∀ a ∈ s.activations, EnoughNew settings.sensorFitMinObservations a.1 a.2 := by
  have hstart : FitInv settings.sensorFitMinObservations
      (FitState.start observations models : FitState ι R) := by
    refine ⟨fun _ ↦ trivial, ?_, ?_⟩
    · intro j model hrunning
      cases hrunning
    · intro a ha
      cases ha
  have hinv := h.invariant (FitInv settings.sensorFitMinObservations) hstart
    (fun _ _ _ hs hgate hstep ↦ hs.step hgate hstep)
  exact hinv.spaced

/-- A fit that finds no degenerate features, and its components in a row. -/
def planarSklearn : Sklearn ℚ where
  std := fun _ ↦ 1
  allcloseZero := fun _ ↦ false
  norm := List.sum
  gaussianMixture := fun k _ _ ↦
    some ((List.range k.toNat).map (fun i ↦ ⟨[i, i], [[1, 0], [0, 1]], 1 / k⟩))
  isolationForest := fun _ _ _ ↦ some (fun _ ↦ 1)

/-- Settings with a gate of three observations. -/
def threeObservations : FitSettings ℚ where
  sensorFitMinObservations := 3
  sensorFitKDefault := 3
  sensorIforestContamination := 1 / 10
  sensorRandomState := 42
  severitySpeedRef := 5
  severityScale := 2

/-- Uploaded reports. -/
def reports (clientIds : List String) : List (FitEvent Bool ℚ) :=
  clientIds.map (fun clientId ↦
    .insertObservation (Ingest.newObservation "device" (Ingest.report clientId none) 0 0))

/-- What is left of a job that has passed the gate, up to its `COMMIT`. -/
def fitAndInsert (j : Bool) (hex : String) (active : List String) : List (FitEvent Bool ℚ) :=
  [.fetch j, .fit j hex, .beginSave j, .save (.snapshot j)] ++
    active.map (fun v ↦ .save (.visit j v)) ++ [.save (.updateDone j), .save (.insert j)]

/-- The state after uploads and statements. -/
def afterFits (events : List (FitEvent Bool ℚ)) : Option (FitState Bool ℚ) :=
  runEvents (fitStep planarSklearn threeObservations) (.start .empty .empty) events

/-- Three reports and a fit, three more and another one. -/
def twoFits : List (FitEvent Bool ℚ) :=
  reports ["a", "b", "c"] ++ [.count true, .load true] ++ fitAndInsert true "0" [] ++
    [.save (.commit true)] ++ reports ["d", "e", "f"] ++ [.count false, .load false] ++
      fitAndInsert false "1" ["sensor_gmm_v1_0"] ++ [.save (.commit false)]

/-- The state after both fits. -/
def afterTwoFits : FitState Bool ℚ :=
  play (fitStep planarSklearn threeObservations) (.start .empty .empty) twoFits

/-- Two jobs, one after the other: the first `COMMIT` finds no active model, the second one the
model of the first. -/
theorem refits_spaced_twoFits :
    afterTwoFits.activations.map (fun a ↦ (a.1.map SensorModel.nObservations, a.2.nObservations)) =
        [(none, 3), (some 3, 6)] ∧
      ∀ a ∈ afterTwoFits.activations, EnoughNew 3 a.1 a.2 := by
  refine ⟨by decide, ?_⟩
  exact refits_spaced planarSklearn threeObservations (Reaches.start.play (by decide))

/-- Two jobs that count and look at the active model before either is activated: the second model
has no observations more than the first one. -/
theorem overlapping_fits_activate : ¬∀ (events : List (FitEvent Bool ℚ)) (s : FitState Bool ℚ),
    afterFits events = some s → ∀ a ∈ s.activations, EnoughNew 3 a.1 a.2 := by
  intro h
  have hspaced := h (reports ["a", "b", "c"] ++
    [.count true, .count false, .load true, .load false] ++
      fitAndInsert true "0" [] ++ [.save (.commit true)] ++
        fitAndInsert false "1" ["sensor_gmm_v1_0"] ++ [.save (.commit false)]) _ rfl
  have hlast := hspaced _ (List.mem_cons_of_mem _ (List.mem_cons_self ..))
  exact absurd hlast (by decide)

end PotholeServer.Fusion
