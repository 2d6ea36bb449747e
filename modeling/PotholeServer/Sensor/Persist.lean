import Mathlib
import PotholeServer.Json.Value
import PotholeServer.Sensor.Labelling
import PotholeServer.Sensor.Store

/-!
# Persisting a sensor model

The columns that `app/sensor_model/store.py: save_model` writes and what `load_active_model` makes
of them: four JSONB documents, in which the integer keys of the class map are strings, and the
joblib blob of the forest. `bic` and `sklearn_version` are stored for audit only and left out.
-/

namespace PotholeServer.Sensor

open Sql Db Stats Json

/-- `joblib.dump` and `joblib.load` of a forest; `none` is a model without one. -/
structure Joblib (R B : Type) where
  dump : Option (List R → Int) → B
  load : B → Option (List R → Int)

/-- A row of the `sensor_model` table as the columns hold it. -/
structure StoredModel (R B : Type) where
  modelVersion : String
  nObservations : Nat
  k : Nat
  standardizationJsonb : Json R
  componentsJsonb : Json R
  classMapJsonb : Json R
  severityCalibJsonb : Json R
  modelBlob : Option B
  isActive : Bool

instance {R B : Type} : Keyed (StoredModel R B) String := ⟨StoredModel.modelVersion⟩

/-- The string of a class label. -/
def SensorClass.label : SensorClass → String
  | .not => "not"
  | .crack => "crack"
  | .pothole => "pothole"

/-- The class of a label. -/
def SensorClass.ofLabel (s : String) : Option SensorClass :=
  if s = "not" then some .not
  else if s = "crack" then some .crack
  else if s = "pothole" then some .pothole
  else none

@[simp] theorem SensorClass.ofLabel_label (cls : SensorClass) :
    SensorClass.ofLabel cls.label = some cls := by
  cases cls <;> rfl

section Documents

variable {R : Type}

/-- `Standardization.to_jsonb` -/
def Standardization.toJsonb (s : Standardization R) : Json R :=
  obj [("ratio", obj [("mean", num s.ratioMean), ("std", num s.ratioStd)]),
    ("gbar", obj [("mean", num s.gbarMean), ("std", num s.gbarStd)])]

/-- `Standardization.from_jsonb` -/
def Standardization.fromJsonb (d : Json R) : Option (Standardization R) := do
  let ratio ← d.get "ratio"
  let gbar ← d.get "gbar"
  let ratioMean ← (← ratio.get "mean").asNum
  let ratioStd ← (← ratio.get "std").asNum
  let gbarMean ← (← gbar.get "mean").asNum
  let gbarStd ← (← gbar.get "std").asNum
  some { ratioMean, ratioStd, gbarMean, gbarStd }

/-- `SeverityCalibration.to_jsonb` -/
def SeverityCalibration.toJsonb (c : SeverityCalibration R) : Json R :=
  obj [("speed_ref", num c.speedRef), ("scale", num c.scale)]

/-- `SeverityCalibration.from_jsonb` -/
def SeverityCalibration.fromJsonb (d : Json R) : Option (SeverityCalibration R) := do
  let speedRef ← (← d.get "speed_ref").asNum
  let scale ← (← d.get "scale").asNum
  some { speedRef, scale }

/-- One entry of `components`, as `fit_sensor_model` builds it. -/
def Component.toJsonb (comp : Component R) : Json R :=
  obj [("mu", arr (comp.mu.map num)),
    ("sigma", arr (comp.sigma.map (fun row ↦ arr (row.map num)))),
    ("weight", num comp.weight)]

/-- `comp["mu"]`, `comp["sigma"]` and `comp["weight"]`, as `_class_posteriors` reads them. -/
def Component.fromJsonb (d : Json R) : Option (Component R) := do
  let mu ← (← d.get "mu").asList asNum
  let sigma ← (← d.get "sigma").asList (asList asNum)
  let weight ← (← d.get "weight").asNum
  some { mu, sigma, weight }

/-- `{str(k): v for k, v in model.class_map.items()}` -/
def classMapToJson (classMap : List (Nat × SensorClass)) : Json R :=
  obj (dictOf (classMap.map (fun x ↦ (x.1.repr, str x.2.label))))

/-- One item of `class_map_raw`, with `int(k)`. -/
def classMapItem (m : String × Json R) : Option (Nat × SensorClass) := do
  let index ← m.1.toNat?
  let label ← m.2.asStr
  let cls ← SensorClass.ofLabel label
  some (index, cls)

/-- `{int(k): v for k, v in class_map_raw.items()}` -/
def classMapOfJson (d : Json R) : Option (List (Nat × SensorClass)) := do
  let raw ← d.members
  let items ← raw.mapM classMapItem
  some (dictOf items)

end Documents

section Columns

variable {R B : Type}

/-- The row that `_INSERT_MODEL_SQL` adds, as it is read later. -/
def insertedModel (reorder : MemberOrder R) (model : SensorModel R) (blob : B) :
    StoredModel R B where
  modelVersion := model.modelVersion
  nObservations := model.nObservations
  k := model.k
  standardizationJsonb := stored reorder model.standardization.toJsonb
  componentsJsonb := stored reorder (arr (model.components.map Component.toJsonb))
  classMapJsonb := stored reorder (classMapToJson model.classMap)
  severityCalibJsonb := stored reorder model.severityCalib.toJsonb
  modelBlob := some blob
  isActive := true

/-- `save_model` on the stored rows; `none` when the version is taken. -/
def saveModel (reorder : MemberOrder R) (model : SensorModel R) (blob : B)
    (table : Table (StoredModel R B)) : Option (Table (StoredModel R B)) :=
  let cleared := table.update StoredModel.isActive (fun r ↦ { r with isActive := false })
    (fun _ ↦ rfl)
  if cleared.HasKey model.modelVersion then none
  else some (cleared.insertNew (insertedModel reorder model blob))

/-- The `SensorModel` of a row; `none` when a document is not what is expected. -/
def modelOfRow (load : B → Option (List R → Int)) (row : StoredModel R B) :
    Option (SensorModel R) := do
  let standardization ← Standardization.fromJsonb row.standardizationJsonb
  let components ← row.componentsJsonb.asList Component.fromJsonb
  let classMap ← classMapOfJson row.classMapJsonb
  let severityCalib ← SeverityCalibration.fromJsonb row.severityCalibJsonb
  let iforest := row.modelBlob.bind load
  some {
    modelVersion := row.modelVersion
    standardization, classMap, severityCalib
    k := row.k
    nObservations := row.nObservations
    iforest, components }

/-- `load_active_model`: no model without an active row; the outer `none` is an exception. -/
def loadActiveModel (load : B → Option (List R → Int)) (table : Table (StoredModel R B)) :
    Option (Option (SensorModel R)) :=
  match table.rows.find? StoredModel.isActive with
  | none => some none
  | some row => (modelOfRow load row).map some

end Columns

section RoundTrip

variable {R B : Type} {reorder : MemberOrder R} (hreorder : ∀ ms, (reorder ms).Perm ms)
include hreorder

theorem Standardization.fromJsonb_stored (s : Standardization R) :
    Standardization.fromJsonb (stored reorder s.toJsonb) = some s := by
  simp (disch := simp) [Standardization.fromJsonb, Standardization.toJsonb, get_stored hreorder,
    List.lookup_cons]

theorem SeverityCalibration.fromJsonb_stored (c : SeverityCalibration R) :
    SeverityCalibration.fromJsonb (stored reorder c.toJsonb) = some c := by
  simp (disch := simp) [SeverityCalibration.fromJsonb, SeverityCalibration.toJsonb,
    get_stored hreorder, List.lookup_cons]

omit hreorder in
theorem asList_stored_nums (xs : List R) :
    (stored reorder (arr (xs.map num))).asList asNum = some xs := by
  rw [stored_arr, List.map_map]
  exact asList_map (fun x ↦ by simp) xs

omit hreorder in
theorem asList_stored_rows (rows : List (List R)) :
    (stored reorder (arr (rows.map (fun row ↦ arr (row.map num))))).asList (asList asNum) =
      some rows := by
  rw [stored_arr, List.map_map]
  exact asList_map (fun row ↦ asList_stored_nums row) rows

theorem Component.fromJsonb_stored (comp : Component R) :
    Component.fromJsonb (stored reorder comp.toJsonb) = some comp := by
  simp (disch := simp) [Component.fromJsonb, Component.toJsonb, get_stored hreorder,
    List.lookup_cons, asList_stored_nums, asList_stored_rows, -stored_arr]

theorem asList_stored_components (components : List (Component R)) :
    (stored reorder (arr (components.map Component.toJsonb))).asList Component.fromJsonb =
      some components := by
  rw [stored_arr, List.map_map]
  exact asList_map (Component.fromJsonb_stored hreorder) components

/-- The class map comes back with its items in some order. -/
theorem classMapOfJson_stored {classMap : List (Nat × SensorClass)}
    (hnodup : (classMap.map Prod.fst).Nodup) :
    ∃ classMap', classMapOfJson (stored reorder (classMapToJson classMap)) = some classMap' ∧
      classMap'.Perm classMap := by
  have hkeys : ((classMap.map (fun x ↦ (x.1.repr, (str x.2.label : Json R)))).map
      Prod.fst).Nodup := by
    have hrepr := hnodup.map (f := Nat.repr) (fun _ _ h ↦ Nat.repr_injective h)
    rw [List.map_map] at hrepr ⊢
    exact hrepr
  have hitem : ∀ x : Nat × SensorClass,
      classMapItem ((x.1.repr, str x.2.label) : String × Json R) = some x := by
    simp [classMapItem]
  -- The members that come back are those of some order of the items.
  have hback := hreorder (classMap.map (fun x ↦ (x.1.repr, str x.2.label)))
  obtain ⟨classMap', hmembers, hperm⟩ :=
    Eq.mpr (congrFun₂ (List.eq_map_comp_perm _) _ _) hback
  have hnodup' : (classMap'.map Prod.fst).Nodup := (hperm.map Prod.fst).nodup_iff.mpr hnodup
  refine ⟨classMap', ?_, hperm⟩
  rw [classMapToJson, dictOf_eq hkeys, stored_obj, List.map_map]
  have hstr : (fun m : String × Json R ↦ (m.1, stored reorder m.2)) ∘
      (fun x : Nat × SensorClass ↦ (x.1.repr, str x.2.label)) =
        fun x ↦ (x.1.repr, str x.2.label) := by
    funext x
    simp
  rw [hstr, hmembers]
  simp [classMapOfJson, mapM_map_eq hitem, dictOf_eq hnodup']

end RoundTrip

section Alike

variable {R : Type}

/-- Two models that differ only in the order of their class maps. -/
structure Alike (m m' : SensorModel R) : Prop where
  eq_with : m = { m' with classMap := m.classMap }
  perm : m.classMap.Perm m'.classMap
  nodup : (m'.classMap.map Prod.fst).Nodup

theorem Alike.lookup {m m' : SensorModel R} (h : Alike m m') (i : Nat) :
    m.classMap.lookup i = m'.classMap.lookup i :=
  (lookup_perm h.perm.symm h.nodup i).symm

theorem nodup_keys_classMapOf [LinearOrder R] (sk : Sklearn R) (components : List (Component R)) :
    ((classMapOf sk components).map Prod.fst).Nodup := by
  have hkeys : (classMapOf sk components).map Prod.fst = argsort (energies sk components) := by
    rw [classMapOf, energyOrder_eq, List.map_map]
    exact List.zipIdx_map_fst 0 _
  rw [hkeys]
  exact nodup_argsort _

variable [Field R]

theorem groupPosteriors_congr {classMap classMap' : List (Nat × SensorClass)}
    (h : ∀ i, classMap.lookup i = classMap'.lookup i) (total : R) (densities : List R) :
    ∀ (i : Nat) (acc : Posteriors R), groupPosteriors classMap total i densities acc =
      groupPosteriors classMap' total i densities acc := by
  induction densities with
  | nil => exact fun _ _ ↦ rfl
  | cons dens rest ih =>
    intro i acc
    simp only [groupPosteriors, h i, ih]

variable [LinearOrder R]

/-- Models that are alike score every observation alike. -/
theorem Alike.scoreObservation_eq {m m' : SensorModel R} (h : Alike m m') (ext : Externals R)
    (magnitude accelStd gbarInMax speedMps : Option R) :
    scoreObservation ext m magnitude accelStd gbarInMax speedMps =
      scoreObservation ext m' magnitude accelStd gbarInMax speedMps := by
  have hpost : ∀ z, classPosteriors ext m z = classPosteriors ext m' z := by
    intro z
    rw [h.eq_with]
    simp only [classPosteriors, groupPosteriors_congr h.lookup]
  unfold scoreObservation
  simp only [hpost]
  rw [h.eq_with]

end Alike

section SaveAndLoad

variable {R B : Type} {reorder : MemberOrder R} {joblib : Joblib R B}

/-- The row of a model is read back as a model that is alike. -/
theorem modelOfRow_insertedModel (hreorder : ∀ ms, (reorder ms).Perm ms)
    (hjoblib : ∀ forest, joblib.load (joblib.dump forest) = forest) {model : SensorModel R}
    (hnodup : (model.classMap.map Prod.fst).Nodup) :
    ∃ loaded, modelOfRow joblib.load
        (insertedModel reorder model (joblib.dump model.iforest)) = some loaded ∧
      Alike loaded model := by
  obtain ⟨classMap', hclassMap, hperm⟩ := classMapOfJson_stored hreorder hnodup
  refine ⟨{ model with classMap := classMap' }, ?_, rfl, hperm, hnodup⟩
  simp [modelOfRow, insertedModel, Standardization.fromJsonb_stored hreorder,
    SeverityCalibration.fromJsonb_stored hreorder, asList_stored_components hreorder, hclassMap,
    hjoblib, -stored_arr]

/-- After a save, the row that is loaded is the one it inserted. -/
theorem loadActiveModel_saveModel {load : B → Option (List R → Int)} {model : SensorModel R}
    {blob : B} {table table' : Table (StoredModel R B)}
    (hsave : saveModel reorder model blob table = some table') :
    loadActiveModel load table' =
      (modelOfRow load (insertedModel reorder model blob)).map some := by
  unfold saveModel at hsave
  dsimp only at hsave
  split at hsave
  · cases hsave
  next hkey =>
    obtain rfl := Option.some.inj hsave
    have hcleared : ((table.update StoredModel.isActive (fun r ↦ { r with isActive := false })
        (fun _ ↦ rfl)).rows.find? StoredModel.isActive) = none := by
      rw [List.find?_eq_none]
      intro r hr
      obtain ⟨r', -, rfl⟩ := List.mem_map.mp hr
      by_cases hactive : r'.isActive <;> simp [hactive]
    have hfind : ((table.update StoredModel.isActive (fun r ↦ { r with isActive := false })
        (fun _ ↦ rfl)).insertNew (insertedModel reorder model blob)).rows.find?
          StoredModel.isActive = some (insertedModel reorder model blob) := by
      rw [Table.rows_insertNew hkey, List.find?_append, hcleared]
      rfl
    rw [loadActiveModel, hfind]

variable [Field R] [LinearOrder R]

/-- A fitted model that is saved and loaded again scores every observation as it did, and has a
class for every component. -/
theorem load_saveModel_scores (ext : Externals R) (joblib : Joblib R B) {sk : Sklearn R}
    (hreorder : ∀ ms, (reorder ms).Perm ms)
    (hjoblib : ∀ forest, joblib.load (joblib.dump forest) = forest) {settings : FitSettings R}
    {hex : String} {rows : List (AssetObservation R)} {model : SensorModel R}
    (hfit : fitSensorModel sk settings hex rows = .ok model)
    {table table' : Table (StoredModel R B)}
    (hsave : saveModel reorder model (joblib.dump model.iforest) table = some table') :
    ∃ loaded, loadActiveModel joblib.load table' = some (some loaded) ∧
      Covers loaded.classMap loaded.components.length ∧
      ∀ magnitude accelStd gbarInMax speedMps,
        scoreObservation ext loaded magnitude accelStd gbarInMax speedMps =
          scoreObservation ext model magnitude accelStd gbarInMax speedMps ∧
        ∃ res, scoreObservation ext model magnitude accelStd gbarInMax speedMps = .ok res := by
  have hclassMap := (fitted_of_ok sk hfit).classMap
  have hcovers : Covers model.classMap model.components.length :=
    hclassMap ▸ covers_classMapOf sk model.components
  have hnodup : (model.classMap.map Prod.fst).Nodup :=
    hclassMap ▸ nodup_keys_classMapOf sk model.components
  obtain ⟨loaded, hloaded, halike⟩ := modelOfRow_insertedModel hreorder hjoblib hnodup
  refine ⟨loaded, ?_, ?_, ?_⟩
  · rw [loadActiveModel_saveModel hsave, hloaded]
    rfl
  · intro i hi
    rw [halike.lookup]
    apply hcovers
    rw [halike.eq_with] at hi
    exact hi
  · intro magnitude accelStd gbarInMax speedMps
    refine ⟨halike.scoreObservation_eq ext magnitude accelStd gbarInMax speedMps, ?_⟩
    by_cases hpos : 0 < totalDensity ext model (zScores model magnitude accelStd gbarInMax)
    · obtain ⟨_, _, _, hscore⟩ := scoreObservation_of_pos speedMps hcovers hpos
      exact ⟨_, hscore⟩
    · exact ⟨_, scoreObservation_of_nonpos (not_lt.mp hpos)⟩

/-- The order of JSONB: shorter names first, then alphabetically. -/
def byLength : MemberOrder ℚ := fun ms ↦ orderBy (fun m ↦ toLex (m.1.length, m.1)) ms

/-- The fit of three reports, saved as the first model. -/
theorem load_saveModel_scores_blobs : ∃ model table' loaded,
    fitSensorModel .fixedPoint threeComponents "0" (blobs [1, 4, 8]) = .ok model ∧
    saveModel byLength model model.iforest .empty = some table' ∧
    loadActiveModel id table' = some (some loaded) ∧
    Covers loaded.classMap loaded.components.length ∧
    ∀ magnitude accelStd gbarInMax speedMps,
      scoreObservation .planar loaded magnitude accelStd gbarInMax speedMps =
        scoreObservation .planar model magnitude accelStd gbarInMax speedMps ∧
      ∃ res, scoreObservation .planar model magnitude accelStd gbarInMax speedMps = .ok res := by
  obtain ⟨model, hfit, -⟩ := exists_ok_of_any (p := fun _ ↦ true)
    (x := fitSensorModel .fixedPoint threeComponents "0" (blobs [1, 4, 8])) (by decide +kernel)
  obtain ⟨table', hsave⟩ :
      ∃ table', saveModel byLength model model.iforest .empty = some table' := by
    unfold saveModel
    refine ⟨_, if_neg ?_⟩
    rw [Table.hasKey_update]
    exact List.not_mem_nil
  have hload := load_saveModel_scores .planar ⟨id, id⟩ (fun _ ↦ orderBy_perm _ _) (fun _ ↦ rfl)
    hfit hsave
  obtain ⟨loaded, hloaded, hcovers, hscores⟩ := hload
  exact ⟨model, _, loaded, hfit, hsave, hloaded, hcovers, hscores⟩

end SaveAndLoad

section Mirror

variable {R B : Type} {reorder : MemberOrder R} {joblib : Joblib R B}
  {load : B → Option (List R → Int)} {table table' : Table (StoredModel R B)}
  {models : Table (SensorModelRow R)}

/-- A stored row holds the model of a row of the table of models. -/
structure Holds (load : B → Option (List R → Int)) (stored : StoredModel R B)
    (row : SensorModelRow R) : Prop where
  version : stored.modelVersion = row.model.modelVersion
  isActive : stored.isActive = row.isActive
  model : ∃ m, modelOfRow load stored = some m ∧ Alike m row.model

/-- The stored rows hold the models of a table, row by row. -/
def Mirrors (load : B → Option (List R → Int)) (table : Table (StoredModel R B))
    (models : Table (SensorModelRow R)) : Prop :=
  List.Forall₂ (Holds load) table.rows models.rows

theorem Mirrors.hasKey (h : Mirrors load table models) (version : String) :
    table.HasKey version ↔ models.HasKey version := by
  have hkeys : table.rows.map key = models.rows.map key := by
    rw [← List.forall₂_eq_eq_eq, List.forall₂_map_left_iff, List.forall₂_map_right_iff]
    exact h.imp (fun _ _ hrow ↦ hrow.version)
  unfold Table.HasKey
  rw [hkeys]

/-- `save_model` on the columns does what `activate` does on the models. -/
theorem Mirrors.saveModel (hreorder : ∀ ms, (reorder ms).Perm ms)
    (hjoblib : ∀ forest, joblib.load (joblib.dump forest) = forest)
    (h : Mirrors joblib.load table models) {model : SensorModel R}
    (hnodup : (model.classMap.map Prod.fst).Nodup)
    (hsave : Sensor.saveModel reorder model (joblib.dump model.iforest) table = some table') :
    Mirrors joblib.load table' (Store.activate model models) := by
  unfold Sensor.saveModel at hsave
  dsimp only at hsave
  split at hsave
  · cases hsave
  next hkey =>
    obtain rfl := Option.some.inj hsave
    have hkey' : ¬(Store.deactivate SensorModelRow.isActive models).HasKey (key
        (⟨model, true⟩ : SensorModelRow R)) := by
      rw [Store.hasKey_deactivate, ← h.hasKey]
      rwa [Table.hasKey_update] at hkey
    rw [Mirrors, Table.rows_insertNew hkey, Store.activate, Table.rows_insertNew hkey']
    apply List.rel_append
    · rw [Table.rows_update, Store.deactivate, Table.rows_update, List.forall₂_map_left_iff,
        List.forall₂_map_right_iff]
      apply h.imp
      intro stored row hrow
      have hactive := hrow.isActive
      cases hrowActive : row.isActive with
      | true =>
        rw [hrowActive] at hactive
        simpa [hactive] using ⟨hrow.version, rfl, hrow.model⟩
      | false =>
        rw [hrowActive] at hactive
        simpa [hactive] using hrow
    · obtain ⟨loaded, hloaded, halike⟩ := modelOfRow_insertedModel hreorder hjoblib hnodup
      exact .cons ⟨rfl, rfl, loaded, hloaded, halike⟩ .nil

/-- `load_active_model` on the columns finds what `_SELECT_ACTIVE_SQL` finds among the models. -/
theorem Mirrors.loadActiveModel (h : Mirrors load table models) :
    ∃ found, Sensor.loadActiveModel load table = some found ∧
      Option.Rel Alike found (Store.activeModel models) := by
  unfold Sensor.loadActiveModel Store.activeModel
  unfold Mirrors at h
  generalize table.rows = stored, models.rows = rows at h ⊢
  induction h with
  | nil => exact ⟨none, rfl, .none⟩
  | @cons stored row _ _ hrow _ ih =>
    rw [List.find?_cons, List.find?_cons, hrow.isActive]
    cases row.isActive with
    | true =>
      obtain ⟨m, hm, halike⟩ := hrow.model
      exact ⟨some m, by simp [hm], .some halike⟩
    | false => exact ih

end Mirror

end PotholeServer.Sensor
