import PotholeServer.Ingest.Events
import PotholeServer.Ingest.Frames
import PotholeServer.Sql.Session

/-!
# Uploads

The committed effect of one uploaded event or frame: its row, unless the client id is taken.
Existing rows of the two asset tables stay as they are, and no other table changes.
-/

namespace PotholeServer.Ingest

open Sql Db

variable {R : Type}

/-- One committed row of `insert_events` or `store_frame`. -/
inductive Upload (R : Type) where
  | event (deviceId : String) (e : EventFields R) (ts receivedAt : DateTime)
  | frame (deviceId : String) (m : FrameMetadata R) (ts : DateTime) (jpegUrl : String)
    (receivedAt : DateTime)

/-- The row effect of an upload. -/
def Upload.write : Upload R → Write R
  | .event deviceId e ts receivedAt => .insertObservation (newObservation deviceId e ts receivedAt)
  | .frame deviceId m ts jpegUrl receivedAt =>
    .insertFrame (newFrame deviceId m ts jpegUrl receivedAt)

instance : Effect (Upload R) (Database R) := ⟨fun u db ↦ db.write u.write⟩

/-- From one database to a later one only rows of new observations and of new, unprocessed frames
have been added. -/
structure Uploaded (s s' : Database R) : Prop where
  observationKept : ∀ o ∈ s.assetObservation, o ∈ s'.assetObservation
  frameKept : ∀ f ∈ s.assetFrame, f ∈ s'.assetFrame
  frameNew : ∀ f ∈ s'.assetFrame, f ∈ s.assetFrame ∨ f.processedAt = none
  sensorModel : s'.sensorModel = s.sensorModel
  fusionRun : s'.fusionRun = s.fusionRun
  fusionPair : s'.fusionPair = s.fusionPair

theorem Uploaded.refl (s : Database R) : Uploaded s s where
  observationKept := fun _ h ↦ h
  frameKept := fun _ h ↦ h
  frameNew := fun _ h ↦ .inl h
  sensorModel := rfl
  fusionRun := rfl
  fusionPair := rfl

theorem Uploaded.trans {s s' s'' : Database R} (h : Uploaded s s') (h' : Uploaded s' s'') :
    Uploaded s s'' where
  observationKept := fun o ho ↦ h'.observationKept o (h.observationKept o ho)
  frameKept := fun f hf ↦ h'.frameKept f (h.frameKept f hf)
  frameNew := by
    intro f hf
    rcases h'.frameNew f hf with hf | hf
    · exact h.frameNew f hf
    · exact .inr hf
  sensorModel := h'.sensorModel.trans h.sensorModel
  fusionRun := h'.fusionRun.trans h.fusionRun
  fusionPair := h'.fusionPair.trans h.fusionPair

theorem uploaded_write (u : Upload R) (s : Database R) : Uploaded s (s.write u.write) := by
  cases u with
  | event deviceId e ts receivedAt =>
    refine ⟨?_, fun _ h ↦ h, fun _ h ↦ .inl h, rfl, rfl, rfl⟩
    intro o ho
    exact Table.mem_insertNew_of_mem _ ho
  | frame deviceId m ts jpegUrl receivedAt =>
    refine ⟨fun _ h ↦ h, ?_, ?_, rfl, rfl, rfl⟩
    · intro f hf
      exact Table.mem_insertNew_of_mem _ hf
    · intro f hf
      rcases Table.mem_insertNew.mp hf with hf | ⟨rfl, _⟩
      · exact .inl hf
      · exact .inr rfl

/-- Arrivals are uploads. -/
theorem uploaded_of_arrived {s s' : Database R} (h : Arrived (Upload R) s s') : Uploaded s s' := by
  refine h.invariant (I := Uploaded s) ?_ (Uploaded.refl s)
  intro u t ht
  exact ht.trans (uploaded_write u t)

/-! ### Uploads of one device on a meridian -/

/-- The instant of `report`, in microseconds. -/
def reportTime : DateTime := 1767225600000000

/-- An uploaded report at a latitude. -/
def reportAt (clientId : String) (lat : ℚ) (receivedAt : DateTime) : Upload ℚ :=
  .event "device" { report clientId none with lat := lat } reportTime receivedAt

/-- An uploaded frame at a latitude, taken at the time of the reports. -/
def frameAt (clientId : String) (lat : ℚ) (receivedAt : DateTime) : Upload ℚ :=
  .frame "device"
    { clientId := clientId
      lat := lat
      lon := 0
      devicePOnDevice := 4 / 5 } reportTime ("frames/" ++ clientId ++ ".jpg") receivedAt

end PotholeServer.Ingest
