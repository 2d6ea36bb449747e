import PotholeServer.Db.Schema

/-!
# Frame ingestion

`app/models/frames.py: FrameMetadata` and the database part of `app/services/frame_service.py:
store_frame`. The JPEG goes to object storage first; its path is the column `jpeg_url`.
-/

namespace PotholeServer.Ingest

open Sql Db

variable {R : Type}

/-- The fields of `FrameMetadata`, with the detections already serialized. -/
structure FrameMetadata (R : Type) where
  clientId : String
  eventClientId : Option String := none
  lat : R
  lon : R
  devicePOnDevice : R
  modelId : Option String := none
  detections : Option String := none

/-- The row `_INSERT_FRAME_SQL` inserts; `processed_at` starts as `NULL`. -/
def newFrame (deviceId : String) (m : FrameMetadata R) (ts : DateTime) (jpegUrl : String)
    (receivedAt : DateTime) : AssetFrame R where
  clientId := m.clientId
  deviceId := deviceId
  eventClientId := m.eventClientId
  tsUtc := ts
  geom := ⟨m.lon, m.lat⟩
  deviceProbability := some m.devicePOnDevice
  deviceModelId := m.modelId
  deviceDetections := m.detections
  jpegUrl := jpegUrl
  receivedAt := receivedAt
  processedAt := none

end PotholeServer.Ingest
