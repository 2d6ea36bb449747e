import PotholeServer.Sql.Table
import PotholeServer.Sensor.Score
import PotholeServer.Db.Schema
import PotholeServer.Fusion.Engine
import PotholeServer.Stats.Logistic
import PotholeServer.Fusion.Pool
import PotholeServer.Ingest.Events
import PotholeServer.Ingest.Acknowledged
import PotholeServer.Geo.Dbscan
import PotholeServer.Geo.Greedy
import PotholeServer.Planar
import PotholeServer.Ingest.RateLimit
import PotholeServer.Ingest.BucketLog
import PotholeServer.Ingest.Refusals
import PotholeServer.Lock.SingleFlight
import PotholeServer.Fusion.Job
import PotholeServer.Ingest.Frames
import PotholeServer.Fusion.Tick
import PotholeServer.Fusion.Pairing
import PotholeServer.Ingest.Upload
import PotholeServer.Fusion.Batch
import PotholeServer.Fusion.History
import PotholeServer.Fusion.Audit
import PotholeServer.Fusion.ExactlyOnce
import PotholeServer.Fusion.Rerun
import PotholeServer.Fusion.Scoring
import PotholeServer.Sql.Effects
import PotholeServer.Sql.Interference
import PotholeServer.Sql.Server
import PotholeServer.Sql.Ledger
import PotholeServer.Fusion.Order
import PotholeServer.Ingest.Delivery
import PotholeServer.Cluster.Job
import PotholeServer.Cluster.Groups
import PotholeServer.Cluster.Rebuild
import PotholeServer.Cluster.Run
import PotholeServer.Cluster.History
import PotholeServer.Cluster.Links
import PotholeServer.Cluster.Repair
import PotholeServer.Storage.Path
import PotholeServer.Ingest.FramePaths
import PotholeServer.Ingest.FrameStore
import PotholeServer.Sensor.Store
import PotholeServer.Sensor.Fit
import PotholeServer.Stats.Tally
import PotholeServer.Stats.Ranking
import PotholeServer.Sensor.Posterior
import PotholeServer.Sensor.Labelling
import PotholeServer.Json.Value
import PotholeServer.Sensor.Persist
import PotholeServer.Fusion.FitJob
import PotholeServer.Fusion.Provenance
import PotholeServer.Cluster.Summary
import PotholeServer.Cluster.Consistent
import PotholeServer.Cluster.Idempotent
import PotholeServer.Cluster.Disciplined
import PotholeServer.Cluster.Frozen
import PotholeServer.Cluster.Claimant
import PotholeServer.Ingest.Isolation
import PotholeServer.Sql.Calls
import PotholeServer.Sensor.Usable
import PotholeServer.Sql.Guarded
import PotholeServer.Stats.Average
import PotholeServer.Db.Ranges
import PotholeServer.Cluster.Ranges
import PotholeServer.Pipeline.Checked
import PotholeServer.Pipeline.History
import PotholeServer.Pipeline.Evidence
import PotholeServer.Pipeline.Server
import PotholeServer.Pipeline.Progress
import PotholeServer.Sql.Queue
import PotholeServer.Stats.OrderStatistic
import PotholeServer.Cluster.Severity
import PotholeServer.Storage.Files
import PotholeServer.Ingest.Publication
import PotholeServer.Json.Text
import PotholeServer.Json.Codec
import PotholeServer.Json.RoundTrip
import PotholeServer.Json.Accepted
import PotholeServer.Json.Validation
import PotholeServer.Ingest.FrameMetadata
import PotholeServer.Ingest.FrameUpload
import PotholeServer.Ingest.FrameRecord
import PotholeServer.Ingest.EventBatch
import PotholeServer.Json.Models
import PotholeServer.Ingest.EventUpload
import PotholeServer.Sql.Budget
import PotholeServer.Ingest.Quota
