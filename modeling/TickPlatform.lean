import TickPlatform.Bytes
import TickPlatform.Protocol.Spec
import TickPlatform.Protocol.Proofs
import TickPlatform.Crash
import TickPlatform.Wal.Segment
import TickPlatform.Wal.Store
import TickPlatform.Wal.Scan
import TickPlatform.Wal.Log
import TickPlatform.Wal.Recovery
import TickPlatform.Wal.Seal
import TickPlatform.Wal.Append
import TickPlatform.Wal.History
import TickPlatform.Ingest.Config
import TickPlatform.Ingest.Gateway
import TickPlatform.Ingest.World
import TickPlatform.Wal.Serve
import TickPlatform.Ingest.Accept
import TickPlatform.Wal.Prune
import TickPlatform.Ingest.History
import TickPlatform.Ingest.Refinement
import TickPlatform.Ingest.Durability
import TickPlatform.Ingest.Pruned
import TickPlatform.Continuity.Reducer
import TickPlatform.HashChain
import TickPlatform.Continuity.Stream
import TickPlatform.Continuity.Overlap
import TickPlatform.Protocol.Json
import TickPlatform.Retention.Contract
import TickPlatform.Files
import TickPlatform.Retention.Planner
import TickPlatform.Retention.Store
import TickPlatform.Retention.Executor
import TickPlatform.Retention.Recovery
import TickPlatform.Retention.Interrupted
import TickPlatform.Retention.Documents
import TickPlatform.Retention.Planned
import TickPlatform.Retention.Execution
import TickPlatform.Retention.Convergence
import TickPlatform.Archive.Manifest
import TickPlatform.Archive.Snapshot
import TickPlatform.Remote.Layout
import TickPlatform.Remote.Revision
import TickPlatform.Wal.Grammar
import TickPlatform.Ingest.Sessions
import TickPlatform.Ingest.Concurrent
import TickPlatform.Protocol.Runes
import TickPlatform.Protocol.RoundTrip
import TickPlatform.Protocol.Agreement
import TickPlatform.Archive.Local
import TickPlatform.Archive.Valid
import TickPlatform.Archive.Selection
import TickPlatform.Protocol.Fields
import TickPlatform.Archive.Encoded
import TickPlatform.Archive.Build
import TickPlatform.Archive.Ranges
import TickPlatform.Archive.Succeeds
import TickPlatform.Archive.Extend
import TickPlatform.Archive.ReplaySource
import TickPlatform.Archive.Yields
import TickPlatform.Ranked
import TickPlatform.Remote.Graph
import TickPlatform.Delivery.Restore
import TickPlatform.Delivery.Reader
import TickPlatform.Delivery.Fetch
import TickPlatform.Delivery.Verify
import TickPlatform.Retention.Reopen
import TickPlatform.Parquet.Row
import TickPlatform.Parquet.Generator
import TickPlatform.Parquet.Written
import TickPlatform.Cuts
import TickPlatform.Parquet.Partition
import TickPlatform.Archive.Parts
import TickPlatform.Remote.PartGraph
import TickPlatform.Parquet.Summaries
import TickPlatform.Parquet.Manifests
import TickPlatform.Parquet.Retry
import TickPlatform.Retention.Selected
import TickPlatform.Retention.Covered
import TickPlatform.Ingest.Cursor
import TickPlatform.Ingest.Resume
import TickPlatform.Ingest.DiskGate
import TickPlatform.Ingest.Framing
import TickPlatform.Ingest.Handler
import TickPlatform.Continuity.Ascending
import TickPlatform.Remote.Budget
import TickPlatform.Remote.ScopeKeys
