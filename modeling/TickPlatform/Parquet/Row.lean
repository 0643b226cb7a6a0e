import TickPlatform.Replay.Parts

/-!
# Physical rows

The row of a Parquet part, how a replay row becomes one and what is read back from it. The bytes of a file are left
to the Parquet library: a file that it writes holds the rows it was given.
-/

namespace TickPlatform.Parquet

open Bytes Protocol Replay

structure DataRow where
  rawObjectKey : Bytes
  rawObjectSHA256 : Digest
  gatewayIngestSequence : UInt64
  producerInstanceID : Bytes
  producerSessionID : Bytes
  batchSequence : UInt64
  recordOrdinal : UInt32
  captureSequence : UInt64
  time : Int64
  bidBits : UInt64
  askBits : UInt64
  lastBits : UInt64
  volume : UInt64
  timeMSC : Int64
  flags : UInt32
  volumeRealBits : UInt64
  sourcePayloadFingerprint : Digest
  observationHash : Digest
  fetchWallStartS : Int64
  fetchWallEndS : Int64
  fetchMonotonicStartUS : UInt64
  fetchMonotonicEndUS : UInt64
  copyTicksError : Int32
  sourceStatusFlags : UInt32
deriving DecidableEq

structure MarkerRow where
  rawObjectKey : Bytes
  rawObjectSHA256 : Digest
  markerCode : MarkerCode
  reason : MarkerReason
  detail : Bytes
  referenceGatewayIngestSequence : UInt64
  referenceRecordOrdinal : UInt32
  predecessorRowChainHash : Digest
  continuitySegmentStartHash : Digest
deriving DecidableEq

structure ParquetRow where
  rowKind : UInt8
  streamSequence : UInt64
  datasetID : Bytes
  dayDefinitionID : Bytes
  date : Bytes
  replayContractID : Bytes
  conversionID : Bytes
  rawDayManifestKey : Bytes
  rawDayManifestSHA256 : Digest
  continuitySegmentID : Bytes
  previousRowChainHash : Digest
  rowChainHash : Digest
  data : Option DataRow
  marker : Option MarkerRow
deriving DecidableEq

/-! ## Writing -/

def dataRow (row : ReplayDataRow) : DataRow where
  rawObjectKey := row.rawObjectKey
  rawObjectSHA256 := row.rawObjectSHA256
  gatewayIngestSequence := row.gatewayIngestSequence
  producerInstanceID := row.producerInstanceID
  producerSessionID := row.producerSessionID
  batchSequence := row.batchSequence
  recordOrdinal := row.recordOrdinal
  captureSequence := row.captureSequence
  time := row.record.time
  bidBits := row.record.bidBits
  askBits := row.record.askBits
  lastBits := row.record.lastBits
  volume := row.record.volume
  timeMSC := row.record.timeMSC
  flags := row.record.flags
  volumeRealBits := row.record.volumeRealBits
  sourcePayloadFingerprint := row.sourcePayloadFingerprint
  observationHash := row.observationHash
  fetchWallStartS := row.fetchWallStartS
  fetchWallEndS := row.fetchWallEndS
  fetchMonotonicStartUS := row.fetchMonotonicStartUS
  fetchMonotonicEndUS := row.fetchMonotonicEndUS
  copyTicksError := row.copyTicksError
  sourceStatusFlags := row.sourceStatusFlags

def markerRow (row : ReplayMarkerRow) : MarkerRow where
  rawObjectKey := row.rawObjectKey
  rawObjectSHA256 := row.rawObjectSHA256
  markerCode := row.markerCode
  reason := row.reason
  detail := row.detail
  referenceGatewayIngestSequence := row.referenceGatewayIngestSequence
  referenceRecordOrdinal := row.referenceRecordOrdinal
  predecessorRowChainHash := row.predecessorRowChainHash
  continuitySegmentStartHash := row.continuitySegmentStartHash

def physicalRow (row : ReplayRow) (previous next : Digest) : ParquetRow where
  rowKind := row.kind
  streamSequence := row.streamSequence
  datasetID := row.scope.datasetID
  dayDefinitionID := row.scope.dayDefinitionID
  date := row.scope.date
  replayContractID := row.scope.replayContractID
  conversionID := row.scope.conversionID
  rawDayManifestKey := row.scope.rawDayManifestKey
  rawDayManifestSHA256 := row.scope.rawDayManifestSHA256
  continuitySegmentID := row.continuitySegmentID
  previousRowChainHash := previous
  rowChainHash := next
  data := row.data?.map dataRow
  marker := row.marker?.map markerRow

/-- A row as the generator keeps it until its part is written. -/
structure BufferedRow where
  physical : ParquetRow
  row : ReplayRow
  canonical : Bytes
  chain : Digest
deriving DecidableEq

def makeParquetRow (H : Hashes) (row : ReplayRow) (previous : Digest) : Except String BufferedRow := do
  let canonical ← row.canonicalBytes H
  reject (row.streamSequence = Wal.maxUint64) "replay stream sequence overflow"
  let next := rowChainStep H row.streamSequence previous canonical
  return ⟨physicalRow row previous next, row, canonical, next⟩

/-! ## Reading -/

namespace ParquetRow

def scope (r : ParquetRow) : ReplayScope where
  datasetID := r.datasetID
  dayDefinitionID := r.dayDefinitionID
  date := r.date
  replayContractID := r.replayContractID
  conversionID := r.conversionID
  rawDayManifestKey := r.rawDayManifestKey
  rawDayManifestSHA256 := r.rawDayManifestSHA256

/-- The capture sequence of the record is that of the row. -/
def replayDataRow (r : ParquetRow) (data : DataRow) : ReplayDataRow where
  scope := r.scope
  streamSequence := r.streamSequence
  continuitySegmentID := r.continuitySegmentID
  rawObjectKey := data.rawObjectKey
  rawObjectSHA256 := data.rawObjectSHA256
  gatewayIngestSequence := data.gatewayIngestSequence
  producerInstanceID := data.producerInstanceID
  producerSessionID := data.producerSessionID
  batchSequence := data.batchSequence
  recordOrdinal := data.recordOrdinal
  captureSequence := data.captureSequence
  record := ⟨data.time, data.bidBits, data.askBits, data.lastBits, data.volume, data.timeMSC, data.flags,
    data.volumeRealBits, data.captureSequence⟩
  sourcePayloadFingerprint := data.sourcePayloadFingerprint
  observationHash := data.observationHash
  fetchWallStartS := data.fetchWallStartS
  fetchWallEndS := data.fetchWallEndS
  fetchMonotonicStartUS := data.fetchMonotonicStartUS
  fetchMonotonicEndUS := data.fetchMonotonicEndUS
  copyTicksError := data.copyTicksError
  sourceStatusFlags := data.sourceStatusFlags

def replayMarkerRow (r : ParquetRow) (marker : MarkerRow) : ReplayMarkerRow where
  scope := r.scope
  streamSequence := r.streamSequence
  continuitySegmentID := r.continuitySegmentID
  rawObjectKey := marker.rawObjectKey
  rawObjectSHA256 := marker.rawObjectSHA256
  markerCode := marker.markerCode
  reason := marker.reason
  detail := marker.detail
  referenceGatewayIngestSequence := marker.referenceGatewayIngestSequence
  referenceRecordOrdinal := marker.referenceRecordOrdinal
  predecessorRowChainHash := marker.predecessorRowChainHash
  continuitySegmentStartHash := marker.continuitySegmentStartHash

/-- The kind says which of the two groups is present. -/
def replayRow (r : ParquetRow) : Except String ReplayRow :=
  match r.data, r.marker with
  | some data, none =>
    if r.rowKind = 1 then .ok (.data (r.replayDataRow data)) else .error "invalid parquet replay row"
  | none, some marker =>
    if r.rowKind = 2 then .ok (.marker (r.replayMarkerRow marker)) else .error "invalid parquet replay row"
  | _, _ => .error "invalid parquet replay row"

end ParquetRow

/-! ## Files -/

/-- The Parquet library. A write may fail; a file that it has written reads back as the rows. -/
structure FileFormat where
  write : Bytes → UInt64 → List ParquetRow → Option Bytes
  read : Bytes → Option (List ParquetRow)
  read_write : ∀ {createdBy maxRowsPerRowGroup rows data}, write createdBy maxRowsPerRowGroup rows = some data →
    read data = some rows
  size_write : ∀ {createdBy maxRowsPerRowGroup rows data}, write createdBy maxRowsPerRowGroup rows = some data →
    0 < data.length ∧ data.length < 9223372036854775808

end TickPlatform.Parquet
