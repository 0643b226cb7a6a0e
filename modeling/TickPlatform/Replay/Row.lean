import TickPlatform.Protocol.Json
import TickPlatform.Protocol.Proofs

/-!
# Replay rows

The scope of a replay stream, its data and marker rows, their canonical bytes, the identity of a
continuity segment and the row chain.
-/

namespace TickPlatform.Replay

open Bytes Protocol

/-! ## Dates and paths -/

def digit (b : UInt8) : Option Nat := if 48 ≤ b ∧ b ≤ 57 then some (b.toNat - 48) else none

def number (b : Bytes) : Option Nat := b.foldlM (fun acc x => (digit x).map fun d => acc * 10 + d) 0

def isLeap (year : Nat) : Bool := year % 4 = 0 ∧ (year % 100 ≠ 0 ∨ year % 400 = 0)

def daysIn (year month : Nat) : Nat :=
  if month = 2 then (if isLeap year then 29 else 28)
  else if month = 4 ∨ month = 6 ∨ month = 9 ∨ month = 11 then 30
  else 31

/-- `time.Parse("2006-01-02", date)`, of which `Format` gives the text back. -/
def parseDate (date : Bytes) : Option (Nat × Nat × Nat) := do
  guard (date.length = 10 ∧ slice date 4 5 = ascii "-" ∧ slice date 7 8 = ascii "-")
  let year ← number (slice date 0 4)
  let month ← number (slice date 5 7)
  let day ← number (slice date 8 10)
  guard (1 ≤ month ∧ month ≤ 12 ∧ 1 ≤ day ∧ day ≤ daysIn year month)
  return (year, month, day)

/-- `strings.Split(path, "/")`. -/
def components : Bytes → List Bytes
  | [] => [[]]
  | b :: rest =>
    if b = 47 then [] :: components rest
    else (components rest).modifyHead (b :: ·)

/-- `strings.Contains(path, "//")`. -/
def doubleSlash : Bytes → Bool
  | [] => false
  | [_] => false
  | a :: b :: rest => (a == 47 && b == 47) || doubleSlash (b :: rest)

example : components (ascii "raw/day/x") = [ascii "raw", ascii "day", ascii "x"] := by decide

/-! ## Scopes -/

structure ReplayScope where
  datasetID : Bytes
  dayDefinitionID : Bytes
  date : Bytes
  replayContractID : Bytes
  conversionID : Bytes
  rawDayManifestKey : Bytes
  rawDayManifestSHA256 : Digest
deriving DecidableEq

/-- The source ranges over a map: which of two bad fields it names is left open there. -/
def ReplayScope.fields (s : ReplayScope) : List (String × Bytes) :=
  [("dataset_id", s.datasetID), ("day_definition_id", s.dayDefinitionID), ("date", s.date),
    ("replay_contract_id", s.replayContractID), ("conversion_id", s.conversionID),
    ("raw_day_manifest_key", s.rawDayManifestKey)]

def isProtocolString (value : Bytes) : Bool := utf8Valid value && value.length ≤ maxStringBytes.toNat

def checkScopeField (field : String × Bytes) : Except String Unit := do
  let name := field.1
  reject (field.2 = []) s!"{name} is required"
  reject (!isProtocolString field.2) s!"{name} is not a Protocol V1 string"

def checkComponent (part : Bytes) : Except String Unit :=
  reject (part = [] ∨ part = ascii "." ∨ part = ascii "..")
    "raw_day_manifest_key has a non-canonical path component"

def ReplayScope.validate (s : ReplayScope) : Except String Unit := do
  each checkScopeField s.fields
  reject (parseDate s.date = none) "date is not UTC YYYY-MM-DD"
  reject ((s.rawDayManifestKey.any fun b => b = 92 ∨ b = 13 ∨ b = 10) ∨ doubleSlash s.rawDayManifestKey)
    "raw_day_manifest_key is not canonical"
  each checkComponent (components s.rawDayManifestKey)
  reject (s.rawDayManifestSHA256 = Digest.zero) "raw_day_manifest_sha256 must not be zero"

/-! ## Rows -/

structure ReplayDataRow where
  scope : ReplayScope
  streamSequence : UInt64
  continuitySegmentID : Bytes
  rawObjectKey : Bytes
  rawObjectSHA256 : Digest
  gatewayIngestSequence : UInt64
  producerInstanceID : Bytes
  producerSessionID : Bytes
  batchSequence : UInt64
  recordOrdinal : UInt32
  captureSequence : UInt64
  record : RawMqlTickV1
  sourcePayloadFingerprint : Digest
  observationHash : Digest
  fetchWallStartS : Int64
  fetchWallEndS : Int64
  fetchMonotonicStartUS : UInt64
  fetchMonotonicEndUS : UInt64
  copyTicksError : Int32
  sourceStatusFlags : UInt32
deriving DecidableEq

inductive MarkerCode
  | segmentStart
  | ambiguousOverlap
  | sourceHistoryChanged
  | sourceError
  | gap
  | timestampRegression
  | scopeBoundary
deriving DecidableEq, Repr

inductive MarkerReason
  | initial
  | noUniqueOverlap
  | samePositionChanged
  | sourceReportedError
  | walSequenceGap
  | timeMSCRegression
  | scopeChanged
deriving DecidableEq, Repr

def MarkerCode.text : MarkerCode → String
  | .segmentStart => "SEGMENT_START"
  | .ambiguousOverlap => "AMBIGUOUS_OVERLAP"
  | .sourceHistoryChanged => "SOURCE_HISTORY_CHANGED"
  | .sourceError => "SOURCE_ERROR"
  | .gap => "GAP"
  | .timestampRegression => "TIMESTAMP_REGRESSION"
  | .scopeBoundary => "SCOPE_BOUNDARY"

def MarkerReason.text : MarkerReason → String
  | .initial => "INITIAL"
  | .noUniqueOverlap => "NO_UNIQUE_OVERLAP"
  | .samePositionChanged => "SAME_POSITION_PAYLOAD_CHANGED"
  | .sourceReportedError => "SOURCE_REPORTED_ERROR"
  | .walSequenceGap => "WAL_SEQUENCE_GAP"
  | .timeMSCRegression => "TIME_MSC_REGRESSION"
  | .scopeChanged => "SCOPE_CHANGED"

def markerReasons : MarkerCode → MarkerReason
  | .segmentStart => .initial
  | .ambiguousOverlap => .noUniqueOverlap
  | .sourceHistoryChanged => .samePositionChanged
  | .sourceError => .sourceReportedError
  | .gap => .walSequenceGap
  | .timestampRegression => .timeMSCRegression
  | .scopeBoundary => .scopeChanged

structure ReplayMarkerRow where
  scope : ReplayScope
  streamSequence : UInt64
  continuitySegmentID : Bytes
  rawObjectKey : Bytes
  rawObjectSHA256 : Digest
  markerCode : MarkerCode
  reason : MarkerReason
  detail : Bytes
  referenceGatewayIngestSequence : UInt64
  referenceRecordOrdinal : UInt32
  predecessorRowChainHash : Digest
  continuitySegmentStartHash : Digest
deriving DecidableEq

/-- The `Kind` byte with the payload it promises. -/
inductive ReplayRow
  | data (row : ReplayDataRow)
  | marker (row : ReplayMarkerRow)
deriving DecidableEq

namespace ReplayRow

def kind : ReplayRow → UInt8
  | data _ => 1
  | marker _ => 2

def scope : ReplayRow → ReplayScope
  | data row => row.scope
  | marker row => row.scope

def streamSequence : ReplayRow → UInt64
  | data row => row.streamSequence
  | marker row => row.streamSequence

def continuitySegmentID : ReplayRow → Bytes
  | data row => row.continuitySegmentID
  | marker row => row.continuitySegmentID

def data? : ReplayRow → Option ReplayDataRow
  | data row => some row
  | marker _ => none

def marker? : ReplayRow → Option ReplayMarkerRow
  | data _ => none
  | marker row => some row

def isData (row : ReplayRow) : Bool := row.data?.isSome

end ReplayRow

/-! ## Canonical bytes -/

def replayRowDomain : Bytes := ascii "tick-data-platform/replay-row/v1\x00"
def replayMarkerDomain : Bytes := ascii "tick-data-platform/replay-marker/v1\x00"
def replayRowChainDomain : Bytes := ascii "tick-data-platform/replay-row-chain/v1\x00"
def continuitySegmentDomain : Bytes := ascii "tick-data-platform/continuity-segment/v1\x00"

def rawWALObjectKey (sha256 : Digest) : Bytes :=
  ascii "objects/raw/wal-" ++ hexBytes sha256.bytes ++ ascii ".rtw"

theorem isASCII_rawWALObjectKey (sha256 : Digest) : isASCII (rawWALObjectKey sha256) = true := by
  have hfront : isASCII (ascii "objects/raw/wal-") = true := by decide
  have hback : isASCII (ascii ".rtw") = true := by decide
  have hhex := isASCII_hexBytes sha256.bytes
  simp only [isASCII, rawWALObjectKey, List.all_append, Bool.and_eq_true] at hfront hback hhex ⊢
  exact ⟨⟨hfront, hhex⟩, hback⟩

def writeLP (value : Bytes) : Except String Bytes := (writeString value).mapError ProtocolError.text

def writeLPs (values : List Bytes) : Except String Bytes := (writeStrings values).mapError ProtocolError.text

/-- A string whose write error is dropped, as the hashes of the protocol do. -/
def writeUnchecked (value : Bytes) : Bytes := (writeString value).toOption.getD []

def observationHash (H : Hashes) (producerInstanceID producerSessionID : Bytes) (batchSequence : UInt64)
    (recordOrdinal : UInt32) (captureSequence : UInt64) (fingerprint : Digest) : Digest :=
  H.sha256 (ascii "tick-data-platform/observation/v1\x00" ++ writeUnchecked producerInstanceID ++
    writeUnchecked producerSessionID ++ putUint64 batchSequence ++ putUint32 recordOrdinal ++
    putUint64 captureSequence ++ fingerprint.bytes)

def writeScope (scope : ReplayScope) (segmentID : Bytes) : Except String Bytes := do
  let fields ← writeLPs [scope.datasetID, scope.dayDefinitionID, scope.date, scope.replayContractID,
    scope.conversionID, segmentID]
  return fields ++ scope.rawDayManifestSHA256.bytes

def checkProducerField (field : String × Bytes) : Except String Unit :=
  let name := field.1
  reject (field.2 = [] ∨ !isProtocolString field.2) s!"{name} is not a Protocol V1 string"

def ReplayDataRow.validate (H : Hashes) (r : ReplayDataRow) : Except String Unit := do
  r.scope.validate
  reject (r.continuitySegmentID = [] ∨ r.continuitySegmentID.length > maxStringBytes.toNat)
    "continuity_segment_id is required"
  reject (r.rawObjectKey = [] ∨ r.rawObjectSHA256 = Digest.zero) "data row raw object binding is required"
  reject (r.rawObjectKey ≠ rawWALObjectKey r.rawObjectSHA256) "data row raw object key does not match hash"
  each checkProducerField
    [("producer_instance_id", r.producerInstanceID), ("producer_session_id", r.producerSessionID)]
  reject (r.sourcePayloadFingerprint ≠ Protocol.sourcePayloadFingerprint H r.record)
    "source_payload_fingerprint does not match record"
  reject (r.observationHash ≠ Replay.observationHash H r.producerInstanceID r.producerSessionID r.batchSequence
      r.recordOrdinal r.captureSequence r.sourcePayloadFingerprint)
    "observation_hash does not match occurrence"

def ReplayMarkerRow.validate (r : ReplayMarkerRow) : Except String Unit := do
  r.scope.validate
  reject (r.continuitySegmentID = [] ∨ r.continuitySegmentID.length > maxStringBytes.toNat)
    "continuity_segment_id is required"
  reject (markerReasons r.markerCode ≠ r.reason) "marker code/reason pair is not allowed"
  reject (!isProtocolString r.detail) "marker_detail is not a Protocol V1 string"
  if r.rawObjectKey = [] then
    reject (r.rawObjectSHA256 ≠ Digest.zero) "marker raw object key/hash must bind together"
  else if r.rawObjectSHA256 = Digest.zero then
    .error "marker raw object hash is required when key is present"
  else
    reject (r.rawObjectKey ≠ rawWALObjectKey r.rawObjectSHA256) "marker raw object key does not match hash"

/-- The fields of a data row after its scope. -/
def ReplayDataRow.body (H : Hashes) (r : ReplayDataRow) : Except String Bytes := do
  r.validate H
  let key ← writeLP r.rawObjectKey
  let producer ← writeLP r.producerInstanceID
  let session ← writeLP r.producerSessionID
  return key ++ r.rawObjectSHA256.bytes ++ putUint64 r.gatewayIngestSequence ++ producer ++ session ++
    putUint64 r.batchSequence ++ putUint32 r.recordOrdinal ++ putUint64 r.captureSequence ++
    putInt64 r.record.time ++ putUint64 r.record.bidBits ++ putUint64 r.record.askBits ++
    putUint64 r.record.lastBits ++ putUint64 r.record.volume ++ putInt64 r.record.timeMSC ++
    putUint32 r.record.flags ++ putUint64 r.record.volumeRealBits ++
    r.sourcePayloadFingerprint.bytes ++ r.observationHash.bytes ++
    putInt64 r.fetchWallStartS ++ putInt64 r.fetchWallEndS ++ putUint64 r.fetchMonotonicStartUS ++
    putUint64 r.fetchMonotonicEndUS ++ putInt32 r.copyTicksError ++ putUint32 r.sourceStatusFlags

def ReplayMarkerRow.body (r : ReplayMarkerRow) : Except String Bytes := do
  r.validate
  let key ← writeLP r.rawObjectKey
  let texts ← writeLPs [ascii r.markerCode.text, ascii r.reason.text, r.detail]
  return key ++ r.rawObjectSHA256.bytes ++ replayMarkerDomain ++ texts ++
    putUint64 r.referenceGatewayIngestSequence ++ putUint32 r.referenceRecordOrdinal ++
    r.predecessorRowChainHash.bytes ++ r.continuitySegmentStartHash.bytes

def ReplayRow.body (H : Hashes) : ReplayRow → Except String Bytes
  | data row => row.body H
  | marker row => row.body

def ReplayRow.canonicalBytes (H : Hashes) (r : ReplayRow) : Except String Bytes := do
  r.scope.validate
  let scope ← writeScope r.scope r.continuitySegmentID
  let body ← r.body H
  return replayRowDomain ++ [r.kind] ++ putUint64 r.streamSequence ++ scope ++ body

/-! ## Segments -/

/-- What `SegmentID` hashes. -/
def segmentInput (scope : ReplayScope) (gatewaySequence : UInt64) (recordOrdinal : UInt32)
    (markerCode : MarkerCode) (predecessor : Digest) : Except String Bytes := do
  scope.validate
  let fields ← writeLPs [scope.datasetID, scope.dayDefinitionID, scope.date, scope.replayContractID,
    scope.conversionID, scope.rawDayManifestKey]
  let code ← writeLP (ascii markerCode.text)
  return continuitySegmentDomain ++ fields ++ scope.rawDayManifestSHA256.bytes ++
    putUint64 gatewaySequence ++ putUint32 recordOrdinal ++ code ++ predecessor.bytes

def segmentID (H : Hashes) (scope : ReplayScope) (gatewaySequence : UInt64) (recordOrdinal : UInt32)
    (markerCode : MarkerCode) (predecessor : Digest) : Except String Bytes := do
  let input ← segmentInput scope gatewaySequence recordOrdinal markerCode predecessor
  return hexBytes (H.sha256 input).bytes

/-! ## The row chain -/

/-- What `RowChainStep` hashes. -/
def chainInput (streamSequence : UInt64) (previous : Digest) (canonicalRow : Bytes) : Bytes :=
  replayRowChainDomain ++ putUint64 streamSequence ++ previous.bytes ++
    (putUint32 (UInt32.ofNat canonicalRow.length) ++ canonicalRow)

def rowChainStep (H : Hashes) (streamSequence : UInt64) (previous : Digest) (canonicalRow : Bytes) : Digest :=
  H.sha256 (chainInput streamSequence previous canonicalRow)

/-- The loop of `RowChainRoot`, from a row on. -/
def rowChainFrom (H : Hashes) : Nat → Digest → List ReplayRow → Except String Digest
  | _, root, [] => .ok root
  | index, root, row :: rows => do
    let sequence := row.streamSequence
    reject (sequence ≠ UInt64.ofNat index) s!"stream sequence {sequence} is not {index}"
    let canonical ← row.canonicalBytes H
    rowChainFrom H (index + 1) (rowChainStep H sequence root canonical) rows

def rowChainRoot (H : Hashes) (rows : List ReplayRow) : Except String Digest :=
  rowChainFrom H 0 Digest.zero rows

end TickPlatform.Replay
