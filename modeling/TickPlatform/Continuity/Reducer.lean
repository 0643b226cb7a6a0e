import Mathlib.Data.List.DropRight
import TickPlatform.Replay.Row

/-!
# The continuity reducer

`Reduce` turns the verified batches of a day into replay rows. It drops the part of a batch that is
proved to repeat the end of the current segment, and starts a new segment where nothing is proved.
-/

namespace TickPlatform.Continuity

open Bytes Protocol Replay

/-! ## What the reducer reads -/

structure VerifiedBatch where
  objectKey : Bytes
  objectSHA256 : Digest
  gatewayIngestSequence : UInt64
  frame : Bytes
  selectedRecordOrdinals : List UInt32
deriving DecidableEq

structure ProducerIdentity where
  producerInstanceID : Bytes
  providerID : Bytes
  stableFeedID : Bytes
  brokerServerFingerprint : Bytes
  exactSourceSymbol : Bytes
deriving DecidableEq

/-- `Next` gives the batches in turn and then `ending`: no more of them, or a read error. -/
structure VerifiedBatchReader where
  replayScope : ReplayScope
  producerIdentity : ProducerIdentity
  maxRecords : UInt32
  batches : List VerifiedBatch
  ending : Except String Unit

/-- What the sink answers to a row, after the rows it has taken. -/
abbrev RowSink := List ReplayRow → ReplayRow → Except String Unit

def BatchError.text : BatchError → String
  | .frame err => err.text
  | .message err => err.text
  | .notBatch => "WAL entry is not BatchFrameV1"

def decodeBatch (H : Hashes) (frame : Bytes) : Except String BatchFrameV1 := do
  let batch ← (decodeBatchFrame H frame).mapError BatchError.text
  let canonical ← (encodeMessage H (.batch batch)).mapError ProtocolError.text
  reject (canonical ≠ frame) "BatchFrameV1 bytes are not canonical"
  return batch

structure FingerprintOccurrence where
  fingerprint : Digest
  timeMSC : Int64
  gatewaySequence : UInt64
  recordOrdinal : UInt32
  record : RawMqlTickV1
  batch : BatchFrameV1
  rawKey : Bytes
  rawHash : Digest
  producerInstanceID : Bytes
deriving DecidableEq

def fingerprints (occurrences : List FingerprintOccurrence) : List Digest :=
  occurrences.map (·.fingerprint)

/-! ## Overlap -/

/-- `previous[start : start+length]` has the fingerprints of `incoming[: length]`. -/
def matchesAt (previous incoming : List FingerprintOccurrence) (start length : Nat) : Bool :=
  ((fingerprints previous).drop start).take length = (fingerprints incoming).take length

def equalSuffixPrefix (previous incoming : List FingerprintOccurrence) (length : Nat) : Bool :=
  if length > previous.length ∨ length > incoming.length then false
  else matchesAt previous incoming (previous.length - length) length

/-- The `start` values of a loop over the windows of one length. -/
def windowStarts (size length : Nat) : List Nat := List.range (size + 1 - length)

/-- The overlap, and whether the longest candidate was ambiguous. -/
def overlapLength (previous incoming : List FingerprintOccurrence) : Nat × Bool :=
  let maxLength := min previous.length incoming.length
  let candidates := (List.range' 1 maxLength).filter (equalSuffixPrefix previous incoming)
  if h : candidates = [] then (0, false)
  else
    let longest := candidates.getLast h
    let positions := (windowStarts previous.length longest).filter
      fun start => matchesAt previous incoming start longest
    if positions.length ≠ 1 then (0, true) else (longest, false)

/-! ## One changed payload -/

structure HistoryAlignment where
  previousStart : Nat
  changedOffset : Nat
  length : Nat
deriving DecidableEq

/-- The scan of two windows of one length, from an offset on. It fails at a second difference and at
a difference on either end. -/
def changedOffsetFrom (length : Nat) : Nat → Option Nat → List Digest → List Digest → Option (Option Nat)
  | offset, changedOffset, p :: previous, q :: incoming =>
    if p = q then changedOffsetFrom length (offset + 1) changedOffset previous incoming
    else if offset = 0 ∨ offset = length - 1 ∨ changedOffset.isSome then none
    else changedOffsetFrom length (offset + 1) (some offset) previous incoming
  | _, changedOffset, _, _ => some changedOffset

def oneSubstitutionAlignment (previous : List FingerprintOccurrence) (previousStart : Nat)
    (incoming : List FingerprintOccurrence) (length : Nat) : Option HistoryAlignment := do
  guard (¬ (length < 3 ∨ previousStart + length > previous.length ∨ length > incoming.length))
  let changed ← changedOffsetFrom length 0 none (((fingerprints previous).drop previousStart).take length)
    ((fingerprints incoming).take length)
  let changedOffset ← changed
  return { previousStart, changedOffset, length }

/-- The lengths from `maxLength` down to three. -/
def boundaryLengths (maxLength : Nat) : List Nat := (List.range' 3 (maxLength + 1 - 3)).reverse

def uniqueHistoryChange (previous incoming : List FingerprintOccurrence) : Option FingerprintOccurrence := do
  let maxLength := min previous.length incoming.length
  let boundary ← (boundaryLengths maxLength).findSome? fun length =>
    oneSubstitutionAlignment previous (previous.length - length) incoming length
  let compatiblePositions := (windowStarts previous.length boundary.length).filter fun start =>
    (oneSubstitutionAlignment previous start incoming boundary.length).isSome
  guard (compatiblePositions.length = 1)
  previous[boundary.previousStart + boundary.changedOffset]?

/-! ## The state of `Reduce` -/

structure Result where
  rowCount : UInt64
  markerCount : UInt64
  segmentCount : UInt64
  lastSegmentID : Bytes
  rowChainRoot : Digest
  tailSize : UInt32
deriving DecidableEq

/-- The variables of `Reduce`, with the rows its sink has taken. -/
structure State where
  result : Result
  previousRowHash : Digest
  currentSegmentID : Bytes
  tail : List FingerprintOccurrence
  previousOccurrence : Option FingerprintOccurrence
  previousSession : Bytes
  previousBatchSequence : UInt64
  haveBatchSequence : Bool
  rows : List ReplayRow

def Result.empty : Result where
  rowCount := 0
  markerCount := 0
  segmentCount := 0
  lastSegmentID := []
  rowChainRoot := Digest.zero
  tailSize := 0

def State.initial : State where
  result := Result.empty
  previousRowHash := Digest.zero
  currentSegmentID := []
  tail := []
  previousOccurrence := none
  previousSession := []
  previousBatchSequence := 0
  haveBatchSequence := false
  rows := []

/-! ## Emission -/

section

variable (H : Hashes) (reader : VerifiedBatchReader) (sink : RowSink)

/-- The state after a row that passed the checks of `emit`. -/
def State.push (s : State) (row : ReplayRow) (canonical : Bytes) : State :=
  { s with
    result := { s.result with
      rowCount := s.result.rowCount + 1
      markerCount := if row.isData then s.result.markerCount else s.result.markerCount + 1 }
    previousRowHash := rowChainStep H row.streamSequence s.previousRowHash canonical
    rows := s.rows ++ [row] }

def emit (s : State) (row : ReplayRow) : Except String State := do
  let canonical ← row.canonicalBytes H
  let streamSequence := row.streamSequence
  let want := s.result.rowCount
  reject (streamSequence ≠ want) s!"emitted row stream sequence {streamSequence}, want {want}"
  sink s.rows row
  return s.push H row canonical

/-- The marker `startSegment` emits, under the segment id it has derived. -/
def segmentMarker (s : State) (code : MarkerCode) (reason : MarkerReason) (detail : Bytes)
    (batch : VerifiedBatch) (gatewaySequence : UInt64) (recordOrdinal : UInt32) (segmentID : Bytes) :
    ReplayMarkerRow where
  scope := reader.replayScope
  streamSequence := s.result.rowCount
  continuitySegmentID := segmentID
  rawObjectKey := batch.objectKey
  rawObjectSHA256 := batch.objectSHA256
  markerCode := code
  reason := reason
  detail := detail
  referenceGatewayIngestSequence := gatewaySequence
  referenceRecordOrdinal := recordOrdinal
  predecessorRowChainHash := s.previousRowHash
  continuitySegmentStartHash := s.previousRowHash

def State.enter (s : State) (segmentID : Bytes) : State :=
  { s with
    result := { s.result with
      segmentCount := s.result.segmentCount + 1
      lastSegmentID := segmentID }
    currentSegmentID := segmentID
    tail := []
    previousOccurrence := none }

def startSegment (code : MarkerCode) (reason : MarkerReason) (detail : Bytes) (batch : VerifiedBatch)
    (reference : Option FingerprintOccurrence) (s : State) : Except String State := do
  let gatewaySequence := (reference.map (·.gatewaySequence)).getD batch.gatewayIngestSequence
  let recordOrdinal := (reference.map (·.recordOrdinal)).getD 0
  let segmentID ← segmentID H reader.replayScope gatewaySequence recordOrdinal code s.previousRowHash
  let next ← emit H sink s (.marker
    (segmentMarker reader s code reason detail batch gatewaySequence recordOrdinal segmentID))
  return next.enter segmentID

def makeDataRow (scope : ReplayScope) (segmentID : Bytes) (occurrence : FingerprintOccurrence)
    (streamSequence : UInt64) : ReplayDataRow where
  scope := scope
  streamSequence := streamSequence
  continuitySegmentID := segmentID
  rawObjectKey := occurrence.rawKey
  rawObjectSHA256 := occurrence.rawHash
  gatewayIngestSequence := occurrence.gatewaySequence
  producerInstanceID := occurrence.producerInstanceID
  producerSessionID := occurrence.batch.producerSessionID
  batchSequence := occurrence.batch.batchSequence
  recordOrdinal := occurrence.recordOrdinal
  captureSequence := occurrence.record.captureSequence
  record := occurrence.record
  sourcePayloadFingerprint := occurrence.fingerprint
  observationHash := observationHash H occurrence.producerInstanceID occurrence.batch.producerSessionID
    occurrence.batch.batchSequence occurrence.recordOrdinal occurrence.record.captureSequence
    occurrence.fingerprint
  fetchWallStartS := occurrence.batch.fetchWallStartS
  fetchWallEndS := occurrence.batch.fetchWallEndS
  fetchMonotonicStartUS := occurrence.batch.fetchMonotonicStartUS
  fetchMonotonicEndUS := occurrence.batch.fetchMonotonicEndUS
  copyTicksError := occurrence.batch.copyTicksError
  sourceStatusFlags := occurrence.batch.sourceStatusFlags

/-- The tail with one more occurrence, cut to the record limit. -/
def extendTail (maxRecords : Nat) (tail : List FingerprintOccurrence) (occurrence : FingerprintOccurrence) :
    List FingerprintOccurrence :=
  let longer := tail ++ [occurrence]
  if longer.length > maxRecords then longer.drop (longer.length - maxRecords) else longer

def emitOccurrence (s : State) (occurrence : FingerprintOccurrence) : Except String State := do
  let row := makeDataRow H reader.replayScope s.currentSegmentID occurrence s.result.rowCount
  let next ← emit H sink s (.data row)
  return { next with
    tail := extendTail reader.maxRecords.toNat next.tail occurrence
    previousOccurrence := some occurrence }

/-! ## One batch -/

/-- The checks of a batch against the reader's contract. -/
def checkBatch (batch : VerifiedBatch) (source : BatchFrameV1) : Except String Unit := do
  let sequence := batch.gatewayIngestSequence
  let identity := reader.producerIdentity
  reject (source.records.length > reader.maxRecords.toNat)
    s!"WAL sequence {sequence} exceeds verified max records"
  reject (source.sourceSchemaID ≠ sourceSchemaMT5) s!"WAL sequence {sequence} has unsupported source schema"
  reject (source.producerSessionID = []) s!"WAL sequence {sequence} has no producer session identity"
  reject (source.sessionLeaseID ≠ deriveSessionLeaseID H identity.producerInstanceID
      source.producerSessionID identity.providerID identity.stableFeedID
      identity.brokerServerFingerprint identity.exactSourceSymbol)
    s!"WAL sequence {sequence} session lease does not match verified producer identity"
  reject (batch.selectedRecordOrdinals = []) s!"verified WAL sequence {sequence} has no manifest selection"

/-- The segment that the position of a batch in its session starts. -/
def openSegment (batch : VerifiedBatch) (source : BatchFrameV1) (s : State) : Except String State :=
  if s.haveBatchSequence = false then
    startSegment H reader sink .segmentStart .initial (ascii "first accepted source occurrence") batch none s
  else if source.producerSessionID = s.previousSession ∧
      source.batchSequence ≠ s.previousBatchSequence + 1 then
    startSegment H reader sink .gap .walSequenceGap (ascii "producer batch sequence gap") batch
      s.previousOccurrence s
  else .ok s

/-- The position of the producer that a batch leaves. -/
def State.note (s : State) (source : BatchFrameV1) : State :=
  { s with
    previousSession := source.producerSessionID
    previousBatchSequence := source.batchSequence
    haveBatchSequence := true }

def openBatch (batch : VerifiedBatch) (source : BatchFrameV1) (s : State) : Except String State := do
  let next ← openSegment H reader sink batch source s
  return next.note source

def makeOccurrence (batch : VerifiedBatch) (source : BatchFrameV1) (ordinal : UInt32)
    (record : RawMqlTickV1) : FingerprintOccurrence where
  fingerprint := sourcePayloadFingerprint H record
  timeMSC := record.timeMSC
  gatewaySequence := batch.gatewayIngestSequence
  recordOrdinal := ordinal
  record := record
  batch := source
  rawKey := batch.objectKey
  rawHash := batch.objectSHA256
  producerInstanceID := reader.producerIdentity.producerInstanceID

/-- Ordinal 0 of a batch without records is the sentinel that selects the batch and no record. -/
def selectOccurrences (batch : VerifiedBatch) (source : BatchFrameV1) :
    List UInt32 → Except String (List FingerprintOccurrence)
  | [] => .ok []
  | ordinal :: ordinals =>
    match source.records[ordinal.toNat]? with
    | some record => do
      let rest ← selectOccurrences batch source ordinals
      return makeOccurrence H reader batch source ordinal record :: rest
    | none =>
      if source.records.length = 0 ∧ ordinal = 0 then selectOccurrences batch source ordinals
      else
        let sequence := batch.gatewayIngestSequence
        .error s!"manifest selected ordinal {ordinal} outside WAL sequence {sequence}"

/-- Whether the first occurrence of a batch lies before the last one emitted in the segment. -/
def regresses (s : State) (occurrences : List FingerprintOccurrence) : Bool :=
  s.previousOccurrence.any fun previous => occurrences.head?.any fun first => first.timeMSC < previous.timeMSC

/-- The tail occurrence that the batch changes, if the segment has an occurrence of this producer. -/
def changedReference (s : State) (occurrences : List FingerprintOccurrence) : Option FingerprintOccurrence :=
  if s.previousOccurrence.any fun previous =>
      previous.producerInstanceID = reader.producerIdentity.producerInstanceID then
    uniqueHistoryChange s.tail occurrences
  else none

def checkRegression (batch : VerifiedBatch) (occurrences : List FingerprintOccurrence) (s : State) :
    Except String State :=
  if regresses s occurrences then
    startSegment H reader sink .timestampRegression .timeMSCRegression
      (ascii "source time_msc moved backwards") batch s.previousOccurrence s
  else .ok s

/-- The overlap of a batch with the current segment, after the segments it starts. -/
def alignBatch (batch : VerifiedBatch) (occurrences : List FingerprintOccurrence) (s : State) :
    Except String (Nat × State) := do
  let s ← checkRegression H reader sink batch occurrences s
  match changedReference reader s occurrences with
  | some reference => do
    let next ← startSegment H reader sink .sourceHistoryChanged .samePositionChanged
      (ascii "one changed payload has exact surrounding fingerprint evidence") batch (some reference) s
    return (0, next)
  | none =>
    let overlap := (overlapLength s.tail occurrences).1
    let ambiguous := (overlapLength s.tail occurrences).2
    if ambiguous ∨ overlap = 0 ∧ s.tail.length > 0 then do
      let detail := if ambiguous then "longest suffix/prefix candidate has multiple positions"
        else "no uniquely provable suffix/prefix overlap"
      let next ← startSegment H reader sink .ambiguousOverlap .noUniqueOverlap (ascii detail) batch
        s.previousOccurrence s
      return (0, next)
    else return (overlap, s)

def copyErrorDetail (err : Int32) : Bytes := ascii "copy_ticks_error=" ++ ascii (toString err)

/-- The rows of a decoded batch. -/
def placeBatch (batch : VerifiedBatch) (source : BatchFrameV1) (s : State) : Except String State := do
  let s ← openBatch H reader sink batch source s
  let occurrences ← selectOccurrences H reader batch source batch.selectedRecordOrdinals
  if source.copyTicksError ≠ 0 then
    startSegment H reader sink .sourceError .sourceReportedError (copyErrorDetail source.copyTicksError)
      batch s.previousOccurrence s
  else if occurrences.length = 0 then .ok s
  else
    let placed ← alignBatch H reader sink batch occurrences s
    (occurrences.drop placed.1).foldlM (emitOccurrence H reader sink) placed.2

def reduceBatch (s : State) (batch : VerifiedBatch) : Except String State := do
  let sequence := batch.gatewayIngestSequence
  let source ← (decodeBatch H batch.frame).mapError fun err => s!"verified WAL sequence {sequence}: {err}"
  checkBatch H reader batch source
  placeBatch H reader sink batch source s

/-- `Reduce`, with the rows it has handed to the sink. -/
def reduce : Except String (Result × List ReplayRow) := do
  let identity := reader.producerIdentity
  let maxRecords := reader.maxRecords
  (reader.replayScope.validate).mapError fun err => s!"replay scope: {err}"
  reject (identity.producerInstanceID = [] ∨ identity.providerID = [] ∨ identity.stableFeedID = [] ∨
      identity.brokerServerFingerprint = [] ∨ identity.exactSourceSymbol = [])
    "verified producer identity is incomplete"
  reject (maxRecords = 0 ∨ maxRecords > Protocol.maxRecords) s!"verified max records is invalid: {maxRecords}"
  let s ← reader.batches.foldlM (reduceBatch H reader sink) State.initial
  reader.ending
  return ({ s.result with
    rowChainRoot := s.previousRowHash
    tailSize := UInt32.ofNat s.tail.length }, s.rows)

end

end TickPlatform.Continuity
