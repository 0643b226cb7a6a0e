import TickPlatform.Archive.Manifest

/-!
# What a manifest selects

The coordinates of one UTC day in a list of sealed segments, and the two checks that compare a manifest with
segments: for one segment (`VerifyRawDaySegmentCoverage`) and for the whole day (`VerifyRawDaySnapshotSegments`).
-/

namespace TickPlatform.Archive

open Bytes Protocol Replay Wal

inductive ArchiveError
  /-- `ErrIntegrity`. -/
  | integrity (text : String)
  | other (text : String)
deriving DecidableEq, Repr

/-! ## Dates -/

/-- Year, month and day of a day number, 0 being 1970-01-01. -/
def civilFromDays (days : Int) : Int × Nat × Nat :=
  let shifted := days + 719468
  let era := shifted.fdiv 146097
  let dayOfEra := (shifted - era * 146097).toNat
  let yearOfEra := (dayOfEra - dayOfEra / 1460 + dayOfEra / 36524 - dayOfEra / 146096) / 365
  let dayOfYear := dayOfEra - (365 * yearOfEra + yearOfEra / 4 - yearOfEra / 100)
  let shiftedMonth := (5 * dayOfYear + 2) / 153
  let day := dayOfYear - (153 * shiftedMonth + 2) / 5 + 1
  let month := if shiftedMonth < 10 then shiftedMonth + 3 else shiftedMonth - 9
  (yearOfEra + era * 400 + (if month ≤ 2 then 1 else 0), month, day)

def padded (width n : Nat) : Bytes :=
  let digits := utf8 (toString n)
  List.replicate (width - digits.length) 48 ++ digits

/-- `time.UnixMilli(milliseconds).UTC().Format("2006-01-02")`. -/
def utcDate (milliseconds : Int64) : Bytes :=
  let (year, month, day) := civilFromDays (milliseconds.toInt.fdiv 86400000)
  (if year < 0 then [45] else []) ++ padded 4 year.natAbs ++ [45] ++ padded 2 month ++ [45] ++ padded 2 day

example : utcDate 0 = utf8 "1970-01-01" ∧ utcDate 951782400000 = utf8 "2000-02-29" ∧ utcDate (-1) = utf8 "1969-12-31" := by
  decide

/-! ## Selection -/

structure RawObject where
  key : Bytes
  sha256 : Digest
  bytes : Nat
  segment : VerifiedSegment
deriving DecidableEq

structure DaySelection where
  objects : List RawObjectRange
  acceptedRecordCount : UInt64
  errorCount : UInt64
  observedThroughSourceMSC : Int64
  observedThroughCaptureSeq : UInt64
  chainSliceStartSequence : UInt64
  chainSliceStartRoot : Digest
  chainSliceEndSequence : UInt64
  chainSliceEndRoot : Digest
  hasSourceWatermark : Bool
deriving DecidableEq

def emptySelection : DaySelection where
  objects := []
  acceptedRecordCount := 0
  errorCount := 0
  observedThroughSourceMSC := 0
  observedThroughCaptureSeq := 0
  chainSliceStartSequence := 0
  chainSliceStartRoot := Digest.zero
  chainSliceEndSequence := 0
  chainSliceEndRoot := Digest.zero
  hasSourceWatermark := false

/-- The ordinals of a batch that lie on a date; a batch without records counts as its ordinal 0. -/
def selectedOrdinals (date : Bytes) (batch : BatchFrameV1) : List UInt32 :=
  if batch.records = [] then (if utcDate batch.requestedFromMSC = date then [0] else [])
  else (batch.records.zipIdx.filter fun record => utcDate record.1.timeMSC = date).map fun record => UInt32.ofNat record.2

def observeRecord (selection : DaySelection) (record : RawMqlTickV1) : DaySelection :=
  { selection with
    acceptedRecordCount := selection.acceptedRecordCount + 1
    observedThroughSourceMSC :=
      if !selection.hasSourceWatermark ∨ record.timeMSC > selection.observedThroughSourceMSC then record.timeMSC
      else selection.observedThroughSourceMSC
    hasSourceWatermark := true
    observedThroughCaptureSeq :=
      if record.captureSequence > selection.observedThroughCaptureSeq then record.captureSequence
      else selection.observedThroughCaptureSeq }

/-- The runs of adjacent ordinals. -/
def ordinalRuns : List UInt32 → List (UInt32 × UInt32)
  | [] => []
  | ordinal :: rest =>
    match ordinalRuns rest with
    | [] => [(ordinal, ordinal)]
    | (first, last) :: runs =>
      if first = ordinal + 1 then (ordinal, last) :: runs else (ordinal, ordinal) :: (first, last) :: runs

def runRange (object : RawObject) (sequence : UInt64) (run : UInt32 × UInt32) : RawObjectRange where
  key := object.key
  sha256 := object.sha256
  bytes := UInt64.ofNat object.bytes
  startIngestSequence := sequence
  endIngestSequence := sequence
  firstRecordOrdinal := run.1
  lastRecordOrdinal := run.2

def batchText : BatchError → String
  | .notBatch => "WAL entry is not BatchFrameV1"
  | _ => "decode WAL entry"

/-- A batch with at least one selected ordinal extends the chain slice. -/
def addBatch (object : RawObject) (entry : Entry) (batch : BatchFrameV1) (ordinals : List UInt32)
    (selection : DaySelection) : DaySelection :=
  { selection with
    chainSliceStartSequence :=
      if selection.chainSliceStartSequence = 0 then entry.sequence else selection.chainSliceStartSequence
    chainSliceStartRoot :=
      if selection.chainSliceStartSequence = 0 then entry.previousEntryHash else selection.chainSliceStartRoot
    chainSliceEndSequence := entry.sequence
    chainSliceEndRoot := entry.entryHash
    errorCount := if batch.copyTicksError ≠ 0 then selection.errorCount + 1 else selection.errorCount
    objects := selection.objects ++ (ordinalRuns ordinals).map (runRange object entry.sequence) }

def selectEntry (H : Hashes) (date : Bytes) (startSequence endSequence : UInt64) (maxRecords : UInt32)
    (object : RawObject) (selection : DaySelection) (entry : Entry) : Except String DaySelection :=
  if startSequence ≠ 0 ∧ (entry.sequence < startSequence ∨ entry.sequence > endSequence) then .ok selection
  else do
    let batch ← (decodeBatchFrame H entry.frame).mapError batchText
    reject (batch.records.length > maxRecords.toNat) "WAL entry exceeds configured record limit"
    let observed := (batch.records.filter fun record => utcDate record.timeMSC = date).foldl observeRecord selection
    if selectedOrdinals date batch = [] then return observed
    else return addBatch object entry batch (selectedOrdinals date batch) observed

def selectObject (H : Hashes) (date : Bytes) (startSequence endSequence : UInt64) (maxRecords : UInt32)
    (selection : DaySelection) (object : RawObject) : Except String DaySelection :=
  object.segment.entries.foldlM (selectEntry H date startSequence endSequence maxRecords object) selection

/-- A start sequence of 0 selects from all entries. -/
def deriveDaySelection (H : Hashes) (objects : List RawObject) (date : Bytes) (startSequence endSequence : UInt64)
    (maxRecords : UInt32) : Except String DaySelection :=
  objects.foldlM (selectObject H date startSequence endSequence maxRecords) emptySelection

def chainObject (object : RawObject) : RawChainObject where
  key := object.key
  sha256 := object.sha256
  bytes := UInt64.ofNat object.bytes
  startIngestSequence := object.segment.startSequence
  endIngestSequence := object.segment.lastSequence

def chainObjectsForSlice (objects : List RawObject) (startSequence endSequence : UInt64) : List RawChainObject :=
  if startSequence = 0 ∨ endSequence = 0 then []
  else (objects.filter fun object =>
    !(object.segment.lastSequence < startSequence ∨ object.segment.startSequence > endSequence)).map chainObject

/-! ## Verification -/

def manifestInScope (m : RawDayManifest) (scope : ScopeConfig) (configHash : Digest) : Bool :=
  m.datasetID = scope.datasetID ∧ m.dayDefinitionID = scope.dayDefinitionID ∧ m.publisherID = scope.publisherID ∧
    m.publisherEpoch = scope.publisherEpoch ∧ m.settlePolicy = scope.settlePolicy ∧ m.configHash = configHash

/-- What both checks begin with: a valid manifest of the scope, with its digest. They differ in two texts. -/
def verifyManifestScope (H : Hashes) (m : RawDayManifest) (scope : ScopeConfig) (hashText digestText : String) :
    Except ArchiveError (ScopeConfig × Digest) := do
  let normalized ← scope.normalized.mapError fun err => .integrity s!"scope config is invalid: {err}"
  (validateRawDayManifest H m).mapError fun err => .integrity s!"manifest is invalid: {err}"
  let configHash ← (normalized.configHash H).mapError fun err => .integrity s!"{hashText}: {err}"
  reject (!manifestInScope m normalized configHash) (.integrity "manifest scope does not match verification scope")
  let digest ← (manifestDigest H m).mapError fun err => .integrity s!"{digestText}: {err}"
  reject (m.manifestSHA256 ≠ Digest.zero ∧ m.manifestSHA256 ≠ digest)
    (.integrity "manifest digest does not match canonical bytes")
  return (normalized, digest)

structure RawDaySegmentCoverage where
  manifestSHA256 : Digest
  date : Bytes
  objectKey : Bytes
  objectSHA256 : Digest
  objectBytes : UInt64
  selectedRanges : List RawObjectRange
  acceptedRecordCount : UInt64
  errorCount : UInt64
  chainSliceStartSequence : UInt64
  chainSliceStartRoot : Digest
  chainSliceEndSequence : UInt64
  chainSliceEndRoot : Digest
deriving DecidableEq

def describes (descriptor : RawChainObject) (key : Bytes) (sha256 : Digest) (bytes start last : UInt64) : Bool :=
  descriptor.key = key ∧ descriptor.sha256 = sha256 ∧ descriptor.bytes = bytes ∧
    descriptor.startIngestSequence = start ∧ descriptor.endIngestSequence = last

def verifyRawDaySegmentCoverage (H : Hashes) (m : RawDayManifest) (segment : VerifiedSegment) (objectKey : Bytes)
    (objectSHA : Digest) (objectBytes : UInt64) (scope : ScopeConfig) : Except ArchiveError RawDaySegmentCoverage := do
  let (normalized, digest) ← verifyManifestScope H m scope "scope config hash" "manifest digest"
  reject (objectKey ≠ rawWALObjectKey objectSHA ∨ objectBytes = 0 ∨ segment.objectSHA256 ≠ objectSHA ∨
      UInt64.ofNat segment.fileBytes ≠ objectBytes ∨ segment.startSequence = 0 ∨
      segment.lastSequence < segment.startSequence)
    (.integrity "verified segment identity does not match raw object")
  reject (!(m.chainObjects.any fun descriptor =>
      describes descriptor objectKey objectSHA objectBytes segment.startSequence segment.lastSequence))
    (.integrity "raw object is absent from manifest chain")
  let selection ← (deriveDaySelection H [⟨objectKey, objectSHA, objectBytes.toNat, segment⟩] m.date 0 0
    normalized.protocolLimits.maxRecords).mapError fun err => .integrity s!"derive raw-day selection: {err}"
  let actual := m.objects.filter fun range =>
    range.key = objectKey ∧ range.sha256 = objectSHA ∧ range.bytes = objectBytes
  reject (actual.length ≠ selection.objects.length)
    (.integrity "manifest selected range count differs from verified segment")
  reject (actual ≠ selection.objects) (.integrity "manifest selected range differs from verified segment")
  return { manifestSHA256 := digest, date := m.date, objectKey, objectSHA256 := objectSHA, objectBytes,
           selectedRanges := selection.objects, acceptedRecordCount := selection.acceptedRecordCount,
           errorCount := selection.errorCount, chainSliceStartSequence := selection.chainSliceStartSequence,
           chainSliceStartRoot := selection.chainSliceStartRoot,
           chainSliceEndSequence := selection.chainSliceEndSequence, chainSliceEndRoot := selection.chainSliceEndRoot }

structure RawDaySnapshotReport where
  manifestSHA256 : Digest
  objectCount : UInt64
  acceptedRecordCount : UInt64
  errorCount : UInt64
  observedThroughSourceMSC : Int64
  observedThroughCapture : UInt64
  chainSliceStartSequence : UInt64
  chainSliceStartRoot : Digest
  chainSliceEndSequence : UInt64
  chainSliceEndRoot : Digest
deriving DecidableEq

def addSupplied (known : List RawObject) (object : RawObject) : Except ArchiveError (List RawObject) := do
  reject (object.key = [] ∨ object.bytes = 0 ∨ object.segment.objectSHA256 ≠ object.sha256 ∨
      object.segment.fileBytes ≠ object.bytes)
    (.integrity "supplied raw object is not verified")
  reject (known.any fun prior => prior.key = object.key) (.integrity "supplied raw object is duplicated")
  return known ++ [object]

/-- The verified objects so far, the last of them first. -/
def addVerified (supplied : List RawObject) (verified : List RawObject) (descriptor : RawChainObject) :
    Except ArchiveError (List RawObject) := do
  let object ← (supplied.find? fun object => object.key = descriptor.key).elim
    (.error (.integrity "chain object metadata does not match verified bytes")) .ok
  reject (object.sha256 ≠ descriptor.sha256 ∨ UInt64.ofNat object.bytes ≠ descriptor.bytes ∨
      object.segment.startSequence ≠ descriptor.startIngestSequence ∨
      object.segment.lastSequence ≠ descriptor.endIngestSequence)
    (.integrity "chain object metadata does not match verified bytes")
  reject (verified.head?.any fun previous => previous.segment.lastSequence = maxUint64 ∨
      object.segment.startSequence ≠ previous.segment.lastSequence + 1 ∨
      object.segment.chainStart ≠ previous.segment.chainRoot)
    (.integrity "chain object sequence or hash continuity failed")
  return object :: verified

/-- The entries of one object that lie in the chain slice. -/
def sliceEntries (m : RawDayManifest) (object : RawObject) : List Entry :=
  (object.segment.entries.takeWhile fun entry => entry.sequence ≤ m.chainSliceEndSequence).filter fun entry =>
    m.chainSliceStartSequence ≤ entry.sequence

/-- Follows the entries up to the end of the slice, and says whether it was reached. -/
def walkSlice (endSequence : UInt64) : UInt64 → Digest → List Entry → Except ArchiveError (Bool × Digest)
  | _, previous, [] => .ok (false, previous)
  | expected, previous, entry :: rest => do
    reject (entry.sequence ≠ expected ∨ entry.previousEntryHash ≠ previous)
      (.integrity "selected WAL entry chain is discontinuous")
    if entry.sequence = endSequence then return (true, entry.entryHash)
    else walkSlice endSequence (expected + 1) entry.entryHash rest

def selectionMatches (selection : DaySelection) (m : RawDayManifest) : Bool :=
  selection.objects = m.objects ∧ selection.acceptedRecordCount = m.acceptedRecordCount ∧
    selection.errorCount = m.errorCount ∧ selection.observedThroughSourceMSC = m.observedThroughSourceMSC ∧
    selection.observedThroughCaptureSeq = m.observedThroughCaptureSeq ∧
    selection.chainSliceStartSequence = m.chainSliceStartSequence ∧
    selection.chainSliceStartRoot = m.chainSliceStartRoot ∧
    selection.chainSliceEndSequence = m.chainSliceEndSequence ∧ selection.chainSliceEndRoot = m.chainSliceEndRoot

def verifyRawDaySnapshotSegments (H : Hashes) (m : RawDayManifest) (objects : List RawObject) (scope : ScopeConfig) :
    Except ArchiveError RawDaySnapshotReport := do
  let (normalized, digest) ← verifyManifestScope H m scope "scope config hash cannot be computed"
    "manifest digest cannot be computed"
  if m.chainObjects = [] then do
    reject (objects ≠ []) (.integrity "objects exist for an empty manifest chain")
    return { manifestSHA256 := digest, objectCount := 0, acceptedRecordCount := 0, errorCount := 0,
             observedThroughSourceMSC := 0, observedThroughCapture := 0, chainSliceStartSequence := 0,
             chainSliceStartRoot := Digest.zero, chainSliceEndSequence := 0, chainSliceEndRoot := Digest.zero }
  else do
    let supplied ← objects.foldlM addSupplied []
    reject (supplied.length ≠ m.chainObjects.length)
      (.integrity "supplied raw object count differs from manifest chain")
    let reversed ← m.chainObjects.foldlM (addVerified supplied) []
    let verified := reversed.reverse
    let (reached, root) ← walkSlice m.chainSliceEndSequence m.chainSliceStartSequence m.chainSliceStartRoot
      (verified.flatMap (sliceEntries m))
    reject (!reached ∨ root ≠ m.chainSliceEndRoot)
      (.integrity "selected WAL entry chain does not match manifest roots")
    let selection ← (deriveDaySelection H verified m.date m.chainSliceStartSequence m.chainSliceEndSequence
      normalized.protocolLimits.maxRecords).mapError fun err => .integrity s!"could not rederive selected ranges: {err}"
    reject (!selectionMatches selection m) (.integrity "manifest selection or watermark does not match WAL bytes")
    reject (chainObjectsForSlice verified m.chainSliceStartSequence m.chainSliceEndSequence ≠ m.chainObjects)
      (.integrity "chain_objects does not match WAL bytes")
    return { manifestSHA256 := digest, objectCount := UInt64.ofNat verified.length,
             acceptedRecordCount := selection.acceptedRecordCount, errorCount := selection.errorCount,
             observedThroughSourceMSC := selection.observedThroughSourceMSC,
             observedThroughCapture := selection.observedThroughCaptureSeq,
             chainSliceStartSequence := selection.chainSliceStartSequence,
             chainSliceStartRoot := selection.chainSliceStartRoot,
             chainSliceEndSequence := selection.chainSliceEndSequence, chainSliceEndRoot := selection.chainSliceEndRoot }

end TickPlatform.Archive
