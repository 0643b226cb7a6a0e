import TickPlatform.Archive.Local
import TickPlatform.Continuity.Reducer

/-!
# The replay source of a day

`OpenVerifiedReplaySource` verifies a manifest with the files of its chain and gives a reader of the batches that the
manifest selects. A range of the manifest may span several entries; verification runs on a copy with one range for
each entry.
-/

namespace TickPlatform.Archive

open Bytes Protocol Replay Wal Continuity

structure ReplayResourceLimits where
  maxChainObjects : UInt64
  maxObjectBytes : UInt64
  maxChainBytes : UInt64
deriving DecidableEq

structure ReplaySourceInput where
  scope : ScopeConfig
  producerInstanceID : Bytes
  manifestRelativeKey : Bytes
  manifestBytes : Bytes
  objectPaths : ObjectPaths
  replayContractID : Bytes
  conversionID : Bytes
  resourceLimits : ReplayResourceLimits

/-! ## Limits -/

def ReplayResourceLimits.validate (limits : ReplayResourceLimits) : Except ArchiveError Unit :=
  reject (limits.maxChainObjects = 0 ∨ limits.maxObjectBytes = 0 ∨ limits.maxChainBytes = 0)
    (.integrity "replay resource limits must be nonzero")

/-- The bytes of the descriptors so far. -/
def addDescriptorBytes (limits : ReplayResourceLimits) (totalBytes : UInt64) (descriptor : RawChainObject) :
    Except ArchiveError UInt64 := do
  reject (descriptor.bytes > limits.maxObjectBytes) (.integrity "chain object exceeds max object bytes")
  reject (descriptor.bytes > limits.maxChainBytes - totalBytes) (.integrity "chain object bytes exceed max chain bytes")
  return totalBytes + descriptor.bytes

def validateReplayResourceLimits (m : RawDayManifest) (limits : ReplayResourceLimits) : Except ArchiveError Unit := do
  limits.validate
  reject (UInt64.ofNat m.chainObjects.length > limits.maxChainObjects)
    (.integrity "chain object count exceeds replay resource limit")
  let _ ← m.chainObjects.foldlM (addDescriptorBytes limits) 0

/-- The size of a file that is within the limits. -/
def checkReplayObjectPath (disk : Disk) (path : String) (limits : ReplayResourceLimits) (loadedBytes : UInt64) :
    Except ArchiveError UInt64 := do
  let data ← (disk path).elim (.error (.integrity "stat sealed WAL")) .ok
  let bytes := UInt64.ofNat data.length
  reject (bytes > limits.maxObjectBytes) (.integrity "sealed WAL exceeds max object bytes")
  reject (bytes > limits.maxChainBytes - loadedBytes) (.integrity "sealed WAL bytes exceed max chain bytes")
  return bytes

/-! ## The files of the chain -/

/-- The bytes loaded so far, and the objects, the last of them first. -/
structure Loaded where
  bytes : UInt64
  objects : List RawObject

def nothingLoaded : Loaded := ⟨0, []⟩

/-- What both loops over the chain do with a file. They look for duplicates at different times. -/
def loadObject (H : Hashes) (disk : Disk) (paths : ObjectPaths) (limits : ReplayResourceLimits) (loaded : Loaded)
    (descriptor : RawChainObject) : Except ArchiveError Loaded := do
  let path ← localPath paths descriptor.key
  let fileBytes ← (checkReplayObjectPath disk path limits loaded.bytes).mapError fun _ =>
    .integrity "chain object resource limit"
  let segment ← (verifySealedSegment H disk path).mapError fun _ =>
    .integrity "chain object failed sealed verification"
  reject (!describesSegment descriptor segment) (.integrity "chain object metadata does not match verified bytes")
  return ⟨loaded.bytes + fileBytes, objectOf descriptor.key segment :: loaded.objects⟩

def rejectDuplicate (loaded : Loaded) (descriptor : RawChainObject) : Except ArchiveError Unit :=
  reject (loaded.objects.any fun prior => prior.key = descriptor.key) (.integrity "chain object is duplicated")

/-- A round of the loop in `expandManifestRangesForVerification`. -/
def loadThenCompare (H : Hashes) (disk : Disk) (paths : ObjectPaths) (limits : ReplayResourceLimits) (loaded : Loaded)
    (descriptor : RawChainObject) : Except ArchiveError Loaded := do
  let next ← loadObject H disk paths limits loaded descriptor
  rejectDuplicate loaded descriptor
  return next

/-- A round of the loop in `loadReplayRawObjects`. -/
def compareThenLoad (H : Hashes) (disk : Disk) (paths : ObjectPaths) (limits : ReplayResourceLimits) (loaded : Loaded)
    (descriptor : RawChainObject) : Except ArchiveError Loaded := do
  rejectDuplicate loaded descriptor
  loadObject H disk paths limits loaded descriptor

def loadReplayRawObjects (H : Hashes) (disk : Disk) (m : RawDayManifest) (paths : ObjectPaths)
    (limits : ReplayResourceLimits) : Except ArchiveError (List RawObject) := do
  let loaded ← m.chainObjects.foldlM (compareThenLoad H disk paths limits) nothingLoaded
  return loaded.objects.reverse

def addFileBytes (disk : Disk) (paths : ObjectPaths) (limits : ReplayResourceLimits) (loadedBytes : UInt64)
    (descriptor : RawChainObject) : Except ArchiveError UInt64 := do
  let path ← localPath paths descriptor.key
  let fileBytes ← (checkReplayObjectPath disk path limits loadedBytes).mapError fun _ =>
    .integrity "chain object resource limit"
  return loadedBytes + fileBytes

def preflightReplayObjectFiles (disk : Disk) (m : RawDayManifest) (paths : ObjectPaths) (limits : ReplayResourceLimits) :
    Except ArchiveError Unit := do
  validateReplayResourceLimits m limits
  let _ ← m.chainObjects.foldlM (addFileBytes disk paths limits) 0

/-! ## Ordinals -/

structure RecordOrdinalRange where
  first : UInt32
  last : UInt32
  throughEnd : Bool
deriving DecidableEq

/-- `decodeBatchFrame` of this package: a frame is read only if its batch is written as these bytes. -/
def decodeCanonicalBatchFrame (H : Hashes) (frame : Bytes) : Except String BatchFrameV1 := decodeBatch H frame

def appendUniqueOrdinal (ordinals : List UInt32) (ordinal : UInt32) : List UInt32 :=
  if ordinal ∈ ordinals then ordinals else ordinals ++ [ordinal]

/-- `first`, …, `last`. -/
def ordinalSpan (first last : UInt32) : List UInt32 :=
  (List.range' first.toNat (last.toNat + 1 - first.toNat)).map UInt32.ofNat

/-- Ordinals that are not all below the count. -/
def outsideRecords (batch : BatchFrameV1) (first last : UInt32) : Prop :=
  first > last ∨ first ≥ UInt32.ofNat batch.records.length ∨ last ≥ UInt32.ofNat batch.records.length

instance (batch : BatchFrameV1) (first last : UInt32) : Decidable (outsideRecords batch first last) :=
  inferInstanceAs (Decidable (first > last ∨ first ≥ UInt32.ofNat batch.records.length ∨
    last ≥ UInt32.ofNat batch.records.length))

def addOrdinalRange (batch : BatchFrameV1) (ordinals : List UInt32) (selected : RecordOrdinalRange) :
    Except String (List UInt32) :=
  if batch.records = [] then
    if !selected.throughEnd ∧ selected.first = 0 ∧ selected.last = 0 then return appendUniqueOrdinal ordinals 0
    else .error "range selects records from a zero-record BatchFrameV1"
  else do
    let last := if selected.throughEnd then UInt32.ofNat (batch.records.length - 1) else selected.last
    reject (outsideRecords batch selected.first last) "ordinal range is outside record count"
    return (ordinalSpan selected.first last).foldl appendUniqueOrdinal ordinals

def selectRecordOrdinals (H : Hashes) (frame : Bytes) (ranges : List RecordOrdinalRange) :
    Except String (List UInt32) := do
  let batch ← decodeCanonicalBatchFrame H frame
  ranges.foldlM (addOrdinalRange batch) []

/-! ## One range for each entry -/

/-- The sequences of a range. A validated range does not run backwards. -/
def RawObjectRange.sequences (range : RawObjectRange) : List UInt64 :=
  (List.range' range.startIngestSequence.toNat
    (range.endIngestSequence.toNat + 1 - range.startIngestSequence.toNat)).map UInt64.ofNat

/-- The part of a range that lies in one entry. -/
def RawObjectRange.part (range : RawObjectRange) (sequence : UInt64) (first last : UInt32) : RawObjectRange :=
  { range with startIngestSequence := sequence, endIngestSequence := sequence,
               firstRecordOrdinal := first, lastRecordOrdinal := last }

/-- The sequences of a verified segment differ, so it does not matter that a later entry would replace an earlier. -/
def expandSequence (H : Hashes) (date : Bytes) (object : RawObject) (range : RawObjectRange) (sequence : UInt64) :
    Except ArchiveError RawObjectRange := do
  let entry ← (object.segment.entries.find? fun entry => entry.sequence = sequence).elim
    (.error (.integrity "selected sequence is absent from object")) .ok
  let batch ← (decodeCanonicalBatchFrame H entry.frame).mapError fun err =>
    .integrity s!"selected sequence is malformed: {err}"
  if range.startIngestSequence = range.endIngestSequence then return range
  else if batch.records = [] then do
    reject (utcDate batch.requestedFromMSC ≠ date) (.integrity "zero-record sentinel sequence is outside selected UTC day")
    reject ((sequence = range.startIngestSequence ∧ range.firstRecordOrdinal ≠ 0) ∨
        (sequence = range.endIngestSequence ∧ range.lastRecordOrdinal ≠ 0))
      (.integrity "zero-record sentinel sequence must select ordinal zero")
    return range.part sequence 0 0
  else do
    let first := if sequence = range.startIngestSequence then range.firstRecordOrdinal else 0
    let last := if sequence = range.endIngestSequence then range.lastRecordOrdinal
      else UInt32.ofNat (batch.records.length - 1)
    reject (outsideRecords batch first last) (.integrity "range is outside sequence record count")
    return range.part sequence first last

def expandRange (H : Hashes) (date : Bytes) (objects : List RawObject) (range : RawObjectRange) :
    Except ArchiveError (List RawObjectRange) := do
  let object ← (objects.find? fun object => object.key = range.key).elim
    (.error (.integrity "selected object is not in chain_objects")) .ok
  range.sequences.mapM (expandSequence H date object range)

def expandManifestRangesForVerification (H : Hashes) (disk : Disk) (m : RawDayManifest) (paths : ObjectPaths)
    (limits : ReplayResourceLimits) : Except ArchiveError RawDayManifest :=
  if m.objects = [] then return m
  else do
    let loaded ← m.chainObjects.foldlM (loadThenCompare H disk paths limits) nothingLoaded
    let expanded ← m.objects.mapM (expandRange H m.date loaded.objects)
    let root ← (Archive.rawSetRoot H expanded.flatten).mapError .other
    return { m with manifestSHA256 := Digest.zero, objects := expanded.flatten, rawSetRoot := root }

/-! ## The selection of the expanded ranges -/

structure ReplaySelection where
  selection : DaySelection
  seenEntries : List (Bytes × UInt64)

/-- An entry that was not seen extends the chain slice. -/
def countEntry (entry : Entry) (batch : BatchFrameV1) (selection : DaySelection) : DaySelection :=
  { selection with
    chainSliceStartSequence :=
      if selection.chainSliceStartSequence = 0 then entry.sequence else selection.chainSliceStartSequence
    chainSliceStartRoot :=
      if selection.chainSliceStartSequence = 0 then entry.previousEntryHash else selection.chainSliceStartRoot
    chainSliceEndSequence := entry.sequence
    chainSliceEndRoot := entry.entryHash
    errorCount := if batch.copyTicksError ≠ 0 then selection.errorCount + 1 else selection.errorCount }

/-- The ordinals are those of records. -/
def observeOrdinal (date : Bytes) (batch : BatchFrameV1) (selection : DaySelection) (ordinal : UInt32) :
    Except String DaySelection := do
  let record ← batch.records[ordinal.toNat]?.elim (.error "index out of range") .ok
  reject (utcDate record.timeMSC ≠ date) "record coordinate is outside selected UTC day"
  return observeRecord selection record

def addReplayRange (H : Hashes) (objects : List RawObject) (date : Bytes) (maxRecords : UInt32) (state : ReplaySelection)
    (range : RawObjectRange) : Except String ReplaySelection := do
  let object ← (objects.find? fun object => object.key = range.key).elim
    (.error "range does not match a verified chain object") .ok
  reject (object.sha256 ≠ range.sha256 ∨ UInt64.ofNat object.bytes ≠ range.bytes)
    "range does not match a verified chain object"
  reject (range.startIngestSequence ≠ range.endIngestSequence) "range was not expanded to one WAL entry"
  let entry ← (object.segment.entries.find? fun entry => entry.sequence = range.startIngestSequence).elim
    (.error "range selects a missing WAL sequence") .ok
  let batch ← (decodeCanonicalBatchFrame H entry.frame).mapError fun err =>
    s!"range selects malformed BatchFrameV1: {err}"
  reject (batch.records.length > maxRecords.toNat) "range exceeds configured record limit"
  let selected ← (selectRecordOrdinals H entry.frame
    [⟨range.firstRecordOrdinal, range.lastRecordOrdinal, false⟩]).mapError fun err => s!"range ordinal selection: {err}"
  if selected = [] then return state
  else do
    let counted : ReplaySelection :=
      if (range.key, entry.sequence) ∈ state.seenEntries then state
      else ⟨countEntry entry batch state.selection, (range.key, entry.sequence) :: state.seenEntries⟩
    if batch.records = [] then do
      reject (utcDate batch.requestedFromMSC ≠ date) "zero-record sentinel is outside selected UTC day"
      return counted
    else do
      let selection ← selected.foldlM (observeOrdinal date batch) counted.selection
      return { counted with selection }

def deriveReplaySelection (H : Hashes) (objects : List RawObject) (ranges : List RawObjectRange) (date : Bytes)
    (maxRecords : UInt32) : Except String DaySelection := do
  let state ← ranges.foldlM (addReplayRange H objects date maxRecords) ⟨emptySelection, []⟩
  return state.selection

/-! ## Verification -/

/-- The manifest as it would be built from the objects. -/
def canonicalRawDayManifest (H : Hashes) (m : RawDayManifest) (selection : DaySelection) (objects : List RawObject) :
    Except String RawDayManifest := do
  let root ← Archive.rawSetRoot H selection.objects
  return { m with
    objects := selection.objects
    acceptedRecordCount := selection.acceptedRecordCount
    errorCount := selection.errorCount
    observedThroughSourceMSC := selection.observedThroughSourceMSC
    observedThroughCaptureSeq := selection.observedThroughCaptureSeq
    chainSliceStartSequence := selection.chainSliceStartSequence
    chainSliceStartRoot := selection.chainSliceStartRoot
    chainSliceEndSequence := selection.chainSliceEndSequence
    chainSliceEndRoot := selection.chainSliceEndRoot
    chainObjects := chainObjectsForSlice objects selection.chainSliceStartSequence selection.chainSliceEndSequence
    rawSetRoot := root
    manifestSHA256 := Digest.zero }

/-- The counts, the watermarks and the slice of two manifests. -/
def sameSummary (a b : RawDayManifest) : Bool :=
  a.acceptedRecordCount = b.acceptedRecordCount ∧ a.errorCount = b.errorCount ∧
    a.observedThroughSourceMSC = b.observedThroughSourceMSC ∧
    a.observedThroughCaptureSeq = b.observedThroughCaptureSeq ∧
    a.chainSliceStartSequence = b.chainSliceStartSequence ∧ a.chainSliceStartRoot = b.chainSliceStartRoot ∧
    a.chainSliceEndSequence = b.chainSliceEndSequence ∧ a.chainSliceEndRoot = b.chainSliceEndRoot ∧
    a.chainObjects = b.chainObjects

def summarised (selection : DaySelection) (m : RawDayManifest) : Bool :=
  selection.acceptedRecordCount = m.acceptedRecordCount ∧ selection.errorCount = m.errorCount ∧
    selection.observedThroughSourceMSC = m.observedThroughSourceMSC ∧
    selection.observedThroughCaptureSeq = m.observedThroughCaptureSeq ∧
    selection.chainSliceStartSequence = m.chainSliceStartSequence ∧
    selection.chainSliceStartRoot = m.chainSliceStartRoot ∧
    selection.chainSliceEndSequence = m.chainSliceEndSequence ∧ selection.chainSliceEndRoot = m.chainSliceEndRoot

def verifyReplaySnapshot (H : Hashes) (disk : Disk) (m expanded : RawDayManifest) (paths : ObjectPaths)
    (scope : ScopeConfig) (limits : ReplayResourceLimits) : Except ArchiveError Unit := do
  let normalized ← scope.normalized.mapError fun err => .integrity s!"scope config is invalid: {err}"
  let configHash ← (normalized.configHash H).mapError fun err =>
    .integrity s!"scope config hash cannot be computed: {err}"
  reject (!manifestInScope m normalized configHash) (.integrity "manifest scope does not match verification scope")
  (validateRawDayManifest H m).mapError fun err => .integrity s!"manifest is invalid: {err}"
  (validateRawDayManifest H expanded).mapError fun err => .integrity s!"expanded replay selection is invalid: {err}"
  let objects ← loadReplayRawObjects H disk m paths limits
  let full ← (deriveDaySelection H objects m.date 0 0 normalized.protocolLimits.maxRecords).mapError fun err =>
    .integrity s!"could not rederive full-day selection: {err}"
  let canonical ← (canonicalRawDayManifest H m full objects).mapError fun err =>
    .integrity s!"canonical full-day manifest: {err}"
  preflightReplayObjectFiles disk m paths limits
  verifyRawDaySnapshot H canonical disk paths scope
  reject (expanded.objects ≠ canonical.objects ∨ expanded.rawSetRoot ≠ canonical.rawSetRoot)
    (.integrity "expanded compact selection does not equal M2 canonical selection")
  reject (!sameSummary m canonical)
    (.integrity "replay manifest summary or chain slice does not equal M2 canonical selection")
  let selected ← (deriveReplaySelection H objects expanded.objects m.date normalized.protocolLimits.maxRecords).mapError
    fun err => .integrity s!"replay selection does not match WAL bytes: {err}"
  reject (!summarised selected canonical) (.integrity "replay selection does not equal M2 canonical summary")

/-! ## The source -/

def rawDayManifestRelativeKey (H : Hashes) (scope : ScopeConfig) (m : RawDayManifest) : Except ArchiveError Bytes := do
  reject (m.datasetID ≠ scope.datasetID ∨ m.dayDefinitionID ≠ scope.dayDefinitionID)
    (.integrity "raw-day manifest key scope mismatch")
  reject (m.date = [] ∨ m.revision = 0) (.integrity "raw-day manifest key identity is incomplete")
  let digest ← (manifestDigest H m).mapError .other
  reject (m.manifestSHA256 ≠ Digest.zero ∧ m.manifestSHA256 ≠ digest)
    (.integrity "raw-day manifest key digest mismatch")
  return utf8 "snapshots/raw/day-definition=" ++ identityPathKey H m.dayDefinitionID ++ utf8 "/date=" ++ m.date ++
    utf8 s!"/raw-day-{m.revision}-" ++ encodeHashHex digest ++ utf8 ".json"

def verifyRawDayManifestRelativeKey (H : Hashes) (scope : ScopeConfig) (m : RawDayManifest) (key : Bytes) :
    Except ArchiveError Unit := do
  let relative ← rawDayManifestRelativeKey H scope m
  reject (key ≠ relative) (.integrity "raw-day manifest relative key mismatch")

/-- What a range selects of one of its entries. -/
def ordinalRangeAt (range : RawObjectRange) (sequence : UInt64) : RecordOrdinalRange where
  first := if sequence = range.startIngestSequence then range.firstRecordOrdinal else 0
  last := if sequence = range.endIngestSequence then range.lastRecordOrdinal else 0
  throughEnd := sequence ≠ range.endIngestSequence

/-- The map `selected`: for each object key and sequence what the ranges select there, in their order. -/
def selectedAt (ranges : List RawObjectRange) (key : Bytes) (sequence : UInt64) : List RecordOrdinalRange :=
  (ranges.filter fun range => range.key = key ∧ sequence ∈ range.sequences).map fun range =>
    ordinalRangeAt range sequence

structure VerifiedReplaySource where
  scope : ReplayScope
  producerIdentity : ProducerIdentity
  maxRecords : UInt32
  chain : List RawChainObject
  paths : ObjectPaths
  selected : Bytes → UInt64 → List RecordOrdinalRange
  resourceLimits : ReplayResourceLimits

def openVerifiedReplaySource (H : Hashes) (disk : Disk) (input : ReplaySourceInput) :
    Except ArchiveError VerifiedReplaySource := do
  reject (input.scope.protocolLimits.maxRecords = 0 ∨ input.scope.protocolLimits.maxRecords > Protocol.maxRecords)
    (.integrity "max_records must be explicit and bounded")
  reject (input.producerInstanceID = []) (.integrity "producer instance identity is required")
  let m ← (verifyRawDayManifest H input.manifestBytes).mapError fun err =>
    .integrity s!"raw-day manifest verification failed: {err}"
  reject ((manifestCanonicalJSON m).toOption ≠ some input.manifestBytes)
    (.integrity "raw-day manifest bytes are not canonical")
  (validateRawDayManifest H m).mapError fun err => .integrity s!"raw-day manifest is invalid: {err}"
  let relativeManifestKey ← rawDayManifestRelativeKey H input.scope m
  verifyRawDayManifestRelativeKey H input.scope m input.manifestRelativeKey
  validateReplayResourceLimits m input.resourceLimits
  let verification ← expandManifestRangesForVerification H disk m input.objectPaths input.resourceLimits
  verifyReplaySnapshot H disk m verification input.objectPaths input.scope input.resourceLimits
  reject (input.replayContractID = [] ∨ input.conversionID = []) (.integrity "replay contract and conversion are required")
  let scope : ReplayScope :=
    { datasetID := input.scope.datasetID, dayDefinitionID := input.scope.dayDefinitionID, date := m.date,
      replayContractID := input.replayContractID, conversionID := input.conversionID,
      rawDayManifestKey := relativeManifestKey, rawDayManifestSHA256 := m.manifestSHA256 }
  scope.validate.mapError fun err => .integrity s!"replay scope: {err}"
  return {
    scope
    producerIdentity :=
      { producerInstanceID := input.producerInstanceID, providerID := input.scope.providerID,
        stableFeedID := input.scope.stableFeedID, brokerServerFingerprint := input.scope.brokerServerFingerprint,
        exactSourceSymbol := input.scope.exactSourceSymbol }
    maxRecords := input.scope.protocolLimits.maxRecords
    chain := m.chainObjects
    paths := input.objectPaths
    selected := selectedAt verification.objects
    resourceLimits := input.resourceLimits }

/-! ## Reading -/

/-- Where the source stands: the chain objects and the entries that are left, and the object of the entries. -/
structure Cursor where
  chain : List RawChainObject
  entries : List Entry
  objectKey : Bytes
  objectSHA : Digest

def VerifiedReplaySource.start (source : VerifiedReplaySource) : Cursor := ⟨source.chain, [], [], Digest.zero⟩

namespace VerifiedReplaySource

variable (H : Hashes) (disk : Disk) (source : VerifiedReplaySource)

/-- The file of a chain object, opened again. -/
def reverify (descriptor : RawChainObject) : Except ArchiveError VerifiedSegment := do
  let path := (source.paths descriptor.key).getD ""
  let _ ← (checkReplayObjectPath disk path source.resourceLimits 0).mapError fun _ => .integrity "reverify resource limit"
  let segment ← (verifySealedSegment H disk path).mapError fun _ => .integrity "reverify"
  reject (UInt64.ofNat segment.fileBytes > source.resourceLimits.maxObjectBytes ∨ !describesSegment descriptor segment)
    (.integrity "reverified object changed")
  return segment

/-- What `Next` makes of one entry: an entry without ordinals is passed over. -/
def readEntry (objectKey : Bytes) (objectSHA : Digest) (entry : Entry) : Except ArchiveError (Option VerifiedBatch) :=
  let ranges := source.selected objectKey entry.sequence
  if ranges = [] then return none
  else do
    let ordinals ← (selectRecordOrdinals H entry.frame ranges).mapError fun err => .integrity s!"selection: {err}"
    if ordinals = [] then return none
    else return some ⟨objectKey, objectSHA, entry.sequence, entry.frame, ordinals⟩

/-- The next batch of the entries of one object, and the entries after it. -/
def readEntries (objectKey : Bytes) (objectSHA : Digest) :
    List Entry → Except ArchiveError (Option (VerifiedBatch × List Entry))
  | [] => return none
  | entry :: rest => do
    match ← readEntry H source objectKey objectSHA entry with
    | some batch => return some (batch, rest)
    | none => readEntries objectKey objectSHA rest

/-- A verified segment has an entry, so the source never stands at an object without one. -/
def nextFrom : List RawChainObject → List Entry → Bytes → Digest → Except ArchiveError (Option (VerifiedBatch × Cursor))
  | chain, entries, objectKey, objectSHA => do
    match ← readEntries H source objectKey objectSHA entries with
    | some (batch, rest) => return some (batch, ⟨chain, rest, objectKey, objectSHA⟩)
    | none =>
      match chain with
      | [] => return none
      | descriptor :: later => do
        let segment ← reverify H disk source descriptor
        nextFrom later segment.entries descriptor.key descriptor.sha256

def next (cursor : Cursor) : Except ArchiveError (Option (VerifiedBatch × Cursor)) :=
  nextFrom H disk source cursor.chain cursor.entries cursor.objectKey cursor.objectSHA

/-- The batches that `Next` gives from a cursor on, up to the end or to an error. -/
inductive Reads : Cursor → List VerifiedBatch → Except ArchiveError Unit → Prop
  | done {cursor : Cursor} (h : next H disk source cursor = .ok none) : Reads cursor [] (.ok ())
  | failed {cursor : Cursor} {err : ArchiveError} (h : next H disk source cursor = .error err) :
    Reads cursor [] (.error err)
  | more {cursor rest : Cursor} {batch : VerifiedBatch} {batches : List VerifiedBatch} {ending : Except ArchiveError Unit}
    (h : next H disk source cursor = .ok (some (batch, rest))) (hrest : Reads rest batches ending) :
    Reads cursor (batch :: batches) ending

end VerifiedReplaySource

end TickPlatform.Archive
