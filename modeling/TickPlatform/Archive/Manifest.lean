import TickPlatform.Protocol.Decode
import TickPlatform.Replay.Row
import TickPlatform.Wal.Store

/-!
# Raw-day manifests

The scope of an archive, the manifest of one UTC day of it, its checks, its canonical JSON and its digest.
-/

namespace TickPlatform.Archive

open Bytes Protocol Replay Wal

def rawDayManifestVersion : Bytes := utf8 "raw-day-manifest-v1"
def rawDayManifestDomain : Bytes := utf8 "tick-data-platform/raw-day-manifest/v1\x00"
def rawSetRootDomain : Bytes := utf8 "tick-data-platform/raw-set/v1\x00"
def archiveConfigDomain : Bytes := utf8 "tick-data-platform/archive-config/v1\x00"
def sourceSymbolScopeDomain : Bytes := utf8 "tick-data-platform/source-symbol-scope/v1\x00"
def walSchemaID : Bytes := utf8 "gateway-wal-v1"

/-! ## Scopes -/

structure ProtocolLimits where
  maxFrameBytes : UInt32
  maxRecords : UInt32
  maxStringBytes : UInt16
deriving DecidableEq

structure ScopeConfig where
  datasetID : Bytes
  providerID : Bytes
  stableFeedID : Bytes
  exactSourceSymbol : Bytes
  brokerServerFingerprint : Bytes
  gatewayBuildIdentity : Bytes
  producerBuildIdentity : Bytes
  dayDefinitionID : Bytes
  settlePolicy : Bytes
  publisherID : Bytes
  publisherEpoch : UInt64
  protocolVersion : UInt16
  protocolLimits : ProtocolLimits
deriving DecidableEq

def ScopeConfig.identities (s : ScopeConfig) : List (String × Bytes) :=
  [("dataset_id", s.datasetID), ("provider_id", s.providerID), ("stable_feed_id", s.stableFeedID),
    ("exact_source_symbol", s.exactSourceSymbol), ("broker_server_fingerprint", s.brokerServerFingerprint),
    ("gateway_build_identity", s.gatewayBuildIdentity), ("producer_build_identity", s.producerBuildIdentity),
    ("day_definition_id", s.dayDefinitionID), ("settle_policy", s.settlePolicy), ("publisher_id", s.publisherID)]

def checkIdentity (field : String × Bytes) : Except String Unit := do
  reject (field.2 = []) s!"{field.1} is required"
  reject (!utf8Valid field.2) s!"{field.1} is not valid UTF-8"

/-- Zero stands for the limit of the protocol. -/
def ScopeConfig.withDefaults (s : ScopeConfig) : ScopeConfig :=
  { s with
    protocolVersion := if s.protocolVersion = 0 then Protocol.protocolVersion else s.protocolVersion
    protocolLimits :=
      { maxFrameBytes := if s.protocolLimits.maxFrameBytes = 0 then Protocol.maxFrameBytes
          else s.protocolLimits.maxFrameBytes
        maxRecords := if s.protocolLimits.maxRecords = 0 then Protocol.maxRecords else s.protocolLimits.maxRecords
        maxStringBytes := if s.protocolLimits.maxStringBytes = 0 then Protocol.maxStringBytes
          else s.protocolLimits.maxStringBytes } }

def ScopeConfig.normalized (s : ScopeConfig) : Except String ScopeConfig := do
  let s := s.withDefaults
  reject (s.protocolVersion ≠ Protocol.protocolVersion) "unsupported archive protocol version"
  each checkIdentity s.identities
  reject (s.protocolLimits.maxFrameBytes < minFrameBytes ∨ s.protocolLimits.maxFrameBytes > Protocol.maxFrameBytes)
    "max_frame_bytes is outside Protocol V1 limits"
  reject (s.protocolLimits.maxRecords = 0 ∨ s.protocolLimits.maxRecords > Protocol.maxRecords)
    "max_records is outside Protocol V1 limits"
  reject (s.protocolLimits.maxStringBytes = 0 ∨ s.protocolLimits.maxStringBytes > Protocol.maxStringBytes)
    "max_string_bytes is outside Protocol V1 limits"
  return s

def ProtocolLimits.value (l : ProtocolLimits) : Json :=
  jsonObject [("max_frame_bytes", .int l.maxFrameBytes.toNat), ("max_records", .int l.maxRecords.toNat),
    ("max_string_bytes", .int l.maxStringBytes.toNat)]

def ScopeConfig.value (s : ScopeConfig) : Json :=
  jsonObject [("broker_server_fingerprint", .string s.brokerServerFingerprint), ("dataset_id", .string s.datasetID),
    ("day_definition_id", .string s.dayDefinitionID), ("exact_source_symbol", .string s.exactSourceSymbol),
    ("gateway_build_identity", .string s.gatewayBuildIdentity),
    ("producer_build_identity", .string s.producerBuildIdentity), ("protocol_limits", s.protocolLimits.value),
    ("protocol_version", .int s.protocolVersion.toNat), ("provider_id", .string s.providerID),
    ("publisher_epoch", jsonUint s.publisherEpoch), ("publisher_id", .string s.publisherID),
    ("settle_policy", .string s.settlePolicy), ("stable_feed_id", .string s.stableFeedID)]

def ScopeConfig.canonicalConfigJSON (s : ScopeConfig) : Except String Bytes := do
  let normalized ← s.normalized
  canonicalJSON normalized.value

def ScopeConfig.configHash (H : Hashes) (s : ScopeConfig) : Except String Digest := do
  let canonical ← s.canonicalConfigJSON
  return H.sha256 (archiveConfigDomain ++ canonical)

/-- `ExactIdentityPathKey`. -/
def identityPathKey (H : Hashes) (value : Bytes) : Bytes := encodeHashHex (H.sha256 value)

def writeIdentity (value : Bytes) : Bytes := putUint64 (UInt64.ofNat value.length) ++ value

def scopePathKey (H : Hashes) (s : ScopeConfig) : Except String Bytes := do
  let normalized ← s.normalized
  return encodeHashHex
    (H.sha256 (sourceSymbolScopeDomain ++ writeIdentity normalized.providerID ++ writeIdentity normalized.exactSourceSymbol))

/-! ## Manifests -/

structure RawObjectRange where
  key : Bytes
  sha256 : Digest
  bytes : UInt64
  startIngestSequence : UInt64
  endIngestSequence : UInt64
  firstRecordOrdinal : UInt32
  lastRecordOrdinal : UInt32
deriving DecidableEq

structure RawChainObject where
  key : Bytes
  sha256 : Digest
  bytes : UInt64
  startIngestSequence : UInt64
  endIngestSequence : UInt64
deriving DecidableEq

structure RawDayManifest where
  manifestVersion : Bytes
  manifestID : Bytes
  datasetID : Bytes
  dayDefinitionID : Bytes
  date : Bytes
  revision : UInt64
  publisherID : Bytes
  publisherEpoch : UInt64
  configHash : Digest
  protocolVersion : UInt16
  sourceSchemaID : Bytes
  walSchemaID : Bytes
  observedThroughSourceMSC : Int64
  observedThroughCaptureSeq : UInt64
  terminalSyncStatus : Bytes
  settlePolicy : Bytes
  completenessStatus : Bytes
  objects : List RawObjectRange
  chainObjects : List RawChainObject
  acceptedRecordCount : UInt64
  errorCount : UInt64
  chainSliceStartSequence : UInt64
  chainSliceStartRoot : Digest
  chainSliceEndSequence : UInt64
  chainSliceEndRoot : Digest
  rawSetRoot : Digest
  previousManifestSHA256 : Option Digest
  logicalCloseTimeS : Int64
  manifestSHA256 : Digest
deriving DecidableEq

def RawObjectRange.value (o : RawObjectRange) : Json :=
  jsonObject [("bytes", jsonUint o.bytes), ("end_ingest_sequence", jsonUint o.endIngestSequence),
    ("first_record_ordinal", .int o.firstRecordOrdinal.toNat), ("key", .string o.key),
    ("last_record_ordinal", .int o.lastRecordOrdinal.toNat), ("sha256", jsonHash o.sha256),
    ("start_ingest_sequence", jsonUint o.startIngestSequence)]

def RawChainObject.value (o : RawChainObject) : Json :=
  jsonObject [("bytes", jsonUint o.bytes), ("end_ingest_sequence", jsonUint o.endIngestSequence), ("key", .string o.key),
    ("sha256", jsonHash o.sha256), ("start_ingest_sequence", jsonUint o.startIngestSequence)]

/-- The digest is over everything but itself. -/
def RawDayManifest.value (m : RawDayManifest) : Json :=
  jsonObject [("accepted_record_count", jsonUint m.acceptedRecordCount),
    ("chain_slice_end_root", jsonHash m.chainSliceEndRoot),
    ("chain_slice_end_sequence", jsonUint m.chainSliceEndSequence),
    ("chain_slice_start_root", jsonHash m.chainSliceStartRoot),
    ("chain_slice_start_sequence", jsonUint m.chainSliceStartSequence),
    ("completeness_status", .string m.completenessStatus),
    ("chain_objects", .array (m.chainObjects.map (·.value))), ("config_hash", jsonHash m.configHash),
    ("dataset_id", .string m.datasetID), ("date", .string m.date), ("day_definition_id", .string m.dayDefinitionID),
    ("error_count", jsonUint m.errorCount), ("logical_close_time_s", .int m.logicalCloseTimeS.toInt),
    ("manifest_id", .string m.manifestID),
    ("manifest_version", .string (if m.manifestVersion = [] then rawDayManifestVersion else m.manifestVersion)),
    ("objects", .array (m.objects.map (·.value))),
    ("observed_through_capture_sequence", jsonUint m.observedThroughCaptureSeq),
    ("observed_through_source_msc", .int m.observedThroughSourceMSC.toInt),
    ("previous_manifest_sha256", m.previousManifestSHA256.elim .null jsonHash),
    ("protocol_version", .int m.protocolVersion.toNat), ("publisher_epoch", jsonUint m.publisherEpoch),
    ("publisher_id", .string m.publisherID), ("raw_set_root", jsonHash m.rawSetRoot), ("revision", jsonUint m.revision),
    ("settle_policy", .string m.settlePolicy), ("source_schema_id", .string m.sourceSchemaID),
    ("terminal_sync_status", .string m.terminalSyncStatus), ("wal_schema_id", .string m.walSchemaID)]

def manifestCanonicalJSON (m : RawDayManifest) : Except String Bytes := canonicalJSON m.value

def rawDayManifestDigest (H : Hashes) (canonical : Bytes) : Digest := H.sha256 (rawDayManifestDomain ++ canonical)

def manifestDigest (H : Hashes) (m : RawDayManifest) : Except String Digest := do
  let canonical ← manifestCanonicalJSON m
  return rawDayManifestDigest H canonical

/-! ## Checks -/

def validateRawWALObjectKey (key : Bytes) (sha256 : Digest) : Except String Unit :=
  reject (key ≠ rawWALObjectKey sha256) "raw WAL object key is not canonical for its SHA-256"

def validateObjectRange (object : RawObjectRange) : Except String Unit := do
  reject (object.key = [] ∨ !utf8Valid object.key) "object key is empty or invalid UTF-8"
  validateRawWALObjectKey object.key object.sha256
  reject (object.bytes = 0) "object bytes must be nonzero"
  reject (object.startIngestSequence = 0 ∨ object.endIngestSequence < object.startIngestSequence)
    "object sequence range is empty or reversed"
  reject (object.startIngestSequence = object.endIngestSequence ∧ object.lastRecordOrdinal < object.firstRecordOrdinal)
    "object ordinal range is empty or reversed"

/-- `compareCoordinate`: by sequence, then by ordinal. -/
def coordinateLT (a b : UInt64 × UInt32) : Bool := a.1 < b.1 ∨ (a.1 = b.1 ∧ a.2 < b.2)

def RawObjectRange.first (o : RawObjectRange) : UInt64 × UInt32 := (o.startIngestSequence, o.firstRecordOrdinal)
def RawObjectRange.last (o : RawObjectRange) : UInt64 × UInt32 := (o.endIngestSequence, o.lastRecordOrdinal)

def addRange (previous : Option RawObjectRange) (object : RawObjectRange) : Except String (Option RawObjectRange) := do
  validateObjectRange object
  reject (previous.any fun p => !coordinateLT p.last object.first)
    "object ranges are not strictly ascending and non-overlapping"
  return some object

def validateOrderedRanges (objects : List RawObjectRange) : Except String Unit := do
  let _ ← objects.foldlM addRange none
  return ()

def RawObjectRange.rootBytes (o : RawObjectRange) : Bytes :=
  o.sha256.bytes ++ putUint64 o.bytes ++ putUint64 o.startIngestSequence ++ putUint64 o.endIngestSequence ++
    putUint32 o.firstRecordOrdinal ++ putUint32 o.lastRecordOrdinal

def rawSetRoot (H : Hashes) (objects : List RawObjectRange) : Except String Digest := do
  reject (objects.length ≥ 2 ^ 32) "raw set has too many ranges"
  each validateObjectRange objects
  return H.sha256 (rawSetRootDomain ++ putUint32 (UInt32.ofNat objects.length) ++ objects.flatMap (·.rootBytes))

def completenessStatuses : List String :=
  ["provisional", "settled_snapshot", "incomplete_source_error", "incomplete_sync", "incomplete_gateway_outage"]

def validCompletenessStatus (value : Bytes) : Bool := completenessStatuses.any fun status => utf8 status = value

def validSyncStatus (value : Bytes) : Bool := value ≠ []

/-- The chain objects seen before one, the last of them first. -/
def addChainObject (m : RawDayManifest) (seen : List RawChainObject) (object : RawChainObject) :
    Except String (List RawChainObject) := do
  validateRawWALObjectKey object.key object.sha256
  reject (object.bytes = 0 ∨ object.startIngestSequence = 0 ∨ object.endIngestSequence < object.startIngestSequence)
    "chain object has an empty or reversed range"
  reject (seen.any fun prior => prior.key = object.key) "chain object duplicates an earlier object"
  reject (object.startIngestSequence > m.chainSliceEndSequence ∨ object.endIngestSequence < m.chainSliceStartSequence)
    "chain object does not intersect the chain slice"
  reject (seen.head?.any fun previous => previous.endIngestSequence = maxUint64 ∨
      object.startIngestSequence ≠ previous.endIngestSequence + 1)
    "chain objects are not strictly contiguous"
  return object :: seen

/-- A range and a chain object that name the same file. -/
def sameObject (range : RawObjectRange) (object : RawChainObject) : Bool :=
  range.key = object.key ∧ range.sha256 = object.sha256 ∧ range.bytes = object.bytes

def checkRange (m : RawDayManifest) (range : RawObjectRange) : Except String Unit := do
  let owners := m.chainObjects.filter (sameObject range)
  reject (owners.any fun object => range.startIngestSequence < object.startIngestSequence ∨
      range.endIngestSequence > object.endIngestSequence ∨ range.startIngestSequence < m.chainSliceStartSequence ∨
      range.endIngestSequence > m.chainSliceEndSequence)
    "object range is outside its chain object or chain slice"
  reject (owners.length ≠ 1) "object range does not match exactly one chain object"

def zeroSlice (m : RawDayManifest) : Bool :=
  m.chainSliceStartSequence = 0 ∧ m.chainSliceEndSequence = 0 ∧ m.chainSliceStartRoot = Digest.zero ∧
    m.chainSliceEndRoot = Digest.zero

def validateChainObjects (m : RawDayManifest) : Except String Unit :=
  match m.chainObjects.head?, m.chainObjects.getLast? with
  | some first, some last => do
    reject (m.objects = [] ∨ m.chainSliceStartSequence = 0 ∨ m.chainSliceEndSequence < m.chainSliceStartSequence)
      "non-empty chain_objects require a non-empty chain slice and objects"
    let _ ← m.chainObjects.foldlM (addChainObject m) []
    reject (m.chainSliceStartSequence < first.startIngestSequence ∨ m.chainSliceStartSequence > first.endIngestSequence ∨
        m.chainSliceEndSequence < last.startIngestSequence ∨ m.chainSliceEndSequence > last.endIngestSequence)
      "chain slice is not contained by its first and last chain objects"
    each (checkRange m) m.objects
  | _, _ => reject (m.objects ≠ [] ∨ !zeroSlice m) "empty chain_objects must have empty objects and zero chain slice"

def parseUTCDate (date : Bytes) : Except String Unit := reject (parseDate date).isNone "date must be UTC YYYY-MM-DD"

def validateRawDayManifest (H : Hashes) (m : RawDayManifest) : Except String Unit := do
  reject (m.manifestVersion ≠ rawDayManifestVersion ∨ m.manifestID = [] ∨ m.revision < 1)
    "invalid raw-day manifest identity or revision"
  reject (m.datasetID = [] ∨ m.dayDefinitionID = [] ∨ m.date = [] ∨ m.publisherID = [] ∨ m.settlePolicy = [])
    "raw-day manifest identity fields are required"
  parseUTCDate m.date
  reject (m.protocolVersion ≠ Protocol.protocolVersion ∨ m.sourceSchemaID ≠ sourceSchemaMT5 ∨
      m.walSchemaID ≠ Archive.walSchemaID)
    "raw-day manifest protocol schema mismatch"
  reject (!validSyncStatus m.terminalSyncStatus ∨ !validCompletenessStatus m.completenessStatus)
    "raw-day manifest status is invalid"
  validateOrderedRanges m.objects
  let wantRoot ← rawSetRoot H m.objects
  reject (m.rawSetRoot ≠ wantRoot) "raw_set_root does not match ordered objects"
  validateChainObjects m
  reject (decide (m.revision = 1) ≠ m.previousManifestSHA256.isNone)
    "raw-day revision and previous manifest hash do not agree"
  if m.objects = [] then reject (!zeroSlice m) "empty raw-day manifest must have zero chain slice"
  else
    reject (m.chainSliceStartSequence = 0 ∨ m.chainSliceEndSequence < m.chainSliceStartSequence)
      "raw-day chain slice range is invalid"

/-! ## Decoding -/

def rawDayManifestKeys : List String :=
  ["accepted_record_count", "chain_slice_end_root", "chain_slice_end_sequence", "chain_slice_start_root",
    "chain_slice_start_sequence", "completeness_status", "config_hash", "chain_objects", "dataset_id", "date",
    "day_definition_id", "error_count", "logical_close_time_s", "manifest_id", "manifest_version", "objects",
    "observed_through_capture_sequence", "observed_through_source_msc", "previous_manifest_sha256", "protocol_version",
    "publisher_epoch", "publisher_id", "raw_set_root", "revision", "settle_policy", "source_schema_id",
    "terminal_sync_status", "wal_schema_id"]

def chainObjectFromValue (value : Json) : Except String RawChainObject := do
  let item ← objectFields value "chain_objects item must be an object"
  requireExactKeys item ["bytes", "end_ingest_sequence", "key", "sha256", "start_ingest_sequence"]
  let key ← stringValue item "key"
  let sha256 ← hashValue item "sha256"
  let bytes ← uint64Value item "bytes"
  let startIngestSequence ← uint64Value item "start_ingest_sequence"
  let endIngestSequence ← uint64Value item "end_ingest_sequence"
  return { key, sha256, bytes, startIngestSequence, endIngestSequence }

def objectRangeFromValue (value : Json) : Except String RawObjectRange := do
  let item ← objectFields value "objects item must be an object"
  requireExactKeys item ["bytes", "end_ingest_sequence", "first_record_ordinal", "key", "last_record_ordinal", "sha256",
    "start_ingest_sequence"]
  let key ← stringValue item "key"
  let sha256 ← hashValue item "sha256"
  let bytes ← uint64Value item "bytes"
  let startIngestSequence ← uint64Value item "start_ingest_sequence"
  let endIngestSequence ← uint64Value item "end_ingest_sequence"
  let firstRecordOrdinal ← uint32Value item "first_record_ordinal"
  let lastRecordOrdinal ← uint32Value item "last_record_ordinal"
  return { key, sha256, bytes, startIngestSequence, endIngestSequence, firstRecordOrdinal, lastRecordOrdinal }

def previousFromValue : Option Json → Except String (Option Digest)
  | none => .error "missing previous_manifest_sha256"
  | some .null => .ok none
  | some value => do
    let digest ← parseHash (some value)
    return some digest

def rawDayManifestFromValue (H : Hashes) (value : Json) : Except String RawDayManifest := do
  let object ← objectFields value "raw-day manifest must be a JSON object"
  requireExactKeys object rawDayManifestKeys
  let manifestVersion ← (stringValue object "manifest_version").mapError fun _ => "invalid manifest_version"
  reject (manifestVersion ≠ rawDayManifestVersion) "invalid manifest_version"
  let manifestID ← stringValue object "manifest_id"
  let datasetID ← stringValue object "dataset_id"
  let dayDefinitionID ← stringValue object "day_definition_id"
  let date ← stringValue object "date"
  parseUTCDate date
  let publisherID ← stringValue object "publisher_id"
  let settlePolicy ← stringValue object "settle_policy"
  let completenessStatus ← (stringValue object "completeness_status").mapError fun _ => "invalid completeness_status"
  reject (!validCompletenessStatus completenessStatus) "invalid completeness_status"
  let terminalSyncStatus ← (stringValue object "terminal_sync_status").mapError fun _ => "invalid terminal_sync_status"
  reject (!validSyncStatus terminalSyncStatus) "invalid terminal_sync_status"
  let sourceSchemaID ← (stringValue object "source_schema_id").mapError fun _ => "invalid source_schema_id"
  reject (sourceSchemaID ≠ sourceSchemaMT5) "invalid source_schema_id"
  let walSchemaID ← (stringValue object "wal_schema_id").mapError fun _ => "invalid wal_schema_id"
  reject (walSchemaID ≠ Archive.walSchemaID) "invalid wal_schema_id"
  let protocolVersion ← (uint16Value object "protocol_version").mapError fun _ => "invalid protocol_version"
  reject (protocolVersion ≠ Protocol.protocolVersion) "invalid protocol_version"
  let revision ← (uint64Value object "revision").mapError fun _ => "revision must be at least 1"
  reject (revision < 1) "revision must be at least 1"
  let publisherEpoch ← uint64Value object "publisher_epoch"
  let acceptedRecordCount ← uint64Value object "accepted_record_count"
  let errorCount ← uint64Value object "error_count"
  let observedThroughCaptureSeq ← uint64Value object "observed_through_capture_sequence"
  let observedThroughSourceMSC ← int64Value object "observed_through_source_msc"
  let chainSliceStartSequence ← uint64Value object "chain_slice_start_sequence"
  let chainSliceEndSequence ← uint64Value object "chain_slice_end_sequence"
  let logicalCloseTimeS ← int64Value object "logical_close_time_s"
  let configHash ← hashValue object "config_hash"
  let chainSliceStartRoot ← hashValue object "chain_slice_start_root"
  let chainSliceEndRoot ← hashValue object "chain_slice_end_root"
  let rawSetRoot ← hashValue object "raw_set_root"
  let previousManifestSHA256 ← previousFromValue (object.lookup (utf8 "previous_manifest_sha256"))
  let rawChainObjects ← arrayItems (object.lookup (utf8 "chain_objects")) "chain_objects must be an array"
  let chainObjects ← rawChainObjects.mapM chainObjectFromValue
  let rawObjects ← arrayItems (object.lookup (utf8 "objects")) "objects must be an array"
  let objects ← rawObjects.mapM objectRangeFromValue
  validateOrderedRanges objects
  let wantRoot ← Archive.rawSetRoot H objects
  reject (rawSetRoot ≠ wantRoot) "raw_set_root does not match ordered objects"
  let manifest : RawDayManifest :=
    { manifestVersion, manifestID, datasetID, dayDefinitionID, date, revision, publisherID, publisherEpoch, configHash,
      protocolVersion, sourceSchemaID, walSchemaID, observedThroughSourceMSC, observedThroughCaptureSeq,
      terminalSyncStatus, settlePolicy, completenessStatus, objects, chainObjects, acceptedRecordCount, errorCount,
      chainSliceStartSequence, chainSliceStartRoot, chainSliceEndSequence, chainSliceEndRoot, rawSetRoot,
      previousManifestSHA256, logicalCloseTimeS, manifestSHA256 := Digest.zero }
  validateRawDayManifest H manifest
  return manifest

def verifyRawDayManifest (H : Hashes) (data : Bytes) : Except String RawDayManifest := do
  let value ← decodeCanonicalJSON data
  let manifest ← rawDayManifestFromValue H value
  let digest ← manifestDigest H manifest
  return { manifest with manifestSHA256 := digest }

end TickPlatform.Archive
