import TickPlatform.Delivery.Restore
import TickPlatform.Remote.Graph

/-!
# Reading a remote archive

The scopes and the raw-day manifests that a reader finds below an immutable root, and the one that a selector names.
-/

open TickPlatform.Bytes TickPlatform.Protocol TickPlatform.Replay TickPlatform.Archive TickPlatform.Remote

namespace TickPlatform.Archive

def scopeConfigKeys : List String :=
  ["broker_server_fingerprint", "dataset_id", "day_definition_id", "exact_source_symbol", "gateway_build_identity",
    "producer_build_identity", "protocol_limits", "protocol_version", "provider_id", "publisher_epoch", "publisher_id",
    "settle_policy", "stable_feed_id"]

def protocolLimitsFromValue (value : Option Json) : Except String ProtocolLimits := do
  let limits ← value.elim (.error "protocol_limits must be an object") fun value =>
    objectFields value "protocol_limits must be an object"
  requireExactKeys limits ["max_frame_bytes", "max_records", "max_string_bytes"]
  let maxFrameBytes ← uint32Value limits "max_frame_bytes"
  let maxRecords ← uint32Value limits "max_records"
  let maxStringBytes ← uint16Value limits "max_string_bytes"
  return { maxFrameBytes, maxRecords, maxStringBytes }

def scopeConfigFromCanonicalJSON (data : Bytes) : Except String ScopeConfig := do
  let value ← (decodeCanonicalJSON data).mapError fun err => s!"decode archive config: {err}"
  let object ← objectFields value "archive config must be a JSON object"
  requireExactKeys object scopeConfigKeys
  let brokerServerFingerprint ← stringValue object "broker_server_fingerprint"
  let datasetID ← stringValue object "dataset_id"
  let dayDefinitionID ← stringValue object "day_definition_id"
  let exactSourceSymbol ← stringValue object "exact_source_symbol"
  let gatewayBuildIdentity ← stringValue object "gateway_build_identity"
  let producerBuildIdentity ← stringValue object "producer_build_identity"
  let providerID ← stringValue object "provider_id"
  let publisherID ← stringValue object "publisher_id"
  let settlePolicy ← stringValue object "settle_policy"
  let stableFeedID ← stringValue object "stable_feed_id"
  let protocolVersion ← uint16Value object "protocol_version"
  let publisherEpoch ← uint64Value object "publisher_epoch"
  let protocolLimits ← protocolLimitsFromValue (object.lookup (utf8 "protocol_limits"))
  let scope : ScopeConfig :=
    { datasetID, providerID, stableFeedID, exactSourceSymbol, brokerServerFingerprint, gatewayBuildIdentity,
      producerBuildIdentity, dayDefinitionID, settlePolicy, publisherID, publisherEpoch, protocolVersion, protocolLimits }
  let normalized ← scope.normalized
  reject (normalized.canonicalConfigJSON.toOption ≠ some data) "archive config bytes are not canonical"
  return normalized

end TickPlatform.Archive

namespace TickPlatform.Delivery

inductive ReaderError
  /-- `archive.ErrIntegrity`. -/
  | integrity (text : String)
  /-- `ErrSelectorInvalid`. -/
  | selectorInvalid (text : String)
  /-- `ErrSelectorNotFound`. -/
  | selectorNotFound (text : String)
  /-- `r2.ErrMetadataTooLarge`. -/
  | metadataTooLarge
  /-- `os.ErrNotExist`. -/
  | notExist
  | other (text : String)
deriving DecidableEq, Repr

def ofArchive : ArchiveError → ReaderError
  | .integrity text => .integrity text
  | .other text => .other text

/-! ## The backend -/

/-- A size below zero is not known. -/
structure RemoteObject where
  key : Bytes
  size : Int
deriving DecidableEq

structure ReadBackend where
  listLimited : (keyPrefix : Bytes) → (maxObjects : UInt64) → Except ReaderError (List RemoteObject)
  getLimited : (key : Bytes) → (maxBytes : UInt64) → Except ReaderError Bytes
  /-- The body of an object and its size. -/
  openObject : (key : Bytes) → Except ReaderError (Bytes × Int)

/-- A configuration that passed `Validate`. -/
structure ReaderConfig where
  immutableRoot : Bytes
  cacheRoot : String
  maxMetadataBytes : UInt64
  maxRawObjectBytes : UInt64
  maxRemoteObjects : UInt64
  cacheRoot_ne : cacheRoot ≠ ""
  maxMetadataBytes_le : maxMetadataBytes.toNat ≤ 16 * 2 ^ 20
  maxRawObjectBytes_le : maxRawObjectBytes.toNat ≤ 64 * 2 ^ 30
  maxRemoteObjects_le : maxRemoteObjects.toNat ≤ 2 ^ 20

structure ArchiveReader where
  config : ReaderConfig
  backend : ReadBackend

def sortByKey (objects : List RemoteObject) : List RemoteObject := objects.insertionSort fun a b => keyLE a.key b.key

/-- The listed size, where it is known, is not that of the body. -/
def sizeChanged (object : RemoteObject) (body : Bytes) : Bool := 0 ≤ object.size ∧ (body.length : Int) ≠ object.size

def metadata (r : ArchiveReader) (key : Bytes) : Except ReaderError Bytes := do
  let body ← r.backend.getLimited key r.config.maxMetadataBytes
  reject (body.length > r.config.maxMetadataBytes.toNat) .metadataTooLarge
  return body

/-! ## Scopes -/

structure DiscoveredScope where
  scope : ScopeConfig
  descriptor : Bytes
  descriptorKey : Bytes

def addScope (H : Hashes) (r : ArchiveReader) (found : List DiscoveredScope) (object : RemoteObject) :
    Except ReaderError (List DiscoveredScope) := do
  reject (found.any fun prior => prior.descriptorKey = object.key) (.integrity "duplicate scope descriptor key")
  let body ← metadata r object.key
  reject (sizeChanged object body) (.integrity "scope descriptor size changed")
  let scope ← (scopeConfigFromCanonicalJSON body).mapError fun _ => .integrity "scope descriptor is invalid"
  let layout ← (newLayout H r.config.immutableRoot scope).mapError fun _ => .integrity "scope layout is invalid"
  reject (layout.scopeDescriptorKey.toOption ≠ some object.key)
    (.integrity "scope descriptor key does not match identity")
  let scopeKey ← (scopePathKey H scope).mapError .other
  reject (found.any fun prior => (scopePathKey H prior.scope).toOption = some scopeKey)
    (.integrity "duplicate scope descriptor identity")
  return found ++ [⟨scope, body, object.key⟩]

def isScopeDescriptor (object : RemoteObject) : Bool := (utf8 "/scope-descriptor-v1.json").isSuffixOf object.key

def discoverScopes (H : Hashes) (r : ArchiveReader) : Except ReaderError (List DiscoveredScope) := do
  let objects ← r.backend.listLimited (trimRight r.config.immutableRoot ++ [47]) r.config.maxRemoteObjects
  ((sortByKey objects).filter isScopeDescriptor).foldlM (addScope H r) []

structure RawScopeSelector where
  datasetID : Bytes
  providerID : Bytes
  exactSourceSymbol : Bytes

def RawScopeSelector.selects (selector : RawScopeSelector) (found : DiscoveredScope) : Bool :=
  found.scope.datasetID = selector.datasetID ∧ found.scope.providerID = selector.providerID ∧
    found.scope.exactSourceSymbol = selector.exactSourceSymbol

def selectRawScope (scopes : List DiscoveredScope) (selector : RawScopeSelector) : Except ReaderError DiscoveredScope := do
  reject (selector.datasetID = [] ∨ selector.providerID = [] ∨ selector.exactSourceSymbol = [])
    (.other "dataset, provider, and exact source symbol are required")
  match scopes.filter selector.selects with
  | [] => .error (.integrity "scope identity was not discovered")
  | [selected] => .ok selected
  | _ => .error (.integrity "scope identity is ambiguous")

theorem selects_of_selectRawScope {scopes : List DiscoveredScope} {selector : RawScopeSelector} {found : DiscoveredScope}
    (h : selectRawScope scopes selector = .ok found) : selector.selects found = true := by
  simp only [selectRawScope, bind_eq_ok] at h
  obtain ⟨_, -, h⟩ := h
  split at h
  · cases h
  · rename_i selected hselected
    obtain rfl : selected = found := Except.ok.inj h
    exact List.of_mem_filter (hselected ▸ List.mem_singleton_self selected)
  · cases h

/-! ## Snapshots -/

structure SnapshotDescriptor where
  datasetID : Bytes
  providerID : Bytes
  exactSourceSymbol : Bytes
  dayDefinitionID : Bytes
  date : Bytes
  revision : UInt64
  publisherID : Bytes
  publisherEpoch : UInt64
  manifestKey : Bytes
  manifestSHA256 : Digest
  chainSliceStart : UInt64
  chainSliceStartRoot : Digest
  chainSliceEnd : UInt64
  chainSliceEndRoot : Digest
  acceptedRecordCount : UInt64
  errorCount : UInt64

def snapshotDescriptor (scope : ScopeConfig) (m : RawDayManifest) (key : Bytes) : SnapshotDescriptor where
  datasetID := m.datasetID
  providerID := scope.providerID
  exactSourceSymbol := scope.exactSourceSymbol
  dayDefinitionID := m.dayDefinitionID
  date := m.date
  revision := m.revision
  publisherID := m.publisherID
  publisherEpoch := m.publisherEpoch
  manifestKey := key
  manifestSHA256 := m.manifestSHA256
  chainSliceStart := m.chainSliceStartSequence
  chainSliceStartRoot := m.chainSliceStartRoot
  chainSliceEnd := m.chainSliceEndSequence
  chainSliceEndRoot := m.chainSliceEndRoot
  acceptedRecordCount := m.acceptedRecordCount
  errorCount := m.errorCount

def manifestMatchesScope (H : Hashes) (m : RawDayManifest) (scope : ScopeConfig) : Except ReaderError Unit := do
  let hash ← (scope.configHash H).mapError .other
  reject (m.datasetID ≠ scope.datasetID ∨ m.dayDefinitionID ≠ scope.dayDefinitionID ∨ m.publisherID ≠ scope.publisherID ∨
      m.publisherEpoch ≠ scope.publisherEpoch ∨ m.settlePolicy ≠ scope.settlePolicy ∨ m.configHash ≠ hash)
    (.integrity "manifest scope differs from descriptor")

/-- The manifests loaded so far, with their keys. -/
def addManifest (H : Hashes) (r : ArchiveReader) (layout : Layout) (scope : ScopeConfig) (loaded : List ManifestRecord)
    (object : RemoteObject) : Except ReaderError (List ManifestRecord) := do
  reject (loaded.any fun prior => prior.key = object.key) (.integrity "duplicate manifest key")
  let body ← metadata r object.key
  let m ← (verifyRawDayManifest H body).mapError fun _ => .integrity "remote manifest is invalid"
  reject ((manifestCanonicalJSON m).toOption ≠ some body) (.integrity "remote manifest bytes are not canonical")
  reject ((layout.manifestKey H m).toOption ≠ some object.key) (.integrity "remote manifest key does not match digest")
  reject (sizeChanged object body) (.integrity "remote manifest size changed")
  manifestMatchesScope H m scope
  reject (loaded.any fun prior => prior.manifest.manifestSHA256 = m.manifestSHA256)
    (.integrity "duplicate manifest digest")
  return loaded ++ [⟨object.key, body, m⟩]

/-- The revisions of one date; the first record stands for the candidate. -/
def checkDate (H : Hashes) (records : List ManifestRecord) (date : Bytes) : Except ReaderError Unit :=
  match records.filter fun record => record.manifest.date = date with
  | [] => .ok ()
  | first :: rest => do
    let _ ← (validateRevisionGraph H first.manifest first.bytes (first :: rest)).mapError fun _ =>
      .integrity "revision graph is invalid"

/-- By date, then by revision. -/
def descriptorLE (a b : SnapshotDescriptor) : Prop :=
  if a.date ≠ b.date then keyLE a.date b.date else a.revision ≤ b.revision

instance : DecidableRel descriptorLE := fun a b =>
  inferInstanceAs (Decidable (if a.date ≠ b.date then keyLE a.date b.date else a.revision ≤ b.revision))

/-- The folder of the raw-day manifests of a scope. -/
def snapshotFolder (H : Hashes) (scope : ScopeConfig) : Bytes :=
  utf8 "snapshots/raw/day-definition=" ++ identityPathKey H scope.dayDefinitionID

/-- What is listed of all dates. -/
def listManifests (H : Hashes) (r : ArchiveReader) (found : DiscoveredScope) :
    Except ReaderError (Layout × List RemoteObject) := do
  let layout ← (newLayout H r.config.immutableRoot found.scope).mapError fun _ => .integrity "scope layout is invalid"
  let base ← (layout.remoteKey (snapshotFolder H found.scope)).mapError .other
  let objects ← r.backend.listLimited (base ++ [47]) r.config.maxRemoteObjects
  return (layout, objects)

def loadSnapshots (H : Hashes) (r : ArchiveReader) (found : DiscoveredScope) :
    Except ReaderError (List SnapshotDescriptor) := do
  let (layout, objects) ← listManifests H r found
  let records ← (sortByKey objects).foldlM (addManifest H r layout found.scope) []
  each (checkDate H records) (records.map (·.manifest.date)).dedup
  return (records.map fun record => snapshotDescriptor found.scope record.manifest record.key).insertionSort descriptorLE

theorem addManifest_eq_ok {H : Hashes} {r : ArchiveReader} {layout : Layout} {scope : ScopeConfig}
    (loaded : List ManifestRecord) (object : RemoteObject) (next : List ManifestRecord)
    (h : addManifest H r layout scope loaded object = .ok next) :
    ∃ record : ManifestRecord, (record.key = object.key ∧ metadata r object.key = .ok record.bytes ∧
      verifyRawDayManifest H record.bytes = .ok record.manifest) ∧ next = loaded ++ [record] := by
  simp only [addManifest, bind_eq_ok, mapError_eq_ok, pure_eq_ok] at h
  obtain ⟨_, -, body, hbody, m, hm, _, -, _, -, _, -, _, -, _, -, rfl⟩ := h
  exact ⟨⟨object.key, body, m⟩, ⟨rfl, hbody, hm⟩, rfl⟩

theorem descriptor_of_listed {H : Hashes} {r : ArchiveReader} {found : DiscoveredScope}
    {descriptors : List SnapshotDescriptor} (h : loadSnapshots H r found = .ok descriptors) :
    ∃ layout objects, listManifests H r found = .ok (layout, objects) ∧ ∀ object ∈ objects,
      ∃ descriptor ∈ descriptors, descriptor.manifestKey = object.key := by
  simp only [loadSnapshots, bind_eq_ok, pure_eq_ok] at h
  obtain ⟨⟨layout, objects⟩, hlisted, records, hrecords, _, -, rfl⟩ := h
  refine ⟨layout, objects, hlisted, fun object hobject => ?_⟩
  obtain ⟨made, hmade, rfl⟩ := foldlM_made addManifest_eq_ok hrecords
  have hsorted : object ∈ sortByKey objects := (List.mem_insertionSort _).mpr hobject
  obtain ⟨record, hrecord, hkey, -, -⟩ := exists_right_of_mem hmade hsorted
  refine ⟨snapshotDescriptor found.scope record.manifest record.key, ?_, hkey⟩
  rw [List.mem_insertionSort]
  exact List.mem_map_of_mem hrecord

/-! ## Selectors -/

structure SnapshotSelector where
  datasetID : Bytes
  providerID : Bytes
  exactSourceSymbol : Bytes
  date : Bytes
  manifest : Bytes

structure ResolvedSnapshot where
  descriptor : SnapshotDescriptor
  scope : ScopeConfig
  manifest : RawDayManifest
  manifestKey : Bytes
  manifestBytes : Bytes
  manifestSHA256 : Digest

inductive ManifestSelector
  | key
  | digest (value : Digest)

/-- `strings.ToLower` on ASCII. -/
def toLower (b : UInt8) : UInt8 := if 65 ≤ b ∧ b ≤ 90 then b + 32 else b

/-- `hex.DecodeString` of 64 characters. -/
def decodeHex (text : Bytes) : Option Digest :=
  if text.all fun b => (parseHexDigit b).isSome then some (Digest.ofBytes (hexPairs text)) else none

def parseManifestSelector (value immutableRoot : Bytes) : Except ReaderError ManifestSelector :=
  if value.length = 64 then do
    reject (value.map toLower ≠ value) (.selectorInvalid "manifest digest must be lowercase")
    let digest ← (decodeHex value).elim (.error (.selectorInvalid "manifest digest is invalid")) .ok
    reject (digest = Digest.zero) (.selectorInvalid "manifest digest is invalid")
    return .digest digest
  else do
    let root := trimRight immutableRoot ++ [47]
    reject (!root.isPrefixOf value ∨ value.any forbiddenByte ∨ containsText (utf8 "//") value)
      (.selectorInvalid "immutable manifest key is not canonical")
    reject ((components (value.drop root.length)).any fun part => part = [] ∨ part = utf8 "." ∨ part = utf8 "..")
      (.selectorInvalid "immutable manifest key contains a traversal segment")
    return .key

/-- A selector that names a scope names this one. -/
def SnapshotSelector.admits (selector : SnapshotSelector) (scope : ScopeConfig) : Bool :=
  (selector.datasetID = [] ∨ scope.datasetID = selector.datasetID) ∧
    (selector.providerID = [] ∨ scope.providerID = selector.providerID) ∧
    (selector.exactSourceSymbol = [] ∨ scope.exactSourceSymbol = selector.exactSourceSymbol)

def SnapshotSelector.names (selector : SnapshotSelector) (descriptor : SnapshotDescriptor) : ManifestSelector → Bool
  | .key => (selector.date = [] ∨ descriptor.date = selector.date) ∧ descriptor.manifestKey = selector.manifest
  | .digest digest => (selector.date = [] ∨ descriptor.date = selector.date) ∧ descriptor.manifestSHA256 = digest

def resolveDescriptor (H : Hashes) (r : ArchiveReader) (scope : ScopeConfig) (descriptor : SnapshotDescriptor) :
    Except ReaderError ResolvedSnapshot := do
  let body ← metadata r descriptor.manifestKey
  let m ← (verifyRawDayManifest H body).mapError fun _ => .integrity "resolved manifest changed"
  reject (m.manifestSHA256 ≠ descriptor.manifestSHA256) (.integrity "resolved manifest changed")
  return { descriptor, scope, manifest := m, manifestKey := descriptor.manifestKey, manifestBytes := body,
           manifestSHA256 := m.manifestSHA256 }

def resolveInScope (H : Hashes) (r : ArchiveReader) (selector : SnapshotSelector) (kind : ManifestSelector)
    (matched : List ResolvedSnapshot) (found : DiscoveredScope) : Except ReaderError (List ResolvedSnapshot) := do
  let snapshots ← loadSnapshots H r found
  let resolved ← (snapshots.filter fun descriptor => selector.names descriptor kind).mapM (resolveDescriptor H r found.scope)
  return matched ++ resolved

def resolveSnapshot (H : Hashes) (r : ArchiveReader) (selector : SnapshotSelector) : Except ReaderError ResolvedSnapshot := do
  reject (selector.manifest = []) (.selectorInvalid "immutable manifest selector is required")
  let kind ← parseManifestSelector selector.manifest r.config.immutableRoot
  let scopes ← discoverScopes H r
  let matched ← (scopes.filter fun found => selector.admits found.scope).foldlM (resolveInScope H r selector kind) []
  match matched with
  | [] => .error (.selectorNotFound "manifest selector did not match exactly one snapshot")
  | [snapshot] => .ok snapshot
  | _ => .error (.integrity "manifest selector matched multiple snapshots")

end TickPlatform.Delivery
