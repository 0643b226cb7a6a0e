import TickPlatform.Archive.Snapshot

/-!
# Part manifests

The manifest of one Parquet part, its keys and digest, and the root of a set of parts.
-/

namespace TickPlatform.Replay

open Bytes Protocol Archive

def maxPathBytes : Nat := 1024
def replayFormatID : Bytes := ascii "ticks-parquet-v1"
def partManifestVersion : Bytes := ascii "part-manifest-v1"
def partManifestDomain : Bytes := ascii "tick-data-platform/part-manifest/v1\x00"
def partSetRootDomain : Bytes := ascii "tick-data-platform/part-set/v1\x00"

/-! ## Keys -/

/-- `fmt` of an unsigned number with `%d`. -/
def decimalText (value : Nat) : Bytes := utf8 (toString value)

def replayDerivativeBaseKey (H : Hashes) (scope : ReplayScope) : Except String Bytes := do
  scope.validate
  return ascii "derivatives/stream=" ++ identityPathKey H scope.replayContractID ++ ascii "/format=" ++ replayFormatID ++
    ascii "/conversion=" ++ identityPathKey H scope.conversionID ++ ascii "/day-definition=" ++
    identityPathKey H scope.dayDefinitionID ++ ascii "/date=" ++ scope.date

def replayPartObjectKey (H : Hashes) (scope : ReplayScope) (firstStreamSequence lastStreamSequence : UInt64)
    (partSHA256 : Digest) : Except String Bytes := do
  let base ← replayDerivativeBaseKey H scope
  reject (partSHA256 = Digest.zero ∨ lastStreamSequence < firstStreamSequence) "invalid replay part key identity"
  return base ++ ascii "/parquet/" ++ decimalText firstStreamSequence.toNat ++ ascii "-" ++
    decimalText lastStreamSequence.toNat ++ ascii "-" ++ encodeHashHex partSHA256 ++ ascii ".parquet"

/-! ## The manifest -/

structure PartManifest where
  manifestVersion : Bytes
  datasetID : Bytes
  dayDefinitionID : Bytes
  date : Bytes
  replayContractID : Bytes
  formatID : Bytes
  conversionID : Bytes
  converterBuildID : Bytes
  dependencyLockHash : Digest
  writerConfigurationHash : Digest
  targetPlatformContract : Bytes
  rawDayManifestKey : Bytes
  rawDayManifestSHA256 : Digest
  partSequence : UInt32
  partKey : Bytes
  partSHA256 : Digest
  partBytes : UInt64
  rowCount : UInt64
  canonicalRowBytes : UInt64
  firstStreamSequence : UInt64
  lastStreamSequence : UInt64
  previousRowChainHash : Digest
  firstRowChainHash : Digest
  lastRowChainHash : Digest
  previousManifestSHA256 : Option Digest
  manifestSHA256 : Digest
deriving DecidableEq

namespace PartManifest

def scope (p : PartManifest) : ReplayScope where
  datasetID := p.datasetID
  dayDefinitionID := p.dayDefinitionID
  date := p.date
  replayContractID := p.replayContractID
  conversionID := p.conversionID
  rawDayManifestKey := p.rawDayManifestKey
  rawDayManifestSHA256 := p.rawDayManifestSHA256

/-- What a part must say about the part before it. -/
def checkPredecessor (p : PartManifest) : Except String Unit :=
  if p.partSequence = 0 then
    reject (p.previousManifestSHA256 ≠ none ∨ p.previousRowChainHash ≠ Digest.zero)
      "first part must not have a predecessor"
  else
    reject (p.previousManifestSHA256 = none ∨ p.previousManifestSHA256 = some Digest.zero ∨
        p.previousRowChainHash = Digest.zero)
      "non-first part requires manifest and row-chain predecessors"

def validate (H : Hashes) (p : PartManifest) : Except String Unit := do
  reject (p.manifestVersion ≠ partManifestVersion ∨ p.partKey = [] ∨ p.partSHA256 = Digest.zero ∨ p.partBytes = 0 ∨
      p.rowCount = 0 ∨ p.firstRowChainHash = Digest.zero ∨ p.lastRowChainHash = Digest.zero)
    "invalid part manifest identity or empty part"
  reject (!utf8Valid p.partKey ∨ p.partKey.length > maxPathBytes) "part key is not a Protocol V1 path"
  p.scope.validate.mapError fun err => s!"part manifest scope: {err}"
  each checkProducerField
    [("format_id", p.formatID), ("converter_build_id", p.converterBuildID),
      ("target_platform_contract", p.targetPlatformContract)]
  reject (p.formatID ≠ replayFormatID ∨ p.dependencyLockHash = Digest.zero ∨ p.writerConfigurationHash = Digest.zero)
    "part manifest conversion tuple is incomplete"
  reject (p.lastStreamSequence < p.firstStreamSequence ∨ p.canonicalRowBytes = 0 ∨
      p.lastStreamSequence - p.firstStreamSequence ≠ p.rowCount - 1)
    "invalid part row range"
  let wantKey ← replayPartObjectKey H p.scope p.firstStreamSequence p.lastStreamSequence p.partSHA256
  reject (p.partKey ≠ wantKey) "part key does not match part hash"
  p.checkPredecessor

def canonicalValue (p : PartManifest) : Json :=
  jsonObject
    [("canonical_row_bytes", jsonUint p.canonicalRowBytes),
      ("conversion_id", .string p.conversionID),
      ("converter_build_id", .string p.converterBuildID),
      ("dataset_id", .string p.datasetID),
      ("date", .string p.date),
      ("day_definition_id", .string p.dayDefinitionID),
      ("dependency_lock_hash", jsonHash p.dependencyLockHash),
      ("first_row_chain_hash", jsonHash p.firstRowChainHash),
      ("first_stream_sequence", jsonUint p.firstStreamSequence),
      ("last_row_chain_hash", jsonHash p.lastRowChainHash),
      ("last_stream_sequence", jsonUint p.lastStreamSequence),
      ("manifest_version", .string p.manifestVersion),
      ("format_id", .string p.formatID),
      ("part_bytes", jsonUint p.partBytes),
      ("part_key", .string p.partKey),
      ("part_sequence", .int p.partSequence.toNat),
      ("part_sha256", jsonHash p.partSHA256),
      ("previous_row_chain_hash", jsonHash p.previousRowChainHash),
      ("raw_day_manifest_key", .string p.rawDayManifestKey),
      ("raw_day_manifest_sha256", jsonHash p.rawDayManifestSHA256),
      ("replay_contract_id", .string p.replayContractID),
      ("row_count", jsonUint p.rowCount),
      ("target_platform_contract", .string p.targetPlatformContract),
      ("writer_configuration_hash", jsonHash p.writerConfigurationHash),
      ("previous_manifest_sha256", (p.previousManifestSHA256.map jsonHash).getD .null)]

end PartManifest

def partManifestCanonicalJSON (H : Hashes) (p : PartManifest) : Except String Bytes := do
  p.validate H
  canonicalJSON p.canonicalValue

def partManifestDigest (H : Hashes) (p : PartManifest) : Except String Digest := do
  let canonical ← partManifestCanonicalJSON H p
  return H.sha256 (partManifestDomain ++ canonical)

def partManifestKeyFromDigest (H : Hashes) (part : PartManifest) (digest : Digest) : Except String Bytes := do
  let base ← replayDerivativeBaseKey H part.scope
  return base ++ ascii "/manifests/part-" ++ padded 8 part.partSequence.toNat ++ ascii "-" ++ encodeHashHex digest ++
    ascii ".json"

def partManifestKey (H : Hashes) (part : PartManifest) : Except String Bytes := do
  part.validate H
  let digest ← partManifestDigest H part
  partManifestKeyFromDigest H part digest

/-! ## Sets of parts -/

def writePath (value : Bytes) : Except String Bytes := do
  reject (!utf8Valid value) "path is not UTF-8"
  reject (value.length > maxPathBytes) "path has too many bytes"
  return putUint32 (UInt32.ofNat value.length) ++ value

def samePartBinding (left right : PartManifest) : Bool :=
  left.datasetID = right.datasetID ∧ left.dayDefinitionID = right.dayDefinitionID ∧ left.date = right.date ∧
    left.replayContractID = right.replayContractID ∧ left.formatID = right.formatID ∧
    left.conversionID = right.conversionID ∧ left.converterBuildID = right.converterBuildID ∧
    left.dependencyLockHash = right.dependencyLockHash ∧
    left.writerConfigurationHash = right.writerConfigurationHash ∧
    left.targetPlatformContract = right.targetPlatformContract ∧
    left.rawDayManifestKey = right.rawDayManifestKey ∧ left.rawDayManifestSHA256 = right.rawDayManifestSHA256

/-- A part continues the one before it, or begins the stream. -/
def checkSetPredecessor (H : Hashes) (previous : Option PartManifest) (part : PartManifest) : Except String Unit :=
  match previous with
  | none =>
    reject (part.firstStreamSequence ≠ 0 ∨ part.previousRowChainHash ≠ Digest.zero)
      "first part has an invalid stream or row-chain predecessor"
  | some prior => do
    reject (part.previousManifestSHA256 = none ∨ part.previousManifestSHA256 ≠ (partManifestDigest H prior).toOption)
      "part predecessor does not match previous digest"
    reject (part.previousRowChainHash ≠ prior.lastRowChainHash)
      "part predecessor does not match previous row-chain hash"
    reject (prior.lastStreamSequence = Wal.maxUint64 ∨ part.firstStreamSequence ≠ prior.lastStreamSequence + 1)
      "part stream ranges are not contiguous"

/-- What `PartSetRoot` hashes of the parts from an index on. -/
def partSetItems (H : Hashes) (first : PartManifest) : Nat → Option PartManifest → List PartManifest → Except String Bytes
  | _, _, [] => .ok []
  | index, previous, part :: parts => do
    part.validate H
    reject (part.partSequence.toNat ≠ index) "part sequence is not day-local and contiguous"
    reject (index > 0 ∧ !samePartBinding first part) "part provenance or conversion binding differs"
    let digest ← partManifestDigest H part
    checkSetPredecessor H previous part
    let key ← partManifestKeyFromDigest H part digest
    let path ← writePath key
    let later ← partSetItems H first (index + 1) (some part) parts
    return path ++ digest.bytes ++ putUint64 part.firstStreamSequence ++ putUint64 part.lastStreamSequence ++ later

def partSetRoot (H : Hashes) : List PartManifest → Except String Digest
  | [] => .ok Digest.zero
  | first :: parts => do
    let items ← partSetItems H first 0 none (first :: parts)
    return H.sha256 (partSetRootDomain ++ putUint32 (UInt32.ofNat (first :: parts).length) ++ items)

end TickPlatform.Replay
