import TickPlatform.Parquet.Generator

/-!
# Building part manifests

The manifest-visible part of a conversion spec, what is checked of a part summary, and the manifest built from it and
the manifest before it.
-/

namespace TickPlatform.Archive

open Bytes Protocol Replay Parquet

structure ConversionTuple where
  replayContractID : Bytes
  formatID : Bytes
  conversionID : Bytes
  converterBuildID : Bytes
  dependencyLockHash : Digest
  writerConfigurationHash : Digest
  targetPlatformContract : Bytes
deriving DecidableEq

def conversionTupleFromSpec (H : Hashes) (spec : ConversionSpec) : Except String ConversionTuple := do
  spec.validate H
  return ⟨spec.replayContractID, spec.formatID, spec.conversionID, spec.converterBuildID, spec.dependencyLockHash,
    spec.writerConfigurationHash, spec.targetPlatformContract⟩

def validateConversionTuple (scope : ReplayScope) (conversion : ConversionTuple) : Except String Unit := do
  reject (conversion.replayContractID ≠ scope.replayContractID ∨ conversion.conversionID ≠ scope.conversionID)
    "replay conversion tuple does not match scope"
  reject (conversion.formatID ≠ replayFormatID ∨ conversion.converterBuildID = [] ∨ conversion.targetPlatformContract = [] ∨
      conversion.dependencyLockHash = Digest.zero ∨ conversion.writerConfigurationHash = Digest.zero)
    "replay conversion tuple is incomplete"

def validateArtifactSummary (H : Hashes) (scope : ReplayScope) (artifact : PartArtifact) : Except String Unit := do
  reject ((replayPartObjectKey H scope artifact.firstStreamSequence artifact.lastStreamSequence
        artifact.partSHA256).toOption ≠ some artifact.partKey ∨ artifact.partSHA256 = Digest.zero)
    "part artifact key is not bound to its hash"
  reject (artifact.partBytes = 0 ∨ artifact.rowCount = 0 ∨ artifact.canonicalRowBytes = 0)
    "part artifact has an empty size or row count"
  reject (artifact.lastStreamSequence < artifact.firstStreamSequence ∨
      artifact.lastStreamSequence - artifact.firstStreamSequence ≠ artifact.rowCount - 1)
    "part artifact stream range does not equal row count"
  reject (artifact.firstRowChainHash = Digest.zero ∨ artifact.lastRowChainHash = Digest.zero)
    "part artifact row-chain anchors must not be zero"
  reject (artifact.partSequence = 0 ∧ artifact.firstStreamSequence ≠ 0)
    "first part artifact must start at stream sequence zero"
  reject (artifact.partSequence > 0 ∧ artifact.previousRowChainHash = Digest.zero)
    "successor part artifact requires a previous row-chain hash"

structure PartManifestInput where
  scope : ReplayScope
  conversion : ConversionTuple
  artifact : PartArtifact
deriving DecidableEq

/-- The checks that both constructors of a manifest make. -/
def PartManifestInput.validate (H : Hashes) (input : PartManifestInput) : Except String Unit := do
  input.scope.validate
  validateConversionTuple input.scope input.conversion
  validateArtifactSummary H input.scope input.artifact

def partManifestInputFromArtifact (H : Hashes) (scope : ReplayScope) (conversion : ConversionTuple)
    (artifact : PartArtifact) : Except String PartManifestInput := do
  PartManifestInput.validate H ⟨scope, conversion, artifact⟩
  return ⟨scope, conversion, artifact⟩

/-- The binding of a part, against a scope and a conversion. -/
def samePartBinding (part : PartManifest) (scope : ReplayScope) (conversion : ConversionTuple) : Bool :=
  part.datasetID = scope.datasetID ∧ part.dayDefinitionID = scope.dayDefinitionID ∧ part.date = scope.date ∧
    part.replayContractID = scope.replayContractID ∧ part.formatID = conversion.formatID ∧
    part.conversionID = conversion.conversionID ∧ part.converterBuildID = conversion.converterBuildID ∧
    part.dependencyLockHash = conversion.dependencyLockHash ∧
    part.writerConfigurationHash = conversion.writerConfigurationHash ∧
    part.targetPlatformContract = conversion.targetPlatformContract ∧
    part.rawDayManifestKey = scope.rawDayManifestKey ∧ part.rawDayManifestSHA256 = scope.rawDayManifestSHA256

def strictPartDigest (H : Hashes) (manifest : PartManifest) : Except String Digest := do
  manifest.validate H
  reject (manifest.partBytes = 0 ∨ manifest.rowCount = 0 ∨ manifest.canonicalRowBytes = 0 ∨
      manifest.firstRowChainHash = Digest.zero ∨ manifest.lastRowChainHash = Digest.zero)
    "part manifest has invalid bounded summary"
  reject (manifest.lastStreamSequence < manifest.firstStreamSequence ∨ manifest.rowCount = 0 ∨
      manifest.lastStreamSequence - manifest.firstStreamSequence ≠ manifest.rowCount - 1)
    "part manifest row range is inconsistent"
  let digest ← partManifestDigest H manifest
  reject (manifest.manifestSHA256 ≠ Digest.zero ∧ manifest.manifestSHA256 ≠ digest) "part manifest digest mismatch"
  return digest

/-- The digest of the part before, once the part is seen to follow it. -/
def partPredecessor (H : Hashes) (input : PartManifestInput) (previous : Option PartManifest) :
    Except String (Option Digest) :=
  if input.artifact.partSequence = 0 then do
    reject (previous ≠ none) "first part cannot have a predecessor"
    reject (input.artifact.previousRowChainHash ≠ Digest.zero) "first part artifact has a row-chain predecessor"
    return none
  else
    match previous with
    | none => .error "part predecessor sequence is not adjacent"
    | some prior => do
      reject (prior.partSequence = 4294967295 ∨ prior.partSequence + 1 ≠ input.artifact.partSequence)
        "part predecessor sequence is not adjacent"
      (prior.validate H).mapError fun err => s!"invalid part predecessor: {err}"
      reject (!samePartBinding prior input.scope input.conversion) "part predecessor binding differs"
      reject (input.artifact.previousRowChainHash ≠ prior.lastRowChainHash)
        "artifact previous row-chain hash does not match predecessor"
      let digest ← strictPartDigest H prior
      return some digest

/-- The manifest before its own digest is entered. -/
def partManifest (input : PartManifestInput) (predecessor : Option Digest) : PartManifest where
  manifestVersion := partManifestVersion
  datasetID := input.scope.datasetID
  dayDefinitionID := input.scope.dayDefinitionID
  date := input.scope.date
  replayContractID := input.scope.replayContractID
  formatID := input.conversion.formatID
  conversionID := input.conversion.conversionID
  converterBuildID := input.conversion.converterBuildID
  dependencyLockHash := input.conversion.dependencyLockHash
  writerConfigurationHash := input.conversion.writerConfigurationHash
  targetPlatformContract := input.conversion.targetPlatformContract
  rawDayManifestKey := input.scope.rawDayManifestKey
  rawDayManifestSHA256 := input.scope.rawDayManifestSHA256
  partSequence := input.artifact.partSequence
  partKey := input.artifact.partKey
  partSHA256 := input.artifact.partSHA256
  partBytes := input.artifact.partBytes
  rowCount := input.artifact.rowCount
  canonicalRowBytes := input.artifact.canonicalRowBytes
  firstStreamSequence := input.artifact.firstStreamSequence
  lastStreamSequence := input.artifact.lastStreamSequence
  previousRowChainHash := input.artifact.previousRowChainHash
  firstRowChainHash := input.artifact.firstRowChainHash
  lastRowChainHash := input.artifact.lastRowChainHash
  previousManifestSHA256 := predecessor
  manifestSHA256 := Digest.zero

def buildPartManifest (H : Hashes) (input : PartManifestInput) (previous : Option PartManifest) :
    Except String PartManifest := do
  input.validate H
  let predecessor ← partPredecessor H input previous
  let manifest := partManifest input predecessor
  manifest.validate H
  let digest ← strictPartDigest H manifest
  return { manifest with manifestSHA256 := digest }

/-- The manifests of the parts of a day, each built on the one before it. -/
def buildPartManifests (H : Hashes) (scope : ReplayScope) (conversion : ConversionTuple) :
    Option PartManifest → List PartArtifact → Except String (List PartManifest)
  | _, [] => .ok []
  | previous, artifact :: artifacts => do
    let input ← partManifestInputFromArtifact H scope conversion artifact
    let manifest ← buildPartManifest H input previous
    let later ← buildPartManifests H scope conversion (some manifest) artifacts
    return manifest :: later

end TickPlatform.Archive
