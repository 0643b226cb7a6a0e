import TickPlatform.Replay.Parts

/-!
# Replay-day manifests

One revision of a replay day, its digest and its key.
-/

namespace TickPlatform.Replay

open Bytes Protocol Archive

def replayDayManifestVersion : Bytes := ascii "replay-day-manifest-v1"
def replayManifestDomain : Bytes := ascii "tick-data-platform/replay-day-manifest/v1\x00"

structure ReplayDayManifest where
  manifestVersion : Bytes
  manifestID : Bytes
  datasetID : Bytes
  dayDefinitionID : Bytes
  date : Bytes
  revision : UInt64
  rawDayManifestKey : Bytes
  rawDayManifestSHA256 : Digest
  replayContractID : Bytes
  formatID : Bytes
  conversionID : Bytes
  converterBuildID : Bytes
  dependencyLockHash : Digest
  writerConfigurationHash : Digest
  targetPlatformContract : Bytes
  completenessStatus : Bytes
  partManifestKeys : List Bytes
  partSetRoot : Digest
  canonicalStreamRowChainRoot : Digest
  previousManifestSHA256 : Option Digest
  manifestSHA256 : Digest
  m0EmptyPartsCompatibility : Bool
deriving DecidableEq

def validPartManifestKeyShape (base key : Bytes) : Bool :=
  let front := base ++ ascii "/manifests/part-"
  let rest := key.drop front.length
  let suffix := rest.take (rest.length - 5)
  front.isPrefixOf key && (ascii ".json").isSuffixOf key && suffix.length = 73 && suffix[8]? = some 45 &&
    ((suffix.take 8).all fun b => (digit b).isSome) &&
    (suffix.drop 9).all fun b => (digit b).isSome ∨ (97 ≤ b ∧ b ≤ 102)

def addPartManifestKey (base : Bytes) (seen : List Bytes) (key : Bytes) : Except String (List Bytes) := do
  reject (key = [] ∨ seen.any (· = key) ∨ !validPartManifestKeyShape base key) "invalid or duplicate part manifest key"
  return key :: seen

namespace ReplayDayManifest

def scope (m : ReplayDayManifest) : ReplayScope where
  datasetID := m.datasetID
  dayDefinitionID := m.dayDefinitionID
  date := m.date
  replayContractID := m.replayContractID
  conversionID := m.conversionID
  rawDayManifestKey := m.rawDayManifestKey
  rawDayManifestSHA256 := m.rawDayManifestSHA256

/-- The source ranges over a map here as well. -/
def fields (m : ReplayDayManifest) : List (String × Bytes) :=
  [("dataset_id", m.datasetID), ("day_definition_id", m.dayDefinitionID), ("date", m.date),
    ("replay_contract_id", m.replayContractID), ("conversion_id", m.conversionID),
    ("converter_build_id", m.converterBuildID), ("target_platform_contract", m.targetPlatformContract)]

def checkRoots (m : ReplayDayManifest) : Except String Unit :=
  if m.partManifestKeys = [] then
    reject (m.partSetRoot ≠ Digest.zero ∨ m.canonicalStreamRowChainRoot ≠ Digest.zero)
      "empty replay manifest must have zero roots"
  else
    reject (m.partSetRoot = Digest.zero ∨ m.canonicalStreamRowChainRoot = Digest.zero)
      "non-empty replay manifest must have nonzero roots"

def validate (H : Hashes) (m : ReplayDayManifest) : Except String Unit := do
  if m.m0EmptyPartsCompatibility then
    reject (m.partManifestKeys ≠ []) "M0 compatibility form must have empty parts"
  else
    reject (m.manifestVersion ≠ replayDayManifestVersion ∨ m.manifestID = [] ∨ m.revision = 0 ∨
        m.rawDayManifestKey = [] ∨ m.rawDayManifestSHA256 = Digest.zero)
      "invalid replay manifest identity or raw binding"
    reject (parseDate m.date = none) "date is not UTC YYYY-MM-DD"
    reject (!isProtocolString m.rawDayManifestKey ∨ (m.rawDayManifestKey.any fun b => b = 92 ∨ b = 13 ∨ b = 10) ∨
        doubleSlash m.rawDayManifestKey)
      "raw_day_manifest_key is not canonical"
    each checkComponent (components m.rawDayManifestKey)
    reject (m.formatID ≠ replayFormatID ∨
        m.completenessStatus ≠ ascii "provisional" ∧ m.completenessStatus ≠ ascii "settled_snapshot")
      "invalid replay format or completeness"
    each checkProducerField m.fields
    reject (m.dependencyLockHash = Digest.zero ∨ m.writerConfigurationHash = Digest.zero)
      "conversion tuple hash is zero"
    reject (m.revision = 1 ∧ m.previousManifestSHA256 ≠ none ∨
        m.revision > 1 ∧ (m.previousManifestSHA256 = none ∨ m.previousManifestSHA256 = some Digest.zero))
      "invalid replay revision predecessor"
    m.checkRoots
    let base ← (replayDerivativeBaseKey H m.scope).mapError fun err => s!"replay derivative key scope: {err}"
    let _ ← m.partManifestKeys.foldlM (addPartManifestKey base) []

def canonicalValue (m : ReplayDayManifest) : Json :=
  jsonObject
    [("canonical_stream_row_chain_root", jsonHash m.canonicalStreamRowChainRoot),
      ("completeness_status", .string m.completenessStatus),
      ("conversion_id", .string m.conversionID),
      ("converter_build_id", .string m.converterBuildID),
      ("dataset_id", .string m.datasetID),
      ("date", .string m.date),
      ("day_definition_id", .string m.dayDefinitionID),
      ("dependency_lock_hash", jsonHash m.dependencyLockHash),
      ("format_id", .string m.formatID),
      ("manifest_id", .string m.manifestID),
      ("manifest_version", .string m.manifestVersion),
      ("part_manifest_keys", .array (m.partManifestKeys.map .string)),
      ("part_set_root", jsonHash m.partSetRoot),
      ("raw_day_manifest_key", .string m.rawDayManifestKey),
      ("raw_day_manifest_sha256", jsonHash m.rawDayManifestSHA256),
      ("replay_contract_id", .string m.replayContractID),
      ("revision", jsonUint m.revision),
      ("target_platform_contract", .string m.targetPlatformContract),
      ("writer_configuration_hash", jsonHash m.writerConfigurationHash),
      ("previous_manifest_sha256", (m.previousManifestSHA256.map jsonHash).getD .null)]

end ReplayDayManifest

def replayDayManifestCanonicalJSON (H : Hashes) (m : ReplayDayManifest) : Except String Bytes := do
  m.validate H
  reject m.m0EmptyPartsCompatibility "M0 compatibility form has no M3 canonical writer"
  canonicalJSON m.canonicalValue

def replayDayManifestDigest (H : Hashes) (m : ReplayDayManifest) : Except String Digest := do
  let canonical ← replayDayManifestCanonicalJSON H m
  return H.sha256 (replayManifestDomain ++ canonical)

def replayDayManifestKey (H : Hashes) (m : ReplayDayManifest) : Except String Bytes := do
  m.validate H
  let digest ← replayDayManifestDigest H m
  let base ← replayDerivativeBaseKey H m.scope
  return base ++ ascii "/replay-day-" ++ decimalText m.revision.toNat ++ ascii "-" ++ encodeHashHex digest ++ ascii ".json"

end TickPlatform.Replay
