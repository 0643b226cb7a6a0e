import TickPlatform.Remote.Layout

/-!
# Revisions of a raw day

`ValidateRevisionGraph`: the manifests of a day that are already there, and one that is to follow them.
-/

namespace TickPlatform.Remote

open Bytes Protocol Replay Archive

inductive RevisionError
  /-- `archive.ErrIntegrity`. -/
  | integrity (text : String)
  /-- `ErrPublisherConflict`. -/
  | publisherConflict (text : String)
deriving DecidableEq, Repr

structure ManifestRecord where
  key : Bytes
  bytes : Bytes
  manifest : RawDayManifest
deriving DecidableEq

def validateManifestRecord (H : Hashes) (record : ManifestRecord) : Except RevisionError Unit := do
  let manifest ← (verifyRawDayManifest H record.bytes).mapError fun _ => .integrity "invalid remote manifest record"
  reject (manifest.manifestSHA256 ≠ record.manifest.manifestSHA256) (.integrity "invalid remote manifest record")
  reject ((manifestCanonicalJSON record.manifest).toOption ≠ some record.bytes)
    (.integrity "remote manifest record is not canonical")

def sameManifestScope (left right : RawDayManifest) : Bool :=
  left.manifestVersion = right.manifestVersion ∧ left.datasetID = right.datasetID ∧
    left.dayDefinitionID = right.dayDefinitionID ∧ left.date = right.date ∧ left.publisherID = right.publisherID ∧
    left.publisherEpoch = right.publisherEpoch ∧ left.configHash = right.configHash ∧
    left.settlePolicy = right.settlePolicy

def validateRevisionSuccessor (previous current : RawDayManifest) : Except RevisionError Unit := do
  reject (previous.datasetID ≠ current.datasetID ∨ previous.dayDefinitionID ≠ current.dayDefinitionID ∨
      previous.date ≠ current.date ∨ previous.publisherID ≠ current.publisherID ∨
      previous.publisherEpoch ≠ current.publisherEpoch ∨ previous.configHash ≠ current.configHash ∨
      previous.settlePolicy ≠ current.settlePolicy)
    (.integrity "revision scope or publisher differs")
  reject (previous.objects.length > current.objects.length) (.integrity "revision objects are not cumulative")
  reject (!previous.objects.isPrefixOf current.objects) (.integrity "revision object prefix changed")
  reject (previous.chainObjects.length > current.chainObjects.length)
    (.integrity "revision chain_objects are not cumulative")
  reject (!previous.chainObjects.isPrefixOf current.chainObjects) (.integrity "revision chain_objects prefix changed")
  reject (previous.acceptedRecordCount > current.acceptedRecordCount ∨ previous.errorCount > current.errorCount ∨
      previous.observedThroughSourceMSC > current.observedThroughSourceMSC ∨
      previous.observedThroughCaptureSeq > current.observedThroughCaptureSeq)
    (.integrity "revision counts or watermarks decreased")
  reject (previous.chainSliceStartSequence ≠ current.chainSliceStartSequence ∨
      previous.chainSliceStartRoot ≠ current.chainSliceStartRoot)
    (.integrity "revision chain start changed")
  reject (previous.chainSliceEndSequence > current.chainSliceEndSequence)
    (.integrity "revision chain end moved backwards")
  reject (previous.chainSliceEndSequence = current.chainSliceEndSequence ∧
      previous.chainSliceEndRoot ≠ current.chainSliceEndRoot)
    (.integrity "revision chain end root changed without extension")

def addRecord (H : Hashes) (candidate : RawDayManifest) (seen : List ManifestRecord) (record : ManifestRecord) :
    Except RevisionError (List ManifestRecord) := do
  validateManifestRecord H record
  reject (!sameManifestScope record.manifest candidate) (.integrity "remote manifest scope or publisher differs")
  reject (seen.any fun prior => prior.manifest.manifestSHA256 = record.manifest.manifestSHA256 ∧
      prior.bytes ≠ record.bytes)
    (.integrity "duplicate manifest digest has different bytes")
  reject (seen.any fun prior => prior.manifest.revision = record.manifest.revision ∧
      prior.manifest.manifestSHA256 ≠ record.manifest.manifestSHA256)
    (.publisherConflict "duplicate revision has different digest")
  return seen ++ [record]

/-- The latest of the records with a digest. -/
def byDigest (existing : List ManifestRecord) (digest : Digest) : Option ManifestRecord :=
  existing.reverse.find? fun record => record.manifest.manifestSHA256 = digest

/-- The record that a later revision names as its predecessor, one revision before it. -/
def predecessorOf (existing : List ManifestRecord) (m : RawDayManifest) (missing absent : String) :
    Except RevisionError ManifestRecord := do
  let digest ← m.previousManifestSHA256.elim (.error (.integrity missing)) .ok
  let predecessor ← (byDigest existing digest).elim (.error (.integrity absent)) .ok
  reject (predecessor.manifest.revision + 1 ≠ m.revision) (.integrity absent)
  return predecessor

/-- The children of the revisions so far: each under the digest of its predecessor. -/
def addChild (existing : List ManifestRecord) (children : List (Digest × Digest)) (record : ManifestRecord) :
    Except RevisionError (List (Digest × Digest)) :=
  if record.manifest.revision = 1 then do
    reject record.manifest.previousManifestSHA256.isSome (.integrity "genesis manifest has a predecessor")
    return children
  else do
    let predecessor ← predecessorOf existing record.manifest "revision predecessor is missing"
      "revision predecessor is absent or not adjacent"
    validateRevisionSuccessor predecessor.manifest record.manifest
    reject (children.any fun child => record.manifest.previousManifestSHA256 = some child.1 ∧
        child.2 ≠ record.manifest.manifestSHA256)
      (.publisherConflict "revision predecessor has two children")
    return (predecessor.manifest.manifestSHA256, record.manifest.manifestSHA256) :: children

def checkCandidate (candidate : RawDayManifest) (existing : List ManifestRecord) (children : List (Digest × Digest)) :
    Except RevisionError Unit :=
  if candidate.revision = 1 then
    reject candidate.previousManifestSHA256.isSome (.integrity "genesis manifest has a predecessor")
  else do
    let predecessor ← predecessorOf existing candidate "candidate predecessor is missing"
      "candidate predecessor is absent or not adjacent"
    validateRevisionSuccessor predecessor.manifest candidate
    reject (children.any fun child => candidate.previousManifestSHA256 = some child.1 ∧
        child.2 ≠ candidate.manifestSHA256)
      (.publisherConflict "candidate would create a revision branch")

/-- Whether the candidate is one of the existing revisions. -/
def validateRevisionGraph (H : Hashes) (candidate : RawDayManifest) (candidateBytes : Bytes)
    (existing : List ManifestRecord) : Except RevisionError Bool := do
  let decoded ← (verifyRawDayManifest H candidateBytes).mapError fun _ => .integrity "candidate manifest is not canonical"
  reject ((manifestCanonicalJSON decoded).toOption ≠ some candidateBytes ∨
      decoded.manifestSHA256 ≠ candidate.manifestSHA256)
    (.integrity "candidate manifest digest or bytes differ")
  (validateRawDayManifest H candidate).mapError fun _ => .integrity "candidate manifest is invalid"
  let _ ← existing.foldlM (addRecord H candidate) []
  let children ← existing.foldlM (addChild existing) []
  match byDigest existing candidate.manifestSHA256 with
  | some prior => do
    reject (prior.bytes ≠ candidateBytes) (.publisherConflict "existing manifest identity has different bytes")
    reject (prior.manifest.revision ≠ candidate.revision) (.integrity "manifest digest is bound to a different revision")
    return true
  | none => do
    reject (existing.any fun prior => prior.manifest.revision = candidate.revision ∧
        prior.manifest.manifestSHA256 ≠ candidate.manifestSHA256)
      (.publisherConflict "revision already has a different digest")
    checkCandidate candidate existing children
    return false

end TickPlatform.Remote
