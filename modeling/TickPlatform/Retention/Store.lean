import TickPlatform.Files
import TickPlatform.Retention.Planner

/-!
# The directories that pruning works on

The WAL root with `sealed/`, `trash/` and `checkpoints/`, and the raw outbox with its
`prune-completions/`: how they are listed, checked and loaded. A directory that is absent is an
empty one. The file of a valid document is kept as that document.
-/

namespace TickPlatform.Retention

open Bytes Protocol Replay Wal Files

/-! ## Files -/

inductive PruneName
  | sealed (name : Bytes)
  | trash (name : Bytes)
  /-- `checkpoints/checkpoint-%020d.json`. -/
  | checkpoint (endSequence : UInt64)
  /-- `checkpoints/.checkpoint-*.tmp`. -/
  | checkpointTemporary (nonce : Nat)
  | checkpointOther (name : Bytes)
  /-- A file of the raw outbox by its relative path. -/
  | outbox (path : Bytes)
  /-- `prune-completions/completion-<id>.json`. -/
  | completion (artifactID : Bytes)
  /-- `prune-completions/.prune-completion-*.tmp`. -/
  | completionTemporary (nonce : Nat)
  | completionOther (name : Bytes)
deriving DecidableEq

/-- A checkpoint with the canonical bytes of its file. -/
structure CheckpointDocument (H : Hashes) where
  value : PruneCheckpoint
  canonical : Bytes
  valid : value.canonicalJSON H = .ok canonical
deriving DecidableEq

structure CompletionDocument (H : Hashes) where
  value : PruneCompletion
  canonical : Bytes
  valid : value.canonicalJSON H = .ok canonical
deriving DecidableEq

inductive Content (H : Hashes)
  | data (bytes : Bytes)
  | checkpoint (document : CheckpointDocument H)
  | completion (document : CompletionDocument H)
deriving DecidableEq

variable {H : Hashes}

def Content.bytes : Content H → Bytes
  | .data bytes => bytes
  | .checkpoint document => document.canonical
  | .completion document => document.canonical

abbrev PruneDisk (H : Hashes) := Tree PruneName (Content H)

abbrev PruneOp (H : Hashes) := FileOp PruneName (Content H)

inductive PruneErrorKind
  /-- `ErrPruneIntegrity`. -/
  | integrity
  /-- `ErrPruneAvailability`. -/
  | availability
  | other
deriving DecidableEq, Repr

structure PruneError where
  kind : PruneErrorKind
  text : String
deriving DecidableEq, Repr

def integrity (text : String) : PruneError := ⟨.integrity, text⟩
def availability (text : String) : PruneError := ⟨.availability, text⟩
def otherError (text : String) : PruneError := ⟨.other, text⟩

def sealedFolder : Folder PruneName Bytes where
  place := .sealed
  pick | .sealed name => some name | _ => none
  pick_iff := by rintro (_ | _) a <;> simp

def trashFolder : Folder PruneName Bytes where
  place := .trash
  pick | .trash name => some name | _ => none
  pick_iff := by rintro (_ | _) a <;> simp

def checkpointFolder : Folder PruneName UInt64 where
  place := .checkpoint
  pick | .checkpoint endSequence => some endSequence | _ => none
  pick_iff := by rintro (_ | _) a <;> simp

def outboxFolder : Folder PruneName Bytes where
  place := .outbox
  pick | .outbox path => some path | _ => none
  pick_iff := by rintro (_ | _) a <;> simp

def completionFolder : Folder PruneName Bytes where
  place := .completion
  pick | .completion artifactID => some artifactID | _ => none
  pick_iff := by rintro (_ | _) a <;> simp

def PruneName.nonce : PruneName → Nat
  | .checkpointTemporary nonce => nonce
  | .completionTemporary nonce => nonce
  | _ => 0

/-- `os.CreateTemp`: a name that is not in use. -/
def freshNonce (disk : PruneDisk H) : Nat := (disk.keys.map PruneName.nonce).sum + 1

/-! ## Checkpoints -/

def maxCheckpointFiles : Nat := 1048576

structure CheckpointRecord where
  checkpoint : PruneCheckpoint
  digest : Digest
deriving DecidableEq

def PruneName.inCheckpoints : PruneName → Bool
  | .checkpoint _ => true
  | .checkpointTemporary _ => true
  | .checkpointOther _ => true
  | _ => false

def PruneName.unknownCheckpoint : PruneName → Bool
  | .checkpointOther _ => true
  | _ => false

/-- The file name is the end sequence of the document. -/
def decodeCheckpoint (endSequence : UInt64) : Content H → Except PruneError (CheckpointDocument H)
  | .checkpoint document =>
    if document.value.endSequence = endSequence then .ok document
    else .error (integrity "checkpoint file identity is invalid")
  | _ => .error (integrity "checkpoint file identity is invalid")

def checkPredecessor (chain : List CheckpointRecord) (checkpoint : PruneCheckpoint) (genesis broken : String) :
    Except PruneError Unit :=
  match chain.getLast? with
  | none => reject (checkpoint.previousCheckpointDigest ≠ Digest.zero) (integrity genesis)
  | some previous =>
    reject (checkpoint.endSequence ≤ previous.checkpoint.endSequence ∨
        checkpoint.previousCheckpointDigest ≠ previous.digest)
      (integrity broken)

def recordOf (document : CheckpointDocument H) : CheckpointRecord :=
  ⟨document.value, pruneCheckpointDigest H document.canonical⟩

def addCheckpoint (chain : List CheckpointRecord) (file : UInt64 × Content H) :
    Except PruneError (List CheckpointRecord) := do
  let document ← decodeCheckpoint file.1 file.2
  checkPredecessor chain document.value "first checkpoint has a predecessor" "checkpoint chain predecessor mismatch"
  return chain ++ [recordOf document]

/-- The chain from the oldest checkpoint on; it is empty where the source says `ErrCheckpointAbsent`. -/
def loadCheckpointChain (disk : PruneDisk H) : Except PruneError (List CheckpointRecord) := do
  reject ((disk.keys.filter PruneName.inCheckpoints).length > maxCheckpointFiles)
    (integrity "checkpoint count exceeds limit")
  reject (disk.keys.any PruneName.unknownCheckpoint) (integrity "unknown checkpoint entry")
  (checkpointFolder.list (· ≤ ·) disk).foldlM addCheckpoint []

/-! ## Sealed segments -/

@[irreducible] def segmentNameFromRange (start endSequence : UInt64) : Bytes := utf8 (segmentName start endSequence)

/-- The path is kept in the result only, and nothing here reads it. -/
def verifySealedSegment (H : Hashes) (data : Bytes) : Except WalError VerifiedSegment := verifySealedBytes H "" data

def rangeOf (segment : VerifiedSegment) : WALRange where
  startSequence := segment.startSequence
  endSequence := segment.lastSequence
  startChainRoot := segment.chainStart
  endChainRoot := segment.chainRoot

def segmentArtifact (kind : ArtifactKind) (path : Bytes) (segment : VerifiedSegment) : LocalArtifact where
  kind := kind
  trustedPath := path
  bytes := UInt64.ofNat segment.fileBytes
  contentSHA256 := segment.objectSHA256
  walRange := some (rangeOf segment)
  replay := none
  active := false

def sealedPath (name : Bytes) : Bytes := utf8 "sealed/" ++ name

/-- An artifact with the segment it was made from. -/
abbrev Inventoried := LocalArtifact × VerifiedSegment

def inventorySegment (file : Bytes × Content H) : Except PruneError Inventoried := do
  let segment ← (verifySealedSegment H file.2.bytes).mapError fun _ => otherError "verify sealed WAL"
  reject (file.1 ≠ segmentNameFromRange segment.startSequence segment.lastSequence)
    (otherError "sealed WAL filename does not match its verified range")
  return (segmentArtifact .walSegment (sealedPath file.1) segment, segment)

def fileSize (file : Bytes × Content H) : Nat := file.2.bytes.length

def addSegment (maxObjects maxBytes : UInt64) :
    List Inventoried × Nat → Bytes × Content H → Except PruneError (List Inventoried × Nat) :=
  collect maxObjects.toNat maxBytes.toNat (otherError "sealed WAL inventory exceeds object limit")
    (fun _ => otherError "sealed WAL inventory exceeds byte limit") fileSize inventorySegment

def walSuffix : Bytes := utf8 ".wal"

/-- The files of `sealed/` that count as segments. -/
def sealedSegments (disk : PruneDisk H) : List (Bytes × Content H) :=
  (sealedFolder.list keyLE disk).filter fun file => walSuffix.isSuffixOf file.1

def inventorySegments (disk : PruneDisk H) (maxObjects maxBytes : UInt64) :
    Except PruneError (List Inventoried × Nat) := do
  reject (maxObjects = 0) (otherError "WAL inventory root and object limit are required")
  reject (maxBytes = 0) (otherError "WAL inventory byte limit is required")
  (sealedSegments disk).foldlM (addSegment maxObjects maxBytes) ([], 0)

def inventoryWALSegments (disk : PruneDisk H) (maxObjects maxBytes : UInt64) :
    Except PruneError (List LocalArtifact) := do
  let found ← inventorySegments disk maxObjects maxBytes
  return found.1.map (·.1)

/-- The place where the next retained segment must start. -/
structure WALBoundary where
  expectedStart : UInt64
  chainRoot : Digest
deriving DecidableEq

def genesisBoundary : WALBoundary := ⟨1, Digest.zero⟩

/-- After the last sequence number the expected start is 0, which no segment has. -/
def addRetained (boundary : WALBoundary) (segment : VerifiedSegment) : Except PruneError WALBoundary := do
  reject (segment.startSequence ≠ boundary.expectedStart ∨ segment.chainStart ≠ boundary.chainRoot)
    (integrity "retained WAL has a sequence or chain-root hole")
  return ⟨segment.lastSequence + 1, segment.chainRoot⟩

def byStart (segments : List VerifiedSegment) : List VerifiedSegment :=
  segments.insertionSort fun a b => a.startSequence ≤ b.startSequence

/-- The segments are those of the inventory; the source verifies them a second time. -/
def verifyRetainedWAL (disk : PruneDisk H) (checkpoint : Option PruneCheckpoint) (maxObjects maxBytes : UInt64) :
    Except PruneError (List VerifiedSegment) := do
  let found ← inventorySegments disk maxObjects maxBytes
  let verified := byStart (found.1.map (·.2))
  match checkpoint with
  | none => do
    let _ ← verified.foldlM addRetained genesisBoundary
    return verified
  | some checkpoint => do
    (checkpoint.validate H).mapError fun err => integrity s!"retained WAL checkpoint: {err}"
    if checkpoint.endSequence = maxUint64 then do
      reject (verified ≠ []) (integrity "retained WAL exists after terminal checkpoint")
      return verified
    else do
      let _ ← verified.foldlM addRetained ⟨checkpoint.endSequence + 1, checkpoint.retainedChainRoot⟩
      return verified

/-! ## Local artifacts -/

/-- The file an artifact path stands for. Only the WAL root and the raw outbox are configured. -/
def artifactName (kind : ArtifactKind) (path : Bytes) : Option PruneName :=
  match kind with
  | .walSegment => if (sealedPath []).isPrefixOf path then some (.sealed (path.drop 7)) else none
  | .rawOutbox => some (.outbox path)
  | _ => none

inductive PathError
  | notExist
  | untrusted (text : String)
deriving DecidableEq, Repr

def trustedArtifactPath (disk : PruneDisk H) (kind : ArtifactKind) (path : Bytes) :
    Except PathError (PruneName × Content H) := do
  (validateRelativePath path).mapError .untrusted
  let name ← (artifactName kind path).elim (.error .notExist) .ok
  let content ← (disk.lookup name).elim (.error .notExist) .ok
  return (name, content)

/-- The segment of an artifact is the one its range and digest name. -/
def segmentMatches (artifact : LocalArtifact) (segment : VerifiedSegment) : Bool :=
  segment.objectSHA256 = artifact.contentSHA256 ∧ UInt64.ofNat segment.fileBytes = artifact.bytes ∧
    artifact.walRange = some (rangeOf segment)

def verifySegmentOf (artifact : LocalArtifact) (data : Bytes) (text : String) : Except PruneError Unit := do
  let segment ← (verifySealedSegment H data).mapError fun _ => integrity text
  reject (!segmentMatches artifact segment) (integrity text)

def verifyLocalArtifact (content : Content H) (artifact : LocalArtifact) : Except PruneError Unit := do
  reject (UInt64.ofNat content.bytes.length ≠ artifact.bytes) (integrity "local artifact size changed")
  reject (H.sha256 content.bytes ≠ artifact.contentSHA256) (integrity "local artifact digest changed")
  reject (artifact.kind = .rawOutbox ∧ artifact.trustedPath ≠ rawWALObjectKey artifact.contentSHA256)
    (integrity "raw outbox path is not content-addressed")
  if artifact.kind = .walSegment ∨ artifact.kind = .rawOutbox then
    verifySegmentOf (H := H) artifact content.bytes "local WAL metadata changed"
  else .ok ()

/-! ## The raw outbox -/

def inventoryObject (file : Bytes × Content H) : Except PruneError Inventoried := do
  reject (file.1 ≠ rawWALObjectKey (H.sha256 file.2.bytes))
    (otherError "raw outbox path does not match its content digest")
  let segment ← (verifySealedSegment H file.2.bytes).mapError fun _ =>
    otherError "raw outbox object is not a verified sealed WAL"
  return (segmentArtifact .rawOutbox file.1 segment, segment)

/-- An object that alone exceeds the byte limit has an error of its own. -/
def objectByteError (maxBytes : UInt64) (file : Bytes × Content H) : PruneError :=
  if fileSize file > maxBytes.toNat then otherError "file inventory object exceeds byte limit"
  else otherError "file inventory exceeds cumulative byte limit"

def addObject (maxObjects maxBytes : UInt64) :
    List Inventoried × Nat → Bytes × Content H → Except PruneError (List Inventoried × Nat) :=
  collect maxObjects.toNat maxBytes.toNat (otherError "file inventory exceeds object limit") (objectByteError maxBytes)
    fileSize inventoryObject

/-- `InventoryFiles` of the raw outbox: every file below it except those of `prune-completions/`. -/
def inventoryFiles (disk : PruneDisk H) (maxObjects maxBytes : UInt64) : Except PruneError (List LocalArtifact) := do
  reject (maxObjects = 0 ∨ maxBytes = 0) (otherError "file inventory limits are required")
  let found ← (outboxFolder.list keyLE disk).foldlM (addObject maxObjects maxBytes) ([], 0)
  return found.1.map (·.1)

/-! ## Completions -/

def decodeCompletion : Content H → Option (CompletionDocument H)
  | .completion document => some document
  | _ => none

def completionArtifact (H : Hashes) (completion : PruneCompletion) : Except String LocalArtifact := do
  completion.validate H
  let artifact : LocalArtifact := { kind := completion.artifactKind, trustedPath := completion.trustedPath,
                                    bytes := completion.bytes, contentSHA256 := completion.contentSHA256,
                                    walRange := completion.retentionProof.walRange,
                                    replay := completion.retentionProof.replay, active := false }
  reject ((artifact.stableID H).toOption ≠ some completion.artifactID) "prune completion artifact identity is invalid"
  reject (!proofMatchesArtifact completion.retentionProof artifact)
    "prune completion retention proof identity is invalid"
  return artifact

/-- The ids that name a file of their own. -/
def checkCompletionName (artifactID : Bytes) : Except PruneError Unit :=
  reject (artifactID = [] ∨ artifactID.any fun b => b = 47 ∨ b = 92)
    (integrity "completion path: prune completion artifact ID is not a filename")

def loadPruneCompletion (disk : PruneDisk H) (artifactID : Bytes) : Except PruneError (Option PruneCompletion) := do
  checkCompletionName artifactID
  match disk.lookup (.completion artifactID) with
  | none => .ok none
  | some content =>
    match decodeCompletion content with
    | none => .error (integrity "completion identity is invalid")
    | some document => do
      reject (document.value.artifactID ≠ artifactID) (integrity "completion identity is invalid")
      return some document.value

def completionMatchesAction (H : Hashes) (completion : PruneCompletion) (action : PruneAction) :
    Except String Unit := do
  let artifact ← completionArtifact H completion
  reject ((makePruneAction H artifact completion.retentionProof).toOption ≠ some action)
    "prune completion action identity changed"

/-- A source that is still there is the one the completion is about. -/
def checkSource (disk : PruneDisk H) (artifact : LocalArtifact) : Except PruneError Unit :=
  match trustedArtifactPath disk artifact.kind artifact.trustedPath with
  | .ok (_, content) =>
    (verifyLocalArtifact content artifact).mapError fun err => otherError s!"completed prune artifact changed: {err.text}"
  | .error .notExist => .ok ()
  | .error (.untrusted text) => .error (otherError s!"inspect completed prune artifact: {text}")

def recoveredCandidate (artifact : LocalArtifact) (completion : PruneCompletion) : CandidateFact where
  artifact := artifact
  proof := some completion.retentionProof
  freshRemote := true
  coverageVerified := true
  remoteVerified := false
  recoveryRequired := false

def PruneName.unexpectedCompletion : PruneName → Bool
  | .completion artifactID => !artifactPrefixText.isPrefixOf artifactID
  | .completionTemporary _ => true
  | .completionOther _ => true
  | _ => false

def inventoryCompletion (disk : PruneDisk H) (file : Bytes × Content H) : Except PruneError CandidateFact := do
  let document ← (decodeCompletion file.2).elim (.error (otherError "decode prune completion")) .ok
  reject (document.value.artifactID ≠ file.1) (otherError "prune completion filename is not bound to artifact")
  reject (document.value.artifactKind ≠ .rawOutbox) (otherError "prune completion kind is not expected")
  let artifact ← (completionArtifact H document.value).mapError otherError
  checkSource disk artifact
  return recoveredCandidate artifact document.value

def addCompletion (disk : PruneDisk H) (maxObjects maxBytes : UInt64) :
    List CandidateFact × Nat → Bytes × Content H → Except PruneError (List CandidateFact × Nat) :=
  collect maxObjects.toNat maxBytes.toNat (otherError "prune completion inventory exceeds object limit")
    (fun _ => otherError "prune completion exceeds byte limit") fileSize (inventoryCompletion disk)

/-- `InventoryPruneCompletions` of the raw outbox. -/
def inventoryPruneCompletions (disk : PruneDisk H) (maxObjects maxBytes : UInt64) :
    Except PruneError (List CandidateFact) := do
  reject (maxObjects = 0 ∨ maxBytes = 0) (otherError "prune completion inventory limits are required")
  reject (disk.keys.any PruneName.unexpectedCompletion)
    (otherError "prune completion directory contains an unexpected entry")
  let found ← (completionFolder.list keyLE disk).foldlM (addCompletion disk maxObjects maxBytes) ([], 0)
  return found.1

end TickPlatform.Retention
