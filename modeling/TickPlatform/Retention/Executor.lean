import TickPlatform.Retention.Store

/-!
# The prune executor

`Execute` with its two kinds of action, and `RecoverPrune`, as programs over the directories. A fault
injector can stop an execution at each of its marked points.
-/

namespace TickPlatform.Retention

open Bytes Protocol Replay Wal Files Crash

variable {H : Hashes}

abbrev PruneProg (H : Hashes) := Prog (PruneDisk H) (PruneOp H) PruneError

/-! ## Faults -/

inductive FaultPoint
  | beforeCheckpointPublish
  | afterCheckpointPublish
  | beforeTrashRename
  | afterTrashRename
  | beforeUnlink
  | afterUnlink
  | checkpointDirectorySync
  | trashDirectorySync
  | outboxDirectorySync
deriving DecidableEq, Repr

def FaultPoint.text : FaultPoint → String
  | .beforeCheckpointPublish => "before_checkpoint_publish"
  | .afterCheckpointPublish => "after_checkpoint_publish"
  | .beforeTrashRename => "before_trash_rename"
  | .afterTrashRename => "after_trash_rename"
  | .beforeUnlink => "before_unlink"
  | .afterUnlink => "after_unlink"
  | .checkpointDirectorySync => "checkpoint_directory_sync"
  | .trashDirectorySync => "trash_directory_sync"
  | .outboxDirectorySync => "outbox_directory_sync"

/-- Whether the injector fails at a point, for an artifact, at the given one of its calls for that artifact. -/
abbrev FaultInjector := FaultPoint → Bytes → Nat → Bool

def noFault : FaultInjector := fun _ _ _ => false

def inject (fault : FaultInjector) (call : Nat) (point : FaultPoint) (artifactID : Bytes) : PruneProg H Unit :=
  .lift (reject (fault point artifactID call) (availability s!"fault at {point.text}"))

/-! ## Checking an action -/

/-- Which roots are configured. -/
structure PruneRoots where
  walRoot : Bool
  rawOutboxRoot : Bool
deriving DecidableEq

def PruneRoots.rootFor (roots : PruneRoots) : ArtifactKind → Bool
  | .walSegment => roots.walRoot
  | .rawOutbox => roots.rawOutboxRoot
  | _ => false

def checkRoot (roots : PruneRoots) (kind : ArtifactKind) : Except PruneError Unit :=
  reject (!roots.rootFor kind) (integrity s!"prune root for {kind.text} is not configured")

/-- A candidate that may be deleted hands over its proof. -/
def deletionProof (plan : PrunePlan) (candidate : CandidateFact) : Except PruneError RetentionProof := do
  let proof ← candidate.proof.elim (.error (integrity "candidate is no longer deletion eligible")) .ok
  reject (candidate.recoveryRequired ∨ !candidate.freshRemote ∨ !candidate.coverageVerified)
    (integrity "candidate is no longer deletion eligible")
  reject (plan.requireRemoteVerified ∧ !candidate.remoteVerified) (integrity "remote_verified state is missing")
  return proof

def resolveArtifact (disk : PruneDisk H) (artifact : LocalArtifact) (text : String) :
    Except PruneError (PruneName × Content H) :=
  (trustedArtifactPath disk artifact.kind artifact.trustedPath).mapError fun _ => integrity text

def validateAction (roots : PruneRoots) (plan : PrunePlan) (known : List Identified) (disk : PruneDisk H)
    (action : PruneAction) : Except PruneError (LocalArtifact × RetentionProof) := do
  let candidate ← (known.lookup action.artifactID).elim (.error (integrity "plan action has no candidate fact")) .ok
  let proof ← deletionProof plan candidate
  reject ((makePruneAction H candidate.artifact proof).toOption ≠ some action)
    (integrity "plan action identity changed")
  reject (proof.validate.toOption = none ∨ !proofMatchesArtifact proof candidate.artifact)
    (integrity "candidate proof changed")
  checkRoot roots action.artifactKind
  let resolved ← resolveArtifact disk candidate.artifact "trusted artifact path"
  verifyLocalArtifact resolved.2 candidate.artifact
  return (candidate.artifact, proof)

/-! ## Publishing a document -/

def sealCheckpoint (H : Hashes) (checkpoint : PruneCheckpoint) : Except String (CheckpointDocument H) :=
  match h : checkpoint.canonicalJSON H with
  | .ok canonical => .ok ⟨checkpoint, canonical, h⟩
  | .error err => .error err

def sealCompletion (H : Hashes) (completion : PruneCompletion) : Except String (CompletionDocument H) :=
  match h : completion.canonicalJSON H with
  | .ok canonical => .ok ⟨completion, canonical, h⟩
  | .error err => .error err

/-- Written under a temporary name, linked to its own, and the temporary name removed. -/
def publishFile (temporary target : PruneName) (content : Content H) : PruneProg H Unit := do
  .emit (.write temporary content)
  .emit (.link temporary target)
  .emit (.remove temporary)

def publishNewCheckpoint (document : CheckpointDocument H) : PruneProg H Unit := do
  let loaded ← .read loadCheckpointChain
  let chain ← .lift loaded
  .lift (checkPredecessor chain document.value "genesis checkpoint has a predecessor"
    "checkpoint chain is not append-only")
  let nonce ← .read freshNonce
  publishFile (.checkpointTemporary nonce) (.checkpoint document.value.endSequence) (.checkpoint document)

/-- No other process writes the directory, so the link finds its name free. -/
def publishCheckpoint (checkpoint : PruneCheckpoint) : PruneProg H Unit := do
  let document ← .lift ((sealCheckpoint H checkpoint).mapError fun err => integrity s!"checkpoint validation: {err}")
  let existing ← .read (·.lookup (.checkpoint checkpoint.endSequence))
  match existing with
  | some content =>
    .lift (reject (content.bytes ≠ document.canonical) (integrity "checkpoint sequence already has different bytes"))
  | none => publishNewCheckpoint document

/-- The same deletion, authorised under any plan. -/
def samePruneCompletionExecution (left right : PruneCompletion) : Bool :=
  left.completionVersion = right.completionVersion ∧ left.artifactID = right.artifactID ∧
    left.artifactKind = right.artifactKind ∧ left.trustedPath = right.trustedPath ∧ left.bytes = right.bytes ∧
    left.contentSHA256 = right.contentSHA256 ∧ left.proofDigest = right.proofDigest

def publishPruneCompletion (completion : PruneCompletion) : PruneProg H Unit := do
  let document ← .lift ((sealCompletion H completion).mapError fun err => integrity s!"completion validation: {err}")
  .lift (checkCompletionName completion.artifactID)
  let existing ← .read (·.lookup (.completion completion.artifactID))
  match existing with
  | some content =>
    .lift (reject (content.bytes ≠ document.canonical ∧
        !((decodeCompletion content).any fun prior => samePruneCompletionExecution prior.value completion))
      (integrity "completion differs for artifact"))
  | none => do
    let nonce ← .read freshNonce
    publishFile (.completionTemporary nonce) (.completion completion.artifactID) (.completion document)

/-! ## WAL segments -/

/-- The digest of the latest checkpoint, and the boundary the next segment must start at. -/
def checkpointAnchor (chain : List CheckpointRecord) : Except PruneError (Digest × WALBoundary) :=
  match chain.getLast? with
  | none => .ok (Digest.zero, genesisBoundary)
  | some previous => do
    reject (previous.checkpoint.endSequence = maxUint64) (integrity "WAL is already terminally pruned")
    return (previous.digest, ⟨previous.checkpoint.endSequence + 1, previous.checkpoint.retainedChainRoot⟩)

def checkAnchor (plan : PrunePlan) (action : PruneAction) (artifact : LocalArtifact) (boundary : WALBoundary) :
    Except PruneError WALRange := do
  let range ← artifact.walRange.elim
    (.error (integrity "prune plan WAL prefix does not match checkpoint anchor")) .ok
  reject (plan.walExpectedStart ≠ boundary.expectedStart ∨ action.walStartSequence ≠ boundary.expectedStart ∨
      range.startChainRoot ≠ boundary.chainRoot)
    (integrity "prune plan WAL prefix does not match checkpoint anchor")
  reject (artifact.trustedPath ≠ sealedPath (segmentNameFromRange action.walStartSequence action.walEndSequence))
    (integrity "WAL path is not the canonical sealed segment path")
  reject (action.walEndSequence < range.startSequence) (integrity "WAL checkpoint range is invalid")
  return range

def nextCheckpoint (H : Hashes) (action : PruneAction) (artifact : LocalArtifact) (range : WALRange)
    (proof : RetentionProof) (previousDigest : Digest) : PruneCheckpoint where
  checkpointVersion := pruneCheckpointVersion
  endSequence := action.walEndSequence
  retainedChainRoot := range.endChainRoot
  lastSegmentSHA256 := artifact.contentSHA256
  retentionProofDigest := ((proof.digest H).toOption).getD Digest.zero
  retentionProof := proof
  previousCheckpointDigest := previousDigest

def moveToTrash (fault : FaultInjector) (id name : Bytes) : PruneProg H Unit := do
  inject fault 3 .beforeTrashRename id
  .emit (.rename (.sealed name) (.trash name))
  inject fault 4 .afterTrashRename id
  inject fault 5 .trashDirectorySync id

/-- A segment that is already in the trash must be the one of the action, and gone from `sealed/`. -/
def acceptTrash (artifact : LocalArtifact) (name : Bytes) (content : Content H) : PruneProg H Unit := do
  .lift (verifySegmentOf (H := H) artifact content.bytes "WAL trash does not match action")
  let source ← .read (·.lookup (.sealed name))
  .lift (reject source.isSome (integrity "WAL exists both at source and trash"))

def ensureTrash (fault : FaultInjector) (artifact : LocalArtifact) (id name : Bytes) : PruneProg H Unit := do
  let trash ← .read (·.lookup (.trash name))
  match trash with
  | none => moveToTrash fault id name
  | some content => acceptTrash artifact name content

def unlinkSegment (fault : FaultInjector) (artifact : LocalArtifact) (id name : Bytes) : PruneProg H Unit := do
  ensureTrash fault artifact id name
  inject fault 6 .beforeUnlink id
  .emit (.remove (.trash name))
  inject fault 7 .afterUnlink id
  inject fault 8 .trashDirectorySync id

def executeWAL (fault : FaultInjector) (plan : PrunePlan) (action : PruneAction) (artifact : LocalArtifact)
    (proof : RetentionProof) : PruneProg H Unit := do
  let loaded ← .read loadCheckpointChain
  let chain ← .lift loaded
  let anchor ← .lift (checkpointAnchor chain)
  let range ← .lift (checkAnchor plan action artifact anchor.2)
  inject fault 0 .beforeCheckpointPublish action.artifactID
  publishCheckpoint (nextCheckpoint H action artifact range proof anchor.1)
  inject fault 1 .checkpointDirectorySync action.artifactID
  inject fault 2 .afterCheckpointPublish action.artifactID
  let resolved ← .read fun disk => resolveArtifact disk artifact "resolve WAL path after checkpoint"
  let _ ← .lift resolved
  unlinkSegment fault artifact action.artifactID (segmentNameFromRange action.walStartSequence action.walEndSequence)

/-! ## Files of the raw outbox -/

def completedOtherAction (roots : PruneRoots) (disk : PruneDisk H) (action : PruneAction) : Except PruneError Bool := do
  checkRoot roots action.artifactKind
  let loaded ← loadPruneCompletion disk action.artifactID
  match loaded with
  | none => .ok false
  | some completion => do
    (completionMatchesAction H completion action).mapError integrity
    match trustedArtifactPath disk action.artifactKind action.trustedPath with
    | .ok (_, content) => do
      let artifact ← (completionArtifact H completion).mapError fun err =>
        integrity s!"completed artifact identity: {err}"
      (verifyLocalArtifact content artifact).mapError fun err => integrity s!"completed artifact changed: {err.text}"
      return false
    | .error .notExist => .ok true
    | .error (.untrusted text) => .error (integrity s!"inspect completed artifact: {text}")

def completionOf (plan : PrunePlan) (action : PruneAction) (artifact : LocalArtifact) (proof : RetentionProof)
    (proofDigest : Digest) : PruneCompletion where
  completionVersion := pruneCompletionVersion
  artifactID := action.artifactID
  artifactKind := action.artifactKind
  trustedPath := action.trustedPath
  bytes := action.bytes
  contentSHA256 := artifact.contentSHA256
  proofDigest := proofDigest
  retentionProof := proof
  planDigest := plan.planDigest

def executeOther (fault : FaultInjector) (roots : PruneRoots) (plan : PrunePlan) (action : PruneAction)
    (artifact : LocalArtifact) (proof : RetentionProof) : PruneProg H Unit := do
  .lift (checkRoot roots action.artifactKind)
  let resolved ← .read fun disk => resolveArtifact disk artifact "resolve outbox path"
  let file ← .lift resolved
  let proofDigest ← .lift ((proof.digest H).mapError fun err => integrity s!"outbox proof digest: {err}")
  publishPruneCompletion (completionOf plan action artifact proof proofDigest)
  inject fault 0 .beforeUnlink action.artifactID
  .emit (.remove file.1)
  inject fault 1 .afterUnlink action.artifactID
  inject fault 2 .outboxDirectorySync action.artifactID

/-! ## Execution -/

def walActionBefore (a b : PruneAction) : Bool :=
  if a.walStartSequence ≠ b.walStartSequence then a.walStartSequence < b.walStartSequence
  else keyLE a.artifactID b.artifactID

def walActions (plan : PrunePlan) : List PruneAction :=
  (plan.actions.filter fun action => action.artifactKind = .walSegment).insertionSort fun a b => walActionBefore a b

def otherActions (plan : PrunePlan) : List PruneAction :=
  plan.actions.filter fun action => action.artifactKind ≠ .walSegment

def executeWALActions (fault : FaultInjector) (roots : PruneRoots) (plan : PrunePlan) (known : List Identified) :
    List PruneAction → PruneProg H (List Bytes)
  | [] => pure []
  | action :: later => do
    let checked ← .read fun disk => validateAction roots plan known disk action
    let candidate ← .lift checked
    executeWAL fault plan action candidate.1 candidate.2
    let completed ← executeWALActions fault roots plan known later
    return action.artifactID :: completed

def executeOtherAction (fault : FaultInjector) (roots : PruneRoots) (plan : PrunePlan) (known : List Identified)
    (action : PruneAction) : PruneProg H Unit := do
  let completed ← .read fun disk => completedOtherAction roots disk action
  let skip ← .lift completed
  if skip then pure ()
  else do
    let checked ← .read fun disk => validateAction roots plan known disk action
    let candidate ← .lift checked
    executeOther fault roots plan action candidate.1 candidate.2

def executeOtherActions (fault : FaultInjector) (roots : PruneRoots) (plan : PrunePlan) (known : List Identified) :
    List PruneAction → PruneProg H (List Bytes)
  | [] => pure []
  | action :: later => do
    executeOtherAction fault roots plan known action
    let completed ← executeOtherActions fault roots plan known later
    return action.artifactID :: completed

def addKnown (H : Hashes) (known : List Identified) (candidate : CandidateFact) :
    Except PruneError (List Identified) := do
  let id ← (candidate.artifact.stableID H).mapError fun err => integrity s!"candidate identity: {err}"
  reject (known.any fun prior => prior.1 = id) (integrity "duplicate candidate identity")
  return known ++ [(id, candidate)]

/-- What `Execute` checks before its first action. -/
def checkPlan (H : Hashes) (plan : PrunePlan) (candidates : List CandidateFact) :
    Except PruneError (List Identified) := do
  let canonical ← plan.canonicalJSON.mapError fun _ => integrity "prune plan digest is invalid"
  reject (prunePlanDigest H canonical ≠ plan.planDigest) (integrity "prune plan digest is invalid")
  reject (plan.actions.any fun action => action.artifactKind ≠ .walSegment ∧ action.artifactKind ≠ .rawOutbox)
    (integrity "artifact kind policy is not implemented")
  candidates.foldlM (addKnown H) []

/-- The ids of the completed actions, in the order of execution. -/
def execute (fault : FaultInjector) (roots : PruneRoots) (plan : PrunePlan) (candidates : List CandidateFact) :
    PruneProg H (List Bytes) := do
  let known ← .lift (checkPlan H plan candidates)
  let segments ← executeWALActions fault roots plan known (walActions plan)
  let others ← executeOtherActions fault roots plan known (otherActions plan)
  return segments ++ others

/-! ## Recovery -/

def checkpointedSegment (record : CheckpointRecord) (content : Content H) (text : String) : Except PruneError Unit := do
  let segment ← (verifySealedSegment H content.bytes).mapError fun _ => integrity text
  reject (segment.lastSequence ≠ record.checkpoint.endSequence ∨
      segment.objectSHA256 ≠ record.checkpoint.lastSegmentSHA256 ∨
      segment.chainRoot ≠ record.checkpoint.retainedChainRoot)
    (integrity text)

def recoverTrash (record : CheckpointRecord) (name : Bytes) : PruneProg H Unit := do
  let trash ← .read (·.lookup (.trash name))
  match trash with
  | none => pure ()
  | some content => do
    .lift (checkpointedSegment record content "checkpointed trash does not match checkpoint")
    .emit (.remove (.trash name))

def recoverSegment (record : CheckpointRecord) (name : Bytes) : PruneProg H Unit := do
  let source ← .read (·.lookup (.sealed name))
  let trash ← .read (·.lookup (.trash name))
  .lift (reject (source.isSome ∧ trash.isSome) (integrity "checkpointed WAL exists at source and trash"))
  match source with
  | none => recoverTrash record name
  | some content => do
    .lift (checkpointedSegment record content "checkpointed source does not match checkpoint")
    .emit (.rename (.sealed name) (.trash name))
    recoverTrash record name

/-- A segment starts after the end of the checkpoint before its own. -/
def recoverCheckpointedSegments : Option UInt64 → List CheckpointRecord → PruneProg H Unit
  | _, [] => pure ()
  | none, _ :: _ => .fail (integrity "checkpoint follows terminal sequence")
  | some start, record :: later => do
    recoverSegment record (segmentNameFromRange start record.checkpoint.endSequence)
    recoverCheckpointedSegments (nextStart record.checkpoint.endSequence) later

def rejectUnexpectedTrash (disk : PruneDisk H) : Except PruneError Unit :=
  reject (trashFolder.list keyLE disk ≠ []) (integrity "uncheckpointed WAL trash entry")

def recoverPrune (maxObjects maxBytes : UInt64) : PruneProg H Unit := do
  let loaded ← .read loadCheckpointChain
  let chain ← .lift loaded
  recoverCheckpointedSegments (some 1) chain
  let trash ← .read rejectUnexpectedTrash
  .lift trash
  let retained ← .read fun disk =>
    verifyRetainedWAL disk (chain.getLast?.map (·.checkpoint)) maxObjects maxBytes
  let _ ← .lift retained
  return ()

end TickPlatform.Retention
