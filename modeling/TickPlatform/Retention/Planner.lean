import TickPlatform.Ingest.Config
import TickPlatform.Retention.Contract
import TickPlatform.Wal.Store

/-!
# The prune planner

`BuildPrunePlan` and what it is made of: artifact identities, the eligibility of a candidate, the WAL
prefix, and the plan with its digest. It reads nothing but its input.
-/

namespace TickPlatform.Retention

open Bytes Protocol Replay Wal

/-! ## Artifacts -/

structure LocalArtifact where
  kind : ArtifactKind
  trustedPath : Bytes
  bytes : UInt64
  contentSHA256 : Digest
  walRange : Option WALRange
  replay : Option ReplayIdentity
  active : Bool
deriving DecidableEq

def LocalArtifact.value (a : LocalArtifact) : Json :=
  jsonObject [("bytes", jsonUint a.bytes), ("kind", .string (utf8 a.kind.text)), ("path", .string a.trustedPath),
    ("sha256", jsonHash a.contentSHA256)]

def LocalArtifact.stableID (H : Hashes) (a : LocalArtifact) : Except String Bytes := do
  validateRelativePath a.trustedPath
  reject (a.bytes = 0 ∨ a.contentSHA256 = Digest.zero) "artifact identity is incomplete"
  let canonical ← canonicalJSON a.value
  return artifactPrefixText ++ encodeHashHex (H.sha256 (retentionArtifactDomain ++ canonical))

structure CandidateFact where
  artifact : LocalArtifact
  proof : Option RetentionProof
  freshRemote : Bool
  coverageVerified : Bool
  remoteVerified : Bool
  recoveryRequired : Bool
deriving DecidableEq

/-! ## Plans -/

def DiskClass.text : DiskClass → String
  | .normal => "normal"
  | .high => "high"
  | .critical => "critical"
  | .emergency => "emergency"

structure PlannerInput where
  candidates : List CandidateFact
  currentWallTimeUnixMS : UInt64
  durableWallTimeUnixMS : UInt64
  activeRecoveryFloor : UInt64
  walExpectedStart : UInt64
  graceMS : UInt64
  maxCandidates : UInt64
  proofLimits : ProofLimits
  disk : DiskClass
  requireRemoteVerified : Bool

structure PruneAction where
  artifactID : Bytes
  artifactKind : ArtifactKind
  trustedPath : Bytes
  bytes : UInt64
  contentSHA256 : Bytes
  proofDigest : Bytes
  walStartSequence : UInt64
  walEndSequence : UInt64
deriving DecidableEq

inductive BlockReason
  | activeArtifact
  | artifactPolicyUnimplemented
  | recoveryRequired
  | freshObservationMissing
  | manifestCoverageMissing
  | remoteVerifiedMissing
  | retentionProofMissing
  | retentionProofInvalid
  | retentionProofLimitsMismatch
  | retentionIdentityMismatch
  | observationFromFuture
  | graceNotElapsed
  | activeRecoveryFloor
  | clockRegression
  | walPrefixGap
  | walPrefixBlocked
  | maxPruneCandidates
deriving DecidableEq, Repr

def BlockReason.text : BlockReason → String
  | .activeArtifact => "active_artifact"
  | .artifactPolicyUnimplemented => "artifact_policy_unimplemented"
  | .recoveryRequired => "recovery_required"
  | .freshObservationMissing => "fresh_observation_missing"
  | .manifestCoverageMissing => "manifest_coverage_missing"
  | .remoteVerifiedMissing => "remote_verified_missing"
  | .retentionProofMissing => "retention_proof_missing"
  | .retentionProofInvalid => "retention_proof_invalid"
  | .retentionProofLimitsMismatch => "retention_proof_limits_mismatch"
  | .retentionIdentityMismatch => "retention_identity_mismatch"
  | .observationFromFuture => "observation_from_future"
  | .graceNotElapsed => "grace_not_elapsed"
  | .activeRecoveryFloor => "active_recovery_floor"
  | .clockRegression => "clock_regression"
  | .walPrefixGap => "wal_prefix_gap"
  | .walPrefixBlocked => "wal_prefix_blocked"
  | .maxPruneCandidates => "max_prune_candidates"

structure BlockedCandidate where
  artifactID : Bytes
  reason : BlockReason
deriving DecidableEq

structure PrunePlan where
  planVersion : Bytes
  disk : DiskClass
  currentWallTimeUnixMS : UInt64
  durableWallTimeUnixMS : UInt64
  activeRecoveryFloor : UInt64
  walExpectedStart : UInt64
  graceMS : UInt64
  requireRemoteVerified : Bool
  actions : List PruneAction
  blocked : List BlockedCandidate
  planDigest : Digest
deriving DecidableEq

def prunePlanVersion : Bytes := utf8 "prune-plan-v2"

def PruneAction.value (a : PruneAction) : Json :=
  jsonObject [("artifact_id", .string a.artifactID), ("artifact_kind", .string (utf8 a.artifactKind.text)),
    ("bytes", jsonUint a.bytes), ("content_sha256", .string a.contentSHA256),
    ("proof_digest", .string a.proofDigest), ("trusted_path", .string a.trustedPath),
    ("wal_end_sequence", jsonUint a.walEndSequence), ("wal_start_sequence", jsonUint a.walStartSequence)]

def BlockedCandidate.value (b : BlockedCandidate) : Json :=
  jsonObject [("artifact_id", .string b.artifactID), ("reason", .string (utf8 b.reason.text))]

/-- The digest is over everything but itself. -/
def PrunePlan.value (p : PrunePlan) : Json :=
  jsonObject [("actions", .array (p.actions.map (·.value))), ("active_recovery_floor", jsonUint p.activeRecoveryFloor),
    ("blocked", .array (p.blocked.map (·.value))), ("current_wall_time_unix_ms", jsonUint p.currentWallTimeUnixMS),
    ("disk_class", .string (utf8 p.disk.text)), ("durable_wall_time_unix_ms", jsonUint p.durableWallTimeUnixMS),
    ("grace_ms", jsonUint p.graceMS), ("plan_version", .string p.planVersion),
    ("require_remote_verified", .bool p.requireRemoteVerified), ("wal_expected_start", jsonUint p.walExpectedStart)]

def PrunePlan.canonicalJSON (p : PrunePlan) : Except String Bytes := Protocol.canonicalJSON p.value

def prunePlanDigest (H : Hashes) (canonical : Bytes) : Digest := H.sha256 (prunePlanDomain ++ canonical)

/-! ## Eligibility -/

/-- The ranges and replay identities are compared by value, and absent on both sides or on none. -/
def proofMatchesArtifact (proof : RetentionProof) (artifact : LocalArtifact) : Bool :=
  proof.artifactKind = artifact.kind ∧ proof.trustedRelativePath = artifact.trustedPath ∧
    proof.bytes = artifact.bytes ∧ proof.contentSHA256 = artifact.contentSHA256 ∧
    proof.walRange = artifact.walRange ∧ proof.replay = artifact.replay

/-- An eligible candidate hands over its proof. -/
def candidateEligibility (candidate : CandidateFact) (input : PlannerInput) : Except BlockReason RetentionProof := do
  reject candidate.artifact.active .activeArtifact
  reject (candidate.artifact.kind ≠ .walSegment ∧ candidate.artifact.kind ≠ .rawOutbox) .artifactPolicyUnimplemented
  reject candidate.recoveryRequired .recoveryRequired
  reject (!candidate.freshRemote) .freshObservationMissing
  reject (!candidate.coverageVerified) .manifestCoverageMissing
  reject (input.requireRemoteVerified ∧ !candidate.remoteVerified) .remoteVerifiedMissing
  let proof ← candidate.proof.elim (.error .retentionProofMissing) .ok
  proof.validate.mapError fun _ => .retentionProofInvalid
  reject (proof.limits ≠ input.proofLimits) .retentionProofLimitsMismatch
  reject (!proofMatchesArtifact proof candidate.artifact) .retentionIdentityMismatch
  reject (proof.observedWallTimeUnixMS > input.currentWallTimeUnixMS) .observationFromFuture
  reject (proof.graceNotBeforeUnixMS > input.currentWallTimeUnixMS) .graceNotElapsed
  reject (input.graceMS > maxUint64 - proof.observedWallTimeUnixMS) .graceNotElapsed
  reject (proof.graceNotBeforeUnixMS < proof.observedWallTimeUnixMS + input.graceMS) .graceNotElapsed
  reject (candidate.artifact.kind = .walSegment ∧ input.activeRecoveryFloor ≠ 0 ∧
      candidate.artifact.walRange.any fun range => range.endSequence ≥ input.activeRecoveryFloor)
    .activeRecoveryFloor
  return proof

def makePruneAction (H : Hashes) (artifact : LocalArtifact) (proof : RetentionProof) : Except String PruneAction := do
  let id ← artifact.stableID H
  let proofDigest ← proof.digest H
  return { artifactID := id, artifactKind := artifact.kind, trustedPath := artifact.trustedPath, bytes := artifact.bytes,
           contentSHA256 := encodeHashHex artifact.contentSHA256, proofDigest := encodeHashHex proofDigest,
           walStartSequence := (artifact.walRange.map (·.startSequence)).getD 0,
           walEndSequence := (artifact.walRange.map (·.endSequence)).getD 0 }

/-! ## Building a plan -/

/-- A candidate under its stable id. -/
abbrev Identified := Bytes × CandidateFact

def addCandidate (H : Hashes) (known : List Identified) (candidate : CandidateFact) :
    Except String (List Identified) := do
  let id ← (candidate.artifact.stableID H).mapError fun err => s!"candidate identity: {err}"
  reject (known.any fun prior => prior.1 = id) "duplicate candidate identity"
  reject (known.any fun prior => prior.2.artifact.trustedPath = candidate.artifact.trustedPath) "path collision"
  return known ++ [(id, candidate)]

def identify (H : Hashes) (candidates : List CandidateFact) : Except String (List Identified) :=
  candidates.foldlM (addCandidate H) []

def byID (entries : List Identified) : List Identified := entries.insertionSort fun a b => keyLE a.1 b.1

/-- By start of the range, then by id; by id where a range is missing. -/
def walBefore (a b : Identified) : Bool :=
  match a.2.artifact.walRange, b.2.artifact.walRange with
  | some left, some right =>
    if left.startSequence ≠ right.startSequence then left.startSequence < right.startSequence else keyLE a.1 b.1
  | _, _ => keyLE a.1 b.1

def walCandidates (entries : List Identified) : List Identified :=
  (entries.filter fun entry => entry.2.artifact.kind = .walSegment).insertionSort fun a b => walBefore a b

abbrev Verdict := Except BlockReason RetentionProof

/-- The start of the next segment, `none` once the sequence numbers are used up. -/
def nextStart (endSequence : UInt64) : Option UInt64 := if endSequence = maxUint64 then none else some (endSequence + 1)

/-- Only a gapless run of eligible segments from the expected start can go. -/
def walPrefix (input : PlannerInput) : Option UInt64 → List Identified → List (Bytes × Verdict)
  | _, [] => []
  | expected, entry :: later =>
    let blocked := later.map fun other => (other.1, (.error .walPrefixBlocked : Verdict))
    match entry.2.artifact.walRange with
    | none => (entry.1, .error .walPrefixGap) :: blocked
    | some range =>
      if expected ≠ some range.startSequence then (entry.1, .error .walPrefixGap) :: blocked
      else
        match candidateEligibility entry.2 input with
        | .error reason => (entry.1, .error reason) :: blocked
        | .ok proof => (entry.1, .ok proof) :: walPrefix input (nextStart range.endSequence) later

def verdict (input : PlannerInput) (wal : List (Bytes × Verdict)) (entry : Identified) : Verdict :=
  if entry.2.artifact.kind = .walSegment then (wal.lookup entry.1).getD (.error .walPrefixGap)
  else candidateEligibility entry.2 input

def planCandidate (H : Hashes) (input : PlannerInput) (wal : List (Bytes × Verdict))
    (acc : List PruneAction × List BlockedCandidate) (entry : Identified) :
    Except String (List PruneAction × List BlockedCandidate) :=
  match verdict input wal entry with
  | .error reason => .ok (acc.1, acc.2 ++ [⟨entry.1, reason⟩])
  | .ok proof =>
    if acc.1.length ≥ input.maxCandidates.toNat then .ok (acc.1, acc.2 ++ [⟨entry.1, .maxPruneCandidates⟩])
    else do
      let action ← makePruneAction H entry.2.artifact proof
      return (acc.1 ++ [action], acc.2)

def sealPlan (H : Hashes) (plan : PrunePlan) : Except String PrunePlan := do
  let canonical ← plan.canonicalJSON
  return { plan with planDigest := prunePlanDigest H canonical }

def emptyPlan (input : PlannerInput) : PrunePlan where
  planVersion := prunePlanVersion
  disk := input.disk
  currentWallTimeUnixMS := input.currentWallTimeUnixMS
  durableWallTimeUnixMS := input.durableWallTimeUnixMS
  activeRecoveryFloor := input.activeRecoveryFloor
  walExpectedStart := input.walExpectedStart
  graceMS := input.graceMS
  requireRemoteVerified := input.requireRemoteVerified
  actions := []
  blocked := []
  planDigest := Digest.zero

/-- Candidates are taken in id order, so actions and blocked candidates come out sorted. -/
def planEntries (H : Hashes) (input : PlannerInput) (entries : List Identified) : Except String PrunePlan :=
  if input.currentWallTimeUnixMS < input.durableWallTimeUnixMS then
    sealPlan H { emptyPlan input with blocked := entries.map fun entry => ⟨entry.1, .clockRegression⟩ }
  else do
    let wal := walPrefix input (some input.walExpectedStart) (walCandidates entries)
    let planned ← entries.foldlM (planCandidate H input wal) ([], [])
    sealPlan H { emptyPlan input with actions := planned.1, blocked := planned.2 }

def buildPrunePlan (H : Hashes) (input : PlannerInput) : Except String PrunePlan := do
  reject (input.currentWallTimeUnixMS = 0 ∨ input.durableWallTimeUnixMS = 0 ∨ input.graceMS = 0 ∨
      input.maxCandidates = 0 ∨ input.walExpectedStart = 0 ∨ input.proofLimits.validate.toOption = none)
    "planner input is incomplete"
  let entries ← identify H input.candidates
  planEntries H input (byID entries)

/-! ## A small input -/

/-- A segment of one entry under the given path. -/
def sampleArtifact (path : String) (sequence : UInt64) : LocalArtifact where
  kind := .walSegment
  trustedPath := utf8 path
  bytes := 1
  contentSHA256 := Digest.ofBytes [1]
  walRange := some ⟨sequence, sequence, if sequence = 1 then Digest.zero else Digest.ofBytes [1], Digest.ofBytes [1]⟩
  replay := none
  active := false

def sampleLimits : ProofLimits := ⟨16, 65536, 16⟩

/-- A proof for an artifact, observed at time 5 with 10 ms of grace. -/
def sampleProof (artifact : LocalArtifact) : RetentionProof where
  proofVersion := retentionProofVersion
  artifactKind := artifact.kind
  trustedRelativePath := artifact.trustedPath
  bytes := artifact.bytes
  contentSHA256 := artifact.contentSHA256
  scopeConfigHash := Digest.ofBytes [1]
  walRange := artifact.walRange
  replay := artifact.replay
  remote := ⟨.exact, utf8 "o", artifact.contentSHA256, artifact.bytes⟩
  coveringManifestKey := utf8 "m"
  coveringManifestDigest := Digest.ofBytes [2]
  verificationReportDigest := Digest.ofBytes [3]
  observedWallTimeUnixMS := 5
  graceNotBeforeUnixMS := 15
  limits := sampleLimits

def sampleCandidate (artifact : LocalArtifact) : CandidateFact where
  artifact := artifact
  proof := some (sampleProof artifact)
  freshRemote := true
  coverageVerified := true
  remoteVerified := true
  recoveryRequired := false

def sampleInput (candidates : List CandidateFact) : PlannerInput where
  candidates := candidates
  currentWallTimeUnixMS := 20
  durableWallTimeUnixMS := 6
  activeRecoveryFloor := 0
  walExpectedStart := 1
  graceMS := 10
  maxCandidates := 8
  proofLimits := sampleLimits
  disk := .normal
  requireRemoteVerified := true

/-- The plan for some candidates; empty where the planner refuses. -/
def samplePlan (candidates : List CandidateFact) : PrunePlan :=
  ((buildPrunePlan sampleHashes (sampleInput candidates)).toOption).getD (emptyPlan (sampleInput candidates))

end TickPlatform.Retention
