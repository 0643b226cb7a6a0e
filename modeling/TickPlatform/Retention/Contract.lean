import TickPlatform.Replay.Row

/-!
# Retention documents

The proof that a local artifact is recoverable from the remote store, and the checkpoint and completion
records that carry it: their fields, their checks, their canonical JSON and their digests.
-/

namespace TickPlatform.Retention

open Bytes Protocol Replay

def retentionProofVersion : Bytes := utf8 "retention-proof-v1"
def pruneCheckpointVersion : Bytes := utf8 "prune-checkpoint-v1"
def pruneCompletionVersion : Bytes := utf8 "prune-completion-v1"
def retentionProofDomain : Bytes := utf8 "tick-data-platform/retention-proof/v1\x00"
def pruneCheckpointDomain : Bytes := utf8 "tick-data-platform/prune-checkpoint/v1\x00"
def prunePlanDomain : Bytes := utf8 "tick-data-platform/prune-plan/v1\x00"
def retentionArtifactDomain : Bytes := utf8 "tick-data-platform/retention-artifact/v1\x00"

inductive ArtifactKind
  | walSegment
  | rawOutbox
  | replayOutbox
  | cache
deriving DecidableEq, Repr

def ArtifactKind.text : ArtifactKind → String
  | .walSegment => "wal_segment"
  | .rawOutbox => "raw_outbox"
  | .replayOutbox => "replay_outbox"
  | .cache => "cache"

inductive RemoteClass
  | exact
  | different
  | ambiguous
  | absent
  | oversized
  | unavailable
deriving DecidableEq, Repr

def RemoteClass.text : RemoteClass → String
  | .exact => "Exact"
  | .different => "Different"
  | .ambiguous => "Ambiguous"
  | .absent => "Absent"
  | .oversized => "Oversized"
  | .unavailable => "Unavailable"

structure WALRange where
  startSequence : UInt64
  endSequence : UInt64
  startChainRoot : Digest
  endChainRoot : Digest
deriving DecidableEq

structure ReplayIdentity where
  datasetID : Bytes
  date : Bytes
  manifestKey : Bytes
  manifestSHA256 : Digest
  partSetRoot : Digest
  canonicalStreamRowChainRoot : Digest
deriving DecidableEq

structure RemoteObjectObservation where
  remoteClass : RemoteClass
  fullKey : Bytes
  sha256 : Digest
  bytes : UInt64
deriving DecidableEq

structure ProofLimits where
  maxProofObjects : UInt64
  maxProofBytes : UInt64
  maxManifestNodes : UInt64
deriving DecidableEq

structure RetentionProof where
  proofVersion : Bytes
  artifactKind : ArtifactKind
  trustedRelativePath : Bytes
  bytes : UInt64
  contentSHA256 : Digest
  scopeConfigHash : Digest
  walRange : Option WALRange
  replay : Option ReplayIdentity
  remote : RemoteObjectObservation
  coveringManifestKey : Bytes
  coveringManifestDigest : Digest
  verificationReportDigest : Digest
  observedWallTimeUnixMS : UInt64
  graceNotBeforeUnixMS : UInt64
  limits : ProofLimits
deriving DecidableEq

structure PruneCheckpoint where
  checkpointVersion : Bytes
  endSequence : UInt64
  retainedChainRoot : Digest
  lastSegmentSHA256 : Digest
  retentionProofDigest : Digest
  retentionProof : RetentionProof
  previousCheckpointDigest : Digest
deriving DecidableEq

structure PruneCompletion where
  completionVersion : Bytes
  artifactID : Bytes
  artifactKind : ArtifactKind
  trustedPath : Bytes
  bytes : UInt64
  contentSHA256 : Digest
  proofDigest : Digest
  retentionProof : RetentionProof
  planDigest : Digest
deriving DecidableEq

/-! ## Checks of fields -/

def maxPathBytes : Nat := 1024

def checkPathComponent (component : Bytes) : Except String Unit :=
  reject (component = [] ∨ component = utf8 "." ∨ component = utf8 "..")
    "trusted relative path contains a forbidden component"

def validateRelativePath (value : Bytes) : Except String Unit := do
  reject (value = [] ∨ value.length > maxPathBytes ∨ value.head? = some 47 ∨
      (value.any fun b => b = 92 ∨ b = 13 ∨ b = 10) ∨ doubleSlash value)
    "trusted relative path is not canonical"
  each checkPathComponent (components value)

def validateHash (name : String) (value : Digest) : Except String Unit :=
  reject (value = Digest.zero) s!"{name} is zero"

def checkLimit (name : String) (value bound : UInt64) : Except String Unit := do
  reject (value = 0) s!"{name} must be nonzero"
  reject (value > bound) s!"{name} exceeds implementation bound"

def ProofLimits.validate (l : ProofLimits) : Except String Unit := do
  checkLimit "max_proof_objects" l.maxProofObjects 1048576
  checkLimit "max_proof_bytes" l.maxProofBytes 1073741824
  checkLimit "max_manifest_nodes" l.maxManifestNodes 1048576

def validateRemoteObservation (observation : RemoteObjectObservation) (bytes : UInt64) (digest : Digest) :
    Except String Unit := do
  reject (observation.remoteClass ≠ .exact ∨ observation.bytes ≠ bytes ∨ observation.sha256 ≠ digest)
    "retention remote observation is not exact"
  (validateRelativePath observation.fullKey).mapError fun err => s!"remote observation key: {err}"

/-- A genesis range starts at the zero root, any other at a root of its own. -/
def WALRange.validate (r : WALRange) : Except String Unit := do
  reject (r.startSequence = 0 ∨ r.endSequence < r.startSequence) "WAL range is invalid"
  if r.startSequence = 1 then
    reject (r.startChainRoot ≠ Digest.zero) "genesis WAL range must start at the zero chain root"
  else validateHash "start_chain_root" r.startChainRoot
  validateHash "end_chain_root" r.endChainRoot

def checkRequired (field : String × Bytes) : Except String Unit :=
  let name := field.1
  reject (field.2 = []) s!"replay {name} is required"

def ReplayIdentity.validate (r : ReplayIdentity) : Except String Unit := do
  each checkRequired [("dataset_id", r.datasetID), ("date", r.date), ("manifest_key", r.manifestKey)]
  validateHash "manifest_sha256" r.manifestSHA256
  validateHash "part_set_root" r.partSetRoot
  validateHash "canonical_stream_row_chain_root" r.canonicalStreamRowChainRoot

/-! ## Retention proofs -/

/-- The identity part of a proof: a WAL range or a replay identity, not both. -/
def validateIdentity (walRange : Option WALRange) (replay : Option ReplayIdentity) : Except String Unit :=
  match walRange, replay with
  | some range, none => range.validate
  | none, some identity => identity.validate
  | _, _ => .error "retention proof needs exactly one identity"

def RetentionProof.validate (r : RetentionProof) : Except String Unit := do
  reject (r.proofVersion ≠ retentionProofVersion) "retention proof version or artifact kind is invalid"
  validateRelativePath r.trustedRelativePath
  reject (r.bytes = 0 ∨ r.observedWallTimeUnixMS = 0 ∨ r.graceNotBeforeUnixMS < r.observedWallTimeUnixMS)
    "retention proof time or size is invalid"
  validateHash "content_sha256" r.contentSHA256
  validateHash "scope_config_hash" r.scopeConfigHash
  validateHash "covering_manifest_digest" r.coveringManifestDigest
  validateHash "verification_report_digest" r.verificationReportDigest
  (validateRelativePath r.coveringManifestKey).mapError fun err => s!"covering manifest key: {err}"
  validateRemoteObservation r.remote r.bytes r.contentSHA256
  validateIdentity r.walRange r.replay
  r.limits.validate

def RemoteObjectObservation.value (r : RemoteObjectObservation) : Json :=
  jsonObject [("bytes", jsonUint r.bytes), ("class", .string (utf8 r.remoteClass.text)),
    ("full_key", .string r.fullKey), ("sha256", jsonHash r.sha256)]

def WALRange.value (w : WALRange) : Json :=
  jsonObject [("end_chain_root", jsonHash w.endChainRoot), ("end_sequence", jsonUint w.endSequence),
    ("start_chain_root", jsonHash w.startChainRoot), ("start_sequence", jsonUint w.startSequence)]

def ReplayIdentity.value (r : ReplayIdentity) : Json :=
  jsonObject [("canonical_stream_row_chain_root", jsonHash r.canonicalStreamRowChainRoot),
    ("dataset_id", .string r.datasetID), ("date", .string r.date), ("manifest_key", .string r.manifestKey),
    ("manifest_sha256", jsonHash r.manifestSHA256), ("part_set_root", jsonHash r.partSetRoot)]

def ProofLimits.value (l : ProofLimits) : Json :=
  jsonObject [("max_manifest_nodes", jsonUint l.maxManifestNodes), ("max_proof_bytes", jsonUint l.maxProofBytes),
    ("max_proof_objects", jsonUint l.maxProofObjects)]

def RetentionProof.value (r : RetentionProof) : Json :=
  jsonObject [("artifact_kind", .string (utf8 r.artifactKind.text)), ("bytes", jsonUint r.bytes),
    ("content_sha256", jsonHash r.contentSHA256),
    ("covering_manifest_digest", jsonHash r.coveringManifestDigest),
    ("covering_manifest_key", .string r.coveringManifestKey),
    ("grace_not_before_unix_ms", jsonUint r.graceNotBeforeUnixMS), ("limits", r.limits.value),
    ("observed_wall_time_unix_ms", jsonUint r.observedWallTimeUnixMS),
    ("proof_version", .string r.proofVersion), ("remote_observation", r.remote.value),
    ("replay_identity", (r.replay.map (·.value)).getD .null), ("scope_config_hash", jsonHash r.scopeConfigHash),
    ("trusted_relative_path", .string r.trustedRelativePath),
    ("verification_report_digest", jsonHash r.verificationReportDigest),
    ("wal_range", (r.walRange.map (·.value)).getD .null)]

def RetentionProof.canonicalJSON (r : RetentionProof) : Except String Bytes := do
  r.validate
  Protocol.canonicalJSON r.value

def RetentionProof.digest (H : Hashes) (r : RetentionProof) : Except String Digest := do
  let canonical ← r.canonicalJSON
  return H.sha256 (retentionProofDomain ++ canonical)

/-! ## Checkpoints -/

/-- The proof of a checkpoint is about the segment that the checkpoint ends with. -/
def PruneCheckpoint.bindsProof (c : PruneCheckpoint) : Bool :=
  c.retentionProof.artifactKind = .walSegment ∧
    (c.retentionProof.walRange.any fun range =>
      range.endSequence = c.endSequence ∧ range.endChainRoot = c.retainedChainRoot) ∧
    c.retentionProof.contentSHA256 = c.lastSegmentSHA256

def PruneCheckpoint.validate (H : Hashes) (c : PruneCheckpoint) : Except String Unit := do
  reject (c.checkpointVersion ≠ pruneCheckpointVersion ∨ c.endSequence = 0)
    "prune checkpoint identity is invalid"
  validateHash "retained_chain_root" c.retainedChainRoot
  validateHash "last_segment_sha256" c.lastSegmentSHA256
  validateHash "retention_proof_digest" c.retentionProofDigest
  c.retentionProof.validate.mapError fun err => s!"retention proof: {err}"
  reject (!c.bindsProof) "retention proof is not bound to checkpointed WAL"
  reject ((c.retentionProof.digest H).toOption ≠ some c.retentionProofDigest)
    "retention proof digest is not bound to checkpoint"

def PruneCheckpoint.value (c : PruneCheckpoint) : Json :=
  jsonObject [("checkpoint_version", .string c.checkpointVersion), ("end_sequence", jsonUint c.endSequence),
    ("last_segment_sha256", jsonHash c.lastSegmentSHA256),
    ("previous_checkpoint_digest", jsonHash c.previousCheckpointDigest),
    ("retained_chain_root", jsonHash c.retainedChainRoot),
    ("retention_proof_digest", jsonHash c.retentionProofDigest), ("retention_proof", c.retentionProof.value)]

def PruneCheckpoint.canonicalJSON (H : Hashes) (c : PruneCheckpoint) : Except String Bytes := do
  c.validate H
  Protocol.canonicalJSON c.value

def pruneCheckpointDigest (H : Hashes) (canonical : Bytes) : Digest :=
  H.sha256 (pruneCheckpointDomain ++ canonical)

/-! ## Completions -/

def artifactPrefixText : Bytes := utf8 "artifact-"

def isHexDigit (b : UInt8) : Bool := (48 ≤ b && b ≤ 57) || (97 ≤ b && b ≤ 102)

/-- `artifact-` and the 64 digits of `ParseHashHex`. -/
def isArtifactID (id : Bytes) : Bool :=
  id.take 9 = artifactPrefixText && id.length = 73 && (id.drop 9).all isHexDigit

def PruneCompletion.bindsProof (c : PruneCompletion) : Bool :=
  c.retentionProof.artifactKind = c.artifactKind ∧ c.retentionProof.trustedRelativePath = c.trustedPath ∧
    c.retentionProof.bytes = c.bytes ∧ c.retentionProof.contentSHA256 = c.contentSHA256

def PruneCompletion.validate (H : Hashes) (c : PruneCompletion) : Except String Unit := do
  reject (c.completionVersion ≠ pruneCompletionVersion ∨ c.artifactID = [])
    "prune completion identity is invalid"
  reject (c.artifactKind = .walSegment) "prune completion kind is invalid"
  reject (!isArtifactID c.artifactID) "prune completion artifact ID is invalid"
  validateRelativePath c.trustedPath
  reject (c.bytes = 0 ∨ c.contentSHA256 = Digest.zero ∨ c.proofDigest = Digest.zero ∨ c.planDigest = Digest.zero)
    "prune completion proof identity is incomplete"
  c.retentionProof.validate.mapError fun err => s!"prune completion retention proof: {err}"
  reject (!c.bindsProof) "prune completion retention proof is not bound to artifact"
  reject ((c.retentionProof.digest H).toOption ≠ some c.proofDigest)
    "prune completion retention proof digest is not bound"
  reject (c.artifactKind = .rawOutbox ∧
      (c.retentionProof.walRange = none ∨ c.trustedPath ≠ rawWALObjectKey c.contentSHA256))
    "raw outbox completion is not bound to a verified WAL"

def PruneCompletion.value (c : PruneCompletion) : Json :=
  jsonObject [("artifact_id", .string c.artifactID), ("artifact_kind", .string (utf8 c.artifactKind.text)),
    ("bytes", jsonUint c.bytes), ("completion_version", .string c.completionVersion),
    ("content_sha256", jsonHash c.contentSHA256), ("plan_digest", jsonHash c.planDigest),
    ("proof_digest", jsonHash c.proofDigest), ("retention_proof", c.retentionProof.value),
    ("trusted_path", .string c.trustedPath)]

def PruneCompletion.canonicalJSON (H : Hashes) (c : PruneCompletion) : Except String Bytes := do
  c.validate H
  Protocol.canonicalJSON c.value

end TickPlatform.Retention
