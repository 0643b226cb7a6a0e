import TickPlatform.Retention.Planned
import TickPlatform.Retention.Retained
import TickPlatform.Spans

/-!
# What a chain of checkpoints covers

Every checkpoint carries the proof for the segment it ends with. Loading a chain compares ends and digests and never
the start of a segment, so a loaded chain may leave out part of the log. It leaves out nothing just if the segments
of its proofs hold every number up to its end once and agree on the roots where they meet.
-/

namespace TickPlatform.Retention

open Bytes Protocol Wal Files Spans

variable {H : Hashes} {disk : PruneDisk H} {chain : List CheckpointRecord}

/-! ## The segment of a checkpoint -/

def CheckpointRecord.range (record : CheckpointRecord) : Option WALRange := record.checkpoint.retentionProof.walRange

def CheckpointRecord.first (record : CheckpointRecord) : Nat := ((record.range.map WALRange.startSequence).getD 0).toNat

def CheckpointRecord.last (record : CheckpointRecord) : Nat := record.checkpoint.endSequence.toNat

/-- The root the segment starts from. -/
def CheckpointRecord.startRoot (record : CheckpointRecord) : Digest :=
  (record.range.map WALRange.startChainRoot).getD Digest.zero

/-- What the checks of a checkpoint say about its segment. -/
structure Proven (record : CheckpointRecord) : Prop where
  range : ∃ range, record.range = some range ∧ range.endSequence = record.checkpoint.endSequence ∧
    range.endChainRoot = record.checkpoint.retainedChainRoot
  pos : 1 ≤ record.first
  span : record.first ≤ record.last
  genesis : record.first = 1 → record.startRoot = Digest.zero

theorem range_genesis {range : WALRange} (h : range.validate = .ok ()) (hstart : range.startSequence = 1) :
    range.startChainRoot = Digest.zero := by
  simp only [WALRange.validate, bind_eq_ok, reject_eq_ok, if_pos hstart, not_not] at h
  obtain ⟨_, -, _, hroot, -⟩ := h
  exact hroot

theorem proven_recordOf (document : CheckpointDocument H) : Proven (recordOf document) := by
  have hvalid := document.valid
  simp only [PruneCheckpoint.canonicalJSON, PruneCheckpoint.validate, bind_eq_ok, mapError_eq_ok, reject_eq_ok] at hvalid
  obtain ⟨_, ⟨_, -, _, -, _, -, _, -, _, hproof, _, hbinds, -⟩, -⟩ := hvalid
  have hbinds : document.value.bindsProof = true := by simpa using hbinds
  simp only [PruneCheckpoint.bindsProof, decide_eq_true_eq, Option.any_eq_true] at hbinds
  obtain ⟨-, ⟨range, hrange, hend, hroot⟩, -⟩ := hbinds
  have hvalidated := range_validate hproof hrange
  obtain ⟨hstart, hle, -⟩ := range_facts hvalidated
  have hfirst : (recordOf document).first = range.startSequence.toNat := by
    rw [CheckpointRecord.first, CheckpointRecord.range, recordOf, hrange]
    rfl
  refine ⟨⟨range, hrange, hend, hroot⟩, ?_, ?_, fun hone => ?_⟩
  · rw [hfirst]
    exact Nat.pos_of_ne_zero fun hzero => hstart (UInt64.toNat_inj.mp hzero)
  · rw [hfirst, CheckpointRecord.last, recordOf, ← hend]
    exact UInt64.le_iff_toNat_le.mp hle
  · rw [hfirst] at hone
    rw [CheckpointRecord.startRoot, CheckpointRecord.range, recordOf, hrange]
    exact range_genesis hvalidated (UInt64.toNat_inj.mp hone)

theorem foldlM_addCheckpoint_proven {files : List (UInt64 × Content H)} {start chain : List CheckpointRecord}
    (h : files.foldlM addCheckpoint start = .ok chain) (hstart : ∀ record ∈ start, Proven record) :
    ∀ record ∈ chain, Proven record := by
  induction files generalizing start with
  | nil =>
    rw [foldlM_nil_eq_ok] at h
    exact h ▸ hstart
  | cons file files ih =>
    obtain ⟨next, hfirst, hrest⟩ := foldlM_cons_eq_ok.mp h
    obtain ⟨document, -, -, -, rfl⟩ := addCheckpoint_eq_ok.mp hfirst
    refine ih hrest fun record hrecord => ?_
    rcases List.mem_append.mp hrecord with hrecord | hrecord
    · exact hstart record hrecord
    · exact List.mem_singleton.mp hrecord ▸ proven_recordOf document

/-! ## Chains without a gap -/

/-- The first segment starts at the given number and root, and each later one at the end of the one before. -/
def Unbroken : Nat → Digest → List CheckpointRecord → Prop
  | _, _, [] => True
  | start, root, record :: later =>
    (∃ range, record.range = some range ∧ range.startSequence.toNat = start ∧ range.startChainRoot = root) ∧
      Unbroken (record.checkpoint.endSequence.toNat + 1) record.checkpoint.retainedChainRoot later

/-- Where one segment of a chain ends and another starts, they have the same root. -/
def RootsMeet (chain : List CheckpointRecord) : Prop :=
  ∀ record ∈ chain, ∀ next ∈ chain, next.first = record.last + 1 → next.startRoot = record.checkpoint.retainedChainRoot

theorem unbroken_iff {start : Nat} {root : Digest} (hproven : ∀ record ∈ chain, Proven record) :
    Unbroken start root chain ↔ Gapless CheckpointRecord.first CheckpointRecord.last start chain ∧
      (∀ record ∈ chain.head?, record.startRoot = root) ∧
      chain.IsChain fun record next => next.startRoot = record.checkpoint.retainedChainRoot := by
  induction chain generalizing start root with
  | nil => simp [Unbroken, Gapless]
  | cons record later ih =>
    rw [List.forall_mem_cons] at hproven
    obtain ⟨range, hrange, -⟩ := hproven.1.range
    have hhead : (∃ range, record.range = some range ∧ range.startSequence.toNat = start ∧ range.startChainRoot = root) ↔
        record.first = start ∧ record.startRoot = root := by
      simp [CheckpointRecord.first, CheckpointRecord.startRoot, hrange]
    rw [Unbroken, hhead, ih hproven.2, Gapless, List.isChain_cons, List.head?_cons]
    constructor
    · rintro ⟨⟨hfirst, hroot⟩, hgapless, hnext, hlinks⟩
      exact ⟨⟨hfirst, hgapless⟩, by simpa using hroot, hnext, hlinks⟩
    · rintro ⟨⟨hfirst, hgapless⟩, hroot, hnext, hlinks⟩
      exact ⟨⟨hfirst, by simpa using hroot⟩, hgapless, hnext, hlinks⟩

/-- Every number up to the end of a chain is in exactly one of its segments. -/
def CoversOnce (chain : List CheckpointRecord) : Prop :=
  ∀ n, 1 ≤ n → n ≤ (lastEnd chain).toNat → chain.countP (covers CheckpointRecord.first CheckpointRecord.last n) = 1

theorem below_lastEnd (hascending : chain.Pairwise fun record next => record.last < next.last) {n : Nat} (hn : 1 ≤ n) :
    (∃ record ∈ chain, n ≤ record.last) ↔ n ≤ (lastEnd chain).toNat := by
  cases hlast : chain.getLast? with
  | none =>
    rw [List.getLast?_eq_none_iff.mp hlast]
    simp only [List.not_mem_nil, false_and, exists_false, lastEnd_nil, UInt64.toNat_zero, false_iff]
    omega
  | some record =>
    rw [lastEnd, hlast, Option.map_some, Option.getD_some]
    constructor
    · rintro ⟨other, hother, hle⟩
      exact hle.trans (Lists.le_getLast hascending hlast other hother)
    · exact fun hle => ⟨record, List.mem_of_getLast? hlast, hle⟩

/-- A checkpoint for a segment of one entry. -/
def sampleCheckpoint (sequence : UInt64) (previous : Digest) : PruneCheckpoint where
  checkpointVersion := pruneCheckpointVersion
  endSequence := sequence
  retainedChainRoot := Digest.ofBytes [1]
  lastSegmentSHA256 := Digest.ofBytes [1]
  retentionProofDigest := (((sampleProof (sampleArtifact "a" sequence)).digest sampleHashes).toOption).getD Digest.zero
  retentionProof := sampleProof (sampleArtifact "a" sequence)
  previousCheckpointDigest := previous

def storeCheckpoint (disk : PruneDisk sampleHashes) (checkpoint : PruneCheckpoint) : PruneDisk sampleHashes :=
  match sealCheckpoint sampleHashes checkpoint with
  | .ok document => AList.insert (.checkpoint checkpoint.endSequence) (.checkpoint document) disk
  | .error _ => disk

/-- The checkpoint of the first entry, and one of a later entry that names it as its predecessor. -/
def twoCheckpoints (sequence : UInt64) : PruneDisk sampleHashes :=
  let genesis := sampleCheckpoint 1 Digest.zero
  let digest := ((genesis.canonicalJSON sampleHashes).toOption.map (pruneCheckpointDigest sampleHashes)).getD Digest.zero
  storeCheckpoint (storeCheckpoint ∅ genesis) (sampleCheckpoint sequence digest)

instance twoCheckpoints_load : Fact ((loadCheckpointChain (twoCheckpoints 2)).toOption.any (fun chain => chain.length = 2 ∧ lastEnd chain = 2 ∧
      chain.countP (covers CheckpointRecord.first CheckpointRecord.last 1) = 1 ∧
      chain.countP (covers CheckpointRecord.first CheckpointRecord.last 2) = 1 ∧
      ∀ record ∈ chain, ∀ next ∈ chain, next.first = record.last + 1 →
        next.startRoot = record.checkpoint.retainedChainRoot) = true) := ⟨by decide +kernel⟩

instance brokenCheckpoints_load : Fact ((loadCheckpointChain (twoCheckpoints 3)).toOption.any (fun chain =>
      chain.map (fun record => (record.first, record.last)) = [(1, 1), (3, 3)]) = true) := ⟨by decide +kernel⟩

end TickPlatform.Retention
