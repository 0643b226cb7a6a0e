import TickPlatform.Retention.Executor
import TickPlatform.Wal.Log

/-!
# The retained WAL

What the directories of the WAL root hold when no prune is under way, and what they may hold when one was
interrupted: a chain of checkpoints, the segments that follow it without a gap, and at most the file of the
segment that the last checkpoint released.
-/

namespace TickPlatform.Retention

open Bytes Protocol Wal Files Crash

variable {H : Hashes}

/-! ## Segment names -/

theorem segmentNameFromRange_inj {a a' b b' : UInt64} (h : segmentNameFromRange a b = segmentNameFromRange a' b') :
    a = a' := by
  rw [segmentNameFromRange, segmentNameFromRange] at h
  exact segmentName_inj (utf8_inj h)

theorem walSuffix_segmentName (a b : UInt64) : walSuffix.isSuffixOf (segmentNameFromRange a b) = true := by
  rw [List.isSuffixOf_iff_suffix, segmentNameFromRange, segmentName, utf8_append]
  exact List.suffix_append _ _

def nameOf (segment : VerifiedSegment) : Bytes :=
  segmentNameFromRange segment.startSequence segment.lastSequence

/-! ## Checkpoints -/

instance totalUInt64 : Std.Total fun a b : UInt64 => a ≤ b := ⟨UInt64.le_total⟩
instance transUInt64 : IsTrans UInt64 fun a b => a ≤ b := ⟨fun _ _ _ => UInt64.le_trans⟩
instance antisymmUInt64 : Std.Antisymm fun a b : UInt64 => a ≤ b := ⟨fun _ _ => UInt64.le_antisymm⟩

/-- The chain of the checkpoint files, without the limit on their number. -/
def chainOf (disk : PruneDisk H) : Except PruneError (List CheckpointRecord) :=
  (checkpointFolder.list (· ≤ ·) disk).foldlM addCheckpoint []

variable {disk : PruneDisk H}

theorem any_key {p : PruneName → Bool} : disk.keys.any p = false ↔ ∀ name, p name = true → disk.lookup name = none := by
  rw [List.any_eq_false]
  constructor
  · intro h name hp
    rw [AList.lookup_eq_none, AList.mem_keys]
    intro hmem
    exact h name hmem hp
  · intro h name hmem hp
    have hnone := h name hp
    rw [AList.lookup_eq_none, AList.mem_keys] at hnone
    exact hnone hmem

variable {chain : List CheckpointRecord}

theorem loadCheckpointChain_eq_ok : loadCheckpointChain disk = .ok chain ↔
      (disk.keys.filter PruneName.inCheckpoints).length ≤ maxCheckpointFiles ∧
        (∀ name, disk.lookup (.checkpointOther name) = none) ∧ chainOf disk = .ok chain := by
  simp only [loadCheckpointChain, bind_eq_ok, reject_eq_ok, Nat.not_lt, gt_iff_lt, Bool.not_eq_true, any_key]
  constructor
  · rintro ⟨_, hcount, _, hknown, hchain⟩
    exact ⟨hcount, fun name => hknown _ rfl, hchain⟩
  · rintro ⟨hcount, hknown, hchain⟩
    refine ⟨(), hcount, (), ?_, hchain⟩
    rintro (_ | _) hp <;> first | exact hknown _ | cases hp

theorem addCheckpoint_eq_ok {next : List CheckpointRecord} {file : UInt64 × Content H} :
    addCheckpoint chain file = .ok next ↔ ∃ document : CheckpointDocument H, file.2 = .checkpoint document ∧
      document.value.endSequence = file.1 ∧
      checkPredecessor chain document.value "first checkpoint has a predecessor"
        "checkpoint chain predecessor mismatch" = .ok () ∧
      next = chain ++ [recordOf document] := by
  simp only [addCheckpoint, bind_eq_ok, pure_eq_ok]
  constructor
  · rintro ⟨document, hdecode, _, hpredecessor, rfl⟩
    obtain ⟨endSequence, content⟩ := file
    cases content with
    | checkpoint stored =>
      simp only [decodeCheckpoint] at hdecode
      split at hdecode
      · next hend =>
        cases hdecode
        exact ⟨_, rfl, hend, hpredecessor, rfl⟩
      · cases hdecode
    | data => cases hdecode
    | completion => cases hdecode
  · rintro ⟨document, hfile, hend, hpredecessor, rfl⟩
    refine ⟨document, ?_, (), hpredecessor, rfl⟩
    rw [hfile, decodeCheckpoint, if_pos hend]

theorem foldlM_addCheckpoint_ends {files : List (UInt64 × Content H)} {start : List CheckpointRecord}
    (h : files.foldlM addCheckpoint start = .ok chain) :
    chain.map (·.checkpoint.endSequence) = start.map (·.checkpoint.endSequence) ++ files.map (·.1) := by
  induction files generalizing start with
  | nil =>
    rw [foldlM_nil_eq_ok] at h
    simp [h]
  | cons file files ih =>
    obtain ⟨next, hfirst, hrest⟩ := foldlM_cons_eq_ok.mp h
    obtain ⟨document, -, hend, -, rfl⟩ := addCheckpoint_eq_ok.mp hfirst
    rw [ih hrest]
    simp [recordOf, hend]

theorem chain_ends (h : chainOf disk = .ok chain) : (chain.map (·.checkpoint.endSequence)).Pairwise (· < ·) ∧
      ∀ endSequence, endSequence ∈ chain.map (·.checkpoint.endSequence) ↔
        disk.lookup (.checkpoint endSequence) ≠ none := by
  have hends := foldlM_addCheckpoint_ends h
  rw [List.map_nil, List.nil_append] at hends
  rw [hends]
  constructor
  · have hle : ((checkpointFolder.list (· ≤ ·) disk).map (·.1)).Pairwise (· ≤ ·) :=
      (checkpointFolder.sorted_list (fun a b : UInt64 => a ≤ b)).map _ fun _ _ h => h
    refine (hle.and (checkpointFolder.nodup_list (fun a b : UInt64 => a ≤ b))).imp ?_
    rintro a b ⟨hab, hne⟩
    exact UInt64.lt_of_le_of_ne hab hne
  · intro endSequence
    rw [List.mem_map, ne_eq, Option.eq_none_iff_forall_not_mem, not_forall]
    constructor
    · rintro ⟨⟨_, content⟩, hmem, rfl⟩
      exact ⟨content, not_not_intro ((checkpointFolder.mem_list _).mp hmem)⟩
    · rintro ⟨content, hcontent⟩
      exact ⟨(endSequence, content), (checkpointFolder.mem_list _).mpr (not_not.mp hcontent), rfl⟩

def lastEnd (chain : List CheckpointRecord) : UInt64 := (chain.getLast?.map (·.checkpoint.endSequence)).getD 0

def lastRoot (chain : List CheckpointRecord) : Digest :=
  (chain.getLast?.map (·.checkpoint.retainedChainRoot)).getD Digest.zero

/-- Where the first retained segment starts. -/
def boundaryOf (chain : List CheckpointRecord) : WALBoundary := ⟨lastEnd chain + 1, lastRoot chain⟩

@[simp] theorem lastEnd_nil : lastEnd [] = 0 := rfl

@[simp] theorem lastEnd_append (chain : List CheckpointRecord) (record : CheckpointRecord) :
    lastEnd (chain ++ [record]) = record.checkpoint.endSequence := by
  simp [lastEnd]

@[simp] theorem lastRoot_append (chain : List CheckpointRecord) (record : CheckpointRecord) :
    lastRoot (chain ++ [record]) = record.checkpoint.retainedChainRoot := by
  simp [lastRoot]

theorem le_lastEnd
    (h : (chain.map (·.checkpoint.endSequence)).Pairwise (· < ·)) {record : CheckpointRecord} (hmem : record ∈ chain) :
    record.checkpoint.endSequence ≤ lastEnd chain := by
  rcases List.eq_nil_or_concat' chain with rfl | ⟨front, last, rfl⟩
  · cases hmem
  · rw [lastEnd_append]
    rw [List.map_append, List.pairwise_append] at h
    rcases List.mem_append.mp hmem with hfront | hlast
    · exact UInt64.le_of_lt (h.2.2 _ (List.mem_map_of_mem hfront) _ (by simp))
    · rw [List.mem_singleton.mp hlast]
      exact UInt64.le_refl _

/-! ## Segments -/

/-- The segments continue each other from the boundary on. -/
def Follows : WALBoundary → List VerifiedSegment → Prop
  | _, [] => True
  | boundary, segment :: later =>
    segment.startSequence = boundary.expectedStart ∧ segment.chainStart = boundary.chainRoot ∧
      Follows ⟨segment.lastSequence + 1, segment.chainRoot⟩ later

variable {segments : List VerifiedSegment}

theorem follows_iff {boundary : WALBoundary} :
    (∃ last, segments.foldlM addRetained boundary = .ok last) ↔ Follows boundary segments := by
  induction segments generalizing boundary with
  | nil => simp [Follows, pure, Except.pure]
  | cons segment later ih =>
    simp only [foldlM_cons_eq_ok, addRetained, bind_eq_ok, pure_eq_ok, reject_eq_ok, Follows, ← ih]
    constructor
    · rintro ⟨last, _, ⟨_, hplace, rfl⟩, hrest⟩
      rw [not_or, not_not, not_not] at hplace
      exact ⟨hplace.1, hplace.2, last, hrest⟩
    · rintro ⟨hstart, hroot, last, hrest⟩
      exact ⟨last, _, ⟨(), by simp [hstart, hroot], rfl⟩, hrest⟩

/-- What verification guarantees of the range of a segment. -/
def RangeOk (segment : VerifiedSegment) : Prop :=
  segment.startSequence ≠ 0 ∧ segment.startSequence ≤ segment.lastSequence

variable {segment : VerifiedSegment}

theorem rangeOk_of_verified {data : Bytes} (h : verifySealedSegment H data = .ok segment) : RangeOk segment :=
  ⟨(verifySealedBytes_facts h).1, (verifySealedBytes_facts h).2.1⟩

theorem toNat_succ {a b : UInt64} (h : a = b + 1) (ha : a ≠ 0) : a.toNat = b.toNat + 1 := by
  have hb := b.toNat_lt
  have hne : a.toNat ≠ 0 := fun hzero => ha (UInt64.toNat_inj.mp hzero)
  rw [h, UInt64.toNat_add] at hne ⊢
  simp at hne ⊢
  omega

theorem follows_starts {start : UInt64} {root : Digest}
    (h : Follows ⟨start + 1, root⟩ segments) (hok : ∀ segment ∈ segments, RangeOk segment) :
    (∀ segment ∈ segments, start < segment.startSequence) ∧
      segments.Pairwise fun a b => a.startSequence < b.startSequence := by
  induction segments generalizing start root with
  | nil => simp
  | cons segment later ih =>
    obtain ⟨hstart, -, hrest⟩ := h
    have hsegment := hok segment List.mem_cons_self
    obtain ⟨hafter, hsorted⟩ := ih hrest fun other hother => hok other (List.mem_cons_of_mem _ hother)
    have hfirst : start < segment.startSequence := by
      have := toNat_succ hstart hsegment.1
      rw [UInt64.lt_iff_toNat_lt]
      omega
    have hlater : ∀ other ∈ later, segment.startSequence < other.startSequence := fun other hother =>
      UInt64.lt_of_le_of_lt hsegment.2 (hafter other hother)
    refine ⟨?_, List.pairwise_cons.mpr ⟨hlater, hsorted⟩⟩
    intro other hother
    rcases List.mem_cons.mp hother with rfl | hother
    · exact hfirst
    · exact UInt64.lt_trans hfirst (hlater other hother)

/-! ## The state of the directories -/

/-- The segment stands in `sealed/` under its name. -/
def Held (disk : PruneDisk H) (segment : VerifiedSegment) : Prop :=
  ∃ content, disk.lookup (.sealed (nameOf segment)) = some content ∧
    verifySealedSegment H content.bytes = .ok segment

/-- The file of the segment that the last checkpoint of the chain released. -/
def Released (chain : List CheckpointRecord) (name : Bytes) (content : Content H) : Prop :=
  ∃ front record, chain = front ++ [record] ∧
    name = segmentNameFromRange (lastEnd front + 1) record.checkpoint.endSequence ∧
    ∃ segment, verifySealedSegment H content.bytes = .ok segment ∧
      segment.lastSequence = record.checkpoint.endSequence ∧
      segment.objectSHA256 = record.checkpoint.lastSegmentSHA256 ∧
      segment.chainRoot = record.checkpoint.retainedChainRoot

/-- No prune is under way: the segments of `sealed/` are those that follow the last checkpoint. -/
structure Retained (disk : PruneDisk H) (chain : List CheckpointRecord) (segments : List VerifiedSegment) : Prop where
  known : ∀ name, disk.lookup (.checkpointOther name) = none
  checkpoints : chainOf disk = .ok chain
  follows : Follows (boundaryOf chain) segments
  held : ∀ segment ∈ segments, Held disk segment
  sealed : ∀ name content, disk.lookup (.sealed name) = some content → walSuffix.isSuffixOf name = true →
    ∃ segment ∈ segments, name = nameOf segment
  trash : ∀ name, disk.lookup (.trash name) = none

/-- A prune was interrupted at most after its checkpoint, and before its file was gone. -/
structure Recoverable (disk : PruneDisk H) (chain : List CheckpointRecord) (segments : List VerifiedSegment) : Prop where
  known : ∀ name, disk.lookup (.checkpointOther name) = none
  checkpoints : chainOf disk = .ok chain
  follows : Follows (boundaryOf chain) segments
  held : ∀ segment ∈ segments, Held disk segment
  sealed : ∀ name content, disk.lookup (.sealed name) = some content → walSuffix.isSuffixOf name = true →
    (∃ segment ∈ segments, name = nameOf segment) ∨ Released chain name content
  trash : ∀ name content, disk.lookup (.trash name) = some content → Released chain name content
  once : ∀ name, disk.lookup (.sealed name) ≠ none → disk.lookup (.trash name) = none

theorem Retained.recoverable (h : Retained disk chain segments) : Recoverable disk chain segments where
  known := h.known
  checkpoints := h.checkpoints
  follows := h.follows
  held := h.held
  sealed name content hsealed hsuffix := .inl (h.sealed name content hsealed hsuffix)
  trash name content htrash := by
    rw [h.trash name] at htrash
    cases htrash
  once name _ := h.trash name

theorem Recoverable.rangeOk (h : Recoverable disk chain segments) (hmem : segment ∈ segments) : RangeOk segment := by
  obtain ⟨content, -, hverified⟩ := h.held segment hmem
  exact rangeOk_of_verified hverified

/-! ## What the rest of the disk does not touch -/

def PruneName.inWAL : PruneName → Bool
  | .sealed _ => true
  | .trash _ => true
  | .checkpoint _ => true
  | .checkpointOther _ => true
  | _ => false

/-- The same WAL root, temporary files apart. -/
def SameWAL (disk other : PruneDisk H) : Prop :=
  ∀ name, PruneName.inWAL name = true → other.lookup name = disk.lookup name

theorem SameWAL.refl (disk : PruneDisk H) : SameWAL disk disk := fun _ _ => rfl

theorem SameWAL.trans {a b c : PruneDisk H} (hab : SameWAL a b) (hbc : SameWAL b c) : SameWAL a c :=
  fun name hname => (hbc name hname).trans (hab name hname)

theorem sameWAL_insert (disk : PruneDisk H) (name : PruneName) (h : PruneName.inWAL name = false) (content : Content H) :
    SameWAL disk (disk.insert name content) := by
  intro other hother
  rw [lookup_insert_of, if_neg]
  rintro rfl
  rw [h] at hother
  cases hother

theorem sameWAL_erase (disk : PruneDisk H) (name : PruneName) (h : PruneName.inWAL name = false) :
    SameWAL disk (disk.erase name) := by
  intro other hother
  rw [lookup_erase_of, if_neg]
  rintro rfl
  rw [h] at hother
  cases hother

variable {other : PruneDisk H}

theorem SameWAL.chainOf (h : SameWAL disk other) : chainOf other = chainOf disk := by
  unfold Retention.chainOf
  rw [checkpointFolder.list_congr (fun a b : UInt64 => a ≤ b) fun endSequence => h (.checkpoint endSequence) rfl]

theorem SameWAL.held (h : SameWAL disk other) : Held other segment ↔ Held disk segment := by
  unfold Held
  rw [h (.sealed (nameOf segment)) rfl]

theorem Recoverable.congr
    (h : Recoverable disk chain segments) (hsame : SameWAL disk other) : Recoverable other chain segments where
  known name := (hsame (.checkpointOther name) rfl).trans (h.known name)
  checkpoints := hsame.chainOf.trans h.checkpoints
  follows := h.follows
  held segment hmem := hsame.held.mpr (h.held segment hmem)
  sealed name content hsealed := h.sealed name content ((hsame (.sealed name) rfl).symm.trans hsealed)
  trash name content htrash := h.trash name content ((hsame (.trash name) rfl).symm.trans htrash)
  once name := by
    rw [hsame (.sealed name) rfl, hsame (.trash name) rfl]
    exact h.once name

end TickPlatform.Retention
