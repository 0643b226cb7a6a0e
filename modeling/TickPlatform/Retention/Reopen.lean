import TickPlatform.Retention.Recovery
import TickPlatform.Wal.History

/-!
# Opening a WAL that was never pruned

`WALRecovery` reads the prune boundary before the WAL opens. On a root without checkpoints it still takes the
inventory of all sealed segments, with the limits of pruning, so whether the root opens depends on how much it holds.
-/

namespace TickPlatform.Retention

open Bytes Protocol Wal Files Crash

variable {H : Hashes}

/-! ## The lifecycle component -/

def walInventoryObjects : UInt64 := 1048576

def defaultWALInventoryBytes : UInt64 := 1073741824

structure WALRecovery where
  started : Bool
  anchor : Option PruneAnchor
deriving DecidableEq

def newWALRecovery : WALRecovery := ⟨false, none⟩

def WALRecovery.start (r : WALRecovery) : PruneProg H WALRecovery := do
  .lift (reject r.started (otherError "WAL recovery is already started"))
  recoverPrune walInventoryObjects defaultWALInventoryBytes
  let loaded ← .read loadCheckpointChain
  let chain ← .lift loaded
  match chain.getLast? with
  | none => return { r with started := true }
  | some record => do
    let checkpoint := record.checkpoint
    let retained ← .read fun disk =>
      verifyRetainedWAL disk (some checkpoint) walInventoryObjects defaultWALInventoryBytes
    let _ ← .lift retained
    .lift (reject (checkpoint.endSequence = 0 ∨ checkpoint.endSequence = maxUint64 ∨
        checkpoint.retainedChainRoot = Digest.zero)
      (otherError "WAL checkpoint has an invalid prune boundary"))
    return ⟨true, some ⟨checkpoint.endSequence, checkpoint.retainedChainRoot⟩⟩

def WALRecovery.loadWALAnchor (r : WALRecovery) : Except PruneError (Option PruneAnchor) := do
  reject (!r.started) (otherError "WAL recovery is not started")
  return r.anchor

/-- What retention sees of a WAL root on which no prune has run. -/
def pruneRoot (H : Hashes) (d : Wal.Disk) : PruneDisk H :=
  d.sealed.foldr (fun file root => root.insert (.sealed (utf8 file.1)) (.data file.2)) ∅

/-- A process starts on the root, recovery first and then the store, and serves these entries. -/
def Reopens (H : Hashes) (gatewayID : Bytes) (now : Int64) (d : Wal.Disk) (entries : List Entry) : Prop :=
  ∃ recovery anchor ops s, newWALRecovery.start.run (pruneRoot H d) = ([], .ok recovery) ∧
    recovery.loadWALAnchor = .ok anchor ∧ (Wal.start H gatewayID anchor now).run d = (ops, .ok s) ∧
    s.entries = entries

/-- The states of a WAL root that is empty at first, after calls that all end well, with the entries that were
appended. -/
inductive Worked (H : Hashes) (gatewayID : Bytes) : Option Store → Wal.Disk → List Entry → Prop
  | empty : Worked H gatewayID none ⟨none, []⟩ []
  | started {d : Wal.Disk} {entries : List Entry} {now : Int64} {ops : List DiskOp} {s : Store} :
    Worked H gatewayID none d entries → (Wal.start H gatewayID none now).run d = (ops, .ok s) →
    Worked H gatewayID (some s) (runAll ops d) entries
  | appended {s s' : Store} {d : Wal.Disk} {entries : List Entry} {frame : Bytes} {wall : Int64} {mono : UInt64}
      {ops : List DiskOp} {entry : Entry} :
    Worked H gatewayID (some s) d entries → (s.append H frame wall mono none).run d = (ops, .ok (s', entry)) →
    Worked H gatewayID (some s') (runAll ops d) (entries ++ [entry])
  | sealed {s s' : Store} {d : Wal.Disk} {entries : List Entry} {now : Int64} {ops : List DiskOp}
      {segment : VerifiedSegment} :
    Worked H gatewayID (some s) d entries → (s.sealActive H now).run d = (ops, .ok (s', segment)) →
    Worked H gatewayID (some s') (runAll ops d) entries
  | stopped {s : Store} {d : Wal.Disk} {entries : List Entry} :
    Worked H gatewayID (some s) d entries → Worked H gatewayID none d entries

variable {gatewayID : Bytes}

/-! ## The root is that of a log -/

/-- With a process the root is served; without one it is served as it stands, or it is empty. -/
def Settled (H : Hashes) (gatewayID : Bytes) (entries : List Entry) (d : Wal.Disk) : Option Store → Prop
  | some s => Serves H gatewayID none entries s d
  | none => (d = ⟨none, []⟩ ∧ entries = []) ∨ ∃ s, Serves H gatewayID none entries s d

variable {d : Wal.Disk}

theorem settled_of_worked (hid : ValidID gatewayID) {o : Option Store} {entries : List Entry}
    (h : Worked H gatewayID o d entries) : Settled H gatewayID entries d o := by
  induction h with
  | empty => exact .inl ⟨rfl, rfl⟩
  | started _ hrun ih =>
    rcases ih with ⟨rfl, rfl⟩ | ⟨s, hserves⟩
    · exact ((meets_start (holds_empty hid (show AnchorOk none from trivial)) _).ok _ _ hrun).2
    · exact ((meets_start hserves.holds _).ok _ _ hrun).2
  | appended _ hrun ih =>
    exact ((meets_append (P := fun _ => True) (.inl ih) _ _ _ _ fun _ _ => trivial).ok _ _ hrun).2
  | @sealed s s' d entries now ops segment _ hrun ih =>
    obtain ⟨l, hbase, rfl, rfl, rfl⟩ := ih
    rcases sealActive_cases l now with ⟨err, hfailed⟩ | ⟨hcan, hsealed⟩ | ⟨-, -, err, -, hfailed⟩
    · rw [hfailed] at hrun
      cases hrun
    · rw [hsealed, Prod.mk.injEq, Except.ok.injEq, Prod.mk.injEq] at hrun
      obtain ⟨rfl, rfl, -⟩ := hrun
      exact ⟨l.sealActive hcan now, hbase, l.sealActive_entries hcan now, rfl, runAll_sealOps l hcan now⟩
    · rw [hfailed] at hrun
      cases hrun
  | stopped _ ih => exact .inr ⟨_, ih⟩

/-! ## What retention sees of a log -/

theorem lookup_pruneRoot_other {name : PruneName} (h : ∀ sealed, name ≠ .sealed sealed) :
    (pruneRoot H d).lookup name = none := by
  unfold pruneRoot
  induction d.sealed with
  | nil => rfl
  | cons file files ih => rw [List.foldr_cons, lookup_insert_of, if_neg (h _), ih]

theorem lookup_pruneRoot (hnodup : (d.sealed.map (·.1)).Nodup) {name : Bytes} {content : Content H} :
    (pruneRoot H d).lookup (.sealed name) = some content ↔
      (name, content) ∈ d.sealed.map fun file => (utf8 file.1, Content.data file.2) := by
  unfold pruneRoot
  revert hnodup
  induction d.sealed with
  | nil => simp
  | cons file files ih =>
    intro hnodup
    rw [List.map_cons, List.nodup_cons] at hnodup
    rw [List.foldr_cons, lookup_insert_of, List.map_cons, List.mem_cons, ← ih hnodup.2]
    split
    · next hname =>
      obtain rfl : name = utf8 file.1 := PruneName.sealed.inj hname
      have hlater : ¬ (files.foldr (fun file root => root.insert (.sealed (utf8 file.1)) (.data file.2)) ∅ :
          PruneDisk H).lookup (.sealed (utf8 file.1)) = some content := by
        rw [ih hnodup.2, List.mem_map]
        rintro ⟨other, hother, heq⟩
        rw [Prod.mk.injEq] at heq
        exact hnodup.1 (List.mem_map.mpr ⟨other, hother, utf8_inj heq.1⟩)
      simp only [hlater, or_false, Prod.mk.injEq, true_and, Option.some.injEq]
      exact eq_comm
    · next hname =>
      have hne : ¬ (name, content) = (utf8 file.1, Content.data file.2) := by
        rw [Prod.mk.injEq]
        rintro ⟨rfl, -⟩
        exact hname rfl
      simp only [hne, false_or]

theorem no_checkpoints_pruneRoot (H : Hashes) (d : Wal.Disk) :
    (pruneRoot H d).keys.filter PruneName.inCheckpoints = [] := by
  rw [List.filter_eq_nil_iff]
  intro name hkey hin
  have hother : (pruneRoot H d).lookup name = none := lookup_pruneRoot_other (by rintro sealed rfl; cases hin)
  rw [AList.lookup_eq_none, AList.mem_keys] at hother
  exact hother hkey

/-- What verification says about the sealed segments, without their paths. -/
def unnamedSegments (H : Hashes) (gatewayID : Bytes) : Position → List SegmentData → List VerifiedSegment
  | _, [] => []
  | p, seg :: segs => verified H gatewayID "" p seg :: unnamedSegments H gatewayID (p.advance seg.entries) segs

theorem forall₂_unnamedSegments (hid : ValidID gatewayID) {p : Position} {segs : List SegmentData}
    (h : SealedOk H gatewayID p segs) :
    List.Forall₂ (fun file segment => file.1 = segmentName segment.startSequence segment.lastSequence ∧
        verifySealedSegment H file.2 = .ok segment)
      (sealedFiles H gatewayID p segs) (unnamedSegments H gatewayID p segs) := by
  induction segs generalizing p with
  | nil => exact .nil
  | cons seg segs ih => exact .cons ⟨rfl, verifySealedBytes_sealed hid h.1 ""⟩ (ih h.2)

theorem follows_unnamedSegments (p : Position) (segs : List SegmentData) :
    Follows ⟨p.next, p.last⟩ (unnamedSegments H gatewayID p segs) := by
  induction segs generalizing p with
  | nil => trivial
  | cons seg segs ih =>
    refine ⟨rfl, rfl, ?_⟩
    have hnext : lastSequence p seg + 1 = (p.advance seg.entries).next := UInt64.sub_add_cancel _ _
    show Follows ⟨lastSequence p seg + 1, (p.advance seg.entries).last⟩ _
    rw [hnext]
    exact ih (p.advance seg.entries)

section
variable {l : Log H gatewayID} (hbase : anchorPosition none = l.base)
include hbase

theorem follows_genesis : Follows (boundaryOf []) (unnamedSegments H gatewayID l.base l.sealed) := by
  have hboundary : boundaryOf [] = ⟨l.base.next, l.base.last⟩ := by
    rw [← hbase]
    rfl
  rw [hboundary]
  exact follows_unnamedSegments l.base l.sealed

theorem unnamedSegments_sorted : (unnamedSegments H gatewayID l.base l.sealed).Pairwise fun a b =>
    a.startSequence < b.startSequence := by
  refine (follows_starts (follows_genesis hbase) fun segment hsegment => ?_).2
  obtain ⟨file, -, -, hverified⟩ := exists_left_of_mem (forall₂_unnamedSegments l.validID l.sealed_ok) hsegment
  exact rangeOk_of_verified hverified

theorem sealedFiles_nodup : ((sealedFiles H gatewayID l.base l.sealed).map (·.1)).Nodup := by
  have hnames : (sealedFiles H gatewayID l.base l.sealed).map (·.1) = (unnamedSegments H gatewayID l.base l.sealed).map
      fun segment => segmentName segment.startSequence segment.lastSequence :=
    map_eq_of_forall₂ (forall₂_unnamedSegments l.validID l.sealed_ok) fun _ _ h => h.1
  rw [hnames]
  refine List.Pairwise.map _ (fun a b hlt heq => ?_) (unnamedSegments_sorted hbase)
  exact UInt64.lt_irrefl _ (segmentName_inj heq ▸ hlt)

variable {d : Wal.Disk} (hd : d.sealed = sealedFiles H gatewayID l.base l.sealed)
include hd

/-- Its sealed segments are a retained WAL without checkpoints. -/
theorem retained_pruneRoot : Retained (pruneRoot H d) [] (unnamedSegments H gatewayID l.base l.sealed) where
  known name := lookup_pruneRoot_other nofun
  checkpoints := by
    have hlist : checkpointFolder.list (· ≤ ·) (pruneRoot H d) = [] := by
      rw [List.eq_nil_iff_forall_not_mem]
      rintro ⟨endSequence, content⟩ hmem
      rw [checkpointFolder.mem_list] at hmem
      have hnone : (pruneRoot H d).lookup (checkpointFolder.place endSequence) = none := lookup_pruneRoot_other nofun
      rw [hnone] at hmem
      cases hmem
    rw [chainOf, hlist]
    rfl
  follows := follows_genesis hbase
  held segment hsegment := by
    obtain ⟨file, hfile, hname, hverified⟩ := exists_left_of_mem (forall₂_unnamedSegments l.validID l.sealed_ok) hsegment
    refine ⟨.data file.2, ?_, hverified⟩
    rw [lookup_pruneRoot (hd ▸ sealedFiles_nodup hbase), List.mem_map, nameOf, segmentNameFromRange, ← hname]
    exact ⟨file, hd ▸ hfile, rfl⟩
  sealed name content hlookup _ := by
    rw [lookup_pruneRoot (hd ▸ sealedFiles_nodup hbase), List.mem_map] at hlookup
    obtain ⟨file, hfile, heq⟩ := hlookup
    obtain ⟨segment, hsegment, hname, -⟩ :=
      exists_right_of_mem (forall₂_unnamedSegments l.validID l.sealed_ok) (hd ▸ hfile)
    refine ⟨segment, hsegment, ?_⟩
    rw [nameOf, segmentNameFromRange, ← hname]
    exact (congrArg Prod.fst heq).symm
  trash name := lookup_pruneRoot_other nofun

theorem sealedSegments_perm : (sealedSegments (pruneRoot H d)).Perm
    (d.sealed.map fun file => (utf8 file.1, Content.data file.2)) := by
  have hnodup : (d.sealed.map (·.1)).Nodup := hd ▸ sealedFiles_nodup hbase
  rw [List.perm_ext_iff_of_nodup]
  · rintro ⟨name, content⟩
    rw [mem_sealedSegments, lookup_pruneRoot hnodup, and_iff_left_iff_imp, List.mem_map]
    rintro ⟨file, hfile, heq⟩
    obtain ⟨segment, -, hname, -⟩ :=
      exists_right_of_mem (forall₂_unnamedSegments l.validID l.sealed_ok) (hd ▸ hfile)
    obtain rfl : utf8 file.1 = name := congrArg Prod.fst heq
    rw [hname]
    have hsuffix := walSuffix_segmentName segment.startSequence segment.lastSequence
    rwa [segmentNameFromRange] at hsuffix
  · exact ((sealedFolder.nodup_list keyLE).sublist (List.filter_sublist.map _)).of_map
  · refine List.Nodup.of_map Prod.fst ?_
    rw [List.map_map]
    have hutf8 : (Prod.fst ∘ fun file : String × Bytes => (utf8 file.1, (Content.data file.2 : Content H))) =
        utf8 ∘ Prod.fst := rfl
    rw [hutf8, ← List.map_map]
    exact hnodup.map fun _ _ => utf8_inj

theorem verify_pruneRoot_iff : (∃ segments, verifyRetainedWAL (pruneRoot H d) none walInventoryObjects
      defaultWALInventoryBytes = .ok segments) ↔
    d.sealed.length ≤ 1048576 ∧ (d.sealed.map (·.2.length)).sum ≤ 1073741824 := by
  have hperm := sealedSegments_perm hbase hd
  have hlength : (sealedSegments (pruneRoot H d)).length = d.sealed.length := by rw [hperm.length_eq, List.length_map]
  have hsize : ((sealedSegments (pruneRoot H d)).map fileSize).sum = (d.sealed.map (·.2.length)).sum := by
    rw [(hperm.map fileSize).sum_eq, List.map_map]
    rfl
  constructor
  · rintro ⟨segments, hsegments⟩
    obtain ⟨found, hfound, -⟩ := bind_eq_ok.mp hsegments
    obtain ⟨-, -, hobjects, hbytes, -⟩ := inventorySegments_eq_ok.mp hfound
    exact ⟨hlength ▸ hobjects, hsize ▸ hbytes⟩
  · rintro ⟨hobjects, hbytes⟩
    have hretained := retained_pruneRoot hbase hd
    refine ⟨_, hretained.verify ⟨?_, hlength ▸ hobjects, hsize ▸ hbytes, ?_, ?_⟩⟩
    · rw [no_checkpoints_pruneRoot]
      exact Nat.zero_le _
    · decide
    · decide

/-- Recovery of a root that was never pruned checks the retained WAL and does nothing else. -/
theorem start_pruneRoot : newWALRecovery.start.run (pruneRoot H d) = ([], (verifyRetainedWAL (pruneRoot H d) none
    walInventoryObjects defaultWALInventoryBytes).map fun _ => ⟨true, none⟩) := by
  have hretained := retained_pruneRoot hbase hd
  have hload : loadCheckpointChain (pruneRoot H d) = .ok [] := by
    refine loadCheckpointChain_eq_ok.mpr ⟨?_, hretained.known, hretained.checkpoints⟩
    rw [no_checkpoints_pruneRoot]
    exact Nat.zero_le _
  have hrecover : (recoverPrune walInventoryObjects defaultWALInventoryBytes).run (pruneRoot H d) =
      ([], (verifyRetainedWAL (pruneRoot H d) none walInventoryObjects defaultWALInventoryBytes).map fun _ => ()) := by
    rw [recoverPrune, Prog.read_bind, hload, Prog.lift_bind_ok, recoverCheckpointedSegments, Prog.pure_bind_run,
      Prog.read_bind, hretained.no_trash, Prog.lift_bind_ok, Prog.read_bind]
    cases hverified : verifyRetainedWAL (pruneRoot H d) none walInventoryObjects defaultWALInventoryBytes with
    | error err =>
      refine Prog.bind_error ?_
      rw [Prog.lift_run, List.getLast?_nil, Option.map_none, hverified]
    | ok segments =>
      refine (Prog.bind_quiet (a := segments) ?_).trans rfl
      rw [Prog.lift_run, List.getLast?_nil, Option.map_none, hverified]
  have hfree : reject newWALRecovery.started (otherError "WAL recovery is already started") = .ok () := rfl
  rw [WALRecovery.start, hfree, Prog.lift_bind_ok]
  cases hverified : verifyRetainedWAL (pruneRoot H d) none walInventoryObjects defaultWALInventoryBytes with
  | error err =>
    rw [hverified] at hrecover
    exact Prog.bind_error hrecover
  | ok segments =>
    rw [hverified] at hrecover
    rw [Prog.bind_quiet hrecover, Prog.read_bind, hload, Prog.lift_bind_ok]
    rfl

end

/-! ## Exhausted sequence numbers -/

theorem sealed_last_ne_max {p : Position} {segs : List SegmentData} (h : SealedOk H gatewayID p segs) {final : Entry}
    (hlast : (sealedEntries segs).getLast? = some final) : final.sequence ≠ maxUint64 := by
  induction segs generalizing p with
  | nil => cases hlast
  | cons seg segs ih =>
    rw [sealedEntries, List.flatMap_cons, List.getLast?_append, Option.or_eq_some_iff] at hlast
    rcases hlast with hlater | ⟨-, hfirst⟩
    · exact ih h.2 hlater
    · obtain ⟨_, last, -, hlast, -, -, hsequence, -⟩ := h.1.head_and_last
      obtain rfl : last = final := Option.some.inj (hlast.symm.trans hfirst)
      rw [hsequence]
      exact lastSequence_ne_max h.1

theorem exhausted_iff (l : Log H gatewayID) : l.Exhausted ↔ ∃ final ∈ l.entries.getLast?, final.sequence = maxUint64 := by
  constructor
  · rintro ⟨final, hlast, hmax⟩
    refine ⟨final, ?_, hmax⟩
    rw [Log.entries, List.getLast?_append, hlast]
    rfl
  · rintro ⟨final, hlast, hmax⟩
    rw [Option.mem_def, Log.entries, List.getLast?_append, Option.or_eq_some_iff] at hlast
    rcases hlast with hactive | ⟨-, hsealed⟩
    · exact ⟨final, hactive, hmax⟩
    · exact absurd hmax (sealed_last_ne_max l.sealed_ok hsealed)

/-! ## Which roots open -/

theorem reopens_iff {l : Log H gatewayID} (hbase : anchorPosition none = l.base)
    (hd : d.sealed = sealedFiles H gatewayID l.base l.sealed) {now : Int64} {entries : List Entry} :
    Reopens H gatewayID now d entries ↔
      (d.sealed.length ≤ 1048576 ∧ (d.sealed.map (·.2.length)).sum ≤ 1073741824) ∧
        ∃ ops s, (Wal.start H gatewayID none now).run d = (ops, .ok s) ∧ s.entries = entries := by
  unfold Reopens
  rw [← verify_pruneRoot_iff hbase hd, start_pruneRoot hbase hd]
  constructor
  · rintro ⟨recovery, anchor, ops, s, hrecovery, hanchor, hstart, hentries⟩
    cases hverified : verifyRetainedWAL (pruneRoot H d) none walInventoryObjects defaultWALInventoryBytes with
    | error err =>
      rw [hverified] at hrecovery
      cases hrecovery
    | ok segments =>
      rw [hverified] at hrecovery
      cases hrecovery
      cases hanchor
      exact ⟨⟨segments, rfl⟩, ops, s, hstart, hentries⟩
  · rintro ⟨⟨segments, hverified⟩, ops, s, hstart, hentries⟩
    rw [hverified]
    exact ⟨⟨true, none⟩, none, ops, s, rfl, rfl, hstart, hentries⟩

/-- A root opens, with all its entries, when its sealed segments are within the limits of the inventory and the last
sequence number is not in use. -/
theorem reopens_iff_within_limits (hid : ValidID gatewayID) {o : Option Store} {d : Wal.Disk} {entries : List Entry}
    (h : Worked H gatewayID o d entries) (now : Int64) :
    Reopens H gatewayID now d entries ↔ (d.sealed.length ≤ 1048576 ∧ (d.sealed.map (·.2.length)).sum ≤ 1073741824) ∧
      ∀ final ∈ entries.getLast?, final.sequence ≠ maxUint64 := by
  have ha : AnchorOk none := trivial
  have hsettled : (d = ⟨none, []⟩ ∧ entries = []) ∨ ∃ s, Serves H gatewayID none entries s d := by
    cases o with
    | none => exact settled_of_worked hid h
    | some s => exact .inr ⟨s, settled_of_worked hid h⟩
  rcases hsettled with ⟨rfl, rfl⟩ | ⟨s, l, hbase, rfl, -, rfl⟩
  · let l : Log H gatewayID := .fresh hid (anchorPosition none) (anchorPosition_next ha) 0
    have hstart := start_missing l ha rfl now
    rw [reopens_iff (l := l) rfl rfl]
    refine and_congr_right fun _ => iff_of_true ⟨_, _, hstart, rfl⟩ ?_
    rintro final ⟨⟩
  · rw [reopens_iff hbase rfl]
    refine and_congr_right fun _ => ?_
    by_cases hexhausted : l.Exhausted
    · have hrun := (start_tail l ha hbase now [] (.inl rfl)).2 hexhausted
      rw [List.append_nil] at hrun
      obtain ⟨final, hlast, hmax⟩ := (exhausted_iff l).mp hexhausted
      refine iff_of_false ?_ fun hall => hall final hlast hmax
      rintro ⟨ops, s, hstart, -⟩
      cases hrun.symm.trans hstart
    · refine iff_of_true ⟨_, _, start_disk l ha hbase now hexhausted, rfl⟩ fun final hlast hmax => ?_
      exact hexhausted ((exhausted_iff l).mpr ⟨final, hlast, hmax⟩)

/-! ## A long history -/

theorem worked_fresh (H : Hashes) (hid : ValidID gatewayID) (now : Int64) :
    ∃ l : Log H gatewayID, anchorPosition none = l.base ∧ Worked H gatewayID (some l.store) l.disk l.entries ∧
      l.sealed = [] ∧ l.entries = [] := by
  have ha : AnchorOk none := trivial
  let l : Log H gatewayID := .fresh hid (anchorPosition none) (anchorPosition_next ha) now
  have hempty : Worked H gatewayID none (l.withActive none) l.entries := .empty
  have hstarted := hempty.started (start_missing l ha rfl now)
  rw [runAll_create] at hstarted
  exact ⟨l, rfl, hstarted, rfl, rfl⟩

/-- Any number of rounds of one `Append` and one `Seal`. -/
theorem exists_rounds (hid : ValidID gatewayID) {frame : Bytes} (happ : Appendable H frame) {n : Nat} (hn : n < 4294967296) :
    ∃ l : Log H gatewayID, anchorPosition none = l.base ∧ Worked H gatewayID (some l.store) l.disk l.entries ∧
      l.sealed.length = n ∧ l.entries.length = n := by
  induction n with
  | zero =>
    obtain ⟨l, hbase, hworked, hsealed, hentries⟩ := worked_fresh H hid 0
    exact ⟨l, hbase, hworked, by rw [hsealed]; rfl, by rw [hentries]; rfl⟩
  | succ n ih =>
    obtain ⟨l, hbase, hworked, hsealed, hentries⟩ := ih (by omega)
    let l' := l.append happ 0 0
    have hlonger : l'.entries.length = n + 1 := by rw [l.append_entries happ 0 0, List.length_append, hentries]; rfl
    have happended : Worked H gatewayID (some l'.store) l'.disk l'.entries := by
      have hstep := hworked.appended (append_run l happ 0 0)
      rw [← l.append_entries happ 0 0, runAll_cons, l.append_disk happ 0 0] at hstep
      exact hstep
    have hactive : l'.active.entries.length ≤ l'.entries.length := by
      rw [Log.entries, List.length_append]
      exact Nat.le_add_left _ _
    have hroom : l'.HasRoom := by
      rw [Log.HasRoom, hlonger, show l'.base = anchorPosition none from hbase.symm]
      show 1 + (n + 1) < 18446744073709551616
      omega
    have hcan : l'.CanSeal :=
      ⟨⟨List.concat_ne_nil _ _, l'.active_chained, l'.activeStart_next, by omega⟩, hroom.active⟩
    refine ⟨l'.sealActive hcan 0, hbase, ?_, ?_, ?_⟩
    · have hstep := happended.sealed (sealActive_run l' hcan 0)
      rw [runAll_sealOps, ← l'.sealActive_entries hcan 0] at hstep
      exact hstep
    · rw [← hsealed]
      exact List.length_append
    · rw [l'.sealActive_entries, hlonger]

theorem length_sealedFiles (p : Position) (segs : List SegmentData) : (sealedFiles H gatewayID p segs).length = segs.length := by
  induction segs generalizing p with
  | nil => rfl
  | cons seg segs ih => rw [sealedFiles, List.length_cons, ih, List.length_cons]

theorem sampleFrame_appendable :
    Appendable Hashes.sample (batchFrame Hashes.sample (emptyBatch (ascii "l") (ascii "s") 1)) :=
  appendable_batchFrame (emptyBatch_encodable ⟨by decide, by decide⟩ ⟨by decide, by decide⟩ 1) rfl

/-- One round more than the inventory has room for, and the root does not open. -/
theorem long_wal_does_not_reopen : ∃ s d entries, Worked Hashes.sample (ascii "g") (some s) d entries ∧
    d.sealed.length = 1048577 ∧ entries.length = 1048577 ∧ ∀ now, ¬ Reopens Hashes.sample (ascii "g") now d entries := by
  have hid : ValidID (ascii "g") := ⟨by decide, by decide, by decide⟩
  obtain ⟨l, hbase, hworked, hsealed, hentries⟩ :=
    exists_rounds (n := 1048577) hid sampleFrame_appendable (by decide)
  have hlength : l.disk.sealed.length = 1048577 := by
    rw [← hsealed]
    exact length_sealedFiles l.base l.sealed
  refine ⟨l.store, l.disk, l.entries, hworked, hlength, hentries, fun now hopens => ?_⟩
  obtain ⟨⟨hobjects, -⟩, -⟩ := (reopens_iff hbase rfl).mp hopens
  omega

/-- One batch in a new root. -/
theorem reopens_iff_within_limits_one_batch : ∃ s d entries, Worked Hashes.sample (ascii "g") (some s) d entries ∧
    entries.length = 1 ∧ Reopens Hashes.sample (ascii "g") 0 d entries := by
  have hid : ValidID (ascii "g") := ⟨by decide, by decide, by decide⟩
  obtain ⟨l, hbase, hworked, hsealed, hentries⟩ := worked_fresh Hashes.sample hid 0
  have happended := hworked.appended (append_run l sampleFrame_appendable 0 0)
  rw [runAll_cons, l.append_disk sampleFrame_appendable 0 0, runAll_nil, hentries] at happended
  have hfiles : (l.append sampleFrame_appendable 0 0).disk.sealed = [] := by
    show sealedFiles Hashes.sample (ascii "g") l.base l.sealed = []
    rw [hsealed]
    rfl
  have hsequence : (l.nextEntry (batchFrame Hashes.sample (emptyBatch (ascii "l") (ascii "s") 1)) 0 0).sequence = 1 := by
    show (l.base.advance l.entries).next = 1
    rw [hentries, ← hbase]
    rfl
  refine ⟨_, _, _, happended, rfl, (reopens_iff_within_limits hid happended 0).mpr ⟨?_, ?_⟩⟩
  · rw [hfiles]
    exact ⟨by decide, by decide⟩
  · intro final hfinal
    rw [List.nil_append, List.getLast?_singleton, Option.mem_some_iff] at hfinal
    rw [← hfinal, hsequence]
    decide

end TickPlatform.Retention
