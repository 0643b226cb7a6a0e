import Mathlib.Algebra.Order.BigOperators.Group.List
import TickPlatform.Retention.Retained

/-!
# Recovery of an interrupted prune

`RecoverPrune` brings every recoverable state to a retained WAL, and leaves a retained WAL as it is.
-/

namespace TickPlatform.Retention

open Bytes Protocol Wal Files Crash

variable {H : Hashes} {disk : PruneDisk H} {chain : List CheckpointRecord} {segments : List VerifiedSegment}

instance : Std.Total keyLE := ⟨keyLE_total⟩
instance : IsTrans Bytes keyLE := ⟨fun _ _ _ => keyLE_trans⟩
instance : Std.Antisymm keyLE := ⟨fun _ _ => keyLE_antisymm⟩

/-! ## Limits -/

/-- The limits of the inventory, and the one on checkpoint files, are not exceeded. -/
structure Fits (disk : PruneDisk H) (maxObjects maxBytes : UInt64) : Prop where
  checkpoints : (disk.keys.filter PruneName.inCheckpoints).length ≤ maxCheckpointFiles
  objects : (sealedSegments disk).length ≤ maxObjects.toNat
  bytes : ((sealedSegments disk).map fileSize).sum ≤ maxBytes.toNat
  objects_pos : maxObjects ≠ 0
  bytes_pos : maxBytes ≠ 0

variable {maxObjects maxBytes : UInt64}

theorem filter_erase_of_not {p : PruneName → Bool} {name : PruneName} (h : p name = false) (l : List PruneName) :
    (l.erase name).filter p = l.filter p := by
  induction l with
  | nil => rfl
  | cons a l ih =>
    rw [List.erase_cons]
    split
    · next ha => simp_all
    · rw [List.filter_cons, List.filter_cons, ih]

theorem sealedSegments_erase (name : PruneName) : List.Sublist (sealedSegments (disk.erase name)) (sealedSegments disk) := by
  unfold sealedSegments
  refine List.Sublist.filter _ ?_
  by_cases h : ∃ sealed, name = sealedFolder.place sealed
  · obtain ⟨sealed, rfl⟩ := h
    rw [sealedFolder.list_erase]
    exact List.filter_sublist
  · rw [sealedFolder.list_congr keyLE fun sealed => ?_]
    rw [lookup_erase_of, if_neg]
    intro heq
    exact h ⟨sealed, heq.symm⟩

theorem Fits.erase (h : Fits disk maxObjects maxBytes) {name : PruneName} (hname : PruneName.inCheckpoints name = false) :
    Fits (disk.erase name) maxObjects maxBytes where
  checkpoints := by
    rw [AList.keys_erase, filter_erase_of_not hname]
    exact h.checkpoints
  objects := (sealedSegments_erase name).length_le.trans h.objects
  bytes := by
    refine le_trans ?_ h.bytes
    exact ((sealedSegments_erase name).map fileSize).sum_le_sum fun _ _ => Nat.zero_le _
  objects_pos := h.objects_pos
  bytes_pos := h.bytes_pos

theorem sealedSegments_congr {other : PruneDisk H} (h : ∀ name, other.lookup (.sealed name) = disk.lookup (.sealed name)) :
    sealedSegments other = sealedSegments disk := by
  unfold sealedSegments
  rw [sealedFolder.list_congr keyLE h]

theorem Fits.insert_trash (h : Fits disk maxObjects maxBytes) (name : Bytes) (content : Content H) :
    Fits (disk.insert (.trash name) content) maxObjects maxBytes := by
  have hsame : sealedSegments (disk.insert (.trash name) content) = sealedSegments disk :=
    sealedSegments_congr fun sealed => by rw [lookup_insert_of, if_neg (by simp)]
  refine ⟨?_, hsame ▸ h.objects, hsame ▸ h.bytes, h.objects_pos, h.bytes_pos⟩
  rw [AList.keys_insert, List.filter_cons_of_neg (by simp [PruneName.inCheckpoints]), filter_erase_of_not rfl]
  exact h.checkpoints

/-! ## The retained segments -/

variable {content : Content H} {name : Bytes}

theorem mem_sealedSegments : (name, content) ∈ sealedSegments disk ↔
      disk.lookup (.sealed name) = some content ∧ walSuffix.isSuffixOf name = true := by
  rw [sealedSegments, List.mem_filter, sealedFolder.mem_list]
  rfl

theorem inventorySegment_eq_ok {file : Bytes × Content H} {found : Inventoried} :
    inventorySegment file = .ok found ↔ ∃ segment, verifySealedSegment H file.2.bytes = .ok segment ∧
      file.1 = nameOf segment ∧ found = (segmentArtifact .walSegment (sealedPath file.1) segment, segment) := by
  simp only [inventorySegment, bind_eq_ok, pure_eq_ok, reject_eq_ok, mapError_eq_ok, not_not]
  constructor
  · rintro ⟨segment, hverified, _, hname, rfl⟩
    exact ⟨segment, hverified, hname, rfl⟩
  · rintro ⟨segment, hverified, hname, rfl⟩
    exact ⟨segment, hverified, (), hname, rfl⟩

theorem inventorySegments_eq_ok {found : List Inventoried × Nat} :
    inventorySegments disk maxObjects maxBytes = .ok found ↔
      maxObjects ≠ 0 ∧ maxBytes ≠ 0 ∧ (sealedSegments disk).length ≤ maxObjects.toNat ∧
        ((sealedSegments disk).map fileSize).sum ≤ maxBytes.toNat ∧
        List.Forall₂ (fun file found => inventorySegment file = .ok found) (sealedSegments disk) found.1 ∧
        found.2 = ((sealedSegments disk).map fileSize).sum := by
  simp only [inventorySegments, addSegment, bind_eq_ok, reject_eq_ok, collect_all, exists_unit]

theorem map_eq_of_forall₂ {α β γ : Type} {R : α → β → Prop} {f : α → γ} {g : β → γ} {l : List α} {m : List β}
    (h : List.Forall₂ R l m) (hfg : ∀ a b, R a b → f a = g b) : l.map f = m.map g := by
  rw [← List.forall₂_eq_eq_eq, List.forall₂_map_left_iff, List.forall₂_map_right_iff]
  exact h.imp hfg

theorem Retained.file (h : Retained disk chain segments) {file : Bytes × Content H} (hfile : file ∈ sealedSegments disk) :
    ∃ segment ∈ segments, verifySealedSegment H file.2.bytes = .ok segment ∧ file.1 = nameOf segment := by
  obtain ⟨name, content⟩ := file
  rw [mem_sealedSegments] at hfile
  obtain ⟨segment, hmem, rfl⟩ := h.sealed name content hfile.1 hfile.2
  obtain ⟨content', hlookup, hverified⟩ := h.held segment hmem
  rw [hfile.1, Option.some.injEq] at hlookup
  rw [← hlookup] at hverified
  exact ⟨segment, hmem, hverified, rfl⟩

theorem Retained.sorted (h : Retained disk chain segments) :
    segments.Pairwise fun a b => a.startSequence < b.startSequence :=
  (follows_starts h.follows fun _ hmem => h.recoverable.rangeOk hmem).2

theorem byStart_eq {l m : List VerifiedSegment} (hperm : l.Perm m)
    (hsorted : m.Pairwise fun a b => a.startSequence < b.startSequence) : byStart l = m := by
  have htotal : Std.Total fun a b : VerifiedSegment => a.startSequence ≤ b.startSequence :=
    ⟨fun a b => UInt64.le_total _ _⟩
  have htrans : IsTrans VerifiedSegment fun a b => a.startSequence ≤ b.startSequence :=
    ⟨fun _ _ _ => UInt64.le_trans⟩
  have hsort := List.pairwise_insertionSort (fun a b : VerifiedSegment => a.startSequence ≤ b.startSequence) l
  have hsame : (byStart l).Perm m := (List.perm_insertionSort _ l).trans hperm
  refine hsame.eq_of_pairwise ?_ hsort (hsorted.imp UInt64.le_of_lt)
  intro a b ha hb hab hba
  rw [hsame.mem_iff] at ha
  have hnodup : (m.map (·.startSequence)).Nodup := by
    refine List.Pairwise.map _ (fun a b hlt heq => ?_) hsorted
    exact UInt64.lt_irrefl _ (heq ▸ hlt)
  exact List.inj_on_of_nodup_map hnodup ha hb (UInt64.le_antisymm hab hba)

/-- The inventory of a retained WAL, by start, is the list of its segments. -/
theorem Retained.inventory (h : Retained disk chain segments) (hfits : Fits disk maxObjects maxBytes) :
    ∃ found, inventorySegments disk maxObjects maxBytes = .ok found ∧ byStart (found.1.map (·.2)) = segments := by
  have hmade : ∃ made, List.Forall₂ (fun file (found : Inventoried) => inventorySegment file = .ok found)
      (sealedSegments disk) made := by
    have hall : ∀ file ∈ sealedSegments disk, ∃ found : Inventoried, inventorySegment file = .ok found := by
      intro file hfile
      obtain ⟨segment, -, hverified, hname⟩ := h.file hfile
      exact ⟨_, inventorySegment_eq_ok.mpr ⟨segment, hverified, hname, rfl⟩⟩
    exact exists_forall₂ hall
  obtain ⟨made, hmade⟩ := hmade
  have hverify : (sealedSegments disk).map (fun file => verifySealedSegment H file.2.bytes) =
      (made.map (·.2)).map Except.ok := by
    rw [List.map_map]
    refine map_eq_of_forall₂ hmade fun file found hfound => ?_
    obtain ⟨segment, hverified, -, rfl⟩ := inventorySegment_eq_ok.mp hfound
    exact hverified
  have hnames : (sealedSegments disk).map (·.1) = (made.map (·.2)).map nameOf := by
    rw [List.map_map]
    refine map_eq_of_forall₂ hmade fun file found hfound => ?_
    obtain ⟨segment, -, hname, rfl⟩ := inventorySegment_eq_ok.mp hfound
    exact hname
  have hperm : (made.map (·.2)).Perm segments := by
    have hnodup : (made.map (·.2)).Nodup := by
      refine List.Nodup.of_map nameOf (hnames ▸ ?_)
      exact (sealedFolder.nodup_list keyLE).sublist (List.filter_sublist.map _)
    have hsegments : segments.Nodup := by
      refine h.sorted.imp ?_
      rintro a b hlt rfl
      exact UInt64.lt_irrefl _ hlt
    rw [List.perm_ext_iff_of_nodup hnodup hsegments]
    intro segment
    have hmem : segment ∈ made.map (·.2) ↔
        ∃ file ∈ sealedSegments disk, verifySealedSegment H file.2.bytes = .ok segment := by
      rw [← List.mem_map, hverify, List.mem_map_of_injective fun _ _ => Except.ok.inj]
    rw [hmem]
    constructor
    · rintro ⟨file, hfile, hverified⟩
      obtain ⟨segment', hsegment', hverified', -⟩ := h.file hfile
      rw [hverified, Except.ok.injEq] at hverified'
      rw [hverified']
      exact hsegment'
    · intro hsegment
      obtain ⟨content, hlookup, hverified⟩ := h.held segment hsegment
      exact ⟨(nameOf segment, content), mem_sealedSegments.mpr ⟨hlookup, walSuffix_segmentName _ _⟩, hverified⟩
  refine ⟨(made, ((sealedSegments disk).map fileSize).sum), ?_, ?_⟩
  · exact inventorySegments_eq_ok.mpr
      ⟨hfits.objects_pos, hfits.bytes_pos, hfits.objects, hfits.bytes, hmade, rfl⟩
  · exact byStart_eq hperm h.sorted

variable {record : CheckpointRecord}

theorem chain_valid (h : chainOf disk = .ok chain) (hmem : record ∈ chain) : record.checkpoint.validate H = .ok () := by
  have hkeeps : ∀ record ∈ chain, record.checkpoint.validate H = .ok () := by
    refine foldlM_keeps (P := fun chain => ∀ record ∈ chain, record.checkpoint.validate H = .ok ()) ?_ ?_ h
    · intro file _ before after hbefore hstep record hrecord
      obtain ⟨document, -, -, -, rfl⟩ := addCheckpoint_eq_ok.mp hstep
      rcases List.mem_append.mp hrecord with hold | hnew
      · exact hbefore record hold
      · rw [List.mem_singleton.mp hnew]
        obtain ⟨_, hvalid, -⟩ := bind_eq_ok.mp document.valid
        exact hvalid
    · simp
  exact hkeeps record hmem

theorem chain_end_ne_zero (h : chainOf disk = .ok chain) (hmem : record ∈ chain) :
    record.checkpoint.endSequence ≠ 0 := by
  have hvalid := chain_valid h hmem
  rw [PruneCheckpoint.validate, bind_eq_ok] at hvalid
  obtain ⟨_, hidentity, -⟩ := hvalid
  rw [reject_eq_ok, not_or] at hidentity
  exact hidentity.2

theorem Retained.verify (h : Retained disk chain segments) (hfits : Fits disk maxObjects maxBytes) :
    verifyRetainedWAL disk (chain.getLast?.map (·.checkpoint)) maxObjects maxBytes = .ok segments := by
  obtain ⟨found, hfound, hsegments⟩ := h.inventory hfits
  have hfollows := h.follows
  simp only [verifyRetainedWAL, hfound, bind_eq_ok]
  refine ⟨found, rfl, ?_⟩
  rw [hsegments]
  cases hlast : chain.getLast? with
  | none =>
    rw [boundaryOf, lastEnd, lastRoot, hlast, ← follows_iff] at hfollows
    obtain ⟨last, hfold⟩ := hfollows
    exact bind_eq_ok.mpr ⟨last, hfold, rfl⟩
  | some record =>
    have hvalid := chain_valid h.checkpoints (List.mem_of_getLast? hlast)
    refine bind_eq_ok.mpr ⟨(), by rw [hvalid]; rfl, ?_⟩
    rw [boundaryOf, lastEnd, lastRoot, hlast] at hfollows
    dsimp only [Option.map_some, Option.getD_some] at hfollows ⊢
    split
    · next hmax =>
      -- no segment starts after the last sequence number
      cases segments with
      | nil => rfl
      | cons segment later =>
        have hstart : segment.startSequence = maxUint64 + 1 := hmax ▸ hfollows.1
        exact absurd hstart (h.recoverable.rangeOk List.mem_cons_self).1
    · obtain ⟨last, hfold⟩ := follows_iff.mpr hfollows
      exact bind_eq_ok.mpr ⟨last, hfold, rfl⟩

/-! ## Released segments -/

theorem recoverTrash_absent (h : disk.lookup (.trash name) = none) :
    (recoverTrash record name).run disk = ([], .ok ()) := by
  rw [recoverTrash, Prog.read_bind, h]
  rfl

theorem recoverTrash_found (h : disk.lookup (.trash name) = some content)
    (hmatches : checkpointedSegment record content "checkpointed trash does not match checkpoint" = .ok ()) :
    (recoverTrash record name).run disk = ([.remove (.trash name)], .ok ()) := by
  rw [recoverTrash, Prog.read_bind, h]
  dsimp only
  rw [hmatches, Prog.lift_bind_ok]
  rfl

theorem recoverSegment_absent (hsealed : disk.lookup (.sealed name) = none)
    (htrash : disk.lookup (.trash name) = none) : (recoverSegment record name).run disk = ([], .ok ()) := by
  rw [recoverSegment, Prog.read_bind, Prog.read_bind, hsealed, htrash]
  exact (Prog.lift_bind_ok ()).trans (recoverTrash_absent htrash)

theorem recoverSegment_trash
    (hsealed : disk.lookup (.sealed name) = none) (htrash : disk.lookup (.trash name) = some content)
    (hmatches : checkpointedSegment record content "checkpointed trash does not match checkpoint" = .ok ()) :
    (recoverSegment record name).run disk = ([.remove (.trash name)], .ok ()) := by
  rw [recoverSegment, Prog.read_bind, Prog.read_bind, hsealed, htrash]
  exact (Prog.lift_bind_ok ()).trans (recoverTrash_found htrash hmatches)

theorem recoverSegment_sealed
    (hsealed : disk.lookup (.sealed name) = some content) (htrash : disk.lookup (.trash name) = none)
    (hmatches : ∀ text, checkpointedSegment record content text = .ok ()) :
    (recoverSegment record name).run disk =
      ([.rename (.sealed name) (.trash name), .remove (.trash name)], .ok ()) := by
  rw [recoverSegment, Prog.read_bind, Prog.read_bind, hsealed, htrash]
  refine (Prog.lift_bind_ok ()).trans ?_
  dsimp only
  rw [hmatches, Prog.lift_bind_ok, Prog.emit_bind, run_rename hsealed,
    recoverTrash_found (by rw [AList.lookup_insert]) (hmatches _)]

theorem nextStart_eq {a b : UInt64} (h : a < b) : nextStart a = some (a + 1) := by
  rw [nextStart, if_neg]
  rintro rfl
  have := b.toNat_lt
  rw [UInt64.lt_iff_toNat_lt] at h
  simp [maxUint64] at h
  omega

theorem lastEnd_lt {before after : List CheckpointRecord}
    (hends : ((before ++ record :: after).map (·.checkpoint.endSequence)).Pairwise (· < ·))
    (hpositive : record.checkpoint.endSequence ≠ 0) : lastEnd before < record.checkpoint.endSequence := by
  rcases List.eq_nil_or_concat' before with rfl | ⟨rest, last, rfl⟩
  · have hne : record.checkpoint.endSequence.toNat ≠ 0 := fun hzero => hpositive (UInt64.toNat_inj.mp hzero)
    rw [lastEnd_nil, UInt64.lt_iff_toNat_lt]
    simp
    omega
  · rw [lastEnd_append]
    rw [List.append_assoc, List.singleton_append, List.map_append, List.pairwise_append] at hends
    exact List.rel_of_pairwise_cons hends.2.1 (by simp)

/-- Checkpoints whose segments are gone need nothing. -/
theorem recover_gone {front done later : List CheckpointRecord}
    (hends : ((done ++ front).map (·.checkpoint.endSequence)).Pairwise (· < ·))
    (hpositive : ∀ record ∈ front, record.checkpoint.endSequence ≠ 0)
    (hgone : ∀ before record after, done ++ front = before ++ record :: after → done.length ≤ before.length →
      disk.lookup (.sealed (segmentNameFromRange (lastEnd before + 1) record.checkpoint.endSequence)) = none ∧
      disk.lookup (.trash (segmentNameFromRange (lastEnd before + 1) record.checkpoint.endSequence)) = none) :
    (recoverCheckpointedSegments (nextStart (lastEnd done)) (front ++ later)).run disk =
      (recoverCheckpointedSegments (nextStart (lastEnd (done ++ front))) later).run disk := by
  induction front generalizing done with
  | nil => simp
  | cons record front ih =>
    rw [nextStart_eq (lastEnd_lt hends (hpositive record List.mem_cons_self)), List.cons_append, recoverCheckpointedSegments]
    obtain ⟨hsealed, htrash⟩ := hgone done record front rfl le_rfl
    rw [Prog.bind_quiet (recoverSegment_absent hsealed htrash)]
    have hstep := @ih (done ++ [record]) (by simpa using hends)
      (fun other hother => hpositive other (List.mem_cons_of_mem _ hother)) ?_
    · rw [lastEnd_append] at hstep
      rw [hstep, List.append_assoc, List.singleton_append]
    · intro before other after heq hlength
      refine hgone before other after (by simpa using heq) ?_
      simp at hlength
      omega

section
variable {front : List CheckpointRecord} {record : CheckpointRecord} {name : Bytes}

theorem Released.name_eq {content : Content H} (h : Released (front ++ [record]) name content) :
    name = segmentNameFromRange (lastEnd front + 1) record.checkpoint.endSequence := by
  obtain ⟨front', record', heq, hname, -⟩ := h
  obtain ⟨rfl, hrecord⟩ := List.append_inj' heq rfl
  rw [List.singleton_inj] at hrecord
  rw [hname, hrecord]

theorem Released.matches {content : Content H} (h : Released (front ++ [record]) name content) (text : String) :
    checkpointedSegment record content text = .ok () := by
  obtain ⟨front', record', heq, -, segment, hverified, hlast, hsha, hroot⟩ := h
  obtain ⟨-, hrecord⟩ := List.append_inj' heq rfl
  rw [List.singleton_inj] at hrecord
  subst hrecord
  simp only [checkpointedSegment, bind_eq_ok, mapError_eq_ok, reject_eq_ok]
  exact ⟨segment, hverified, by simp [hlast, hsha, hroot]⟩

theorem lastEnd_succ_inj {a b : UInt64} (h : a + 1 = b + 1) : a = b := by
  have hnat := congrArg UInt64.toNat h
  rw [UInt64.toNat_add, UInt64.toNat_add] at hnat
  have ha := a.toNat_lt
  have hb := b.toNat_lt
  simp at hnat
  exact UInt64.toNat_inj.mp (by omega)

theorem Recoverable.name_ne (h : Recoverable disk chain segments) {before after : List CheckpointRecord}
    (hchain : chain = before ++ record :: after) {segment : VerifiedSegment} (hmem : segment ∈ segments) :
    segmentNameFromRange (lastEnd before + 1) record.checkpoint.endSequence ≠ nameOf segment := by
  intro hname
  have hstart := segmentNameFromRange_inj hname
  have hrange := h.rangeOk hmem
  have hafter := (follows_starts h.follows fun _ hmem => h.rangeOk hmem).1 segment hmem
  have hends := (chain_ends h.checkpoints).1
  have hle : record.checkpoint.endSequence ≤ lastEnd chain := le_lastEnd hends (by simp [hchain])
  have hbefore := lastEnd_lt (hchain ▸ hends) (chain_end_ne_zero h.checkpoints (by simp [hchain]))
  have hnat := toNat_succ hstart.symm hrange.1
  rw [UInt64.lt_iff_toNat_lt] at hafter hbefore
  rw [UInt64.le_iff_toNat_le] at hle
  omega

/-- Of all the released segments only the last one can have left a file. -/
theorem Recoverable.gone (h : Recoverable disk (front ++ [record]) segments) {before after : List CheckpointRecord}
    {older : CheckpointRecord} (hfront : front = before ++ older :: after) :
    disk.lookup (.sealed (segmentNameFromRange (lastEnd before + 1) older.checkpoint.endSequence)) = none ∧
      disk.lookup (.trash (segmentNameFromRange (lastEnd before + 1) older.checkpoint.endSequence)) = none := by
  have hchain : front ++ [record] = before ++ older :: (after ++ [record]) := by simp [hfront]
  have hends := (chain_ends h.checkpoints).1
  have hother : ∀ content, ¬ Released (H := H) (front ++ [record])
      (segmentNameFromRange (lastEnd before + 1) older.checkpoint.endSequence) content := by
    intro content hreleased
    have hsame := lastEnd_succ_inj (segmentNameFromRange_inj hreleased.name_eq)
    have hlt := lastEnd_lt (hchain ▸ hends) (chain_end_ne_zero h.checkpoints (by simp [hchain]))
    rw [List.map_append, List.pairwise_append] at hends
    have hle : older.checkpoint.endSequence ≤ lastEnd front := le_lastEnd hends.1 (by simp [hfront])
    rw [hsame] at hlt
    exact UInt64.not_le.mpr hlt hle
  constructor
  · by_contra hne
    obtain ⟨content, hcontent⟩ := Option.ne_none_iff_exists'.mp hne
    rcases h.sealed _ content hcontent (walSuffix_segmentName _ _) with ⟨segment, hmem, hname⟩ | hreleased
    · exact h.name_ne hchain hmem hname
    · exact hother content hreleased
  · by_contra hne
    obtain ⟨content, hcontent⟩ := Option.ne_none_iff_exists'.mp hne
    exact hother content (h.trash _ content hcontent)

/-- Without the file of the last released segment nothing is under way. -/
theorem Recoverable.settled (h : Recoverable disk (front ++ [record]) segments)
    (hname : name = segmentNameFromRange (lastEnd front + 1) record.checkpoint.endSequence) {other : PruneDisk H}
    (hsealed : other.lookup (.sealed name) = none) (htrash : other.lookup (.trash name) = none)
    (hsame : ∀ file, PruneName.inWAL file = true → file ≠ .sealed name → file ≠ .trash name →
      other.lookup file = disk.lookup file) :
    Retained other (front ++ [record]) segments where
  known file := (hsame (.checkpointOther file) rfl (by simp) (by simp)).trans (h.known file)
  checkpoints := by
    rw [← h.checkpoints, chainOf, chainOf, checkpointFolder.list_congr (fun a b : UInt64 => a ≤ b) fun endSequence =>
      hsame (.checkpoint endSequence) rfl (by simp) (by simp)]
  follows := h.follows
  held segment hmem := by
    have hne : name ≠ nameOf segment := hname ▸ h.name_ne rfl hmem
    obtain ⟨content, hlookup, hverified⟩ := h.held segment hmem
    refine ⟨content, ?_, hverified⟩
    rw [hsame _ rfl (by simpa using hne.symm) (by simp), hlookup]
  sealed file content hfile hsuffix := by
    have hne : file ≠ name := by
      rintro rfl
      rw [hsealed] at hfile
      cases hfile
    rw [hsame _ rfl (by simpa using hne) (by simp)] at hfile
    rcases h.sealed file content hfile hsuffix with hsegment | hreleased
    · exact hsegment
    · exact absurd (hreleased.name_eq.trans hname.symm) hne
  trash file := by
    by_cases hne : file = name
    · rw [hne, htrash]
    · rw [hsame _ rfl (by simp) (by simpa using hne)]
      by_contra hsome
      obtain ⟨content, hcontent⟩ := Option.ne_none_iff_exists'.mp hsome
      exact hne ((h.trash file content hcontent).name_eq.trans hname.symm)

end

/-! ## Recovery -/

/-- What recovering one released segment does. -/
theorem recoverSegment_run {front : List CheckpointRecord}
    (h : Recoverable disk (front ++ [record]) segments) (hfits : Fits disk maxObjects maxBytes) :
    ∃ ops, (recoverSegment record (segmentNameFromRange (lastEnd front + 1) record.checkpoint.endSequence)).run disk =
        (ops, .ok ()) ∧ Retained (runAll ops disk) (front ++ [record]) segments ∧
      Fits (runAll ops disk) maxObjects maxBytes ∧ (Retained disk (front ++ [record]) segments → ops = []) := by
  generalize hname : segmentNameFromRange (lastEnd front + 1) record.checkpoint.endSequence = name
  cases hsealed : disk.lookup (.sealed name) with
  | none =>
    cases htrash : disk.lookup (.trash name) with
    | none =>
      refine ⟨[], recoverSegment_absent hsealed htrash, ?_, hfits, fun _ => rfl⟩
      exact h.settled hname.symm hsealed htrash fun _ _ _ _ => rfl
    | some content =>
      have hmatches := (h.trash name content htrash).matches
      refine ⟨_, recoverSegment_trash hsealed htrash (hmatches _), ?_, hfits.erase rfl, ?_⟩
      · refine h.settled hname.symm ?_ (AList.lookup_erase _ _) ?_
        · rw [runAll_cons, runAll_nil, run_remove, lookup_erase_of, if_neg (by simp), hsealed]
        · intro file _ _ hne
          rw [runAll_cons, runAll_nil, run_remove, lookup_erase_of, if_neg hne]
      · intro hretained
        rw [hretained.trash] at htrash
        cases htrash
  | some content =>
    have htrash := h.once name (by simp [hsealed])
    have hreleased : Released (front ++ [record]) name content := by
      rcases h.sealed name content hsealed (hname ▸ walSuffix_segmentName _ _) with ⟨segment, hmem, heq⟩ | hreleased
      · exact absurd (hname.trans heq) (h.name_ne rfl hmem)
      · exact hreleased
    refine ⟨_, recoverSegment_sealed hsealed htrash hreleased.matches, ?_, ?_, ?_⟩
    · rw [runAll_cons, runAll_cons, runAll_nil, run_rename hsealed, run_remove]
      refine h.settled hname.symm ?_ (AList.lookup_erase _ _) ?_
      · rw [lookup_erase_of, if_neg (by simp), lookup_insert_of, if_neg (by simp), AList.lookup_erase]
      · intro file _ hne hne'
        rw [lookup_erase_of, if_neg hne', lookup_insert_of, if_neg hne', lookup_erase_of, if_neg hne]
    · rw [runAll_cons, runAll_cons, runAll_nil, run_rename hsealed, run_remove]
      exact ((hfits.erase rfl).insert_trash name content).erase rfl
    · intro hretained
      obtain ⟨segment, hmem, heq⟩ := hretained.sealed name content hsealed (hname ▸ walSuffix_segmentName _ _)
      exact absurd (hname.trans heq) (h.name_ne rfl hmem)

theorem recoverCheckpointedSegments_run (h : Recoverable disk chain segments) (hfits : Fits disk maxObjects maxBytes) :
    ∃ ops, (recoverCheckpointedSegments (some 1) chain).run disk = (ops, .ok ()) ∧
      Retained (runAll ops disk) chain segments ∧ Fits (runAll ops disk) maxObjects maxBytes ∧
      (Retained disk chain segments → ops = []) := by
  rcases List.eq_nil_or_concat' chain with rfl | ⟨front, record, rfl⟩
  · refine ⟨[], rfl, ?_, hfits, fun _ => rfl⟩
    have hnone : ∀ name content, ¬ Released (H := H) [] name content := by
      rintro name content ⟨front, record, heq, -⟩
      simp at heq
    refine ⟨h.known, h.checkpoints, h.follows, h.held, ?_, ?_⟩
    · intro name content hsealed hsuffix
      exact (h.sealed name content hsealed hsuffix).resolve_right (hnone name content)
    · intro name
      by_contra hne
      obtain ⟨content, hcontent⟩ := Option.ne_none_iff_exists'.mp hne
      exact hnone name content (h.trash name content hcontent)
  · have hends := (chain_ends h.checkpoints).1
    have hpositive : ∀ older ∈ front ++ [record], older.checkpoint.endSequence ≠ 0 := fun older hmem =>
      chain_end_ne_zero h.checkpoints hmem
    have hfront : (recoverCheckpointedSegments (nextStart (lastEnd [])) (front ++ [record])).run disk =
        (recoverCheckpointedSegments (nextStart (lastEnd ([] ++ front))) [record]).run disk := by
      refine recover_gone ?_ ?_ ?_
      · rw [List.map_append, List.pairwise_append] at hends
        exact hends.1
      · exact fun older hmem => hpositive older (List.mem_append_left _ hmem)
      · intro before older after heq _
        exact h.gone heq
    have hlt : lastEnd front < record.checkpoint.endSequence := lastEnd_lt hends (hpositive record (by simp))
    obtain ⟨ops, hrun, hrest⟩ := recoverSegment_run h hfits
    refine ⟨ops, hfront.trans ?_, hrest⟩
    rw [List.nil_append, nextStart_eq hlt, recoverCheckpointedSegments, Prog.bind_ok hrun]
    simp [recoverCheckpointedSegments]

theorem Retained.no_trash (h : Retained disk chain segments) : rejectUnexpectedTrash disk = .ok () := by
  rw [rejectUnexpectedTrash, reject_eq_ok, not_not, List.eq_nil_iff_forall_not_mem]
  rintro ⟨name, content⟩ hmem
  rw [trashFolder.mem_list] at hmem
  exact absurd hmem (by rw [show trashFolder.place name = .trash name from rfl, h.trash name]; simp)

/-- **Recovery ends well from every recoverable state**, in a retained WAL, and does nothing to one. -/
theorem recoverPrune_run (h : Recoverable disk chain segments) (hfits : Fits disk maxObjects maxBytes) :
    ∃ ops, (recoverPrune maxObjects maxBytes).run disk = (ops, .ok ()) ∧
      Retained (runAll ops disk) chain segments ∧ Fits (runAll ops disk) maxObjects maxBytes ∧
      (Retained disk chain segments → ops = []) := by
  obtain ⟨ops, hrun, hretained, hfits', hquiet⟩ := recoverCheckpointedSegments_run h hfits
  refine ⟨ops, ?_, hretained, hfits', hquiet⟩
  have hload : loadCheckpointChain disk = .ok chain :=
    loadCheckpointChain_eq_ok.mpr ⟨hfits.checkpoints, h.known, h.checkpoints⟩
  rw [recoverPrune, Prog.read_bind, hload, Prog.lift_bind_ok, Prog.bind_ok hrun, Prog.read_bind, hretained.no_trash,
    Prog.lift_bind_ok, Prog.read_bind, hretained.verify hfits', Prog.lift_bind_ok]
  simp

end TickPlatform.Retention
