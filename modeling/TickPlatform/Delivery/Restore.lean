import TickPlatform.Archive.Yields

/-!
# Restoring the entries of a day

`restoreEntries` opens the files of a manifest's chain again, walks its slice and gives every entry with the ordinals
that the ranges of the manifest select of it. It shares no code with the builder of the ranges; here it is shown to
give back what the builder selected.
-/

open TickPlatform.Bytes TickPlatform.Protocol TickPlatform.Replay TickPlatform.Archive
open TickPlatform.Wal hiding Disk

namespace TickPlatform.Delivery

structure RestoredEntry where
  objectKey : Bytes
  gatewayIngestSequence : UInt64
  frame : Bytes
  batch : BatchFrameV1
  previousEntryHash : Digest
  entryHash : Digest
  selectedRecordOrdinals : List UInt32

/-! ## Ordinals -/

/-- The ordinals of an entry that a range covers. An entry inside a range is covered whole; a batch without records
has the ordinal 0. -/
def ordinalsIn (sequence : UInt64) (recordCount : Nat) (item : RawObjectRange) : List UInt32 :=
  if sequence < item.startIngestSequence ∨ sequence > item.endIngestSequence then []
  else
    let first := if sequence > item.startIngestSequence then 0 else item.firstRecordOrdinal
    let last :=
      if sequence < item.endIngestSequence then (if recordCount = 0 then 0 else UInt32.ofNat (recordCount - 1))
      else item.lastRecordOrdinal
    if recordCount = 0 ∧ first = 0 ∧ last = 0 then [0]
    else (ordinalSpan first last).takeWhile fun ordinal => ordinal.toNat < recordCount

/-- Each ordinal once, ascending. -/
def selectedOrdinals (ranges : List RawObjectRange) (sequence : UInt64) (recordCount : Nat) : List UInt32 :=
  (ranges.flatMap (ordinalsIn sequence recordCount)).dedup.insertionSort (· ≤ ·)

/-! ## Entries -/

/-- The segments opened so far, the last of them first. -/
def openRestored (H : Hashes) (disk : Disk) (paths : ObjectPaths) (opened : List VerifiedSegment)
    (descriptor : RawChainObject) : Except ArchiveError (List VerifiedSegment) := do
  let path ← (paths descriptor.key).elim (.error (.integrity "restored chain object is missing")) .ok
  let segment ← (verifySealedSegment H disk path).mapError fun _ =>
    .integrity "restored chain object differs from manifest"
  reject (!describesSegment descriptor segment) (.integrity "restored chain object differs from manifest")
  reject (opened.head?.any fun previous => previous.lastSequence + 1 ≠ segment.startSequence ∨
      previous.chainRoot ≠ segment.chainStart)
    (.integrity "restored WAL chain is discontinuous")
  return segment :: opened

def restoredText : BatchError → String
  | .frame _ => "restored frame is invalid"
  | .message _ => "restored message is invalid"
  | .notBatch => "restored WAL entry is not BatchFrameV1"

structure Restoring where
  expectedSequence : UInt64
  expectedPrevious : Digest
  result : List RestoredEntry

/-- An entry of the slice; whether it is the last of it. -/
def restoreEntry (H : Hashes) (m : RawDayManifest) (objectKey : Bytes) (state : Restoring) (entry : Entry) :
    Except ArchiveError (Restoring × Bool) := do
  reject (entry.sequence ≠ state.expectedSequence ∨ entry.previousEntryHash ≠ state.expectedPrevious)
    (.integrity "restored entry chain is discontinuous")
  let batch ← (decodeBatchFrame H entry.frame).mapError fun err => .integrity (restoredText err)
  let result := state.result ++
    [{ objectKey, gatewayIngestSequence := entry.sequence, frame := entry.frame, batch,
       previousEntryHash := entry.previousEntryHash, entryHash := entry.entryHash,
       selectedRecordOrdinals := selectedOrdinals m.objects entry.sequence batch.records.length }]
  if entry.sequence = m.chainSliceEndSequence then return (⟨state.expectedSequence, entry.entryHash, result⟩, true)
  else return (⟨state.expectedSequence + 1, entry.entryHash, result⟩, false)

/-- The loop over the entries of one segment; whether the end of the slice was reached. -/
def restoreSegment (H : Hashes) (m : RawDayManifest) (objectKey : Bytes) :
    Restoring → List Entry → Except ArchiveError (Restoring × Bool)
  | state, [] => .ok (state, false)
  | state, entry :: rest =>
    if entry.sequence < m.chainSliceStartSequence then restoreSegment H m objectKey state rest
    else if entry.sequence > m.chainSliceEndSequence then .ok (state, false)
    else do
      let (state, reachedEnd) ← restoreEntry H m objectKey state entry
      if reachedEnd then return (state, true) else restoreSegment H m objectKey state rest

def restoreSegments (H : Hashes) (m : RawDayManifest) :
    Restoring → List (Bytes × VerifiedSegment) → Except ArchiveError (Restoring × Bool)
  | state, [] => .ok (state, false)
  | state, (objectKey, segment) :: rest => do
    let (state, reachedEnd) ← restoreSegment H m objectKey state segment.entries
    if reachedEnd then return (state, true) else restoreSegments H m state rest

def restoreEntries (H : Hashes) (disk : Disk) (m : RawDayManifest) (paths : ObjectPaths) :
    Except ArchiveError (List RestoredEntry) :=
  if m.chainObjects = [] then .ok []
  else do
    let reversed ← m.chainObjects.foldlM (openRestored H disk paths) []
    let (state, reachedEnd) ← restoreSegments H m ⟨m.chainSliceStartSequence, m.chainSliceStartRoot, []⟩
      ((m.chainObjects.map (·.key)).zip reversed.reverse)
    reject (!reachedEnd ∨ state.expectedPrevious ≠ m.chainSliceEndRoot)
      (.integrity "restored chain does not reach manifest end root")
    return state.result

/-! ## The ordinals of an entry -/

theorem ordinalsIn_outside {sequence : UInt64} {recordCount : Nat} {item : RawObjectRange}
    (h : ¬ (item.startIngestSequence ≤ sequence ∧ sequence ≤ item.endIngestSequence)) :
    ordinalsIn sequence recordCount item = [] := by
  rw [not_and_or, UInt64.not_le, UInt64.not_le] at h
  exact if_pos h

theorem ordinalsIn_empty (object : RawObject) (sequence : UInt64) :
    ordinalsIn sequence 0 (runRange object sequence (0, 0)) = [0] := by
  simp [ordinalsIn, runRange]

theorem ordinalsIn_run {object : RawObject} {sequence : UInt64} {recordCount : Nat} {run : UInt32 × UInt32}
    (hlast : run.2.toNat < recordCount) :
    ordinalsIn sequence recordCount (runRange object sequence run) = ordinalSpan run.1 run.2 := by
  have hinside : ¬ (sequence < sequence ∨ sequence > sequence) := by simp
  have hpos : recordCount ≠ 0 := by omega
  have hwhole : ∀ ordinal ∈ ordinalSpan run.1 run.2, decide (ordinal.toNat < recordCount) = true := by
    intro ordinal hordinal
    obtain ⟨n, hn, rfl⟩ := List.mem_map.mp hordinal
    have hbound := List.mem_range'_1.mp hn
    have hsmall := run.2.toNat_lt
    rw [decide_eq_true_eq, UInt32.toNat_ofNat', Nat.mod_eq_of_lt (by omega)]
    omega
  simp only [ordinalsIn, runRange, gt_iff_lt, UInt64.lt_irrefl, or_self, if_false, hpos, false_and]
  exact List.takeWhile_eq_self_iff.mpr hwhole

theorem flatMap_ordinalsIn_hitRanges {date : Bytes} {hit : Hit} (hcount : hit.batch.records.length < 2 ^ 32)
    (hordinals : Archive.selectedOrdinals date hit.batch ≠ []) :
    (hitRanges date hit).flatMap (ordinalsIn hit.entry.sequence hit.batch.records.length) =
      Archive.selectedOrdinals date hit.batch := by
  rw [hitRanges, List.flatMap_map]
  by_cases hempty : hit.batch.records = []
  · rw [selectedOrdinals_of_empty hempty hordinals, hempty, show ordinalRuns [0] = [(0, 0)] from rfl, List.flatMap_singleton]
    exact ordinalsIn_empty _ _
  · have hascending := selectedOrdinals_pairwise date hcount
    have hruns : ∀ run ∈ ordinalRuns (Archive.selectedOrdinals date hit.batch),
        ordinalsIn hit.entry.sequence hit.batch.records.length (runRange hit.object hit.entry.sequence run) =
          ordinalSpan run.1 run.2 := by
      intro run hrun
      obtain ⟨record, hrecord, -⟩ := (mem_selectedOrdinals hempty hcount).mp (last_mem_of_run hascending hrun)
      exact ordinalsIn_run (List.getElem?_eq_some_iff.mp hrecord).1
    rw [List.flatMap_congr hruns]
    exact ordinalRuns_flatMap hascending

variable {H : Hashes} {place : RawObject × Entry}

/-- Of an entry that the ranges were made of, its own ordinals are selected. -/
theorem selectedOrdinals_hitRanges {date : Bytes} {places : List (RawObject × Entry)}
    (hordered : (places.map (·.2)).Pairwise fun a b => a.sequence.toNat < b.sequence.toNat)
    (hplace : place ∈ places) {batch : BatchFrameV1} (hbatch : decodeBatchFrame H place.2.frame = .ok batch) :
    selectedOrdinals ((places.filterMap (hit? H date)).flatMap (hitRanges date)) place.2.sequence batch.records.length =
      Archive.selectedOrdinals date batch := by
  have hcount : batch.records.length < 2 ^ 32 := by
    have := (decodeBatchFrame_eq_ok.mp hbatch).1.count
    omega
  have hranges : ((places.filterMap (hit? H date)).flatMap (hitRanges date)).filter (fun range =>
      range.startIngestSequence ≤ place.2.sequence ∧ place.2.sequence ≤ range.endIngestSequence) =
        (hit? H date place).elim [] (hitRanges date) := by
    refine filter_hitRanges hordered hplace (fun run => by simp [runRange]) fun object sequence run hne => ?_
    rw [decide_eq_false_iff_not]
    exact fun hboth => hne (UInt64.le_antisymm hboth.1 hboth.2)
  have hflat : ((places.filterMap (hit? H date)).flatMap (hitRanges date)).flatMap
      (ordinalsIn place.2.sequence batch.records.length) = Archive.selectedOrdinals date batch := by
    rw [← Lists.flatMap_filter_of_nil fun range _ hout => ordinalsIn_outside (of_decide_eq_false hout), hranges]
    cases hhit : hit? H date place with
    | none =>
      have hnone : Archive.selectedOrdinals date batch = [] := by
        by_contra hsome
        have hsame : hit? H date place = some ⟨place.1, place.2, batch⟩ := hit?_eq_some.mpr ⟨rfl, rfl, hbatch, hsome⟩
        rw [hhit] at hsame
        cases hsame
      rw [hnone]
      rfl
    | some hit =>
      obtain ⟨-, hentry, hdecode, hordinals⟩ := hit?_eq_some.mp hhit
      obtain rfl : hit.batch = batch := Except.ok.inj (hdecode.symm.trans hbatch)
      rw [← hentry]
      exact flatMap_ordinalsIn_hitRanges hcount hordinals
  have hascending := selectedOrdinals_pairwise date hcount
  rw [selectedOrdinals, hflat, List.Nodup.dedup (hascending.imp fun hlt => UInt32.ne_of_lt hlt)]
  exact List.Pairwise.insertionSort_eq (hascending.imp fun hlt => UInt32.le_of_lt hlt)

/-! ## The walk -/

/-- The entry lies in the chain slice. -/
def inChainSlice (m : RawDayManifest) (place : RawObject × Entry) : Bool :=
  m.chainSliceStartSequence ≤ place.2.sequence && place.2.sequence ≤ m.chainSliceEndSequence

/-- The two loops as one over the places of the slice. -/
def restorePlaces (H : Hashes) (m : RawDayManifest) :
    Restoring → List (RawObject × Entry) → Except ArchiveError (Restoring × Bool)
  | state, [] => .ok (state, false)
  | state, place :: rest => do
    let (state, reachedEnd) ← restoreEntry H m place.1.key state place.2
    if reachedEnd then return (state, true) else restorePlaces H m state rest

variable {m : RawDayManifest}

theorem restoreSegment_bind {object : RawObject} {entries : List Entry}
    (hordered : entries.Pairwise fun a b => a.sequence.toNat < b.sequence.toNat) (state : Restoring)
    (rest : List (RawObject × Entry)) :
    (restoreSegment H m object.key state entries >>= fun done =>
        if done.2 then pure (done.1, true) else restorePlaces H m done.1 rest) =
      restorePlaces H m state (((entries.map fun entry => (object, entry)).filter (inChainSlice m)) ++ rest) := by
  induction entries generalizing state with
  | nil => rfl
  | cons entry entries ih =>
    rw [List.pairwise_cons] at hordered
    rw [restoreSegment]
    by_cases hbefore : entry.sequence < m.chainSliceStartSequence
    · have hout : inChainSlice m (object, entry) = false := by simp [inChainSlice, ← UInt64.not_lt, hbefore]
      rw [if_pos hbefore, List.map_cons, List.filter_cons_of_neg (by simp [hout]), ih hordered.2]
    by_cases hafter : entry.sequence > m.chainSliceEndSequence
    · -- The loop is left here; no later entry lies in the slice either.
      have hnone : ((entry :: entries).map fun entry => (object, entry)).filter (inChainSlice m) = [] := by
        rw [List.filter_eq_nil_iff]
        intro place hplace hin
        obtain ⟨other, hother, rfl⟩ := List.mem_map.mp hplace
        simp only [inChainSlice, Bool.and_eq_true, decide_eq_true_eq, UInt64.le_iff_toNat_le] at hin
        rw [gt_iff_lt, UInt64.lt_iff_toNat_lt] at hafter
        rcases List.mem_cons.mp hother with rfl | hlater
        · omega
        · have := hordered.1 other hlater
          omega
      rw [if_neg hbefore, if_pos hafter, hnone]
      rfl
    · have hin : inChainSlice m (object, entry) = true := by
        simp only [inChainSlice, Bool.and_eq_true, decide_eq_true_eq]
        exact ⟨UInt64.not_lt.mp hbefore, UInt64.not_lt.mp hafter⟩
      rw [if_neg hbefore, if_neg hafter, List.map_cons, List.filter_cons_of_pos hin, List.cons_append, restorePlaces]
      cases restoreEntry H m object.key state entry with
      | error err => rfl
      | ok done =>
        obtain ⟨next, reachedEnd⟩ := done
        cases reachedEnd with
        | true => rfl
        | false => exact ih hordered.2 next

variable {objects : List RawObject}

theorem restoreSegments_eq (hsegments : ∀ object ∈ objects, SegmentRun H object.segment) (state : Restoring) :
    restoreSegments H m state (objects.map fun object => (object.key, object.segment)) =
      restorePlaces H m state ((located objects).filter (inChainSlice m)) := by
  induction objects generalizing state with
  | nil => rfl
  | cons object objects ih =>
    rw [List.forall_mem_cons] at hsegments
    have hrest : ∀ next, restoreSegments H m next (objects.map fun object => (object.key, object.segment)) =
        restorePlaces H m next ((located objects).filter (inChainSlice m)) := ih hsegments.2
    rw [located, List.flatMap_cons, List.filter_append, ← located, ← restoreSegment_bind (run_pairwise hsegments.1.run),
      List.map_cons, restoreSegments]
    simp only [hrest]

/-! ## A run is restored -/

/-- An entry as it is given back. -/
structure Restores (H : Hashes) (ordinals : Entry → BatchFrameV1 → List UInt32) (place : RawObject × Entry)
    (restored : RestoredEntry) : Prop where
  objectKey : restored.objectKey = place.1.key
  sequence : restored.gatewayIngestSequence = place.2.sequence
  frame : restored.frame = place.2.frame
  batch : decodeBatchFrame H place.2.frame = .ok restored.batch
  previous : restored.previousEntryHash = place.2.previousEntryHash
  hash : restored.entryHash = place.2.entryHash
  ordinals : restored.selectedRecordOrdinals = ordinals place.2 restored.batch

/-- The ordinals as the ranges of the manifest give them. -/
def rangeOrdinals (m : RawDayManifest) (entry : Entry) (batch : BatchFrameV1) : List UInt32 :=
  selectedOrdinals m.objects entry.sequence batch.records.length

theorem restoreEntry_run {state : Restoring}
    (hsequence : place.2.sequence = state.expectedSequence) (hprevious : place.2.previousEntryHash = state.expectedPrevious)
    (hdecodes : ∃ batch, decodeBatchFrame H place.2.frame = .ok batch) :
    ∃ restored, Restores H (rangeOrdinals m) place restored ∧ restoreEntry H m place.1.key state place.2 =
      .ok (if place.2.sequence = m.chainSliceEndSequence then
          (⟨state.expectedSequence, place.2.entryHash, state.result ++ [restored]⟩, true)
        else (⟨state.expectedSequence + 1, place.2.entryHash, state.result ++ [restored]⟩, false)) := by
  obtain ⟨batch, hbatch⟩ := hdecodes
  refine ⟨⟨place.1.key, place.2.sequence, place.2.frame, batch, place.2.previousEntryHash, place.2.entryHash,
    rangeOrdinals m place.2 batch⟩, ⟨rfl, rfl, rfl, hbatch, rfl, rfl, rfl⟩, ?_⟩
  simp only [restoreEntry, bind_eq_ok, reject_eq_ok, mapError_eq_ok, not_or, not_not]
  refine ⟨(), ⟨hsequence, hprevious⟩, batch, hbatch, ?_⟩
  split <;> rfl

variable {front : List (RawObject × Entry)} {last : RawObject × Entry}

/-- A run up to the end of the slice is restored entry by entry. -/
theorem restorePlaces_run (hdecodes : ∀ place ∈ front ++ [last], ∃ batch, decodeBatchFrame H place.2.frame = .ok batch)
    (hend : last.2.sequence = m.chainSliceEndSequence) (state : Restoring)
    (hrun : Run state.expectedSequence.toNat state.expectedPrevious ((front ++ [last]).map (·.2))) :
    ∃ restored expected, List.Forall₂ (Restores H (rangeOrdinals m)) (front ++ [last]) restored ∧
      restorePlaces H m state (front ++ [last]) =
        .ok (⟨expected, last.2.entryHash, state.result ++ restored⟩, true) := by
  induction front generalizing state with
  | nil =>
    obtain ⟨hsequence, hprevious, -⟩ := hrun
    obtain ⟨restored, hrestores, hentry⟩ :=
      restoreEntry_run (UInt64.toNat_inj.mp hsequence) hprevious (hdecodes last List.mem_cons_self)
    rw [if_pos hend] at hentry
    refine ⟨[restored], state.expectedSequence, .cons hrestores .nil, ?_⟩
    rw [List.nil_append, restorePlaces, hentry]
    rfl
  | cons place front ih =>
    rw [List.cons_append, List.forall_mem_cons] at hdecodes
    obtain ⟨hsequence, hprevious, hrest⟩ := hrun
    have hbound := run_bounds hrest last.2 (List.mem_map_of_mem (List.mem_append_right _ (List.mem_singleton_self _)))
    have hlt := last.2.sequence.toNat_lt
    have hnotEnd : place.2.sequence ≠ m.chainSliceEndSequence := by
      rw [← hend]
      intro heq
      rw [heq] at hsequence
      omega
    obtain ⟨restored, hrestores, hentry⟩ := restoreEntry_run (UInt64.toNat_inj.mp hsequence) hprevious hdecodes.1
    rw [if_neg hnotEnd] at hentry
    have hnext : (state.expectedSequence + 1).toNat = state.expectedSequence.toNat + 1 := by
      rw [UInt64.toNat_add]
      show (state.expectedSequence.toNat + 1) % 2 ^ 64 = _
      omega
    obtain ⟨next, hstate⟩ : ∃ next : Restoring,
        next = ⟨state.expectedSequence + 1, place.2.entryHash, state.result ++ [restored]⟩ := ⟨_, rfl⟩
    have hlaterRun : Run next.expectedSequence.toNat next.expectedPrevious ((front ++ [last]).map (·.2)) := by
      rw [hstate]
      show Run (state.expectedSequence + 1).toNat place.2.entryHash _
      rw [hnext]
      exact hrest
    obtain ⟨later, expected, hlater, hwalk⟩ := ih hdecodes.2 next hlaterRun
    refine ⟨restored :: later, expected, .cons hrestores hlater, ?_⟩
    rw [List.cons_append, restorePlaces, hentry, ← hstate]
    refine hwalk.trans ?_
    rw [hstate, List.append_assoc, List.singleton_append]

/-! ## The files of a verified manifest -/

/-- The file of a chain object, as it is opened again. -/
def Reopens (H : Hashes) (disk : Disk) (paths : ObjectPaths) (descriptor : RawChainObject) (segment : VerifiedSegment) :
    Prop :=
  ∃ path, paths descriptor.key = some path ∧ verifySealedSegment H disk path = .ok segment ∧
    describesSegment descriptor segment = true

def Joins (previous segment : VerifiedSegment) : Prop :=
  previous.lastSequence + 1 = segment.startSequence ∧ previous.chainRoot = segment.chainStart

variable {disk : Disk} {paths : ObjectPaths}

theorem openRestored_eq_ok (opened : List VerifiedSegment) (descriptor : RawChainObject) (next : List VerifiedSegment) :
    openRestored H disk paths opened descriptor = .ok next ↔
      ∃ segment, Reopens H disk paths descriptor segment ∧ (∀ prior ∈ opened, True) ∧
        (∀ previous ∈ opened.head?, Joins previous segment) ∧ next = segment :: opened := by
  have hjoins : ∀ segment : VerifiedSegment, (¬ (opened.head?.any fun previous =>
      previous.lastSequence + 1 ≠ segment.startSequence ∨ previous.chainRoot ≠ segment.chainStart) = true) ↔
        ∀ previous ∈ opened.head?, Joins previous segment := by
    intro segment
    cases opened.head? with
    | none => simp
    | some previous => simp [Joins]
  simp only [openRestored, Reopens, bind_eq_ok, elim_eq_ok, mapError_eq_ok, reject_eq_ok, pure_eq_ok, hjoins,
    Bool.not_eq_true', Bool.not_eq_false, implies_true, true_and]
  constructor
  · rintro ⟨path, hpath, segment, hsegment, _, hdescribes, _, hlinked, rfl⟩
    exact ⟨segment, ⟨path, hpath, hsegment, hdescribes⟩, hlinked, rfl⟩
  · rintro ⟨segment, ⟨path, hpath, hsegment, hdescribes⟩, hlinked, rfl⟩
    exact ⟨path, hpath, segment, hsegment, (), hdescribes, (), hlinked, rfl⟩

/-- The file of a chain object, with the description that it was verified against. -/
def Matches (H : Hashes) (disk : Disk) (paths : ObjectPaths) (descriptor : RawChainObject) (object : RawObject) : Prop :=
  Opens H disk paths descriptor object ∧ describesSegment descriptor object.segment = true

theorem foldlM_openRestored {descriptors : List RawChainObject} (hmatches : List.Forall₂ (Matches H disk paths) descriptors objects)
    (hlinked : objects.IsChain Continues) :
    descriptors.foldlM (openRestored H disk paths) [] = .ok (objects.map (·.segment)).reverse := by
  refine (foldlM_linked_nil openRestored_eq_ok).mpr ⟨objects.map (·.segment), ?_, ?_, ?_, rfl⟩
  · rw [List.forall₂_map_right_iff]
    refine hmatches.imp fun descriptor object hmatch => ?_
    obtain ⟨⟨path, segment, hpath, -, hsegment, rfl⟩, hdescribes⟩ := hmatch
    exact ⟨path, hpath, hsegment, hdescribes⟩
  · exact List.pairwise_of_forall fun _ _ => trivial
  · rw [List.isChain_map]
    exact hlinked.imp fun previous object hcontinues => ⟨hcontinues.2.1.symm, hcontinues.2.2.symm⟩

theorem opened_of_snapshot {scope : ScopeConfig}
    (h : verifyRawDaySnapshot H m disk paths scope = .ok ()) (hne : m.chainObjects ≠ []) :
    ∃ objects maxRecords, List.Forall₂ (Matches H disk paths) m.chainObjects objects ∧ Contiguous H objects ∧
      Shows H m maxRecords objects := by
  obtain ⟨normalized, -, hchain⟩ := verifyRawDaySnapshot_eq_ok.mp h
  obtain ⟨reversed, hfold, hshows⟩ := hchain.resolve_left hne
  rw [foldlM_linked_nil openChainObject_eq_ok] at hfold
  obtain ⟨objects, hmatches, -, -, rfl⟩ := hfold
  rw [List.reverse_reverse] at hshows
  exact ⟨objects, _, hmatches, contiguous_of_snapshot h (hmatches.imp fun _ _ hmatch => hmatch.1), hshows⟩

theorem zip_keys {descriptors : List RawChainObject} (hmatches : List.Forall₂ (Matches H disk paths) descriptors objects) :
    (descriptors.map (·.key)).zip (objects.map (·.segment)) = objects.map fun object => (object.key, object.segment) := by
  rw [← keys_of_opens (hmatches.imp fun _ _ hmatch => hmatch.1), List.zip_map']

/-! ## The slice of a verified manifest -/

/-- The entries of the slice, from its first hit to its last. -/
structure Slice (H : Hashes) (m : RawDayManifest) (objects : List RawObject) (front : List (RawObject × Entry))
    (last : RawObject × Entry) : Prop where
  places : (located objects).filter (inChainSlice m) = front ++ [last]
  run : Run m.chainSliceStartSequence.toNat m.chainSliceStartRoot ((front ++ [last]).map (·.2))
  finish : last.2.sequence = m.chainSliceEndSequence
  root : last.2.entryHash = m.chainSliceEndRoot
  objects : m.objects = ((front ++ [last]).filterMap (hit? H m.date)).flatMap (hitRanges m.date)

theorem exists_run (h : Contiguous H objects) : ∃ n root, Run n root ((located objects).map (·.2)) := by
  cases objects with
  | nil => exact ⟨0, Digest.zero, trivial⟩
  | cons object objects => exact ⟨_, _, h.run⟩

theorem exists_slice {maxRecords : UInt32}
    (hcontiguous : Contiguous H objects) (hshows : Shows H m maxRecords objects) (hchain : ValidChain m) :
    ∃ front last, Slice H m objects front last := by
  obtain ⟨-, ⟨selection, hselection, hsame⟩, -⟩ := hshows
  have hplaces : ((located objects).filter fun place =>
      inSlice m.chainSliceStartSequence m.chainSliceEndSequence place.2) = (located objects).filter (inChainSlice m) :=
    List.filter_congr fun place _ => inSlice_eq hchain.start _ _
  have hhits : hitsIn H m.date m.chainSliceStartSequence m.chainSliceEndSequence objects =
      ((located objects).filter (inChainSlice m)).filterMap (hit? H m.date) := by rw [hitsIn, hplaces]
  have hsummary := (deriveDaySelection_eq_ok.mp hselection).2
  rw [hhits] at hsummary
  obtain ⟨hits, hhitsEq⟩ : ∃ hits, hits = ((located objects).filter (inChainSlice m)).filterMap (hit? H m.date) := ⟨_, rfl⟩
  have hlocated : ∀ hit ∈ hits, (hit.object, hit.entry) ∈ located objects := by
    intro hit hhit
    rw [hhitsEq] at hhit
    obtain ⟨place, hplace, hfound⟩ := List.mem_filterMap.mp hhit
    obtain ⟨hobject, hentry, -, -⟩ := hit?_eq_some.mp hfound
    rw [hobject, hentry]
    exact List.mem_of_mem_filter hplace
  rw [← hhitsEq] at hsummary
  have hsummarises : Summarises m.date hits selection := by
    rw [hsummary]
    exact summarises_foldl fun hit hhit => hcontiguous.number (hlocated hit hhit)
  simp only [selectionMatches, decide_eq_true_eq] at hsame
  obtain ⟨hobjects, -, -, -, -, hstart, hstartRoot, hend, hendRoot⟩ := hsame
  have hnonempty : hits ≠ [] := by
    rintro rfl
    rw [hsummarises.objects, List.flatMap_nil] at hobjects
    exact hchain.ranges hobjects.symm
  obtain ⟨first, hfirst⟩ : ∃ first, hits.head? = some first := ⟨_, List.head?_eq_some_head hnonempty⟩
  obtain ⟨final, hfinal⟩ : ∃ final, hits.getLast? = some final := ⟨_, List.getLast?_eq_some_getLast hnonempty⟩
  rw [hsummarises.start, hfirst] at hstart
  rw [hsummarises.startRoot, hfirst] at hstartRoot
  rw [hsummarises.finish, hfinal] at hend
  rw [hsummarises.finishRoot, hfinal] at hendRoot
  simp only [Option.map_some, Option.getD_some] at hstart hstartRoot hend hendRoot
  obtain ⟨n, root, hrun⟩ := exists_run hcontiguous
  have hentry : ∀ hit ∈ hits, hit.entry ∈ (located objects).map (·.2) :=
    fun hit hhit => List.mem_map.mpr ⟨_, hlocated hit hhit, rfl⟩
  obtain ⟨stretch, hstretch, hbetween⟩ := run_between hrun (hentry first (List.mem_of_mem_head? hfirst))
    (hentry final (List.mem_of_mem_getLast? hfinal)) (by rw [hstart, hend]; exact hchain.order)
  rw [hstart, hend] at hstretch
  have hmap : ((located objects).filter (inChainSlice m)).map (·.2) = stretch ++ [final.entry] := by
    rw [← hstretch, List.filter_map]
    rfl
  obtain ⟨front, back, hsplit, rfl, hback⟩ := List.map_eq_append_iff.mp hmap
  obtain ⟨last, rfl, hlast⟩ := List.map_eq_singleton_iff.mp hback
  refine ⟨front, last, hsplit, ?_, ?_, ?_, ?_⟩
  · rw [List.map_append, List.map_singleton, hlast, ← hstart, ← hstartRoot]
    exact hbetween
  · rw [hlast, hend]
  · rw [hlast, hendRoot]
  · rw [← hobjects, hsummarises.objects, hhitsEq, hsplit]

theorem Slice.ordered (h : Slice H m objects front last) :
    ((front ++ [last]).map (·.2)).Pairwise fun a b => a.sequence.toNat < b.sequence.toNat :=
  run_pairwise h.run

theorem Slice.sequences (h : Slice H m objects front last) :
    ((front ++ [last]).map fun place => place.2.sequence.toNat) =
      List.range' m.chainSliceStartSequence.toNat
        (m.chainSliceEndSequence.toNat + 1 - m.chainSliceStartSequence.toNat) := by
  have hnumbers := run_sequences h.run
  rw [List.map_map, List.length_map] at hnumbers
  have hlast : last.2.sequence.toNat = m.chainSliceStartSequence.toNat + front.length := by
    have hrun := h.run
    rw [List.map_append, run_append, List.length_map] at hrun
    exact hrun.2.1
  rw [← h.finish, hlast, show m.chainSliceStartSequence.toNat + front.length + 1 - m.chainSliceStartSequence.toNat =
    (front ++ [last]).length by rw [List.length_append, List.length_singleton]; omega]
  exact hnumbers

/-- The ordinals of the ranges that begin at a sequence. -/
def rangesAt (ranges : List RawObjectRange) (sequence : UInt64) : List UInt32 :=
  (ranges.filter fun range => range.startIngestSequence = sequence).flatMap fun range =>
    ordinalSpan range.firstRecordOrdinal range.lastRecordOrdinal

theorem Slice.rangesAt_eq (h : Slice H m objects front last)
    (hplace : place ∈ front ++ [last]) {batch : BatchFrameV1} (hbatch : decodeBatchFrame H place.2.frame = .ok batch) :
    rangesAt m.objects place.2.sequence = Archive.selectedOrdinals m.date batch := by
  have hcount : batch.records.length < 2 ^ 32 := by
    have := (decodeBatchFrame_eq_ok.mp hbatch).1.count
    omega
  have hranges : (((front ++ [last]).filterMap (hit? H m.date)).flatMap (hitRanges m.date)).filter (fun range =>
      range.startIngestSequence = place.2.sequence) = (hit? H m.date place).elim [] (hitRanges m.date) :=
    filter_hitRanges h.ordered hplace (fun run => by simp [runRange])
      fun object sequence run hne => by simp [runRange, hne]
  rw [rangesAt, h.objects, hranges, hit?, hbatch]
  by_cases hnone : Archive.selectedOrdinals m.date batch = []
  · simp [Except.toOption, hnone]
  · simp only [Except.toOption, Option.bind_some, hnone, if_false, Option.elim_some, hitRanges, List.flatMap_map, runRange]
    exact ordinalRuns_flatMap (selectedOrdinals_pairwise m.date hcount)

/-! ## The day -/

/-- The ordinals of a batch on a date. -/
def dateOrdinals (date : Bytes) (_ : Entry) (batch : BatchFrameV1) : List UInt32 := Archive.selectedOrdinals date batch

/-- A manifest that was verified gives back the entries of its slice, each once and in order, with the ordinals of its
date: those of the ranges that are derived from the same files. -/
theorem restored_is_day {H : Hashes} {m : RawDayManifest} {disk : Disk} {paths : ObjectPaths} {scope : ScopeConfig}
    (h : verifyRawDaySnapshot H m disk paths scope = .ok ()) :
    ∃ objects maxRecords selection restored, List.Forall₂ (Opens H disk paths) m.chainObjects objects ∧
      deriveDaySelection H objects m.date m.chainSliceStartSequence m.chainSliceEndSequence maxRecords = .ok selection ∧
      restoreEntries H disk m paths = .ok restored ∧
      (m.chainObjects ≠ [] → (restored.map fun entry => entry.gatewayIngestSequence.toNat) =
        List.range' m.chainSliceStartSequence.toNat
          (m.chainSliceEndSequence.toNat + 1 - m.chainSliceStartSequence.toNat)) ∧
      List.Forall₂ (Restores H (dateOrdinals m.date)) ((located objects).filter (inChainSlice m)) restored ∧
      ∀ entry ∈ restored, rangesAt selection.objects entry.gatewayIngestSequence = entry.selectedRecordOrdinals := by
  by_cases hempty : m.chainObjects = []
  · refine ⟨[], 0, emptySelection, [], by rw [hempty]; exact .nil, rfl, ?_, fun hne => absurd hempty hne, .nil, nofun⟩
    rw [restoreEntries, if_pos hempty]
  obtain ⟨objects, maxRecords, hmatches, hcontiguous, hshows⟩ := opened_of_snapshot h hempty
  obtain ⟨normalized, hin, -⟩ := verifyRawDaySnapshot_eq_ok.mp h
  have hchain := chain_of_validate hin.2.1 hempty
  obtain ⟨front, last, hslice⟩ := exists_slice hcontiguous hshows hchain
  obtain ⟨-, ⟨selection, hselection, hsame⟩, -⟩ := hshows
  have hobjects : selection.objects = m.objects := by
    simp only [selectionMatches, decide_eq_true_eq] at hsame
    exact hsame.1
  have hdecodes : ∀ place ∈ front ++ [last], ∃ batch, decodeBatchFrame H place.2.frame = .ok batch := by
    intro place hplace
    rw [← hslice.places] at hplace
    obtain ⟨hobject, hentry⟩ := mem_located.mp (List.mem_of_mem_filter hplace)
    exact (hcontiguous.segments _ hobject).decodes _ hentry
  obtain ⟨restored, expected, hrestored, hwalk⟩ := restorePlaces_run hdecodes hslice.finish
    ⟨m.chainSliceStartSequence, m.chainSliceStartRoot, []⟩ hslice.run
  have hordinals : List.Forall₂ (Restores H (dateOrdinals m.date)) (front ++ [last]) restored := by
    refine List.forall₂_iff_zip.mpr ⟨hrestored.length_eq, fun {place entry} hmem => ?_⟩
    have hentry := (List.forall₂_iff_zip.mp hrestored).2 hmem
    refine ⟨hentry.objectKey, hentry.sequence, hentry.frame, hentry.batch, hentry.previous, hentry.hash, ?_⟩
    rw [hentry.ordinals, rangeOrdinals, hslice.objects]
    exact selectedOrdinals_hitRanges hslice.ordered (List.of_mem_zip hmem).1 hentry.batch
  refine ⟨objects, maxRecords, selection, restored, hmatches.imp fun _ _ hmatch => hmatch.1, hselection, ?_, fun _ => ?_, ?_,
    ?_⟩
  · simp only [restoreEntries, if_neg hempty, bind_eq_ok, reject_eq_ok, pure_eq_ok]
    rw [← hslice.places, ← restoreSegments_eq hcontiguous.segments, ← zip_keys hmatches] at hwalk
    refine ⟨_, foldlM_openRestored hmatches hcontiguous.continues, (⟨expected, last.2.entryHash, restored⟩, true), ?_, (),
      by simp [hslice.root], rfl⟩
    rw [List.reverse_reverse]
    exact hwalk
  · rw [← hslice.sequences]
    have hsame : List.Forall₂ (fun (entry : RestoredEntry) (place : RawObject × Entry) =>
        entry.gatewayIngestSequence.toNat = place.2.sequence.toNat) restored (front ++ [last]) :=
      hrestored.flip.imp fun entry place hentry => by rw [hentry.sequence]
    rw [← List.forall₂_eq_eq_eq, List.forall₂_map_left_iff, List.forall₂_map_right_iff]
    exact hsame
  · rw [hslice.places]
    exact hordinals
  · intro entry hentry
    obtain ⟨place, hplace, hrestores⟩ := exists_left_of_mem hordinals hentry
    rw [hobjects, hrestores.sequence, hslice.rangesAt_eq hplace hrestores.batch, hrestores.ordinals, dateOrdinals]

instance dayManifest_bounds : Fact (dayManifest.chainObjects ≠ [] ∧ dayManifest.chainSliceStartSequence.toNat = 1 ∧
      dayManifest.chainSliceEndSequence.toNat = 1) := ⟨by decide +kernel⟩

theorem restored_is_day_sample :
    verifyRawDaySnapshot Hashes.sample dayManifest dayDisk dayPaths dayScope = .ok () ∧
      ∃ restored, restoreEntries Hashes.sample dayDisk dayManifest dayPaths = .ok restored ∧
        (restored.map fun entry => entry.gatewayIngestSequence.toNat) = [1] := by
  obtain ⟨_, haccepted, -⟩ := exists_ok_of_any dayManifest_verifies.out
  obtain ⟨_, _, _, restored, -, -, hrestored, hsequences, -⟩ := restored_is_day haccepted
  refine ⟨haccepted, restored, hrestored, ?_⟩
  rw [hsequences dayManifest_bounds.out.1, dayManifest_bounds.out.2.1, dayManifest_bounds.out.2.2]
  rfl

/-! ## Coverage of a segment -/

/-- The date of a record, or of the request if there are no records. -/
def coordinateDate (batch : BatchFrameV1) (ordinal : UInt32) : Option Bytes :=
  if batch.records = [] then (if ordinal = 0 then some (utcDate batch.requestedFromMSC) else none)
  else batch.records[ordinal.toNat]?.map fun record => utcDate record.timeMSC

theorem mem_selectedOrdinals_iff {H : Hashes} {entry : Entry} {batch : BatchFrameV1} {date : Bytes} {ordinal : UInt32}
    (hbatch : decodeBatchFrame H entry.frame = .ok batch) :
    ordinal ∈ Archive.selectedOrdinals date batch ↔ coordinateDate batch ordinal = some date := by
  have hcount : batch.records.length < 2 ^ 32 := by
    have := (decodeBatchFrame_eq_ok.mp hbatch).1.count
    omega
  unfold coordinateDate
  split
  · rename_i hempty
    rw [Archive.selectedOrdinals, if_pos hempty]
    by_cases hzero : ordinal = 0 <;> by_cases hdate : utcDate batch.requestedFromMSC = date <;> simp [hzero, hdate]
  · rename_i hne
    rw [mem_selectedOrdinals hne hcount, Option.map_eq_some_iff]

theorem objects_of_selection {date : Bytes} {maxRecords : UInt32} {selection : DaySelection} (h : Contiguous H objects)
    (hselection : deriveDaySelection H objects date 0 0 maxRecords = .ok selection) :
    selection.objects = (hitsIn H date 0 0 objects).flatMap (hitRanges date) := by
  obtain ⟨-, rfl⟩ := deriveDaySelection_eq_ok.mp hselection
  exact (summarises_foldl fun hit hhit => h.number (mem_hits hhit).1).objects

/-- **A manifest that was proved to cover a segment** lists the segment in its chain, and of the segment's coordinates
it lists those of its date. -/
theorem coverage_is_exact {H : Hashes} {m : RawDayManifest} {segment : VerifiedSegment} {objectKey : Bytes}
    {objectSHA : Digest} {objectBytes : UInt64} {scope : ScopeConfig} {coverage : RawDaySegmentCoverage}
    (hverified : ∃ path data, verifySealedBytes H path data = .ok segment)
    (h : verifyRawDaySegmentCoverage H m segment objectKey objectSHA objectBytes scope = .ok coverage) :
    coverage.selectedRanges = (m.objects.filter fun range =>
      range.key = objectKey ∧ range.sha256 = objectSHA ∧ range.bytes = objectBytes) ∧
    (∃ descriptor ∈ m.chainObjects, describes descriptor objectKey objectSHA objectBytes segment.startSequence
      segment.lastSequence = true) ∧
    ∀ entry ∈ segment.entries, ∃ batch, decodeBatchFrame H entry.frame = .ok batch ∧
      ∀ ordinal, ordinal ∈ selectedOrdinals coverage.selectedRanges entry.sequence batch.records.length ↔
        coordinateDate batch ordinal = some m.date := by
  simp only [verifyRawDaySegmentCoverage, bind_eq_ok, mapError_eq_ok, reject_eq_ok, pure_eq_ok, exists_unit, not_not,
    Bool.not_eq_true', Bool.not_eq_false, List.any_eq_true] at h
  obtain ⟨⟨normalized, digest⟩, -, -, hchain, selection, hselection, -, hranges, rfl⟩ := h
  obtain ⟨path, data, hsegment⟩ := hverified
  have hrun := segmentRun_of_verified hsegment
  have hsingle : Contiguous H [⟨objectKey, objectSHA, objectBytes.toNat, segment⟩] := ⟨by simpa using hrun, .singleton _⟩
  refine ⟨hranges.symm, hchain, fun entry hentry => ?_⟩
  obtain ⟨batch, hbatch⟩ := hrun.decodes entry hentry
  refine ⟨batch, hbatch, fun ordinal => ?_⟩
  have hplace : (⟨objectKey, objectSHA, objectBytes.toNat, segment⟩, entry) ∈ located [_] :=
    mem_located.mpr ⟨List.mem_singleton_self _, hentry⟩
  show ordinal ∈ selectedOrdinals selection.objects _ _ ↔ _
  rw [objects_of_selection hsingle hselection, hitsIn_zero,
    selectedOrdinals_hitRanges (located_pairwise hsingle) hplace hbatch]
  exact mem_selectedOrdinals_iff hbatch

instance daySegment_covered : Fact ((verifySealedBytes Hashes.sample "a" (dayFile ⟨1, Digest.zero⟩ [5, 7])).toOption.any
    (fun segment => (verifyRawDaySegmentCoverage Hashes.sample dayManifest segment (rawWALObjectKey segment.objectSHA256)
      segment.objectSHA256 (UInt64.ofNat segment.fileBytes) dayScope).toOption.any fun _ => true) = true) :=
  ⟨by decide +kernel⟩

theorem coverage_is_exact_day : ∃ segment coverage, verifySealedBytes Hashes.sample "a" (dayFile ⟨1, Digest.zero⟩ [5, 7]) =
      .ok segment ∧ verifyRawDaySegmentCoverage Hashes.sample dayManifest segment (rawWALObjectKey segment.objectSHA256)
      segment.objectSHA256 (UInt64.ofNat segment.fileBytes) dayScope = .ok coverage ∧
    ∃ descriptor ∈ dayManifest.chainObjects, descriptor.sha256 = segment.objectSHA256 := by
  obtain ⟨segment, hsegment, hcovered⟩ := exists_ok_of_any daySegment_covered.out
  obtain ⟨coverage, hcoverage, -⟩ := exists_ok_of_any hcovered
  obtain ⟨-, ⟨descriptor, hmem, hdescribes⟩, -⟩ := coverage_is_exact ⟨_, _, hsegment⟩ hcoverage
  exact ⟨segment, coverage, hsegment, hcoverage, descriptor, hmem, (of_decide_eq_true hdescribes).2.1⟩

end TickPlatform.Delivery
