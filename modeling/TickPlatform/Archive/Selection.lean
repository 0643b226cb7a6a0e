import TickPlatform.Archive.Snapshot
import TickPlatform.Lists
import TickPlatform.Wal.Grammar

/-!
# The selection of a day

What `deriveDaySelection` computes, as a fold over the entries that have a coordinate on the date, and how the entries
of contiguous sealed segments are numbered.
-/

namespace TickPlatform.Archive

open Bytes Protocol Replay Wal

/-! ## Numbered entries -/

/-- The entries carry the numbers from `n` on, and each names the hash of the one before. -/
def Run : Nat → Digest → List Entry → Prop
  | _, _, [] => True
  | n, root, entry :: rest =>
    entry.sequence.toNat = n ∧ entry.previousEntryHash = root ∧ Run (n + 1) entry.entryHash rest

def rootAfter (root : Digest) (entries : List Entry) : Digest := entries.foldl (fun _ entry => entry.entryHash) root

variable {n : Nat} {root : Digest}

theorem run_append {front back : List Entry} :
    Run n root (front ++ back) ↔ Run n root front ∧ Run (n + front.length) (rootAfter root front) back := by
  induction front generalizing n root with
  | nil => simp [Run, rootAfter]
  | cons entry front ih =>
    simp only [List.cons_append, Run, ih, List.length_cons, and_assoc, rootAfter, List.foldl_cons]
    rw [Nat.add_right_comm, Nat.add_assoc]

variable {entries : List Entry}

theorem run_bounds (h : Run n root entries) :
    ∀ entry ∈ entries, n ≤ entry.sequence.toNat ∧ entry.sequence.toNat < n + entries.length := by
  induction entries generalizing n root with
  | nil => simp
  | cons first entries ih =>
    obtain ⟨hfirst, -, hrest⟩ := h
    intro entry hentry
    rw [List.length_cons]
    rcases List.mem_cons.mp hentry with rfl | hentry
    · omega
    · have := ih hrest entry hentry
      omega

theorem run_pairwise (h : Run n root entries) : entries.Pairwise fun a b => a.sequence.toNat < b.sequence.toNat := by
  induction entries generalizing n root with
  | nil => exact .nil
  | cons first entries ih =>
    obtain ⟨hfirst, -, hrest⟩ := h
    refine List.pairwise_cons.mpr ⟨fun entry hentry => ?_, ih hrest⟩
    have := run_bounds hrest entry hentry
    omega

theorem run_sequences (h : Run n root entries) :
    (entries.map fun entry => entry.sequence.toNat) = List.range' n entries.length := by
  induction entries generalizing n root with
  | nil => rfl
  | cons first entries ih =>
    obtain ⟨hfirst, -, hrest⟩ := h
    rw [List.map_cons, List.length_cons, List.range'_succ, hfirst, ih hrest]

/-- Two entries of a run bound a run. -/
theorem run_between (h : Run n root entries) {first last : Entry}
    (hfirst : first ∈ entries) (hlast : last ∈ entries) (hle : first.sequence ≤ last.sequence) :
    ∃ stretch, (entries.filter fun entry => first.sequence ≤ entry.sequence && entry.sequence ≤ last.sequence) =
        stretch ++ [last] ∧ Run first.sequence.toNat first.previousEntryHash (stretch ++ [last]) := by
  obtain ⟨before, rest, rfl⟩ := List.append_of_mem hfirst
  rw [run_append] at h
  obtain ⟨hbefore, hrest⟩ := h
  have hnumber := hrest.1
  have hroot := hrest.2.1
  -- the last entry is not before the first
  have hlast' : last ∈ first :: rest := by
    refine (List.mem_append.mp hlast).resolve_left fun hmem => ?_
    have := run_bounds hbefore last hmem
    rw [UInt64.le_iff_toNat_le] at hle
    omega
  obtain ⟨stretch, after, hsplit⟩ := List.append_of_mem hlast'
  have hstretch : Run first.sequence.toNat first.previousEntryHash (stretch ++ [last]) ∧
      Run (first.sequence.toNat + (stretch ++ [last]).length) (rootAfter first.previousEntryHash (stretch ++ [last]))
        after := by
    rw [← run_append, List.append_assoc, List.singleton_append, ← hsplit, hnumber, hroot]
    exact hrest
  refine ⟨stretch, ?_, hstretch.1⟩
  have hends := (run_append.mp hstretch.1).2.1
  have hnone : (before.filter fun entry => first.sequence ≤ entry.sequence && entry.sequence ≤ last.sequence) = [] := by
    rw [List.filter_eq_nil_iff]
    intro entry hentry
    have := run_bounds hbefore entry hentry
    simp only [Bool.and_eq_true, decide_eq_true_eq, UInt64.le_iff_toNat_le]
    omega
  have hafter : (after.filter fun entry => first.sequence ≤ entry.sequence && entry.sequence ≤ last.sequence) = [] := by
    rw [List.filter_eq_nil_iff]
    intro entry hentry
    have := run_bounds hstretch.2 entry hentry
    rw [List.length_append, List.length_singleton] at this
    simp only [Bool.and_eq_true, decide_eq_true_eq, UInt64.le_iff_toNat_le]
    omega
  have hall : ((stretch ++ [last]).filter fun entry => first.sequence ≤ entry.sequence && entry.sequence ≤ last.sequence) =
      stretch ++ [last] := by
    rw [List.filter_eq_self]
    intro entry hentry
    have := run_bounds hstretch.1 entry hentry
    rw [List.length_append, List.length_singleton] at this
    simp only [Bool.and_eq_true, decide_eq_true_eq, UInt64.le_iff_toNat_le]
    omega
  rw [List.filter_append, hnone, List.nil_append, hsplit, ← List.singleton_append, ← List.append_assoc, List.filter_append,
    hafter, List.append_nil, hall]

theorem walkSlice_run {stretch : List Entry} {last : Entry} {expected : UInt64}
    (h : Run expected.toNat root (stretch ++ [last])) :
    walkSlice last.sequence expected root (stretch ++ [last]) = .ok (true, last.entryHash) := by
  induction stretch generalizing expected root with
  | nil =>
    obtain ⟨hnumber, hroot, -⟩ := h
    simp [walkSlice, UInt64.toNat_inj.mp hnumber, hroot, reject, bind, Except.bind, pure, Except.pure]
  | cons entry stretch ih =>
    obtain ⟨hnumber, hroot, hrest⟩ := h
    have hlast := run_bounds hrest last (by simp)
    have hlt := last.sequence.toNat_lt
    have hne : entry.sequence ≠ last.sequence := fun heq => by
      rw [heq] at hnumber
      omega
    have hnext : (expected + 1).toNat = expected.toNat + 1 := by
      rw [UInt64.toNat_add]
      simp
      omega
    have hwalk := ih (hnext ▸ hrest)
    simp only [List.cons_append, walkSlice, bind_eq_ok, reject_eq_ok, not_or, not_not, if_neg hne]
    exact ⟨(), ⟨UInt64.toNat_inj.mp hnumber, hroot⟩, hwalk⟩

variable {H : Hashes}

theorem run_of_chained {p : Position} {offset : Nat} (h : Chained H p offset entries)
    (hwrap : p.next.toNat + entries.length ≤ 18446744073709551616) : Run p.next.toNat p.last entries := by
  induction entries generalizing p offset with
  | nil => trivial
  | cons entry entries ih =>
    obtain ⟨-, hsequence, hprevious, -, hrest⟩ := h
    rw [List.length_cons] at hwrap
    refine ⟨by rw [hsequence], hprevious, ?_⟩
    cases entries with
    | nil => trivial
    | cons next entries =>
      rw [List.length_cons] at hwrap
      have hnext : (p.after entry).next.toNat = p.next.toNat + 1 := by
        show (p.next + 1).toNat = _
        rw [UInt64.toNat_add]
        simp
        omega
      rw [← hnext]
      refine ih hrest ?_
      rw [hnext, List.length_cons]
      omega

theorem rootAfter_eq_advance (p : Position) (entries : List Entry) : rootAfter p.last entries = (p.advance entries).last := by
  induction entries generalizing p with
  | nil => rfl
  | cons entry entries ih => exact ih (p.after entry)

/-- What the archive uses of a verified segment. -/
structure SegmentRun (H : Hashes) (segment : VerifiedSegment) : Prop where
  nonempty : segment.entries ≠ []
  start : segment.startSequence ≠ 0
  run : Run segment.startSequence.toNat segment.chainStart segment.entries
  root : rootAfter segment.chainStart segment.entries = segment.chainRoot
  last : segment.lastSequence.toNat + 1 = segment.startSequence.toNat + segment.entries.length
  decodes : ∀ entry ∈ segment.entries, ∃ batch, decodeBatchFrame H entry.frame = .ok batch
  bytes : segment.fileBytes ≠ 0
  size : segment.fileBytes < 9223372036854775808

theorem sound_of_chained {p : Position} {offset : Nat}
    (h : Chained H p offset entries) : ∀ entry ∈ entries, entry.Sound H := by
  induction entries generalizing p offset with
  | nil => simp
  | cons first entries ih =>
    obtain ⟨hsound, -, -, -, hrest⟩ := h
    exact List.forall_mem_cons.mpr ⟨hsound, ih hrest⟩

theorem length_encodeEntries_le (h : ∀ entry ∈ entries, entry.Sound H) :
    (encodeEntries H entries).length ≤ entries.length * 1048716 := by
  induction entries with
  | nil => simp
  | cons entry entries ih =>
    rw [List.forall_mem_cons] at h
    have hframe := h.1.upper
    have hrest := ih h.2
    rw [encodeEntries_cons, List.length_append, length_encodeEntry, entrySize, List.length_cons]
    simp only [entryFixedBytes]
    omega

theorem segmentRun_of_verified {path : String} {data : Bytes} {segment : VerifiedSegment}
    (h : verifySealedBytes H path data = .ok segment) : SegmentRun H segment := by
  obtain ⟨gatewayID, p, seg, hform, rfl, rfl⟩ := exists_sealedForm h
  have hpos := List.length_pos_of_ne_nil hform.nonempty
  have hsound := sound_of_chained hform.chained
  obtain ⟨-, -, -, hlength, hdata⟩ := verifySealedBytes_facts h
  refine ⟨hform.nonempty, hform.start, run_of_chained hform.chained hform.noWrap, rootAfter_eq_advance p _, ?_,
    fun entry hentry => (hsound entry hentry).decodes, ?_, ?_⟩
  · show (lastSequence p seg).toNat + 1 = p.next.toNat + seg.entries.length
    rw [hform.lastSequence_toNat]
    omega
  · rw [hlength]
    exact fun hzero => hdata (List.length_eq_zero_iff.mp hzero)
  · have hentries := length_encodeEntries_le hsound
    have hcount := hform.count
    have hid := hform.id.short
    show (sealedBytes H gatewayID p seg).length < 9223372036854775808
    simp only [sealedBytes, openBytes, trailerOf, List.length_append, length_encodeHeader, length_encodeTrailer]
    omega

/-! ## Contiguous objects -/

/-- An object that continues another, by sequence and by hash. -/
def Continues (previous object : RawObject) : Prop :=
  previous.segment.lastSequence ≠ maxUint64 ∧ object.segment.startSequence = previous.segment.lastSequence + 1 ∧
    object.segment.chainStart = previous.segment.chainRoot

variable {object : RawObject}

theorem Continues.toNat {previous : RawObject} (h : Continues previous object) :
    object.segment.startSequence.toNat = previous.segment.lastSequence.toNat + 1 := by
  obtain ⟨hmax, hstart, -⟩ := h
  have hlt := previous.segment.lastSequence.toNat_lt
  have hne : previous.segment.lastSequence.toNat ≠ 18446744073709551615 := fun heq => hmax (UInt64.toNat_inj.mp heq)
  rw [hstart, UInt64.toNat_add]
  simp
  omega

/-- The entries of some objects, each with its object. -/
def located (objects : List RawObject) : List (RawObject × Entry) :=
  objects.flatMap fun object => object.segment.entries.map fun entry => (object, entry)

variable {objects : List RawObject} {place : RawObject × Entry}

theorem mem_located : place ∈ located objects ↔ place.1 ∈ objects ∧ place.2 ∈ place.1.segment.entries := by
  obtain ⟨object, entry⟩ := place
  simp only [located, List.mem_flatMap, List.mem_map, Prod.mk.injEq]
  constructor
  · rintro ⟨_, hobject, _, hentry, rfl, rfl⟩
    exact ⟨hobject, hentry⟩
  · rintro ⟨hobject, hentry⟩
    exact ⟨object, hobject, entry, hentry, rfl, rfl⟩

/-- Contiguous verified objects. -/
structure Contiguous (H : Hashes) (objects : List RawObject) : Prop where
  segments : ∀ object ∈ objects, SegmentRun H object.segment
  continues : objects.IsChain Continues

theorem Contiguous.tail (h : Contiguous H (object :: objects)) : Contiguous H objects :=
  ⟨fun other hother => h.segments other (List.mem_cons_of_mem _ hother), h.continues.tail⟩

theorem Contiguous.run (h : Contiguous H (object :: objects)) :
    Run object.segment.startSequence.toNat object.segment.chainStart ((located (object :: objects)).map (·.2)) := by
  induction objects generalizing object with
  | nil =>
    have hsegment := h.segments object List.mem_cons_self
    simpa [located] using hsegment.run
  | cons next objects ih =>
    have hsegment := h.segments object List.mem_cons_self
    obtain ⟨hcontinues, -⟩ := List.isChain_cons_cons.mp h.continues
    have hrest := ih h.tail
    have hmap : (located (object :: next :: objects)).map (·.2) =
        object.segment.entries ++ (located (next :: objects)).map (·.2) := by
      simp [located, Function.comp_def]
    rw [hmap, run_append]
    refine ⟨hsegment.run, ?_⟩
    rw [hsegment.root, ← hsegment.last, ← hcontinues.toNat, ← hcontinues.2.2]
    exact hrest

theorem SegmentRun.within {segment : VerifiedSegment} (h : SegmentRun H segment) {entry : Entry}
    (hentry : entry ∈ segment.entries) :
    segment.startSequence ≤ entry.sequence ∧ entry.sequence ≤ segment.lastSequence := by
  have hbounds := run_bounds h.run entry hentry
  have hlast := h.last
  rw [UInt64.le_iff_toNat_le, UInt64.le_iff_toNat_le]
  omega

/-! ## Hits -/

/-- An entry with a coordinate on the date. -/
structure Hit where
  object : RawObject
  entry : Entry
  batch : BatchFrameV1

def hit? (H : Hashes) (date : Bytes) (place : RawObject × Entry) : Option Hit :=
  (decodeBatchFrame H place.2.frame).toOption.bind fun batch =>
    if selectedOrdinals date batch = [] then none else some ⟨place.1, place.2, batch⟩

def addHit (date : Bytes) (selection : DaySelection) (hit : Hit) : DaySelection :=
  addBatch hit.object hit.entry hit.batch (selectedOrdinals date hit.batch)
    ((hit.batch.records.filter fun record => utcDate record.timeMSC = date).foldl observeRecord selection)

/-- The entry is not passed over. -/
def inSlice (startSequence endSequence : UInt64) (entry : Entry) : Bool :=
  !(startSequence ≠ 0 ∧ (entry.sequence < startSequence ∨ entry.sequence > endSequence))

def Fits (H : Hashes) (maxRecords : UInt32) (entry : Entry) : Prop :=
  ∃ batch, decodeBatchFrame H entry.frame = .ok batch ∧ batch.records.length ≤ maxRecords.toNat

variable {date : Bytes}

theorem filter_of_selectedOrdinals {batch : BatchFrameV1} (h : selectedOrdinals date batch = []) :
    (batch.records.filter fun record => utcDate record.timeMSC = date) = [] := by
  unfold selectedOrdinals at h
  split at h
  · rename_i hempty
    rw [hempty, List.filter_nil]
  · rw [List.map_eq_nil_iff, List.filter_eq_nil_iff] at h
    rw [List.filter_eq_nil_iff]
    intro record hrecord
    obtain ⟨index, hindex, rfl⟩ := List.getElem_of_mem hrecord
    have hplace : (batch.records[index], index) ∈ batch.records.zipIdx := by
      rw [List.mem_zipIdx_iff_getElem?]
      exact List.getElem?_eq_getElem hindex
    intro hdate
    exact h (batch.records[index], index) hplace hdate

variable {endSequence startSequence : UInt64}

theorem selectEntry_eq_ok {maxRecords : UInt32} {selection next : DaySelection} {entry : Entry} :
    selectEntry H date startSequence endSequence maxRecords object selection entry = .ok next ↔
      (inSlice startSequence endSequence entry = true → Fits H maxRecords entry) ∧
        next = if inSlice startSequence endSequence entry then
          (hit? H date (object, entry)).elim selection (addHit date selection) else selection := by
  unfold selectEntry
  by_cases hout : startSequence ≠ 0 ∧ (entry.sequence < startSequence ∨ entry.sequence > endSequence)
  · have hslice : inSlice startSequence endSequence entry = false := by simp [inSlice, hout]
    rw [if_pos hout, hslice]
    simp [eq_comm]
  · have hslice : inSlice startSequence endSequence entry = true := by rw [inSlice, decide_eq_false hout, Bool.not_false]
    rw [if_neg hout, hslice]
    simp only [if_true, true_imp_iff, bind_eq_ok, mapError_eq_ok, reject_eq_ok, Nat.not_lt, gt_iff_lt, Fits]
    constructor
    · rintro ⟨batch, hbatch, _, hcount, h⟩
      refine ⟨⟨batch, hbatch, hcount⟩, ?_⟩
      rw [hit?, hbatch]
      split at h
      · rename_i hordinals
        rw [pure_eq_ok, filter_of_selectedOrdinals hordinals] at h
        simp [Except.toOption, hordinals, ← h]
      · rename_i hordinals
        rw [pure_eq_ok] at h
        simp [Except.toOption, hordinals, ← h, addHit]
    · rintro ⟨⟨batch, hbatch, hcount⟩, rfl⟩
      refine ⟨batch, hbatch, (), hcount, ?_⟩
      rw [hit?, hbatch]
      split
      · rename_i hordinals
        rw [pure_eq_ok, filter_of_selectedOrdinals hordinals]
        simp [Except.toOption, hordinals]
      · rename_i hordinals
        rw [pure_eq_ok]
        simp [Except.toOption, hordinals, addHit]

theorem deriveDaySelection_eq_foldlM (H : Hashes) (objects : List RawObject) (date : Bytes)
    (startSequence endSequence : UInt64) (maxRecords : UInt32) :
    deriveDaySelection H objects date startSequence endSequence maxRecords =
      (located objects).foldlM (fun selection place =>
        selectEntry H date startSequence endSequence maxRecords place.1 selection place.2) emptySelection := by
  unfold deriveDaySelection
  generalize emptySelection = selection
  induction objects generalizing selection with
  | nil => rfl
  | cons object objects ih =>
    rw [located, List.flatMap_cons, List.foldlM_append, List.foldlM_cons, List.foldlM_map, ← located]
    simp only [ih]
    rfl

def hitsIn (H : Hashes) (date : Bytes) (startSequence endSequence : UInt64) (objects : List RawObject) : List Hit :=
  ((located objects).filter fun place => inSlice startSequence endSequence place.2).filterMap (hit? H date)

theorem deriveDaySelection_eq_ok {maxRecords : UInt32} {selection : DaySelection} :
    deriveDaySelection H objects date startSequence endSequence maxRecords = .ok selection ↔
      (∀ place ∈ located objects, inSlice startSequence endSequence place.2 = true → Fits H maxRecords place.2) ∧
        selection = (hitsIn H date startSequence endSequence objects).foldl (addHit date) emptySelection := by
  rw [deriveDaySelection_eq_foldlM, hitsIn]
  generalize emptySelection = begun
  induction located objects generalizing begun with
  | nil =>
    rw [foldlM_nil_eq_ok]
    constructor
    · rintro rfl
      exact ⟨by simp, rfl⟩
    · rintro ⟨-, rfl⟩
      rfl
  | cons place places ih =>
    rw [foldlM_cons_eq_ok, List.forall_mem_cons]
    constructor
    · rintro ⟨mid, hfirst, hlater⟩
      obtain ⟨hfits, rfl⟩ := selectEntry_eq_ok.mp hfirst
      obtain ⟨hrest, rfl⟩ := (ih _).mp hlater
      refine ⟨⟨hfits, hrest⟩, ?_⟩
      cases hslice : inSlice startSequence endSequence place.2 with
      | false => simp [hslice]
      | true => cases hhit : hit? H date place <;> simp [hslice, hhit]
    · rintro ⟨⟨hfits, hrest⟩, rfl⟩
      refine ⟨_, selectEntry_eq_ok.mpr ⟨hfits, rfl⟩, (ih _).mpr ⟨hrest, ?_⟩⟩
      cases hslice : inSlice startSequence endSequence place.2 with
      | false => simp [hslice]
      | true => cases hhit : hit? H date place <;> simp [hslice, hhit]

/-! ## What the selection says of the hits -/

/-- The ranges of a hit. -/
def hitRanges (date : Bytes) (hit : Hit) : List RawObjectRange :=
  (ordinalRuns (selectedOrdinals date hit.batch)).map (runRange hit.object hit.entry.sequence)

theorem foldl_observeRecord_keeps {α : Type} (field : DaySelection → α)
    (hfield : ∀ selection record, field (observeRecord selection record) = field selection)
    (records : List RawMqlTickV1) (selection : DaySelection) :
    field (records.foldl observeRecord selection) = field selection := by
  induction records generalizing selection with
  | nil => rfl
  | cons record records ih => rw [List.foldl_cons, ih, hfield]

structure Summarises (date : Bytes) (hits : List Hit) (selection : DaySelection) : Prop where
  objects : selection.objects = hits.flatMap (hitRanges date)
  start : selection.chainSliceStartSequence = (hits.head?.map (·.entry.sequence)).getD 0
  startRoot : selection.chainSliceStartRoot = (hits.head?.map (·.entry.previousEntryHash)).getD Digest.zero
  finish : selection.chainSliceEndSequence = (hits.getLast?.map (·.entry.sequence)).getD 0
  finishRoot : selection.chainSliceEndRoot = (hits.getLast?.map (·.entry.entryHash)).getD Digest.zero

theorem summarises_foldl {hits : List Hit} (hnumbers : ∀ hit ∈ hits, hit.entry.sequence ≠ 0) :
    Summarises date hits (hits.foldl (addHit date) emptySelection) := by
  induction hits using List.reverseRecOn with
  | nil => exact ⟨rfl, rfl, rfl, rfl, rfl⟩
  | append_singleton hits hit ih =>
    have hfront := ih fun other hother => hnumbers other (List.mem_append_left _ hother)
    rw [List.foldl_append, List.foldl_cons, List.foldl_nil]
    generalize hits.foldl (addHit date) emptySelection = selection at hfront
    refine ⟨?_, ?_, ?_, ?_, ?_⟩
    · simp only [addHit, addBatch, foldl_observeRecord_keeps (·.objects) (fun _ _ => rfl), hfront.objects,
        List.flatMap_append, List.flatMap_singleton, hitRanges]
    · simp only [addHit, addBatch, foldl_observeRecord_keeps (·.chainSliceStartSequence) (fun _ _ => rfl), hfront.start]
      cases hits with
      | nil => simp
      | cons first hits => simp [hnumbers first (by simp)]
    · simp only [addHit, addBatch, foldl_observeRecord_keeps (·.chainSliceStartSequence) (fun _ _ => rfl),
        foldl_observeRecord_keeps (·.chainSliceStartRoot) (fun _ _ => rfl), hfront.start, hfront.startRoot]
      cases hits with
      | nil => simp
      | cons first hits => simp [hnumbers first (by simp)]
    · simp [addHit, addBatch]
    · simp [addHit, addBatch]

/-! ## The hits of contiguous objects -/

theorem hit?_eq_some {hit : Hit} : hit? H date place = some hit ↔
      hit.object = place.1 ∧ hit.entry = place.2 ∧ decodeBatchFrame H place.2.frame = .ok hit.batch ∧
        selectedOrdinals date hit.batch ≠ [] := by
  obtain ⟨object, entry, batch⟩ := hit
  cases hdecode : decodeBatchFrame H place.2.frame with
  | error err => simp [hit?, hdecode, Except.toOption]
  | ok found =>
    simp only [hit?, hdecode, Except.toOption, Option.bind_some, Except.ok.injEq]
    split
    · rename_i hnone
      simp only [reduceCtorEq, false_iff, not_and, not_not]
      rintro - - rfl
      exact hnone
    · rename_i hsome
      simp only [Option.some.injEq, Hit.mk.injEq]
      constructor
      · rintro ⟨rfl, rfl, rfl⟩
        exact ⟨rfl, rfl, rfl, hsome⟩
      · rintro ⟨rfl, rfl, rfl, -⟩
        exact ⟨rfl, rfl, rfl⟩

theorem entries_hits_sublist (H : Hashes) (date : Bytes) (places : List (RawObject × Entry)) :
    ((places.filterMap (hit? H date)).map (·.entry)).Sublist (places.map (·.2)) := by
  induction places with
  | nil => exact .slnil
  | cons place places ih =>
    cases hhit : hit? H date place with
    | none =>
      rw [List.filterMap_cons_none hhit, List.map_cons]
      exact ih.cons _
    | some hit =>
      rw [List.filterMap_cons_some hhit, List.map_cons, List.map_cons, (hit?_eq_some.mp hhit).2.1]
      exact ih.cons_cons _

theorem located_pairwise (h : Contiguous H objects) :
    ((located objects).map (·.2)).Pairwise fun a b => a.sequence.toNat < b.sequence.toNat := by
  cases objects with
  | nil => exact .nil
  | cons object objects => exact run_pairwise h.run

theorem hitsIn_zero (H : Hashes) (date : Bytes) (objects : List RawObject) :
    hitsIn H date 0 0 objects = (located objects).filterMap (hit? H date) := by
  simp [hitsIn, inSlice]

theorem hits_pairwise (h : Contiguous H objects) (date : Bytes) :
    (hitsIn H date 0 0 objects).Pairwise fun a b => a.entry.sequence.toNat < b.entry.sequence.toNat := by
  rw [hitsIn_zero]
  have hentries := (located_pairwise h).sublist (entries_hits_sublist H date _)
  rwa [List.pairwise_map] at hentries

theorem Contiguous.number (h : Contiguous H objects) (hplace : place ∈ located objects) : place.2.sequence ≠ 0 := by
  obtain ⟨hobject, hentry⟩ := mem_located.mp hplace
  have hsegment := h.segments _ hobject
  have hwithin := hsegment.within hentry
  intro hzero
  rw [hzero, UInt64.le_iff_toNat_le] at hwithin
  exact hsegment.start (UInt64.toNat_inj.mp (Nat.le_zero.mp hwithin.1))

theorem mem_hits {hit : Hit} (h : hit ∈ hitsIn H date 0 0 objects) : (hit.object, hit.entry) ∈ located objects ∧
      decodeBatchFrame H hit.entry.frame = .ok hit.batch ∧ selectedOrdinals date hit.batch ≠ [] := by
  rw [hitsIn_zero] at h
  obtain ⟨place, hplace, hhit⟩ := List.mem_filterMap.mp h
  obtain ⟨hobject, hentry, hdecode, hordinals⟩ := hit?_eq_some.mp hhit
  rw [hobject, hentry]
  exact ⟨hplace, hdecode, hordinals⟩

/-! ## The objects of a slice -/

/-- The object has an entry of the slice. -/
def meets (startSequence endSequence : UInt64) (object : RawObject) : Bool :=
  startSequence ≤ object.segment.lastSequence && object.segment.startSequence ≤ endSequence

theorem chainObjectsForSlice_eq (hstart : startSequence ≠ 0) (hend : endSequence ≠ 0) :
    chainObjectsForSlice objects startSequence endSequence =
      (objects.filter (meets startSequence endSequence)).map chainObject := by
  have hsame : (fun object : RawObject => !(decide (object.segment.lastSequence < startSequence ∨
      object.segment.startSequence > endSequence))) = meets startSequence endSequence := by
    funext object
    simp [meets, Bool.decide_or, ← UInt64.not_lt]
  unfold chainObjectsForSlice
  rw [if_neg (by simp [hstart, hend]), hsame]

theorem Contiguous.pairwise (h : Contiguous H objects) :
    objects.Pairwise fun a b => a.segment.lastSequence < b.segment.startSequence := by
  induction objects with
  | nil => exact .nil
  | cons object objects ih =>
    have hrest := ih h.tail
    refine List.pairwise_cons.mpr ⟨?_, hrest⟩
    cases objects with
    | nil => simp
    | cons next objects =>
      obtain ⟨hcontinues, -⟩ := List.isChain_cons_cons.mp h.continues
      have hnext : object.segment.lastSequence < next.segment.startSequence := by
        rw [UInt64.lt_iff_toNat_lt, hcontinues.toNat]
        omega
      refine List.forall_mem_cons.mpr ⟨hnext, fun later hlater => ?_⟩
      have hafter := (List.pairwise_cons.mp hrest).1 later hlater
      have hsegment := (h.segments next (by simp)).last
      have hpos := List.length_pos_of_ne_nil (h.segments next (by simp)).nonempty
      rw [UInt64.lt_iff_toNat_lt] at hnext hafter ⊢
      omega

theorem Contiguous.slice (h : Contiguous H objects)
    (startSequence endSequence : UInt64) : Contiguous H (objects.filter (meets startSequence endSequence)) := by
  have hordered := h.pairwise
  have hlow : objects.Pairwise fun a b => decide (startSequence ≤ a.segment.lastSequence) = true →
      decide (startSequence ≤ b.segment.lastSequence) = true := by
    refine hordered.imp_of_mem fun {a b} _ hb hab => ?_
    have hsegment := (h.segments b hb).last
    have hpos := List.length_pos_of_ne_nil (h.segments b hb).nonempty
    simp only [decide_eq_true_eq, UInt64.le_iff_toNat_le]
    rw [UInt64.lt_iff_toNat_lt] at hab
    omega
  have hhigh : objects.Pairwise fun a b => decide (b.segment.startSequence ≤ endSequence) = true →
      decide (a.segment.startSequence ≤ endSequence) = true := by
    refine hordered.imp_of_mem fun {a b} ha _ hab => ?_
    have hsegment := (h.segments a ha).last
    have hpos := List.length_pos_of_ne_nil (h.segments a ha).nonempty
    simp only [decide_eq_true_eq, UInt64.le_iff_toNat_le]
    rw [UInt64.lt_iff_toNat_lt] at hab
    omega
  refine ⟨fun object hobject => h.segments object (List.mem_of_mem_filter hobject), ?_⟩
  exact h.continues.infix (Lists.filter_isInfix hlow hhigh)

theorem located_entries (objects : List RawObject) :
    (located objects).map (·.2) = objects.flatMap fun object => object.segment.entries := by
  simp [located, List.map_flatMap, Function.comp_def]

theorem filter_of_not_meets (h : SegmentRun H object.segment) (hout : meets startSequence endSequence object = false) :
    (object.segment.entries.filter fun entry => startSequence ≤ entry.sequence && entry.sequence ≤ endSequence) = [] := by
  rw [List.filter_eq_nil_iff]
  intro entry hentry hin
  have hwithin := h.within hentry
  simp only [Bool.and_eq_true, decide_eq_true_eq] at hin
  rw [meets, Bool.and_eq_false_iff, decide_eq_false_iff_not, decide_eq_false_iff_not] at hout
  rcases hout with hout | hout
  · exact hout (UInt64.le_trans hin.1 hwithin.2)
  · exact hout (UInt64.le_trans hwithin.1 hin.2)

theorem inSlice_eq (h : startSequence ≠ 0) (endSequence : UInt64) (entry : Entry) :
    inSlice startSequence endSequence entry =
      (decide (startSequence ≤ entry.sequence) && decide (entry.sequence ≤ endSequence)) := by
  simp [inSlice, h, Bool.decide_or, ← UInt64.not_lt]

theorem located_slice (h : Contiguous H objects) (hstart : startSequence ≠ 0) (endSequence : UInt64) :
    ((located (objects.filter (meets startSequence endSequence))).filter fun place =>
        inSlice startSequence endSequence place.2) =
      (located objects).filter fun place => inSlice startSequence endSequence place.2 := by
  refine Lists.filter_flatMap_filter fun object hobject hout => ?_
  have hnone := filter_of_not_meets (h.segments object hobject) hout
  rw [List.filter_map, List.map_eq_nil_iff]
  simpa [Function.comp_def, inSlice_eq hstart] using hnone

theorem sliceEntries_eq (h : SegmentRun H object.segment) (m : RawDayManifest) :
    sliceEntries m object = object.segment.entries.filter fun entry =>
      m.chainSliceStartSequence ≤ entry.sequence && entry.sequence ≤ m.chainSliceEndSequence := by
  rw [sliceEntries, Lists.takeWhile_eq_filter, List.filter_filter]
  refine (run_pairwise h.run).imp fun {a b} hab => ?_
  simp only [decide_eq_true_eq, UInt64.le_iff_toNat_le]
  omega

theorem entries_slice (h : Contiguous H objects) (m : RawDayManifest) :
    (objects.filter (meets m.chainSliceStartSequence m.chainSliceEndSequence)).flatMap (sliceEntries m) =
      ((located objects).map (·.2)).filter fun entry =>
        m.chainSliceStartSequence ≤ entry.sequence && entry.sequence ≤ m.chainSliceEndSequence := by
  rw [located_entries, ← Lists.filter_flatMap_filter fun object hobject => filter_of_not_meets (h.segments object hobject),
    List.filter_flatMap]
  refine List.flatMap_congr fun object hobject => ?_
  exact sliceEntries_eq (h.segments object (List.mem_of_mem_filter hobject)) m

theorem hitsIn_slice (h : Contiguous H objects) {first last : Hit}
    (hfirst : first ∈ (hitsIn H date 0 0 objects).head?) (hlast : last ∈ (hitsIn H date 0 0 objects).getLast?) :
    hitsIn H date first.entry.sequence last.entry.sequence
        (objects.filter (meets first.entry.sequence last.entry.sequence)) =
      hitsIn H date 0 0 objects := by
  have hstart : first.entry.sequence ≠ 0 := h.number (mem_hits (List.mem_of_mem_head? hfirst)).1
  have hordered := hits_pairwise h date
  rw [hitsIn, located_slice h hstart]
  refine (Lists.filterMap_filter_of fun place hplace hit hhit => ?_).trans (hitsIn_zero H date objects).symm
  have hmem : hit ∈ hitsIn H date 0 0 objects := by
    rw [hitsIn_zero]
    exact List.mem_filterMap.mpr ⟨place, hplace, hhit⟩
  have hlow := Lists.head_le hordered hfirst hit hmem
  have hhigh := Lists.le_getLast hordered hlast hit hmem
  rw [(hit?_eq_some.mp hhit).2.1] at hlow hhigh
  rw [inSlice_eq hstart, Bool.and_eq_true, decide_eq_true_eq, decide_eq_true_eq, UInt64.le_iff_toNat_le,
    UInt64.le_iff_toNat_le]
  exact ⟨hlow, hhigh⟩

end TickPlatform.Archive
