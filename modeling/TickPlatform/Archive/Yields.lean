import TickPlatform.Archive.Build
import TickPlatform.Archive.Ranges
import TickPlatform.Archive.ReplaySource
import TickPlatform.Protocol.Messages

/-!
# What the replay source yields

A source that could be opened gives the entries with a coordinate on the date of its manifest, each once and in the
order of the WAL, with their ordinals on that date.
-/

namespace TickPlatform.Archive

open Bytes Protocol Replay Wal Continuity

/-! ## Ordinals -/

variable {H : Hashes} {batch : BatchFrameV1}

theorem decodeCanonicalBatchFrame_eq_ok {frame : Bytes} :
    decodeCanonicalBatchFrame H frame = .ok batch ↔ decodeBatchFrame H frame = .ok batch := by
  simp only [decodeCanonicalBatchFrame, Continuity.decodeBatch, bind_eq_ok, pure_eq_ok, mapError_eq_ok, reject_eq_ok]
  constructor
  · rintro ⟨_, hbatch, _, -, _, -, rfl⟩
    exact hbatch
  · intro hbatch
    obtain ⟨hencodable, -, hframe⟩ := decodeBatchFrame_eq_ok.mp hbatch
    exact ⟨batch, hbatch, _, encodeMessage_eq_ok.mpr ⟨hencodable, rfl⟩, (), not_not.mpr hframe.symm, rfl⟩

theorem ordinalSpan_self (ordinal : UInt32) : ordinalSpan ordinal ordinal = [ordinal] := by
  simp [ordinalSpan]

theorem ordinalSpan_cons {first last : UInt32} (h : first < last) :
    ordinalSpan first last = first :: ordinalSpan (first + 1) last := by
  have hlt := UInt32.lt_iff_toNat_lt.mp h
  have hmax := last.toNat_lt
  have hnext : (first + 1).toNat = first.toNat + 1 := by
    rw [UInt32.toNat_add]
    show (first.toNat + 1) % 2 ^ 32 = _
    omega
  obtain ⟨n, hn⟩ : ∃ n, last.toNat = first.toNat + n + 1 := ⟨last.toNat - first.toNat - 1, by omega⟩
  rw [ordinalSpan, ordinalSpan, hnext, hn, show first.toNat + n + 1 + 1 - first.toNat = n + 1 + 1 by omega,
    show first.toNat + n + 1 + 1 - (first.toNat + 1) = n + 1 by omega, List.range'_succ, List.map_cons,
    UInt32.ofNat_toNat]

variable {ordinals : List UInt32}

theorem ordinalRuns_flatMap (h : ordinals.Pairwise (· < ·)) :
    ((ordinalRuns ordinals).flatMap fun run => ordinalSpan run.1 run.2) = ordinals := by
  induction ordinals with
  | nil => rfl
  | cons ordinal rest ih =>
    rw [List.pairwise_cons] at h
    have hrest := ih h.2
    obtain ⟨-, horder, hhead⟩ := ordinalRuns_spec h.2
    rw [ordinalRuns]
    cases hcase : ordinalRuns rest with
    | nil =>
      rw [hcase, List.flatMap_nil] at hrest
      rw [← hrest]
      simp [ordinalSpan_self]
    | cons run runs =>
      obtain ⟨first, last⟩ := run
      rw [hcase] at horder hhead hrest
      have hmem : first ∈ rest := by
        rw [List.head?_cons, Option.map_some] at hhead
        exact List.mem_of_mem_head? hhead.symm
      dsimp only
      split
      · rename_i hnext
        have hlast : ordinal < last := UInt32.lt_of_lt_of_le (h.1 first hmem) (horder _ List.mem_cons_self)
        rw [List.flatMap_cons] at hrest ⊢
        rw [ordinalSpan_cons hlast, ← hnext, List.cons_append, hrest]
      · rw [List.flatMap_cons, ordinalSpan_self, hrest, List.singleton_append]

theorem foldl_appendUniqueOrdinal {more : List UInt32} (h : (ordinals ++ more).Nodup) :
    more.foldl appendUniqueOrdinal ordinals = ordinals ++ more := by
  induction more generalizing ordinals with
  | nil => simp
  | cons ordinal more ih =>
    have hfresh : ordinal ∉ ordinals := by
      intro hmem
      exact (List.nodup_append.mp h).2.2 ordinal hmem ordinal List.mem_cons_self rfl
    rw [List.foldl_cons, appendUniqueOrdinal, if_neg hfresh, ih (by simpa using h), List.append_assoc,
      List.singleton_append]

def exactRange (run : UInt32 × UInt32) : RecordOrdinalRange := ⟨run.1, run.2, false⟩

theorem addOrdinalRange_exact (hne : batch.records ≠ []) (hcount : batch.records.length < 2 ^ 32)
    {run : UInt32 × UInt32} (horder : run.1 ≤ run.2) (hlast : run.2.toNat < batch.records.length) (hnodup : (ordinals ++ ordinalSpan run.1 run.2).Nodup) :
    addOrdinalRange batch ordinals (exactRange run) = .ok (ordinals ++ ordinalSpan run.1 run.2) := by
  have hsize : (UInt32.ofNat batch.records.length).toNat = batch.records.length := by
    rw [UInt32.toNat_ofNat', Nat.mod_eq_of_lt hcount]
  have hinside : ¬ outsideRecords batch run.1 run.2 := by
    rw [outsideRecords, not_or, not_or, gt_iff_lt, UInt32.not_lt, ge_iff_le, ge_iff_le, UInt32.not_le, UInt32.not_le,
      UInt32.lt_iff_toNat_lt, UInt32.lt_iff_toNat_lt, hsize]
    exact ⟨horder, Nat.lt_of_le_of_lt (UInt32.le_iff_toNat_le.mp horder) hlast, hlast⟩
  rw [addOrdinalRange, if_neg hne]
  simp only [exactRange, Bool.false_eq_true, if_false, bind_eq_ok, reject_eq_ok, pure_eq_ok]
  exact ⟨(), hinside, foldl_appendUniqueOrdinal hnodup⟩

theorem foldlM_exactRange (hne : batch.records ≠ []) (hcount : batch.records.length < 2 ^ 32)
    {runs : List (UInt32 × UInt32)} (hruns : ∀ run ∈ runs, run.1 ≤ run.2 ∧ run.2.toNat < batch.records.length) (hnodup : (ordinals ++ runs.flatMap fun run => ordinalSpan run.1 run.2).Nodup) :
    (runs.map exactRange).foldlM (addOrdinalRange batch) ordinals =
      .ok (ordinals ++ runs.flatMap fun run => ordinalSpan run.1 run.2) := by
  induction runs generalizing ordinals with
  | nil => simp [pure, Except.pure]
  | cons run runs ih =>
    rw [List.forall_mem_cons] at hruns
    rw [List.flatMap_cons, ← List.append_assoc] at hnodup ⊢
    rw [List.map_cons, foldlM_cons_eq_ok]
    exact ⟨_, addOrdinalRange_exact hne hcount hruns.1.1 hruns.1.2 (List.nodup_append.mp hnodup).1, ih hruns.2 hnodup⟩

variable {date : Bytes}

theorem mem_selectedOrdinals (hne : batch.records ≠ []) (hcount : batch.records.length < 2 ^ 32) {ordinal : UInt32} :
    ordinal ∈ selectedOrdinals date batch ↔
      ∃ record, batch.records[ordinal.toNat]? = some record ∧ utcDate record.timeMSC = date := by
  rw [selectedOrdinals, if_neg hne, List.mem_map]
  constructor
  · rintro ⟨⟨record, index⟩, hmem, rfl⟩
    obtain ⟨hplace, hdate⟩ := List.mem_filter.mp hmem
    rw [List.mem_zipIdx_iff_getElem?] at hplace
    have hsmall : index < batch.records.length := (List.getElem?_eq_some_iff.mp hplace).1
    refine ⟨record, ?_, by simpa using hdate⟩
    rwa [UInt32.toNat_ofNat', Nat.mod_eq_of_lt (Nat.lt_trans hsmall hcount)]
  · rintro ⟨record, hplace, hdate⟩
    refine ⟨(record, ordinal.toNat), List.mem_filter.mpr ⟨?_, by simpa using hdate⟩, UInt32.ofNat_toNat⟩
    rwa [List.mem_zipIdx_iff_getElem?]

theorem last_mem_of_run (h : ordinals.Pairwise (· < ·)) {run : UInt32 × UInt32}
    (hrun : run ∈ ordinalRuns ordinals) : run.2 ∈ ordinals := by
  have horder := (ordinalRuns_spec h).2.1 run hrun
  rw [← ordinalRuns_flatMap h, List.mem_flatMap]
  refine ⟨run, hrun, ?_⟩
  rw [UInt32.le_iff_toNat_le] at horder
  rw [ordinalSpan, List.mem_map]
  exact ⟨run.2.toNat, List.mem_range'_1.mpr ⟨horder, by omega⟩, UInt32.ofNat_toNat⟩

theorem selectedOrdinals_of_empty (hempty : batch.records = [])
    (hordinals : selectedOrdinals date batch ≠ []) : selectedOrdinals date batch = [0] := by
  unfold selectedOrdinals at hordinals ⊢
  rw [if_pos hempty] at hordinals ⊢
  split
  · rfl
  · rename_i hother
    rw [if_neg hother] at hordinals
    exact absurd rfl hordinals

/-- The runs of the ordinals of a batch select these ordinals. -/
theorem selectRecordOrdinals_runs {frame : Bytes}
    (hbatch : decodeBatchFrame H frame = .ok batch) (hordinals : selectedOrdinals date batch ≠ []) :
    selectRecordOrdinals H frame ((ordinalRuns (selectedOrdinals date batch)).map exactRange) =
      .ok (selectedOrdinals date batch) := by
  have hcount : batch.records.length < 2 ^ 32 := by
    have := (decodeBatchFrame_eq_ok.mp hbatch).1.count
    omega
  rw [selectRecordOrdinals, bind_eq_ok]
  refine ⟨batch, decodeCanonicalBatchFrame_eq_ok.mpr hbatch, ?_⟩
  by_cases hempty : batch.records = []
  · rw [selectedOrdinals_of_empty hempty hordinals, show ordinalRuns [0] = [(0, 0)] from rfl, List.map_cons, foldlM_cons_eq_ok]
    exact ⟨[0], by simp [addOrdinalRange, hempty, exactRange, appendUniqueOrdinal, pure, Except.pure], rfl⟩
  · have hascending := selectedOrdinals_pairwise date hcount
    have hflat := ordinalRuns_flatMap hascending
    rw [foldlM_exactRange hempty hcount, hflat, List.nil_append]
    · intro run hrun
      refine ⟨(ordinalRuns_spec hascending).2.1 run hrun, ?_⟩
      obtain ⟨record, hrecord, -⟩ := (mem_selectedOrdinals hempty hcount).mp (last_mem_of_run hascending hrun)
      exact (List.getElem?_eq_some_iff.mp hrecord).1
    · rw [hflat, List.nil_append]
      exact hascending.imp fun hlt => UInt32.ne_of_lt hlt

/-! ## What is selected of an entry -/

theorem sequences_of_single {range : RawObjectRange} (h : range.startIngestSequence = range.endIngestSequence) :
    range.sequences = [range.startIngestSequence] := by
  simp [RawObjectRange.sequences, ← h]

section
variable {H : Hashes} {objects : List RawObject} {date : Bytes}

theorem selectedAt_place (h : Contiguous H objects) {place : RawObject × Entry} (hplace : place ∈ located objects) :
    selectedAt ((hitsIn H date 0 0 objects).flatMap (hitRanges date)) place.1.key place.2.sequence =
      (hit? H date place).elim [] fun hit => (ordinalRuns (selectedOrdinals date hit.batch)).map exactRange := by
  have hfilter : (((hitsIn H date 0 0 objects).flatMap (hitRanges date)).filter fun range =>
      range.key = place.1.key ∧ place.2.sequence ∈ range.sequences) = (hit? H date place).elim [] (hitRanges date) := by
    rw [hitsIn_zero]
    refine filter_hitRanges (located_pairwise h) hplace (fun run => ?_) fun object sequence run hne => ?_
    · rw [sequences_of_single rfl]
      simp [runRange]
    · rw [sequences_of_single rfl]
      simp [runRange, Ne.symm hne]
  rw [selectedAt, hfilter]
  cases hhit : hit? H date place with
  | none => rfl
  | some hit =>
    obtain ⟨-, hentry, -, -⟩ := hit?_eq_some.mp hhit
    rw [Option.elim_some, Option.elim_some, hitRanges, List.map_map, hentry]
    exact List.map_congr_left fun run _ => by simp [ordinalRangeAt, runRange, exactRange]

/-- What the source gives for a hit. -/
def batchOf (date : Bytes) (hit : Hit) : VerifiedBatch where
  objectKey := hit.object.key
  objectSHA256 := hit.object.sha256
  gatewayIngestSequence := hit.entry.sequence
  frame := hit.entry.frame
  selectedRecordOrdinals := selectedOrdinals date hit.batch

theorem readEntry_place (h : Contiguous H objects) {source : VerifiedReplaySource}
    (hselected : source.selected = selectedAt ((hitsIn H date 0 0 objects).flatMap (hitRanges date)))
    {place : RawObject × Entry} (hplace : place ∈ located objects) :
    source.readEntry H place.1.key place.1.sha256 place.2 = .ok ((hit? H date place).map (batchOf date)) := by
  have hranges : source.selected place.1.key place.2.sequence =
      (hit? H date place).elim [] fun hit => (ordinalRuns (selectedOrdinals date hit.batch)).map exactRange := by
    rw [hselected, selectedAt_place h hplace]
  cases hhit : hit? H date place with
  | none =>
    rw [hhit, Option.elim_none] at hranges
    simp only [VerifiedReplaySource.readEntry, hranges, if_true]
    rfl
  | some hit =>
    obtain ⟨hobject, hentry, hbatch, hordinals⟩ := hit?_eq_some.mp hhit
    have hruns : (ordinalRuns (selectedOrdinals date hit.batch)).map exactRange ≠ [] :=
      fun hnone => ordinalRuns_ne_nil hordinals (List.map_eq_nil_iff.mp hnone)
    rw [hhit, Option.elim_some] at hranges
    simp only [VerifiedReplaySource.readEntry, hranges, if_neg hruns, bind_eq_ok, mapError_eq_ok]
    refine ⟨_, selectRecordOrdinals_runs hbatch hordinals, ?_⟩
    rw [if_neg hordinals, pure_eq_ok, Option.map_some, batchOf, hobject, hentry]

end

/-! ## Reading to the end -/

namespace VerifiedReplaySource

section
variable {H : Hashes} {disk : Disk} {source : VerifiedReplaySource} {chain : List RawChainObject} {entries : List Entry}
  {entry : Entry} {key : Bytes} {sha : Digest}

theorem next_of_none (h : source.readEntry H key sha entry = .ok none) :
    source.next H disk ⟨chain, entry :: entries, key, sha⟩ = source.next H disk ⟨chain, entries, key, sha⟩ := by
  have hskip : source.readEntries H key sha (entry :: entries) = source.readEntries H key sha entries := by
    rw [readEntries, h]
    rfl
  rw [next, next, nextFrom.eq_def, nextFrom.eq_def]
  simp only [hskip]

theorem next_of_some {batch : VerifiedBatch} (h : source.readEntry H key sha entry = .ok (some batch)) :
    source.next H disk ⟨chain, entry :: entries, key, sha⟩ = .ok (some (batch, ⟨chain, entries, key, sha⟩)) := by
  have htake : source.readEntries H key sha (entry :: entries) = .ok (some (batch, entries)) := by
    rw [readEntries, h]
    rfl
  rw [next, nextFrom.eq_def]
  simp only [htake]
  rfl

theorem next_of_reverify {descriptor : RawChainObject} {segment : VerifiedSegment}
    (h : source.reverify H disk descriptor = .ok segment) :
    source.next H disk ⟨descriptor :: chain, [], key, sha⟩ =
      source.next H disk ⟨chain, segment.entries, descriptor.key, descriptor.sha256⟩ := by
  rw [next, nextFrom]
  simp only [readEntries, h]
  rfl

theorem Reads.of_next {cursor other : Cursor} {batches : List VerifiedBatch} {ending : Except ArchiveError Unit}
    (hnext : source.next H disk cursor = source.next H disk other) (h : Reads H disk source other batches ending) :
    Reads H disk source cursor batches ending := by
  cases h with
  | done h => exact .done (hnext.trans h)
  | failed h => exact .failed (hnext.trans h)
  | more h hrest => exact .more (hnext.trans h) hrest

theorem reads_entries {f : Entry → Option VerifiedBatch}
    (hread : ∀ entry ∈ entries, source.readEntry H key sha entry = .ok (f entry)) {batches : List VerifiedBatch}
    {ending : Except ArchiveError Unit} (hrest : Reads H disk source ⟨chain, [], key, sha⟩ batches ending) :
    Reads H disk source ⟨chain, entries, key, sha⟩ (entries.filterMap f ++ batches) ending := by
  induction entries with
  | nil => exact hrest
  | cons entry entries ih =>
    rw [List.forall_mem_cons] at hread
    cases hentry : f entry with
    | none =>
      rw [List.filterMap_cons_none hentry]
      exact (ih hread.2).of_next (next_of_none (hentry ▸ hread.1))
    | some batch =>
      rw [List.filterMap_cons_some hentry, List.cons_append]
      exact .more (next_of_some (hentry ▸ hread.1)) (ih hread.2)

/-- A source whose files can be opened again reads all of their entries. -/
theorem reads_chain {descriptors : List RawChainObject} {objects : List RawObject}
    (hopen : List.Forall₂ (fun descriptor object => source.reverify H disk descriptor = .ok object.segment ∧
      descriptor.key = object.key ∧ descriptor.sha256 = object.sha256) descriptors objects)
    {f : RawObject × Entry → Option VerifiedBatch}
    (hread : ∀ place ∈ located objects, source.readEntry H place.1.key place.1.sha256 place.2 = .ok (f place)) :
    Reads H disk source ⟨descriptors, [], key, sha⟩ ((located objects).filterMap f) (.ok ()) := by
  induction hopen generalizing key sha with
  | nil =>
    refine .done ?_
    rw [next, nextFrom]
    rfl
  | @cons descriptor object descriptors objects hfirst hopen ih =>
    obtain ⟨hverify, hkey, hsha⟩ := hfirst
    have hmem : ∀ entry ∈ object.segment.entries, (object, entry) ∈ located (object :: objects) :=
      fun entry hentry => mem_located.mpr ⟨List.mem_cons_self, hentry⟩
    have hlater : ∀ place ∈ located objects, place ∈ located (object :: objects) := by
      intro place hplace
      obtain ⟨hobject, hentry⟩ := mem_located.mp hplace
      exact mem_located.mpr ⟨List.mem_cons_of_mem _ hobject, hentry⟩
    have hsplit : (located (object :: objects)).filterMap f =
        object.segment.entries.filterMap (fun entry => f (object, entry)) ++ (located objects).filterMap f := by
      rw [located, List.flatMap_cons, List.filterMap_append, List.filterMap_map, ← located]
      rfl
    rw [hsplit]
    refine Reads.of_next (next_of_reverify hverify) (reads_entries ?_ (ih fun place hplace => hread place (hlater place hplace)))
    intro entry hentry
    rw [hkey, hsha]
    exact hread (object, entry) (hmem entry hentry)

end

end VerifiedReplaySource

/-! ## The files of the chain -/

variable {disk : Disk} {limits : ReplayResourceLimits}

theorem checkReplayObjectPath_eq_ok {path : String} {loaded bytes : UInt64} :
    checkReplayObjectPath disk path limits loaded = .ok bytes ↔
      ∃ data, disk path = some data ∧ bytes = UInt64.ofNat data.length ∧ bytes ≤ limits.maxObjectBytes ∧
        bytes ≤ limits.maxChainBytes - loaded := by
  unfold checkReplayObjectPath
  cases disk path with
  | none => simp [bind_eq_ok]
  | some data =>
    simp only [Option.elim_some, bind_eq_ok, pure_eq_ok, reject_eq_ok, gt_iff_lt, UInt64.not_lt, Except.ok.injEq,
      exists_eq_left', Option.some.injEq]
    constructor
    · rintro ⟨_, hobject, _, hchain, rfl⟩
      exact ⟨rfl, hobject, hchain⟩
    · rintro ⟨rfl, hobject, hchain⟩
      exact ⟨(), hobject, (), hchain, rfl⟩

/-- The file of a chain object is within the limits, and verifies as this object. -/
structure Loads (H : Hashes) (disk : Disk) (paths : ObjectPaths) (limits : ReplayResourceLimits)
    (descriptor : RawChainObject) (object : RawObject) : Prop where
  opens : Opens H disk paths descriptor object
  describes : describesSegment descriptor object.segment = true
  objectBytes : UInt64.ofNat object.segment.fileBytes ≤ limits.maxObjectBytes
  chainBytes : UInt64.ofNat object.segment.fileBytes ≤ limits.maxChainBytes

theorem fileBytes_of_verified {path : String} {segment : VerifiedSegment}
    (h : verifySealedSegment H disk path = .ok segment) : ∃ data, disk path = some data ∧ segment.fileBytes = data.length := by
  obtain ⟨data, hdata, hverified⟩ := bind_eq_ok.mp h
  obtain ⟨-, -, -, hbytes, -⟩ := verifySealedBytes_facts hverified
  refine ⟨data, ?_, hbytes⟩
  cases hdisk : disk path with
  | none => simp [hdisk] at hdata
  | some found =>
    rw [hdisk, Option.elim_some] at hdata
    rw [Except.ok.inj hdata]

theorem fits_of_fits {bytes loaded limit : UInt64} (hloaded : loaded ≤ limit) (h : bytes ≤ limit - loaded) :
    bytes ≤ limit ∧ loaded + bytes ≤ limit := by
  rw [UInt64.le_iff_toNat_le, UInt64.toNat_sub_of_le _ _ hloaded] at h
  rw [UInt64.le_iff_toNat_le] at hloaded
  have hlimit := limit.toNat_lt
  rw [UInt64.le_iff_toNat_le, UInt64.le_iff_toNat_le, UInt64.toNat_add, Nat.mod_eq_of_lt (by omega)]
  omega

variable {descriptor : RawChainObject} {paths : ObjectPaths}

theorem loadObject_eq_ok {loaded next : Loaded} (hloaded : loaded.bytes ≤ limits.maxChainBytes)
    (h : loadObject H disk paths limits loaded descriptor = .ok next) :
    ∃ object, Loads H disk paths limits descriptor object ∧ next.bytes ≤ limits.maxChainBytes ∧
      next.objects = object :: loaded.objects := by
  simp only [loadObject, bind_eq_ok, mapError_eq_ok, reject_eq_ok, pure_eq_ok, localPath_eq_ok,
    checkReplayObjectPath_eq_ok] at h
  obtain ⟨path, ⟨hpath, hne⟩, bytes, ⟨data, hdata, rfl, hobject, hchain⟩, segment, hsegment, _, hdescribes, rfl⟩ := h
  obtain ⟨found, hfound, hbytes⟩ := fileBytes_of_verified hsegment
  obtain rfl : found = data := Option.some.inj (hfound.symm.trans hdata)
  obtain ⟨hall, hnext⟩ := fits_of_fits hloaded hchain
  rw [← hbytes] at hobject hall
  rw [Bool.not_eq_true', Bool.not_eq_false] at hdescribes
  exact ⟨objectOf descriptor.key segment,
    ⟨⟨path, segment, hpath, hne, hsegment, rfl⟩, hdescribes, hobject, hall⟩, hnext, rfl⟩

theorem foldlM_compareThenLoad
    {descriptors : List RawChainObject} {loaded result : Loaded} (hloaded : loaded.bytes ≤ limits.maxChainBytes)
    (h : descriptors.foldlM (compareThenLoad H disk paths limits) loaded = .ok result) :
    ∃ objects, List.Forall₂ (Loads H disk paths limits) descriptors objects ∧
      result.objects = objects.reverse ++ loaded.objects := by
  induction descriptors generalizing loaded with
  | nil =>
    rw [foldlM_nil_eq_ok] at h
    exact ⟨[], .nil, by rw [h]; rfl⟩
  | cons descriptor descriptors ih =>
    obtain ⟨mid, hfirst, hrest⟩ := foldlM_cons_eq_ok.mp h
    obtain ⟨_, -, hload⟩ := bind_eq_ok.mp hfirst
    obtain ⟨object, hobject, hbytes, hobjects⟩ := loadObject_eq_ok hloaded hload
    obtain ⟨objects, hloads, hresult⟩ := ih hbytes hrest
    exact ⟨object :: objects, .cons hobject hloads, by simp [hresult, hobjects]⟩

theorem loadReplayRawObjects_eq_ok {m : RawDayManifest} {objects : List RawObject}
    (h : loadReplayRawObjects H disk m paths limits = .ok objects) :
    List.Forall₂ (Loads H disk paths limits) m.chainObjects objects := by
  obtain ⟨loaded, hfold, hobjects⟩ := bind_eq_ok.mp h
  obtain ⟨found, hloads, hfound⟩ := foldlM_compareThenLoad (UInt64.zero_le) hfold
  rw [pure_eq_ok, hfound] at hobjects
  have hsame : found = objects := by simpa [nothingLoaded] using hobjects
  exact hsame ▸ hloads

theorem Loads.reverify {source : VerifiedReplaySource}
    {object : RawObject} (h : Loads H disk source.paths source.resourceLimits descriptor object) :
    source.reverify H disk descriptor = .ok object.segment := by
  obtain ⟨path, segment, hpath, -, hsegment, rfl⟩ := h.opens
  obtain ⟨data, hdata, hbytes⟩ := fileBytes_of_verified hsegment
  have hobject := h.objectBytes
  have hchain := h.chainBytes
  have hdescribes := h.describes
  simp only [objectOf] at hobject hchain hdescribes
  simp only [VerifiedReplaySource.reverify, hpath, Option.getD_some, bind_eq_ok, mapError_eq_ok, reject_eq_ok, pure_eq_ok,
    checkReplayObjectPath_eq_ok, not_or, gt_iff_lt, UInt64.not_lt]
  refine ⟨_, ⟨data, hdata, rfl, ?_, ?_⟩, segment, hsegment, (), ⟨hobject, by simp [hdescribes]⟩, rfl⟩
  · rwa [← hbytes]
  · rwa [← hbytes, UInt64.sub_zero]

theorem Loads.sha256 {object : RawObject} (h : Loads H disk paths limits descriptor object) :
    descriptor.sha256 = object.sha256 := by
  obtain ⟨_, segment, -, -, -, rfl⟩ := h.opens
  have hdescribes := h.describes
  simp only [describesSegment, decide_eq_true_eq] at hdescribes
  exact hdescribes.1.symm

theorem contiguous_of_snapshot {m : RawDayManifest} {scope : ScopeConfig}
    (h : verifyRawDaySnapshot H m disk paths scope = .ok ()) {objects : List RawObject}
    (hopens : List.Forall₂ (Opens H disk paths) m.chainObjects objects) : Contiguous H objects := by
  refine ⟨?_, ?_⟩
  · intro object hobject
    obtain ⟨descriptor, -, path, segment, -, -, hsegment, rfl⟩ := exists_left_of_mem hopens hobject
    exact segmentRun_of_file hsegment
  · obtain ⟨normalized, -, hempty | ⟨reversed, hfold, -⟩⟩ := verifyRawDaySnapshot_eq_ok.mp h
    · rw [hempty, List.forall₂_nil_left_iff] at hopens
      rw [hopens]
      exact .nil
    · rw [foldlM_linked_nil openChainObject_eq_ok] at hfold
      obtain ⟨made, hmade, -, hlinked, -⟩ := hfold
      have hsame : made = objects := by
        refine List.right_unique_forall₂' ?_ (hmade.imp fun _ _ h => h.1) hopens
        rintro descriptor object other ⟨path, segment, hpath, -, hsegment, rfl⟩ ⟨path', segment', hpath', -, hsegment', rfl⟩
        cases hpath.symm.trans hpath'
        cases hsegment.symm.trans hsegment'
        rfl
      exact hsame ▸ hlinked

/-! ## The source -/

/-- A source gives the entries with a coordinate on the date of its manifest, each once and in the order of the WAL,
with their ordinals on that date: what is selected from the files of the chain. -/
theorem source_yields_selection {H : Hashes} {disk : Disk} {input : ReplaySourceInput} {source : VerifiedReplaySource}
    (h : openVerifiedReplaySource H disk input = .ok source) :
    ∃ m normalized objects selection,
      verifyRawDayManifest H input.manifestBytes = .ok m ∧ input.scope.normalized = .ok normalized ∧
      List.Forall₂ (Opens H disk input.objectPaths) m.chainObjects objects ∧
      deriveDaySelection H objects m.date 0 0 normalized.protocolLimits.maxRecords = .ok selection ∧
      selection.objects = (hitsIn H m.date 0 0 objects).flatMap (hitRanges m.date) ∧
      source.Reads H disk source.start ((hitsIn H m.date 0 0 objects).map (batchOf m.date)) (.ok ()) ∧
      ((hitsIn H m.date 0 0 objects).map (batchOf m.date)).Pairwise
        (fun a b => a.gatewayIngestSequence < b.gatewayIngestSequence) ∧
      ∀ hit ∈ hitsIn H m.date 0 0 objects, (selectedOrdinals m.date hit.batch).Pairwise (· < ·) := by
  simp only [openVerifiedReplaySource, verifyReplaySnapshot, bind_eq_ok, mapError_eq_ok, reject_eq_ok, pure_eq_ok] at h
  obtain ⟨_, -, _, -, m, hm, _, -, _, -, key, -, _, -, _, -, expanded, -, _, ⟨normalized, hscope, configHash, -, _, -, _, -, _,
    -, objects, hobjects, selection, hselection, canonical, hcanonical, _, -, _, hverified, _, hsame, _, hsummary, -⟩, _, -, _,
    -, rfl⟩ := h
  have hloads := loadReplayRawObjects_eq_ok hobjects
  have hopens : List.Forall₂ (Opens H disk input.objectPaths) m.chainObjects objects := hloads.imp fun _ _ h => h.opens
  simp only [canonicalRawDayManifest, bind_eq_ok, pure_eq_ok] at hcanonical
  obtain ⟨root, -, hcanonical⟩ := hcanonical
  have hchain : canonical.chainObjects = m.chainObjects := by
    simp [sameSummary] at hsummary
    simp [hsummary]
  have hcontiguous : Contiguous H objects := contiguous_of_snapshot hverified (hchain ▸ hopens)
  have hsummarises : Summarises m.date (hitsIn H m.date 0 0 objects) selection := by
    rw [(deriveDaySelection_eq_ok.mp hselection).2]
    exact summarises_foldl fun hit hhit => hcontiguous.number (mem_hits hhit).1
  have hranges : expanded.objects = (hitsIn H m.date 0 0 objects).flatMap (hitRanges m.date) := by
    rw [not_or, not_not, not_not] at hsame
    rw [hsame.1, ← hcanonical, ← hsummarises.objects]
  refine ⟨m, normalized, objects, selection, hm, hscope, hopens, hselection, hsummarises.objects, ?_, ?_, ?_⟩
  · rw [hitsIn_zero, List.map_filterMap]
    refine VerifiedReplaySource.reads_chain (hloads.imp fun _ _ hload => ⟨hload.reverify, hload.opens.key.symm, hload.sha256⟩)
      fun place hplace => ?_
    exact readEntry_place hcontiguous (by rw [hranges]) hplace
  · rw [List.pairwise_map]
    exact (hits_pairwise hcontiguous m.date).imp fun hlt => UInt64.lt_iff_toNat_lt.mpr hlt
  · intro hit hhit
    have hcount := (decodeBatchFrame_eq_ok.mp (mem_hits hhit).2.1).1.count
    exact selectedOrdinals_pairwise m.date (by omega)

/-! ## A range over two entries -/

def spanEntry : Entry := makeEntry Hashes.sample 31 1 Digest.zero (batchFrame Hashes.sample (dayBatch 1 [5, 7])) 0 0

def spanFile : Bytes :=
  sealedBytes Hashes.sample (ascii "g") ⟨1, Digest.zero⟩
    { entries := [spanEntry, makeEntry Hashes.sample (31 + entrySize spanEntry) 2 spanEntry.entryHash
        (batchFrame Hashes.sample (dayBatch 2 [9])) 0 0]
      createdWallS := 0 }

def spanDisk : Disk := fun path => if path = "a" then some spanFile else none

def spanScope : ScopeConfig := { dayScope with protocolLimits := ⟨0, 8, 0⟩ }

def spanSources : List SourceObject :=
  ((verifySealedSegment Hashes.sample spanDisk "a").toOption.map fun segment =>
    ⟨rawWALObjectKey segment.objectSHA256, "a", segment.objectSHA256, Int64.ofNat segment.fileBytes⟩).toList

def spanBuilt : RawDayManifest :=
  ((buildRawDayManifest Hashes.sample spanDisk { dayInput with scope := spanScope, rawObjects := spanSources }).toOption).getD
    dayManifest

/-- The manifest of the day with one range for both entries. -/
def spanManifest : RawDayManifest :=
  let ranges := (spanBuilt.objects.take 1).map fun range => { range with endIngestSequence := 2, lastRecordOrdinal := 0 }
  { spanBuilt with objects := ranges, rawSetRoot := setRoot Hashes.sample ranges, manifestSHA256 := Digest.zero }

def spanInput : ReplaySourceInput where
  scope := spanScope
  producerInstanceID := ascii "i"
  manifestRelativeKey := ((rawDayManifestRelativeKey Hashes.sample spanScope spanManifest).toOption).getD []
  manifestBytes := ((manifestCanonicalJSON spanManifest).toOption).getD []
  objectPaths := fun key => if spanBuilt.chainObjects.any (fun object => object.key = key) then some "a" else none
  replayContractID := ascii "r"
  conversionID := ascii "c"
  resourceLimits := ⟨1, 4096, 4096⟩

instance spanInput_opens : Fact ((openVerifiedReplaySource Hashes.sample spanDisk spanInput).toOption.any (fun _ => true) = true) := ⟨by decide +kernel⟩

theorem source_yields_selection_span : ∃ source m objects, openVerifiedReplaySource Hashes.sample spanDisk spanInput = .ok source ∧
    verifyRawDayManifest Hashes.sample spanInput.manifestBytes = .ok m ∧
    List.Forall₂ (Opens Hashes.sample spanDisk spanInput.objectPaths) m.chainObjects objects ∧
    source.Reads Hashes.sample spanDisk source.start ((hitsIn Hashes.sample m.date 0 0 objects).map (batchOf m.date))
      (.ok ()) := by
  obtain ⟨source, hopened, -⟩ := exists_ok_of_any spanInput_opens.out
  obtain ⟨m, _, objects, _, hm, -, hopens, -, -, hreads, -⟩ := source_yields_selection hopened
  exact ⟨source, m, objects, hopened, hm, hopens, hreads⟩

end TickPlatform.Archive
