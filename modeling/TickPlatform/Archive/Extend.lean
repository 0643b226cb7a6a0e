import TickPlatform.Archive.Succeeds

/-!
# Further revisions of a day

A day whose segments are followed by others is built again, with the first manifest as the previous one. Everything the
builder compares has only grown.
-/

namespace TickPlatform.Archive

open Bytes Protocol Replay Wal

/-! ## Watermarks -/

/-- Without a record there is no watermark. -/
def Watermarked (selection : DaySelection) : Prop :=
  selection.hasSourceWatermark = false → selection.observedThroughSourceMSC = 0

/-- The watermarks of a selection and of one that goes on from it. -/
structure Advances (a b : DaySelection) : Prop where
  source : a.observedThroughSourceMSC ≤ b.observedThroughSourceMSC
  capture : a.observedThroughCaptureSeq ≤ b.observedThroughCaptureSeq
  watermarked : Watermarked b

variable {selection : DaySelection}

theorem Advances.refl (h : Watermarked selection) : Advances selection selection :=
  ⟨Int64.le_refl _, UInt64.le_refl _, h⟩

theorem Advances.trans {a b c : DaySelection} (h : Advances a b) (h' : Advances b c) : Advances a c :=
  ⟨Int64.le_trans h.source h'.source, UInt64.le_trans h.capture h'.capture, h'.watermarked⟩

theorem advances_observeRecord (h : Watermarked selection) {record : RawMqlTickV1}
    (hrecord : 0 ≤ record.timeMSC) : Advances selection (observeRecord selection record) := by
  refine ⟨?_, ?_, fun hnone => by cases hnone⟩
  · show _ ≤ if !selection.hasSourceWatermark ∨ record.timeMSC > selection.observedThroughSourceMSC then record.timeMSC
      else selection.observedThroughSourceMSC
    split
    · rename_i hnew
      rcases hnew with hfirst | hlater
      · rw [h (by simpa using hfirst)]
        exact hrecord
      · exact Int64.le_of_lt hlater
    · exact Int64.le_refl _
  · show _ ≤ if record.captureSequence > selection.observedThroughCaptureSeq then record.captureSequence
      else selection.observedThroughCaptureSeq
    split
    · rename_i hlater
      exact UInt64.le_of_lt hlater
    · exact UInt64.le_refl _

theorem advances_records {records : List RawMqlTickV1} (hrecords : ∀ record ∈ records, 0 ≤ record.timeMSC) (h : Watermarked selection) : Advances selection (records.foldl observeRecord selection) := by
  induction records generalizing selection with
  | nil => exact .refl h
  | cons record records ih =>
    rw [List.forall_mem_cons] at hrecords
    have hfirst := advances_observeRecord h hrecords.1
    exact hfirst.trans (ih hrecords.2 hfirst.watermarked)

variable {date : Bytes} {hits : List Hit}

theorem advances_hits (hrecords : ∀ hit ∈ hits, ∀ record ∈ hit.batch.records, 0 ≤ record.timeMSC)
    (h : Watermarked selection) : Advances selection (hits.foldl (addHit date) selection) := by
  induction hits generalizing selection with
  | nil => exact .refl h
  | cons hit hits ih =>
    rw [List.forall_mem_cons] at hrecords
    have hobserved : Advances selection ((hit.batch.records.filter fun record => utcDate record.timeMSC = date).foldl
        observeRecord selection) :=
      advances_records (fun record hrecord => hrecords.1 record (List.mem_of_mem_filter hrecord)) h
    -- `addBatch` keeps the watermarks
    have hfirst : Advances selection (addHit date selection hit) :=
      ⟨hobserved.source, hobserved.capture, hobserved.watermarked⟩
    exact hfirst.trans (ih hrecords.2 hfirst.watermarked)

/-! ## Counts -/

def recordCount (date : Bytes) (hit : Hit) : Nat :=
  (hit.batch.records.filter fun record => utcDate record.timeMSC = date).length

def isError (hit : Hit) : Bool := hit.batch.copyTicksError ≠ 0

theorem foldl_observeRecord_accepted (records : List RawMqlTickV1) (selection : DaySelection) :
    (records.foldl observeRecord selection).acceptedRecordCount =
      selection.acceptedRecordCount + UInt64.ofNat records.length := by
  induction records generalizing selection with
  | nil => simp
  | cons record records ih =>
    have hfirst : (observeRecord selection record).acceptedRecordCount = selection.acceptedRecordCount + 1 := rfl
    rw [List.foldl_cons, ih, hfirst, List.length_cons, UInt64.ofNat_add, UInt64.add_assoc, UInt64.add_comm 1]
    rfl

theorem foldl_addHit_accepted (date : Bytes) (hits : List Hit) (selection : DaySelection) :
    (hits.foldl (addHit date) selection).acceptedRecordCount =
      selection.acceptedRecordCount + UInt64.ofNat (hits.map (recordCount date)).sum := by
  induction hits generalizing selection with
  | nil => simp
  | cons hit hits ih =>
    have hfirst : (addHit date selection hit).acceptedRecordCount =
        selection.acceptedRecordCount + UInt64.ofNat (recordCount date hit) := foldl_observeRecord_accepted _ _
    rw [List.foldl_cons, ih, hfirst, List.map_cons, List.sum_cons, UInt64.ofNat_add, UInt64.add_assoc]

theorem foldl_addHit_errors (date : Bytes) (hits : List Hit) (selection : DaySelection) :
    (hits.foldl (addHit date) selection).errorCount = selection.errorCount + UInt64.ofNat (hits.countP isError) := by
  induction hits generalizing selection with
  | nil => simp
  | cons hit hits ih =>
    have hfirst : (addHit date selection hit).errorCount =
        if hit.batch.copyTicksError ≠ 0 then selection.errorCount + 1 else selection.errorCount := by
      simp only [addHit, addBatch, foldl_observeRecord_keeps (·.errorCount) (fun _ _ => rfl)]
    rw [List.foldl_cons, ih, hfirst, List.countP_cons, UInt64.ofNat_add]
    by_cases herror : hit.batch.copyTicksError ≠ 0
    · have hcounted : isError hit = true := by simpa [isError] using herror
      rw [if_pos herror, if_pos hcounted, UInt64.add_assoc, UInt64.add_comm 1]
      rfl
    · have hcounted : isError hit ≠ true := by simpa [isError] using herror
      rw [if_neg herror, if_neg hcounted]
      simp

/-- Where the day can be listed, no count wraps. -/
theorem counts_small (hordinals : ∀ hit ∈ hits, selectedOrdinals date hit.batch ≠ [])
    (hlimit : ∀ hit ∈ hits, hit.batch.records.length ≤ 4096) (hcount : (hits.flatMap (hitRanges date)).length < 2 ^ 32) :
    (hits.map (recordCount date)).sum < 18446744073709551616 ∧ hits.countP isError < 18446744073709551616 := by
  have hranges : hits.length ≤ (hits.flatMap (hitRanges date)).length := by
    clear hlimit hcount
    induction hits with
    | nil => simp
    | cons hit hits ih =>
      rw [List.forall_mem_cons] at hordinals
      have hpos := List.length_pos_of_ne_nil (ordinalRuns_ne_nil hordinals.1)
      have hrest := ih hordinals.2
      rw [List.flatMap_cons, List.length_append, hitRanges, List.length_map, List.length_cons]
      omega
  have hsum : (hits.map (recordCount date)).sum ≤ hits.length * 4096 := by
    clear hordinals hcount hranges
    induction hits with
    | nil => simp
    | cons hit hits ih =>
      rw [List.forall_mem_cons] at hlimit
      have hfilter := List.length_filter_le (fun record => decide (utcDate record.timeMSC = date)) hit.batch.records
      have hrest := ih hlimit.2
      rw [List.map_cons, List.sum_cons, List.length_cons, recordCount]
      omega
  have herrors : hits.countP isError ≤ hits.length := List.countP_le_length
  constructor
  · omega
  · omega

theorem le_add_ofNat {x : UInt64} {n : Nat} (h : x.toNat + n < 18446744073709551616) : x ≤ x + UInt64.ofNat n := by
  rw [UInt64.le_iff_toNat_le, UInt64.toNat_add, UInt64.toNat_ofNat']
  omega

theorem counts_grow {later : List Hit} (hsum : ((hits ++ later).map (recordCount date)).sum < 18446744073709551616)
    (herrors : (hits ++ later).countP isError < 18446744073709551616) :
    (hits.foldl (addHit date) emptySelection).acceptedRecordCount ≤
        ((hits ++ later).foldl (addHit date) emptySelection).acceptedRecordCount ∧
      (hits.foldl (addHit date) emptySelection).errorCount ≤
        ((hits ++ later).foldl (addHit date) emptySelection).errorCount := by
  have haccepted : (hits.foldl (addHit date) emptySelection).acceptedRecordCount =
      UInt64.ofNat (hits.map (recordCount date)).sum := by
    rw [foldl_addHit_accepted]
    exact UInt64.zero_add _
  have hcounted : (hits.foldl (addHit date) emptySelection).errorCount = UInt64.ofNat (hits.countP isError) := by
    rw [foldl_addHit_errors]
    exact UInt64.zero_add _
  rw [List.map_append, List.sum_append] at hsum
  rw [List.countP_append] at herrors
  rw [List.foldl_append, foldl_addHit_accepted date later, foldl_addHit_errors date later]
  refine ⟨le_add_ofNat ?_, le_add_ofNat ?_⟩
  · rw [haccepted, UInt64.toNat_ofNat']
    omega
  · rw [hcounted, UInt64.toNat_ofNat']
    omega

/-! ## Hits and objects -/

theorem hitsIn_append (H : Hashes) (date : Bytes) (front more : List RawObject) :
    hitsIn H date 0 0 (front ++ more) = hitsIn H date 0 0 front ++ hitsIn H date 0 0 more := by
  simp only [hitsIn_zero, located, List.flatMap_append, List.filterMap_append]

variable {H : Hashes}

theorem slice_isPrefix {objects : List RawObject} (h : Contiguous H objects) (startSequence : UInt64)
    {endSequence later : UInt64} (hle : endSequence ≤ later) :
    objects.filter (meets startSequence endSequence) <+: objects.filter (meets startSequence later) := by
  have hcut : objects.filter (meets startSequence endSequence) =
      (objects.filter (meets startSequence later)).filter fun object => object.segment.startSequence ≤ endSequence := by
    rw [List.filter_filter]
    refine List.filter_congr fun object _ => ?_
    rw [Bool.eq_iff_iff]
    simp only [meets, Bool.and_eq_true, decide_eq_true_eq]
    constructor
    · rintro ⟨hlow, hhigh⟩
      exact ⟨hhigh, hlow, UInt64.le_trans hhigh hle⟩
    · rintro ⟨hhigh, hlow, -⟩
      exact ⟨hlow, hhigh⟩
  rw [hcut]
  refine Lists.filter_isPrefix ?_
  have hslice := h.slice startSequence later
  refine hslice.pairwise.imp_of_mem fun {a b} ha _ hab => ?_
  have hsegment := (hslice.segments a ha).last
  have hpos := List.length_pos_of_ne_nil (hslice.segments a ha).nonempty
  simp only [decide_eq_true_eq, UInt64.le_iff_toNat_le]
  rw [UInt64.lt_iff_toNat_lt] at hab
  omega

/-! ## The next revision -/

/-- What a manifest and the next revision of it have to do with each other. -/
structure Extends (previous current : RawDayManifest) : Prop where
  objects : previous.objects <+: current.objects
  chainObjects : previous.chainObjects <+: current.chainObjects
  accepted : previous.acceptedRecordCount ≤ current.acceptedRecordCount
  errors : previous.errorCount ≤ current.errorCount
  source : previous.observedThroughSourceMSC ≤ current.observedThroughSourceMSC
  capture : previous.observedThroughCaptureSeq ≤ current.observedThroughCaptureSeq
  start : previous.chainSliceStartSequence = current.chainSliceStartSequence
  startRoot : previous.chainSliceStartRoot = current.chainSliceStartRoot
  finish : previous.chainSliceEndSequence ≤ current.chainSliceEndSequence
  finishRoot : previous.chainSliceEndSequence = current.chainSliceEndSequence →
    previous.chainSliceEndRoot = current.chainSliceEndRoot

variable {previous : RawDayManifest}

theorem previousDigest_of_extends {current : RawDayManifest} (hvalid : ValidManifest H previous)
    (hscope : sameScope previous current = true) (hdigest : manifestDigest H previous = .ok previous.manifestSHA256)
    (h : Extends previous current) : previousDigest H current (some previous) = .ok (some previous.manifestSHA256) := by
  simp only [previousDigest, validatePreviousManifest, bind_eq_ok, pure_eq_ok, mapError_eq_ok, reject_eq_ok,
    validateRawDayManifest_eq_ok, Nat.not_lt, gt_iff_lt, not_or, not_and, not_not, UInt64.not_lt, Int64.not_lt]
  refine ⟨(), ⟨(), hvalid, (), by simp [hscope], (), h.objects.length_le, (), ?_, (), h.chainObjects.length_le, (), ?_, (),
    ⟨h.accepted, h.errors⟩, (), ⟨h.source, h.capture⟩, (), ⟨h.start, h.startRoot⟩, (), h.finish, h.finishRoot⟩, _, hdigest,
    (), fun _ => rfl, rfl⟩
  · simpa using h.objects
  · simpa using h.chainObjects

/-- The second input is the first with further segments, its manifest as the previous one, and statuses that a manifest
can have. No record is older than 1970. -/
structure Extension (H : Hashes) (disk : Disk) (input next : RawDayManifestInput) (m : RawDayManifest)
    (front more : List RawObject) : Prop where
  objects : orderedVerifiedObjects H disk input.rawObjects = .ok front
  further : orderedVerifiedObjects H disk next.rawObjects = .ok (front ++ more)
  scope : next.scope = input.scope
  date : next.date = input.date
  previous : next.previous = some m
  revision : next.revision = 0 ∨ next.revision = m.revision + 1
  sync : validSyncStatus next.terminalSyncStatus = true
  syncText : utf8Valid next.terminalSyncStatus = true
  completeness : validCompletenessStatus next.completenessStatus = true
  times : ∀ place ∈ located (front ++ more), ∀ batch, decodeBatchFrame H place.2.frame = .ok batch →
    ∀ record ∈ batch.records, 0 ≤ record.timeMSC

/-- The further segments keep to the limits: of records in a batch, of ranges in a manifest, of revisions of a day, and
that no two segments have the same hash. -/
structure Room (H : Hashes) (input : RawDayManifestInput) (m : RawDayManifest) (front more : List RawObject) : Prop where
  fits : ∀ scope, input.scope.normalized = .ok scope →
    ∀ place ∈ located more, Fits H scope.protocolLimits.maxRecords place.2
  listable : ∀ scope selection, input.scope.normalized = .ok scope →
    deriveDaySelection H (front ++ more) input.date 0 0 scope.protocolLimits.maxRecords = .ok selection →
    Listable (front ++ more) selection
  revision : m.revision ≠ maxUint64

/-- The selection of more segments extends that of the first ones. -/
theorem extends_of_selection {front more : List RawObject}
    (hcontiguous : Contiguous H (front ++ more)) (hfront : Contiguous H front)
    (hhits : hitsIn H date 0 0 front ≠ [])
    (hrecords : ∀ hit ∈ hitsIn H date 0 0 (front ++ more), ∀ record ∈ hit.batch.records, 0 ≤ record.timeMSC)
    (hlimit : ∀ hit ∈ hitsIn H date 0 0 (front ++ more), hit.batch.records.length ≤ 4096)
    {a b : DaySelection} (ha : a = (hitsIn H date 0 0 front).foldl (addHit date) emptySelection)
    (hb : b = (hitsIn H date 0 0 (front ++ more)).foldl (addHit date) emptySelection)
    (hcount : b.objects.length < 2 ^ 32) {current : RawDayManifest}
    (hprevious : selectionMatches a previous = true) (hcurrent : selectionMatches b current = true)
    (hpreviousChain : previous.chainObjects = chainObjectsForSlice front a.chainSliceStartSequence a.chainSliceEndSequence)
    (hcurrentChain : current.chainObjects =
      chainObjectsForSlice (front ++ more) b.chainSliceStartSequence b.chainSliceEndSequence) :
    Extends previous current := by
  simp only [selectionMatches, decide_eq_true_eq] at hprevious hcurrent
  obtain ⟨hobjects, haccepted, herrors, hsource, hcapture, hstart, hstartRoot, hend, hendRoot⟩ := hprevious
  obtain ⟨hobjects', haccepted', herrors', hsource', hcapture', hstart', hstartRoot', hend', hendRoot'⟩ := hcurrent
  have hsummary : Summarises date (hitsIn H date 0 0 front) a := by
    rw [ha]
    exact summarises_foldl fun hit hhit => hfront.number (mem_hits hhit).1
  have hsummary' : Summarises date (hitsIn H date 0 0 (front ++ more)) b := by
    rw [hb]
    exact summarises_foldl fun hit hhit => hcontiguous.number (mem_hits hhit).1
  have hordered := hits_pairwise hcontiguous date
  have hordinals : ∀ hit ∈ hitsIn H date 0 0 (front ++ more), selectedOrdinals date hit.batch ≠ [] :=
    fun hit hhit => (mem_hits hhit).2.2
  rw [hsummary'.objects] at hcount
  obtain ⟨hsum, hcounted⟩ := counts_small hordinals hlimit hcount
  have hsplit := hitsIn_append H date front more
  generalize hfirst : hitsIn H date 0 0 front = first at *
  generalize hlater : hitsIn H date 0 0 more = later at *
  rw [hsplit] at hb hsummary' hrecords hsum hcounted hordered
  obtain ⟨hgrows, hgrows'⟩ := counts_grow hsum hcounted
  have hwatermarks : Advances a b := by
    rw [ha, hb, List.foldl_append]
    refine advances_hits (fun hit hhit => hrecords hit (List.mem_append_right _ hhit)) ?_
    exact (advances_hits (fun hit hhit => hrecords hit (List.mem_append_left _ hhit)) fun _ => rfl).watermarked
  -- the bounds of the two slices
  obtain ⟨head, hhead⟩ : ∃ head, first.head? = some head := ⟨_, List.head?_eq_some_head hhits⟩
  obtain ⟨last, hlast⟩ : ∃ last, first.getLast? = some last := ⟨_, List.getLast?_eq_some_getLast hhits⟩
  have hhead' : (first ++ later).head? = some head := by rw [List.head?_append, hhead, Option.some_or]
  obtain ⟨last', hlast'⟩ : ∃ last', (first ++ later).getLast? = some last' :=
    ⟨_, List.getLast?_eq_some_getLast (List.append_ne_nil_of_left_ne_nil hhits _)⟩
  have hlastMem : last ∈ first ++ later := List.mem_append_left _ (List.mem_of_getLast? hlast)
  have hfinish : last.entry.sequence.toNat ≤ last'.entry.sequence.toNat := Lists.le_getLast hordered hlast' last hlastMem
  have hbounds : a.chainSliceStartSequence = head.entry.sequence ∧ b.chainSliceStartSequence = head.entry.sequence ∧
      a.chainSliceEndSequence = last.entry.sequence ∧ b.chainSliceEndSequence = last'.entry.sequence := by
    simp [hsummary.start, hsummary'.start, hsummary.finish, hsummary'.finish, hhead, hhead', hlast, hlast']
  obtain ⟨hastart, hbstart, haend, hbend⟩ := hbounds
  have hnumbers : ∀ hit ∈ first ++ later, hit.entry.sequence ≠ 0 := by
    intro hit hhit
    rw [← hsplit] at hhit
    exact hcontiguous.number (mem_hits hhit).1
  have hle : last.entry.sequence ≤ last'.entry.sequence := UInt64.le_iff_toNat_le.mpr hfinish
  have hheadNumber := hnumbers head (List.mem_append_left _ (List.mem_of_mem_head? hhead))
  refine ⟨?_, ?_, ?_, ?_, ?_, ?_, ?_, ?_, ?_, ?_⟩
  · rw [← hobjects, ← hobjects', hsummary.objects, hsummary'.objects, List.flatMap_append]
    exact List.prefix_append _ _
  · rw [hpreviousChain, hcurrentChain, hastart, hbstart, haend, hbend,
      chainObjectsForSlice_eq hheadNumber (hnumbers last hlastMem),
      chainObjectsForSlice_eq hheadNumber (hnumbers last' (List.mem_of_getLast? hlast'))]
    refine List.IsPrefix.map _ (List.IsPrefix.trans ?_ (slice_isPrefix hcontiguous _ hle))
    rw [List.filter_append]
    exact List.prefix_append _ _
  · rw [← haccepted, ← haccepted', ha, hb]
    exact hgrows
  · rw [← herrors, ← herrors', ha, hb]
    exact hgrows'
  · rw [← hsource, ← hsource']
    exact hwatermarks.source
  · rw [← hcapture, ← hcapture']
    exact hwatermarks.capture
  · rw [← hstart, ← hstart', hastart, hbstart]
  · rw [← hstartRoot, ← hstartRoot', hsummary.startRoot, hsummary'.startRoot, hhead, hhead']
  · rw [← hend, ← hend', haend, hbend]
    exact hle
  · intro hsame
    rw [← hend, ← hend', haend, hbend] at hsame
    have hdistinct : ((first ++ later).map (·.entry.sequence)).Nodup := by
      rw [List.Nodup, List.pairwise_map]
      exact hordered.imp fun hlt heq => absurd (congrArg UInt64.toNat heq) (Nat.ne_of_lt hlt)
    have hhit := List.inj_on_of_nodup_map hdistinct hlastMem (List.mem_of_getLast? hlast') hsame
    rw [← hendRoot, ← hendRoot', hsummary.finishRoot, hsummary'.finishRoot, hlast, hlast', hhit]

theorem selectionMatches_draft (H : Hashes) (input : RawDayManifestInput) (scope : ScopeConfig) (revision : UInt64)
    (objects : List RawObject) (configHash : Digest) (selection : DaySelection) :
    selectionMatches selection (rootedDraft H input scope revision objects configHash selection) = true := by
  simp [selectionMatches, rootedDraft, draftManifest]

theorem nextRevision_some {revision : UInt64} (hprevious : previous.revision ≠ 0)
    (h : revision = 0 ∨ revision = previous.revision + 1) :
    nextRevision revision (some previous) = .ok (previous.revision + 1) := by
  have hnonzero : ¬ previous.revision < 1 := by
    rw [UInt64.lt_iff_toNat_lt]
    have : previous.revision.toNat ≠ 0 := fun hzero => hprevious (UInt64.toNat_inj.mp hzero)
    show ¬ previous.revision.toNat < 1
    omega
  have hchosen : (if revision = 0 then previous.revision + 1 else revision) = previous.revision + 1 := by
    rcases h with rfl | rfl
    · simp
    · split <;> rfl
  simp only [nextRevision, bind_eq_ok, pure_eq_ok, reject_eq_ok, hchosen]
  exact ⟨(), hnonzero, (), by simp, trivial⟩

/-- A day is built again from more segments, and its manifest extends the first. -/
theorem revision_extends {H : Hashes} {disk : Disk} {input next : RawDayManifestInput} {m : RawDayManifest}
    {front more : List RawObject} (hbuilt : buildRawDayManifest H disk input = .ok m) (hselected : m.objects ≠ [])
    (h : Extension H disk input next m front more) (hroom : Room H input m front more) :
    ∃ m', buildRawDayManifest H disk next = .ok m' ∧ Extends m m' := by
  obtain ⟨parts, hbuilds, hm⟩ := buildRawDayManifest_eq_ok.mp hbuilt
  have hobjects : parts.objects = front := Except.ok.inj (hbuilds.objects.symm.trans h.objects)
  obtain ⟨hcontiguous, -⟩ := contiguous_of_ordered h.further
  obtain ⟨hfront, -⟩ := contiguous_of_ordered h.objects
  have hvalid : ValidManifest H m := hm ▸ hbuilds.valid.withDigest _
  have hnormalized := (normalized_eq_ok.mp hbuilds.scope).2
  -- the selection of all segments
  obtain ⟨hfits, hselection⟩ := deriveDaySelection_eq_ok.mp (hobjects ▸ hbuilds.selection)
  have hallFits : ∀ place ∈ located (front ++ more), Fits H parts.scope.protocolLimits.maxRecords place.2 := by
    intro place hplace
    rw [located, List.flatMap_append, List.mem_append] at hplace
    rcases hplace with hplace | hplace
    · exact hfits place hplace (by simp [inSlice])
    · exact hroom.fits parts.scope hbuilds.scope place hplace
  have hderived : deriveDaySelection H (front ++ more) input.date 0 0 parts.scope.protocolLimits.maxRecords =
      .ok ((hitsIn H input.date 0 0 (front ++ more)).foldl (addHit input.date) emptySelection) :=
    deriveDaySelection_eq_ok.mpr ⟨fun place hplace _ => hallFits place hplace, rfl⟩
  have hlistable := hroom.listable parts.scope _ hbuilds.scope hderived
  have hbatches : ∀ hit ∈ hitsIn H input.date 0 0 (front ++ more), hit.batch.records.length ≤ 4096 ∧
      ∀ record ∈ hit.batch.records, 0 ≤ record.timeMSC := by
    intro hit hhit
    obtain ⟨hplace, hdecode, -⟩ := mem_hits hhit
    obtain ⟨batch, hbatch, hcount⟩ := hallFits _ hplace
    rw [hdecode] at hbatch
    cases hbatch
    refine ⟨?_, h.times _ hplace _ hdecode⟩
    have hmax := UInt32.le_iff_toNat_le.mp hnormalized.records.2
    have hlimit : Protocol.maxRecords.toNat = 4096 := rfl
    omega
  have hhits : hitsIn H input.date 0 0 front ≠ [] := by
    intro hnone
    have hempty : m.objects = parts.selection.objects := by
      rw [hm]
      rfl
    rw [hempty, hselection, hnone] at hselected
    exact hselected rfl
  have hmatch : selectionMatches parts.selection m = true := by
    rw [hm]
    simp [selectionMatches, BuildParts.manifest, rootedDraft, draftManifest]
  have hchain : m.chainObjects = chainObjectsForSlice front parts.selection.chainSliceStartSequence
      parts.selection.chainSliceEndSequence := by
    rw [hm, ← hobjects]
    rfl
  have hextends := extends_of_selection hcontiguous hfront hhits (fun hit hhit => (hbatches hit hhit).2)
    (fun hit hhit => (hbatches hit hhit).1) hselection rfl hlistable.count hmatch
    (selectionMatches_draft H next parts.scope (m.revision + 1) (front ++ more) parts.configHash _) hchain rfl
  -- the previous manifest is accepted
  have hscope : sameScope m (rootedDraft H next parts.scope (m.revision + 1) (front ++ more) parts.configHash
      ((hitsIn H input.date 0 0 (front ++ more)).foldl (addHit input.date) emptySelection)) = true := by
    rw [hm]
    simp [sameScope, BuildParts.manifest, rootedDraft, draftManifest, h.date]
  have hdigest : manifestDigest H m = .ok m.manifestSHA256 := by
    rw [hm]
    exact manifestDigest_eq_ok.mpr ⟨parts.text, hbuilds.text, rfl⟩
  have hprevious := previousDigest_of_extends hvalid hscope hdigest hextends
  have hdate : (parseDate next.date).isSome = true := by
    have := hvalid.date.2
    rwa [h.date, show input.date = m.date by rw [hm]; rfl]
  have hnonzero : m.revision + 1 ≠ 0 := by
    intro hzero
    have hmax : m.revision.toNat ≠ 18446744073709551615 := fun heq => hroom.revision (UInt64.toNat_inj.mp heq)
    have hlt := m.revision.toNat_lt
    have := congrArg UInt64.toNat hzero
    rw [UInt64.toNat_add] at this
    simp at this
    omega
  have hgenesis : m.revision + 1 = 1 ↔ some m.manifestSHA256 = none := by
    refine ⟨fun hone => absurd ?_ hvalid.revision, fun hnone => by cases hnone⟩
    exact UInt64.add_eq_right.mp hone
  obtain ⟨text, hnext⟩ := build_succeeds (h.scope ▸ hbuilds.scope) hdate h.sync h.syncText h.completeness
    (h.previous ▸ nextRevision_some hvalid.revision h.revision) hnonzero h.further hbuilds.configHash
    (h.date ▸ hderived) hlistable (h.previous ▸ hprevious) hgenesis
  refine ⟨_, buildRawDayManifest_eq_ok.mpr ⟨_, hnext, rfl⟩, ?_⟩
  exact ⟨hextends.objects, hextends.chainObjects, hextends.accepted, hextends.errors, hextends.source, hextends.capture,
    hextends.start, hextends.startRoot, hextends.finish, hextends.finishRoot⟩

/-! ## A day of two files -/

/-- The root of the chain after the file of one batch. -/
def dayRoot (times : List Int64) : Digest :=
  (makeEntry Hashes.sample 31 1 Digest.zero (batchFrame Hashes.sample (dayBatch 1 times)) 0 0).entryHash

/-- A file of one record, and a file of two that continues it. -/
def twoDisk : Disk := fun path =>
  if path = "a" then some (dayFile ⟨1, Digest.zero⟩ [5])
  else if path = "b" then some (dayFile ⟨2, dayRoot [5]⟩ [5, 7]) else none

def twoSources (paths : List String) : List SourceObject :=
  paths.flatMap fun path => ((verifySealedSegment Hashes.sample twoDisk path).toOption.map fun segment =>
    ⟨rawWALObjectKey segment.objectSHA256, path, segment.objectSHA256, Int64.ofNat segment.fileBytes⟩).toList

def twoInput (paths : List String) (maxRecords : UInt32) (previous : Option RawDayManifest) : RawDayManifestInput :=
  { dayInput with
    scope := { dayScope with protocolLimits := ⟨0, maxRecords, 0⟩ }
    rawObjects := twoSources paths
    previous := previous }

theorem rawObjects_twoInput (paths : List String) (maxRecords : UInt32) (previous : Option RawDayManifest) :
    (twoInput paths maxRecords previous).rawObjects = twoSources paths := rfl

def twoObjects (paths : List String) : List RawObject :=
  ((orderedVerifiedObjects Hashes.sample twoDisk (twoSources paths)).toOption).getD []

/-- Every record of the entries was made on a day from 1970 to 9999. -/
def timesWithin (H : Hashes) (objects : List RawObject) : Bool :=
  (located objects).all fun place => (decodeBatchFrame H place.2.frame).toOption.all fun batch =>
    batch.records.all fun record => 0 ≤ record.timeMSC ∧ record.timeMSC ≤ 253402300799999

instance two_verified : Fact (
    orderedVerifiedObjects Hashes.sample twoDisk (twoSources ["a"]) = .ok (twoObjects ["a"]) ∧
      orderedVerifiedObjects Hashes.sample twoDisk (twoSources ["a", "b"]) =
        .ok (twoObjects ["a"] ++ twoObjects ["b"]) ∧
      timesWithin Hashes.sample (twoObjects ["a"] ++ twoObjects ["b"]) = true) := ⟨by decide +kernel⟩

theorem times_two {place : RawObject × Entry} (hplace : place ∈ located (twoObjects ["a"] ++ twoObjects ["b"]))
    {batch : BatchFrameV1} (hbatch : decodeBatchFrame Hashes.sample place.2.frame = .ok batch)
    {record : RawMqlTickV1} (hrecord : record ∈ batch.records) : 0 ≤ record.timeMSC := by
  have hentry := List.all_eq_true.mp two_verified.out.2.2 place hplace
  rw [hbatch] at hentry
  exact (of_decide_eq_true (List.all_eq_true.mp hentry record hrecord)).1

theorem extension_two (maxRecords : UInt32) (m : RawDayManifest) :
    Extension Hashes.sample twoDisk (twoInput ["a"] maxRecords none) (twoInput ["a", "b"] maxRecords (some m)) m
      (twoObjects ["a"]) (twoObjects ["b"]) where
  objects := by rw [rawObjects_twoInput, two_verified.out.1]
  further := by rw [rawObjects_twoInput, two_verified.out.2.1]
  scope := rfl
  date := rfl
  previous := rfl
  revision := .inl rfl
  sync := by
    show validSyncStatus dayInput.terminalSyncStatus = true
    decide
  syncText := by
    show utf8Valid dayInput.terminalSyncStatus = true
    decide
  completeness := by
    show validCompletenessStatus dayInput.completenessStatus = true
    decide
  times := fun _ hplace _ hbatch _ hrecord => times_two hplace hbatch hrecord

instance revision_refused_run : Fact ((buildRawDayManifest Hashes.sample twoDisk (twoInput ["a"] 1 none)).toOption.any (fun m =>
      m.objects ≠ [] ∧ buildRawDayManifest Hashes.sample twoDisk (twoInput ["a", "b"] 1 (some m)) =
        .error (.other "WAL entry exceeds configured record limit")) = true) := ⟨by decide +kernel⟩

/-- With a limit of one record the first file makes a day, and the second one stops it. -/
theorem revision_refused : ∃ m, buildRawDayManifest Hashes.sample twoDisk (twoInput ["a"] 1 none) = .ok m ∧
    m.objects ≠ [] ∧
    Extension Hashes.sample twoDisk (twoInput ["a"] 1 none) (twoInput ["a", "b"] 1 (some m)) m (twoObjects ["a"])
      (twoObjects ["b"]) ∧
    timesWithin Hashes.sample (twoObjects ["a"] ++ twoObjects ["b"]) = true ∧
    buildRawDayManifest Hashes.sample twoDisk (twoInput ["a", "b"] 1 (some m)) =
      .error (.other "WAL entry exceeds configured record limit") := by
  obtain ⟨m, hbuilt, hrest⟩ := exists_ok_of_any revision_refused_run.out
  obtain ⟨hobjects, hrefused⟩ := of_decide_eq_true hrest
  exact ⟨m, hbuilt, hobjects, extension_two 1 m, two_verified.out.2.2, hrefused⟩

theorem room_two {m : RawDayManifest} (hrevision : m.revision ≠ maxUint64) :
    Room Hashes.sample (twoInput ["a"] 8 none) m (twoObjects ["a"]) (twoObjects ["b"]) where
  fits := by
    intro scope hscope place hplace
    have hall : (twoInput ["a"] 8 none).scope.normalized.toOption.any (fun scope =>
        (located (twoObjects ["b"])).all fun place => (decodeBatchFrame Hashes.sample place.2.frame).toOption.any
          fun batch => batch.records.length ≤ scope.protocolLimits.maxRecords.toNat) = true := by
      decide +kernel
    obtain ⟨_, hsame, hentries⟩ := exists_ok_of_any hall
    cases hscope.symm.trans hsame
    obtain ⟨batch, hbatch, hcount⟩ := exists_ok_of_any (List.all_eq_true.mp hentries place hplace)
    exact ⟨batch, hbatch, of_decide_eq_true hcount⟩
  listable := by
    intro scope selection hscope hselection
    have hall : (twoInput ["a"] 8 none).scope.normalized.toOption.any (fun scope =>
        (deriveDaySelection Hashes.sample (twoObjects ["a"] ++ twoObjects ["b"]) (twoInput ["a"] 8 none).date 0 0
          scope.protocolLimits.maxRecords).toOption.any fun selection => selection.objects.length < 2 ^ 32) = true := by
      decide +kernel
    obtain ⟨_, hsame, hderived⟩ := exists_ok_of_any hall
    cases hscope.symm.trans hsame
    obtain ⟨_, hsame, hcount⟩ := exists_ok_of_any hderived
    cases hselection.symm.trans hsame
    exact ⟨of_decide_eq_true hcount, by decide +kernel⟩
  revision := hrevision

instance twoInput_builds : Fact ((buildRawDayManifest Hashes.sample twoDisk (twoInput ["a"] 8 none)).toOption.any (fun m =>
      m.objects ≠ [] ∧ m.revision ≠ maxUint64) = true) := ⟨by decide +kernel⟩

theorem revision_extends_two : ∃ m m',
    buildRawDayManifest Hashes.sample twoDisk (twoInput ["a"] 8 none) = .ok m ∧ m.objects ≠ [] ∧
      buildRawDayManifest Hashes.sample twoDisk (twoInput ["a", "b"] 8 (some m)) = .ok m' ∧ Extends m m' := by
  obtain ⟨m, hbuilt, hrest⟩ := exists_ok_of_any twoInput_builds.out
  obtain ⟨hobjects, hrevision⟩ := of_decide_eq_true hrest
  obtain ⟨m', hnext, hextends⟩ := revision_extends hbuilt hobjects (extension_two 8 m) (room_two hrevision)
  exact ⟨m, m', hbuilt, hobjects, hnext, hextends⟩

end TickPlatform.Archive
