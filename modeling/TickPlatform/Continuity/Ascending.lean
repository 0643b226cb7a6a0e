import TickPlatform.Continuity.Overlap

/-!
# Source time inside a segment

The reducer compares source times once for each batch. Inside a segment the times ascend exactly if
they ascend inside every batch.
-/

namespace TickPlatform.Continuity

open Bytes Protocol Replay

variable {H : Hashes} {reader : VerifiedBatchReader} {sink : RowSink} {limit : Nat}

/-- A data row right after another of the same segment is not older than it. -/
def NotBefore : ReplayRow → ReplayRow → Prop
  | .data a, .data b => a.record.timeMSC ≤ b.record.timeMSC
  | _, _ => True

instance : DecidableRel NotBefore
  | .data a, .data b => inferInstanceAs (Decidable (a.record.timeMSC ≤ b.record.timeMSC))
  | .marker _, _ => .isTrue (by simp [NotBefore])
  | .data _, .marker _ => .isTrue (by simp [NotBefore])

/-- Every backward step of source time has a marker before it. -/
def Ascends (rows : List ReplayRow) : Prop := rows.IsChain NotBefore

instance (rows : List ReplayRow) : Decidable (Ascends rows) := inferInstanceAs (Decidable (rows.IsChain NotBefore))

def times (rows : List ReplayDataRow) : List Int64 := rows.map (·.record.timeMSC)

theorem ascends_marker (rows : List ReplayRow) (m : ReplayMarkerRow) : Ascends (rows ++ [.marker m]) ↔ Ascends rows := by
  unfold Ascends
  rw [List.isChain_append]
  simp only [List.isChain_singleton, true_and, List.head?_cons, Option.mem_some_iff, and_iff_left_iff_imp]
  rintro - row - _ rfl
  cases row <;> trivial

theorem ascends_markers (rows : List ReplayRow) (ms : List ReplayMarkerRow) :
    Ascends (rows ++ ms.map .marker) ↔ Ascends rows := by
  induction ms using List.reverseRecOn with
  | nil => simp
  | append_singleton ms m ih =>
    rw [List.map_append, ← List.append_assoc]
    exact (ascends_marker _ m).trans ih

theorem getLast?_segmentRows (rows : List ReplayRow) :
    (segmentRows rows).getLast? = rows.getLast?.bind ReplayRow.data? := by
  induction rows using List.reverseRecOn with
  | nil => rfl
  | append_singleton rows row _ =>
    cases row with
    | marker m => simp [segmentRows_marker, ReplayRow.data?]
    | data row => simp [segmentRows_data, ReplayRow.data?]

theorem ascends_data (rows : List ReplayRow) (row : ReplayDataRow) :
    Ascends (rows ++ [.data row]) ↔ Ascends rows ∧ ∀ time ∈ (times (segmentRows rows)).getLast?, time ≤ row.record.timeMSC := by
  unfold Ascends
  rw [List.isChain_append, times, List.getLast?_map, getLast?_segmentRows]
  cases rows.getLast? with
  | none => simp
  | some last => cases last <;> simp [NotBefore, ReplayRow.data?]

theorem segmentRows_append (rows : List ReplayRow) (data : List ReplayDataRow) :
    segmentRows (rows ++ data.map .data) = segmentRows rows ++ data := by
  induction data using List.reverseRecOn with
  | nil => simp
  | append_singleton data row ih =>
    rw [List.map_append, ← List.append_assoc]
    exact (segmentRows_data _ row).trans (by rw [ih, List.append_assoc])

theorem isChain_concat {l : List Int64} {x : Int64} :
    (l ++ [x]).IsChain (· ≤ ·) ↔ l.IsChain (· ≤ ·) ∧ ∀ y ∈ l.getLast?, y ≤ x := by
  simp [List.isChain_append]

theorem Ascends.segment {rows : List ReplayRow} (h : Ascends rows) : (times (segmentRows rows)).IsChain (· ≤ ·) := by
  induction rows using List.reverseRecOn with
  | nil => exact List.isChain_nil
  | append_singleton rows row ih =>
    cases row with
    | marker m => simp [segmentRows_marker, times]
    | data row =>
      obtain ⟨hrows, hlast⟩ := (ascends_data rows row).mp h
      rw [segmentRows_data, times, List.map_append, List.map_singleton, isChain_concat]
      exact ⟨ih hrows, hlast⟩

theorem ascends_append (rows : List ReplayRow) (data : List ReplayDataRow) :
    Ascends (rows ++ data.map .data) ↔ Ascends rows ∧ (times (segmentRows rows) ++ times data).IsChain (· ≤ ·) := by
  induction data using List.reverseRecOn with
  | nil => simpa [times] using Ascends.segment
  | append_singleton data row ih =>
    rw [List.map_append, ← List.append_assoc]
    refine (ascends_data _ row).trans ?_
    rw [ih, segmentRows_append, and_assoc]
    simp only [times, List.map_append, List.map_singleton, ← List.append_assoc, isChain_concat]

/-! ## One batch -/

/-- The fingerprint of a record determines its time among some records. -/
def TellsTimes (H : Hashes) (records : List Selected) : Prop :=
  ∀ a ∈ records, ∀ b ∈ records, sourcePayloadFingerprint H a.record = sourcePayloadFingerprint H b.record →
    a.record.timeMSC = b.record.timeMSC

/-- The data rows show some of the records, under their fingerprints. -/
def Shows (H : Hashes) (records : List Selected) (rows : List ReplayDataRow) : Prop :=
  ∀ row ∈ rows, shown row ∈ records ∧ row.sourcePayloadFingerprint = sourcePayloadFingerprint H row.record

theorem map_eq_map_of_tells {α β γ δ : Type} {f : α → γ} {g : β → γ} {f' : α → δ} {g' : β → δ} {a : List α} {b : List β}
    (h : a.map f = b.map g) (htells : ∀ x ∈ a, ∀ y ∈ b, f x = g y → f' x = g' y) : a.map f' = b.map g' := by
  have hlength : a.length = b.length := by simpa using congrArg List.length h
  refine List.ext_getElem (by simpa using hlength) fun i hi hi' => ?_
  simp only [List.length_map] at hi hi'
  have hpoint : (a.map f)[i]? = (b.map g)[i]? := by rw [h]
  simp only [List.getElem?_map, List.getElem?_eq_getElem hi, List.getElem?_eq_getElem hi', Option.map_some,
    Option.some.injEq] at hpoint
  simpa using htells _ (List.getElem_mem hi) _ (List.getElem_mem hi') hpoint

variable {records batch : List Selected} {before mid : List ReplayRow} {rows : List ReplayDataRow} {k : Nat}

theorem times_of_fingerprints (htells : TellsTimes H records) (hbatch : batch ⊆ records) (hshows : Shows H records rows)
    (h : (batch.map fun s => sourcePayloadFingerprint H s.record) <:+ rowFingerprints rows) :
    batch.map (·.record.timeMSC) <:+ times rows := by
  obtain ⟨front, hfront⟩ := h
  obtain ⟨a, b, rfl, -, hsame⟩ := List.append_eq_map_iff.mp hfront
  refine ⟨times a, ?_⟩
  rw [times, times, List.map_append]
  congr 1
  refine (map_eq_map_of_tells hsame fun row hrow s hs heq => ?_).symm
  obtain ⟨hshown, hprint⟩ := hshows row (List.mem_append_right _ hrow)
  exact htells (shown row) hshown s (hbatch hs) (hprint.symm.trans heq)

theorem isChain_after_overlap {front l : List Int64} (hk : k ≤ l.length) (h : (front ++ l.take k).IsChain (· ≤ ·))
    (hfresh : k = 0 → l ≠ [] → front = []) : (front ++ l).IsChain (· ≤ ·) ↔ l.IsChain (· ≤ ·) := by
  refine ⟨fun hall => (List.isChain_append.mp hall).2.1, fun hl => ?_⟩
  rcases Nat.eq_zero_or_pos k with rfl | hpos
  · rcases eq_or_ne l [] with rfl | hne
    · simpa using h
    · rw [hfresh rfl hne]
      exact hl
  · have hne : l.take k ≠ [] := List.ne_nil_of_length_pos (by simp; omega)
    have hrest : (l.take k ++ l.drop k).IsChain (· ≤ ·) := by rwa [List.take_append_drop]
    have hwhole := h.append_overlap hrest hne
    rwa [List.append_assoc, List.take_append_drop] at hwhole

/-- After the markers of a batch, its rows ascend in their segment exactly if its records do. -/
theorem Lays.ascends (h : Lays H limit before mid rows batch k) (hlimit : 0 < limit) (htells : TellsTimes H records)
    (hbatch : batch ⊆ records) (hshows : Shows H records (segmentRows mid)) (hmid : Ascends mid) :
    Ascends (mid ++ rows.map .data) ↔ (batch.map (·.record.timeMSC)).IsChain (· ≤ ·) := by
  have hrows : times rows = (batch.map (·.record.timeMSC)).drop k := by
    rw [← List.map_drop, ← h.rest, List.map_map]
    rfl
  have hsuffix : (batch.take k).map (·.record.timeMSC) <:+ times (segmentRows mid) := by
    rcases Nat.eq_zero_or_pos k with rfl | hpos
    · simp
    · obtain ⟨rfl, hoverlap⟩ := h.repeated hpos
      exact times_of_fingerprints htells (List.Subset.trans (List.take_subset _ _) hbatch) hshows hoverlap.1
  obtain ⟨front, hfront⟩ := hsuffix
  rw [List.map_take] at hfront
  rw [ascends_append, and_iff_right hmid, ← hfront, hrows, List.append_assoc, List.take_append_drop]
  refine isChain_after_overlap (by simpa using h.bound) (hfront ▸ hmid.segment) fun hzero hne => ?_
  subst hzero
  have hempty := h.fresh rfl fun hnil => hne (by simpa [hnil, times] using hrows.symm)
  have hnone : segmentRows mid = [] := by
    have := congrArg List.length hempty
    simp only [rowFingerprints, List.rtake, List.length_drop, List.length_map, List.length_nil] at this
    exact List.length_eq_zero_iff.mp (by omega)
  simpa [hnone, times] using hfront

/-! ## The run -/

/-- The records of a batch that the source copied without an error. -/
def copiedRecords (H : Hashes) (batch : VerifiedBatch) : List Selected :=
  match decodeBatch H batch.frame with
  | .ok source => if source.copyTicksError = 0 then selected batch source else []
  | .error _ => []

theorem Shows.append {a b : List ReplayDataRow} (ha : Shows H records a) (hb : Shows H records b) :
    Shows H records (a ++ b) := fun row hrow => (List.mem_append.mp hrow).elim (ha row) (hb row)

theorem Lays.shows (h : Lays H limit before mid rows batch k) (hbatch : batch ⊆ records) : Shows H records rows := by
  intro row hrow
  have hmem : shown row ∈ batch.drop k := by
    rw [← h.rest]
    exact List.mem_map_of_mem hrow
  refine ⟨hbatch (List.mem_of_mem_drop hmem), ?_⟩
  have hprints := h.prints
  have hrest : (batch.drop k).map (fun s => sourcePayloadFingerprint H s.record) =
      rows.map fun row => sourcePayloadFingerprint H row.record := by
    rw [← h.rest, List.map_map]
    rfl
  rw [hrest, rowFingerprints, List.map_inj_left] at hprints
  exact hprints row hrow

theorem segmentRows_subset (rows : List ReplayRow) : segmentRows rows ⊆ dataRows rows :=
  ((List.rtakeWhile_suffix ReplayRow.isData rows).sublist.filterMap ReplayRow.data?).subset

theorem ascends_loop {batches : List VerifiedBatch} {s t : State} (hlimit : 0 < reader.maxRecords.toNat)
    (h : batches.foldlM (reduceBatch H reader sink) s = .ok t) (htells : TellsTimes H records)
    (hrecords : ∀ batch ∈ batches, copiedRecords H batch ⊆ records)
    (htracks : Tracks reader.maxRecords.toNat s) (hshows : Shows H records (dataRows s.rows)) :
    Ascends t.rows ↔ Ascends s.rows ∧
      ∀ batch ∈ batches, ((copiedRecords H batch).map (·.record.timeMSC)).IsChain (· ≤ ·) := by
  induction batches generalizing s with
  | nil =>
    rw [foldlM_nil_eq_ok] at h
    simp [h]
  | cons batch batches ih =>
    obtain ⟨next, hfirst, hrest⟩ := foldlM_cons_eq_ok.mp h
    obtain ⟨source, hdecode, hplace⟩ := reduceBatch_ok hfirst
    obtain ⟨hnext, -, ms, rows, hrows, hcases⟩ := placeBatch_rows htracks hplace
    obtain ⟨hbatch, hbatches⟩ := List.forall_mem_cons.mp hrecords
    have hstep : Shows H records rows ∧ (Ascends next.rows ↔ Ascends s.rows ∧
        ((copiedRecords H batch).map (·.record.timeMSC)).IsChain (· ≤ ·)) := by
      rw [hrows]
      rcases hcases with ⟨hcopied, k, hlays⟩ | ⟨hfailed, rfl, -⟩
      · have hselected : copiedRecords H batch = selected batch source := by simp [copiedRecords, hdecode, hcopied]
        rw [hselected] at hbatch ⊢
        have hsegment : Shows H records (segmentRows (s.rows ++ ms.map .marker)) := by
          intro row hrow
          exact hshows row (by simpa using segmentRows_subset _ hrow)
        refine ⟨hlays.shows hbatch, fun hall => ?_, fun ⟨hs, hbatch'⟩ => ?_⟩
        · have hmid := ((ascends_append _ _).mp hall).1
          exact ⟨(ascends_markers _ _).mp hmid, (hlays.ascends hlimit htells hbatch hsegment hmid).mp hall⟩
        · exact (hlays.ascends hlimit htells hbatch hsegment ((ascends_markers _ _).mpr hs)).mpr hbatch'
      · have hnone : copiedRecords H batch = [] := by simp [copiedRecords, hdecode, hfailed]
        simp [hnone, Shows, ascends_markers]
    have hshown : Shows H records (dataRows next.rows) := by
      rw [hrows]
      simpa using hshows.append hstep.1
    rw [ih hrest hbatches hnext hshown, hstep.2, and_assoc, List.forall_mem_cons]

/-- The times of every segment ascend exactly if the records of every copied batch do, provided that
no two different times have one fingerprint. -/
theorem reduce_ascends_iff {result : Result} {rows : List ReplayRow} (h : reduce H reader sink = .ok (result, rows))
    (htells : TellsTimes H (reader.batches.flatMap (copiedRecords H))) :
    Ascends rows ↔
      ∀ batch ∈ reader.batches, ((copiedRecords H batch).map (·.record.timeMSC)).IsChain (· ≤ ·) := by
  have hlimit : 0 < reader.maxRecords.toNat := by
    simp only [reduce, bind_eq_ok, reject_eq_ok] at h
    obtain ⟨-, -, -, -, -, hmax, -⟩ := h
    rw [Nat.pos_iff_ne_zero]
    exact fun hzero => hmax (.inl (UInt32.toNat_inj.mp hzero))
  obtain ⟨s, hloop, rfl, -⟩ := reduce_ok h
  have hrecords : ∀ batch ∈ reader.batches, copiedRecords H batch ⊆ reader.batches.flatMap (copiedRecords H) :=
    fun batch hbatch record hrecord => List.mem_flatMap.mpr ⟨batch, hbatch, hrecord⟩
  rw [ascends_loop hlimit hloop htells hrecords tracks_initial (by simp [Shows, State.initial, dataRows])]
  exact and_iff_right List.isChain_nil

instance ascending_reduces : Fact (TellsTimes mixingHashes
    ([smallVerified 1 [5, 6], smallVerified 2 [6, 7]].flatMap (copiedRecords mixingHashes))) := ⟨by
  unfold TellsTimes
  decide +kernel⟩

/-- Two batches of ascending times, of which the second repeats the last tick of the first. -/
theorem reduce_ascends_repeated : ∃ result rows,
    reduce mixingHashes (smallReader [smallVerified 1 [5, 6], smallVerified 2 [6, 7]]) acceptRows = .ok (result, rows) ∧
      (Ascends rows ↔ ∀ batch ∈ [smallVerified 1 [5, 6], smallVerified 2 [6, 7]],
        ((copiedRecords mixingHashes batch).map (·.record.timeMSC)).IsChain (· ≤ ·)) := by
  obtain ⟨out, hout, -⟩ := exists_ok_of_any repeated_reduces.out
  exact ⟨out.1, out.2, hout, reduce_ascends_iff hout ascending_reduces.out⟩

instance backward_reduces : Fact ((reduce mixingHashes (smallReader [smallVerified 1 [6, 5]]) acceptRows).toOption.any
    (fun out => decide (¬ Ascends out.2)) = true) := ⟨by decide +kernel⟩

/-- One batch whose second tick is older than its first: both are rows of one segment. -/
theorem reduce_not_ascends : ∃ result rows,
    reduce mixingHashes (smallReader [smallVerified 1 [6, 5]]) acceptRows = .ok (result, rows) ∧ ¬ Ascends rows := by
  obtain ⟨out, hout, hcheck⟩ := exists_ok_of_any backward_reduces.out
  exact ⟨out.1, out.2, hout, of_decide_eq_true hcheck⟩

end TickPlatform.Continuity
