import TickPlatform.Continuity.Alignment
import TickPlatform.Continuity.Stream

/-!
# Nothing lost, nothing invented

Every selected record of a batch is emitted, unless it belongs to a front part that repeats the end of
the current segment and repeats it in one way only.
-/

namespace TickPlatform.Continuity

open Bytes Protocol Replay

variable {H : Hashes} {reader : VerifiedBatchReader} {sink : RowSink} {limit : Nat}

/-! ## The tail and the rows of the segment -/

def dataRows (rows : List ReplayRow) : List ReplayDataRow := rows.filterMap ReplayRow.data?

@[simp] theorem dataRows_append (a b : List ReplayRow) : dataRows (a ++ b) = dataRows a ++ dataRows b :=
  List.filterMap_append

@[simp] theorem dataRows_data (rows : List ReplayDataRow) : dataRows (rows.map .data) = rows := by
  induction rows with
  | nil => rfl
  | cons row rows ih => simpa [dataRows, ReplayRow.data?] using ih

@[simp] theorem dataRows_markers (ms : List ReplayMarkerRow) : dataRows (ms.map .marker) = [] := by
  simp [dataRows, ReplayRow.data?, List.filterMap_map]

/-- The data rows after the last marker. -/
def segmentRows (rows : List ReplayRow) : List ReplayDataRow := dataRows (rows.rtakeWhile ReplayRow.isData)

theorem segmentRows_marker (rows : List ReplayRow) (m : ReplayMarkerRow) : segmentRows (rows ++ [.marker m]) = [] := by
  unfold segmentRows
  rw [List.rtakeWhile_concat_neg _ _ _ (by simp [ReplayRow.isData, ReplayRow.data?])]
  rfl

theorem segmentRows_data (rows : List ReplayRow) (row : ReplayDataRow) :
    segmentRows (rows ++ [.data row]) = segmentRows rows ++ [row] := by
  unfold segmentRows
  rw [List.rtakeWhile_concat_pos _ _ _ (by simp [ReplayRow.isData, ReplayRow.data?]), dataRows_append]
  rfl

def rowFingerprints (rows : List ReplayDataRow) : List Digest := rows.map (·.sourcePayloadFingerprint)

/-- The tail of a state holds the last occurrences of its segment, as many as the limit allows. -/
def Tracks (limit : Nat) (s : State) : Prop :=
  fingerprints s.tail = (rowFingerprints (segmentRows s.rows)).rtake limit

theorem rtake_snoc {α : Type} (l : List α) (x : α) (n : Nat) : (l.rtake n ++ [x]).rtake n = (l ++ [x]).rtake n := by
  cases n with
  | zero => simp
  | succ n =>
    rw [List.rtake_concat_succ, List.rtake_concat_succ]
    congr 1
    simp only [List.rtake, List.length_drop, List.drop_drop]
    congr 1
    omega

theorem fingerprints_extendTail (limit : Nat) (tail : List FingerprintOccurrence)
    (occurrence : FingerprintOccurrence) : fingerprints (extendTail limit tail occurrence) =
      (fingerprints tail ++ [occurrence.fingerprint]).rtake limit := by
  simp only [extendTail, List.rtake, fingerprints]
  split
  · simp
  · rename_i hshort
    rw [show (tail.map (·.fingerprint) ++ [occurrence.fingerprint]).length - limit = 0 by simp at hshort ⊢; omega]
    simp

variable {s t : State}

theorem Tracks.starts {code : MarkerCode} {m : ReplayMarkerRow} (h : Starts H code s t m) : Tracks limit t := by
  unfold Tracks
  rw [h.rows, segmentRows_marker]
  obtain ⟨canonical, -, rfl⟩ := h.state
  simp [State.enter, fingerprints, rowFingerprints]

theorem Tracks.places {occurrence : FingerprintOccurrence} {row : ReplayDataRow}
    (h : Tracks reader.maxRecords.toNat s) (hplace : Places H reader s t occurrence row) :
    Tracks reader.maxRecords.toNat t := by
  unfold Tracks at h ⊢
  have hfingerprint : row.sourcePayloadFingerprint = occurrence.fingerprint := by
    rw [hplace.made]
    rfl
  rw [hplace.rows, segmentRows_data]
  obtain ⟨canonical, -, rfl⟩ := hplace.state
  simp only [fingerprints_extendTail, h, rtake_snoc, rowFingerprints, List.map_append, List.map_cons,
    List.map_nil, hfingerprint]

/-! ## The overlap -/

/-- A block ends a segment, and occurs once in the last rows of it. -/
def UniqueOverlap (limit : Nat) (segment block : List Digest) : Prop :=
  block <:+ segment ∧ ∃! start, start + block.length ≤ (segment.rtake limit).length ∧
    ((segment.rtake limit).drop start).take block.length = block

theorem overlapLength_nil (incoming : List FingerprintOccurrence) : overlapLength [] incoming = (0, false) := by
  simp [overlapLength]

variable {occurrences : List FingerprintOccurrence}

theorem uniqueOverlap_of_tracks {k : Nat}
    (h : Tracks limit s) (hk : 0 < k) (hoverlap : overlapLength s.tail occurrences = (k, false)) :
    k ≤ occurrences.length ∧
      UniqueOverlap limit (rowFingerprints (segmentRows s.rows)) ((fingerprints occurrences).take k) := by
  obtain ⟨hjoin, hunique⟩ := overlapLength_spec hk hoverlap
  obtain ⟨hlength, hsuffix⟩ := hjoin.1.2
  have hblock : ((fingerprints occurrences).take k).length = k := by simp [hlength]
  have htail : s.tail.length = ((rowFingerprints (segmentRows s.rows)).rtake limit).length := by
    rw [← h, length_fingerprints]
  simp only [standing, Set.mem_ofPred_eq] at hunique
  rw [htail, h] at hunique
  rw [h] at hsuffix
  refine ⟨hlength, hsuffix.trans (List.drop_suffix _ _), ?_⟩
  rw [hblock]
  exact hunique

/-! ## The selected records -/

/-- A record with its place in the WAL. -/
structure Selected where
  gatewaySequence : UInt64
  recordOrdinal : UInt32
  record : RawMqlTickV1
deriving DecidableEq

/-- The records a batch selects, in order. -/
def selected (batch : VerifiedBatch) (source : BatchFrameV1) : List Selected :=
  batch.selectedRecordOrdinals.filterMap fun ordinal =>
    source.records[ordinal.toNat]?.map fun record => ⟨batch.gatewayIngestSequence, ordinal, record⟩

def FingerprintOccurrence.selected (occurrence : FingerprintOccurrence) : Selected :=
  ⟨occurrence.gatewaySequence, occurrence.recordOrdinal, occurrence.record⟩

/-- The selected record that a data row shows. -/
def shown (row : ReplayDataRow) : Selected := ⟨row.gatewayIngestSequence, row.recordOrdinal, row.record⟩

/-- A selected ordinal names a record, or the whole of a batch without records. -/
def Selectable (source : BatchFrameV1) (ordinal : UInt32) : Prop :=
  ordinal.toNat < source.records.length ∨ (source.records = [] ∧ ordinal = 0)

variable {batch : VerifiedBatch} {source : BatchFrameV1}

theorem selectOccurrences_ok {ordinals : List UInt32}
    (h : selectOccurrences H reader batch source ordinals = .ok occurrences) :
    (∀ ordinal ∈ ordinals, Selectable source ordinal) ∧
      occurrences = ordinals.filterMap fun ordinal =>
        source.records[ordinal.toNat]?.map (makeOccurrence H reader batch source ordinal) := by
  induction ordinals generalizing occurrences with
  | nil =>
    injection h with h
    exact ⟨by simp, by simp [← h]⟩
  | cons ordinal ordinals ih =>
    simp only [selectOccurrences] at h
    split at h
    · rename_i record hrecord
      simp only [bind_eq_ok, pure_eq_ok] at h
      obtain ⟨rest, hrest, rfl⟩ := h
      obtain ⟨hrange, hocc⟩ := ih hrest
      have hlt : ordinal.toNat < source.records.length := (List.getElem?_eq_some_iff.mp hrecord).1
      refine ⟨List.forall_mem_cons.mpr ⟨.inl hlt, hrange⟩, ?_⟩
      rw [List.filterMap_cons, hrecord, hocc]
      rfl
    · rename_i hnone
      split at h
      · rename_i hsentinel
        obtain ⟨hrange, hocc⟩ := ih h
        refine ⟨List.forall_mem_cons.mpr ⟨.inr ⟨List.length_eq_zero_iff.mp hsentinel.1, hsentinel.2⟩, hrange⟩, ?_⟩
        rw [List.filterMap_cons, hnone, hocc]
        rfl
      · simp at h

theorem selected_occurrences
    (h : selectOccurrences H reader batch source batch.selectedRecordOrdinals = .ok occurrences) :
    occurrences.map (·.selected) = selected batch source ∧
      fingerprints occurrences = (selected batch source).map fun s => sourcePayloadFingerprint H s.record := by
  have hocc := (selectOccurrences_ok h).2
  subst hocc
  simp only [fingerprints, selected, List.map_filterMap, Option.map_map]
  exact ⟨rfl, rfl⟩

/-! ## What one batch emits -/

/-- The rows `chunk` that a batch without a copy error adds after the rows `before`. -/
structure Splits (H : Hashes) (limit : Nat) (before chunk : List ReplayRow) (records : List Selected)
    (k : Nat) : Prop where
  bound : k ≤ records.length
  rest : (dataRows chunk).map shown = records.drop k
  repeated : 0 < k → markers chunk = [] ∧ UniqueOverlap limit (rowFingerprints (segmentRows before))
    ((records.take k).map fun s => sourcePayloadFingerprint H s.record)

structure Emits (H : Hashes) (limit : Nat) (before chunk : List ReplayRow) (batch : VerifiedBatch)
    (source : BatchFrameV1) : Prop where
  decoded : decodeBatch H batch.frame = .ok source
  selectable : ∀ ordinal ∈ batch.selectedRecordOrdinals, Selectable source ordinal
  copied : source.copyTicksError = 0 → ∃ k, Splits H limit before chunk (selected batch source) k
  failed : source.copyTicksError ≠ 0 → dataRows chunk = [] ∧
    ((markers chunk).filter (·.markerCode = .sourceError)).length = 1

/-- The rows of a run, batch by batch, after the rows `before`. -/
def Reduces (H : Hashes) (limit : Nat) : List ReplayRow → List VerifiedBatch → List ReplayRow → Prop
  | _, [], rows => rows = []
  | before, batch :: batches, rows => ∃ source chunk rest, rows = chunk ++ rest ∧
    Emits H limit before chunk batch source ∧ Reduces H limit (before ++ chunk) batches rest

theorem emitted_rows (h : occurrences.foldlM (emitOccurrence H reader sink) s = .ok t)
    (htracks : Tracks reader.maxRecords.toNat s) :
    Tracks reader.maxRecords.toNat t ∧ ∃ rows : List ReplayDataRow, t.rows = s.rows ++ rows.map .data ∧
      rows.map shown = occurrences.map (·.selected) ∧ rowFingerprints rows = fingerprints occurrences := by
  induction occurrences generalizing s with
  | nil =>
    rw [foldlM_nil_eq_ok] at h
    subst h
    exact ⟨htracks, [], by simp, rfl, rfl⟩
  | cons occurrence occurrences ih =>
    obtain ⟨mid, hfirst, hrest⟩ := foldlM_cons_eq_ok.mp h
    obtain ⟨row, hrow⟩ := emitOccurrence_ok hfirst
    obtain ⟨ht, rows, hrows, hshown, hprints⟩ := ih hrest (htracks.places hrow)
    refine ⟨ht, row :: rows, by simp [hrows, hrow.rows], ?_, ?_⟩
    · rw [List.map_cons, List.map_cons, hshown, hrow.made]
      rfl
    · rw [rowFingerprints, fingerprints, List.map_cons, List.map_cons, ← rowFingerprints, ← fingerprints, hprints,
        hrow.made]
      rfl

theorem Marks.tracks {ms : List ReplayMarkerRow} (h : Marks H s t ms) (hs : Tracks limit s) : Tracks limit t := by
  cases h with
  | none => exact hs
  | start _ hstart => exact Tracks.starts hstart

theorem Marks.eq_of_nil (h : Marks H s t []) : t = s := by
  generalize hms : ([] : List ReplayMarkerRow) = ms at h
  cases h with
  | none => rfl
  | start => simp at hms

theorem openBatch_marks (h : openBatch H reader sink batch source s = .ok t) (hs : Tracks limit s) :
    Tracks limit t ∧ ∃ ms : List ReplayMarkerRow, t.rows = s.rows ++ ms.map .marker ∧
      (∀ m ∈ ms, m.markerCode ≠ .sourceError) ∧ ((ms = [] ∧ t.tail = s.tail) ∨ t.tail = []) := by
  obtain ⟨mid, rfl, hcases⟩ := openBatch_ok h
  have hstarted : ∀ code m, code ≠ MarkerCode.sourceError → Starts H code s mid m →
      Tracks limit (mid.note source) ∧ ∃ ms : List ReplayMarkerRow, (mid.note source).rows = s.rows ++ ms.map .marker ∧
        (∀ m ∈ ms, m.markerCode ≠ .sourceError) ∧
          ((ms = [] ∧ (mid.note source).tail = s.tail) ∨ (mid.note source).tail = []) := by
    intro code m hcode hm
    have htracks : Tracks limit mid := Tracks.starts hm
    refine ⟨htracks, [m], hm.rows, by simp [hm.code, hcode], .inr ?_⟩
    obtain ⟨canonical, -, rfl⟩ := hm.state
    rfl
  rcases hcases with ⟨-, m, hm⟩ | ⟨-, rfl | ⟨m, hm⟩⟩
  · exact hstarted _ m (by decide) hm
  · exact ⟨hs, [], by simp [State.note], by simp, .inl ⟨rfl, rfl⟩⟩
  · exact hstarted _ m (by decide) hm

theorem markers_map_marker (ms : List ReplayMarkerRow) : markers (ms.map .marker) = ms := by
  induction ms with
  | nil => rfl
  | cons m ms ih => simpa [markers, ReplayRow.marker?] using ih

theorem markers_map_data (rows : List ReplayDataRow) : markers (rows.map .data) = [] := by
  simp [markers, ReplayRow.marker?, List.filterMap_map]

/-- What a copied batch lays after the rows `before`: markers up to `mid`, then data rows. -/
structure Lays (H : Hashes) (limit : Nat) (before mid : List ReplayRow) (rows : List ReplayDataRow)
    (records : List Selected) (k : Nat) : Prop where
  bound : k ≤ records.length
  rest : rows.map shown = records.drop k
  prints : rowFingerprints rows = (records.drop k).map fun s => sourcePayloadFingerprint H s.record
  repeated : 0 < k → mid = before ∧ UniqueOverlap limit (rowFingerprints (segmentRows before))
    ((records.take k).map fun s => sourcePayloadFingerprint H s.record)
  fresh : k = 0 → rows ≠ [] → (rowFingerprints (segmentRows mid)).rtake limit = []

/-- The rows of a placed batch: markers only if the copy failed, or those of `Lays`. -/
theorem placeBatch_rows (htracks : Tracks reader.maxRecords.toNat s)
    (h : placeBatch H reader sink batch source s = .ok t) :
    Tracks reader.maxRecords.toNat t ∧ (∀ ordinal ∈ batch.selectedRecordOrdinals, Selectable source ordinal) ∧
      ∃ (ms : List ReplayMarkerRow) (rows : List ReplayDataRow), t.rows = s.rows ++ ms.map .marker ++ rows.map .data ∧
        ((source.copyTicksError = 0 ∧ ∃ k, Lays H reader.maxRecords.toNat s.rows (s.rows ++ ms.map .marker) rows
            (selected batch source) k) ∨
          (source.copyTicksError ≠ 0 ∧ rows = [] ∧ (ms.filter (·.markerCode = .sourceError)).length = 1)) := by
  obtain ⟨opened, occurrences, hopen, hselect, hcases⟩ := placeBatch_ok h
  obtain ⟨hopened, ms, hrows, hcodes, htail⟩ := openBatch_marks hopen htracks
  obtain ⟨hselected, hfingerprints⟩ := selected_occurrences hselect
  have hselectable := (selectOccurrences_ok hselect).1
  rcases hcases with ⟨hfailed, m, hm⟩ | ⟨hcopied, rfl, rfl⟩ | ⟨hcopied, placed, halign, hemit⟩
  case inl =>
    refine ⟨Tracks.starts hm, hselectable, ms ++ [m], [], by simp [hm.rows, hrows], .inr ⟨hfailed, rfl, ?_⟩⟩
    have hnone : ms.filter (·.markerCode = .sourceError) = [] := by
      rw [List.filter_eq_nil_iff]
      simpa using hcodes
    rw [List.filter_append, hnone]
    simp [hm.code]
  case inr.inl =>
    have hempty : selected batch source = [] := by simpa using hselected.symm
    exact ⟨hopened, hselectable, ms, [], by simp [hrows], .inl ⟨hcopied, 0, by simp, by simp [hempty],
      by simp [hempty, rowFingerprints], by simp, by simp⟩⟩
  case inr.inr =>
    obtain ⟨ms', hms', hfresh, hoverlap⟩ := alignBatch_ok halign
    have hplacedTracks := hms'.tracks hopened
    obtain ⟨ht, rows, hplaced, hshown, hprints⟩ := emitted_rows hemit hplacedTracks
    have hmid : placed.2.rows = s.rows ++ (ms ++ ms').map .marker := by simp [hms'.rows, hrows]
    refine ⟨ht, hselectable, ms ++ ms', rows, by rw [hplaced, hmid], .inl ⟨hcopied, placed.1, ?_⟩⟩
    have hrest : rows.map shown = (selected batch source).drop placed.1 := by rw [hshown, List.map_drop, hselected]
    have hrestPrints : rowFingerprints rows =
        ((selected batch source).drop placed.1).map fun s => sourcePayloadFingerprint H s.record := by
      rw [hprints, List.map_drop, ← hfingerprints, fingerprints, List.map_drop]
      rfl
    rcases Nat.eq_zero_or_pos placed.1 with hzero | hpos
    · refine ⟨by omega, hrest, hrestPrints, by omega, fun _ _ => ?_⟩
      rw [← hmid, ← hplacedTracks, hfresh hzero]
      rfl
    · -- A proved overlap leaves the segment as it was before the batch.
      obtain ⟨hnone, hlength⟩ := hoverlap.resolve_left (by omega)
      have hnonempty : placed.2.tail ≠ [] := by
        intro hnil
        rw [hnil, overlapLength_nil] at hlength
        simp at hlength
        omega
      have hms : ms' = [] := hnone.resolve_right hnonempty
      subst hms
      have hsame : placed.2 = opened := hms'.eq_of_nil
      rw [hsame] at hlength hnonempty
      obtain ⟨rfl, -⟩ := htail.resolve_right hnonempty
      have hbefore : opened.rows = s.rows := by simpa using hrows
      obtain ⟨hbound, hunique⟩ := uniqueOverlap_of_tracks hopened hpos hlength
      rw [hbefore, hfingerprints, ← List.map_take] at hunique
      refine ⟨?_, hrest, hrestPrints, fun _ => ⟨by simp, hunique⟩, by omega⟩
      rw [← hselected, List.length_map]
      exact hbound

theorem placeBatch_emits (hdecode : decodeBatch H batch.frame = .ok source) (htracks : Tracks reader.maxRecords.toNat s)
    (h : placeBatch H reader sink batch source s = .ok t) :
    Tracks reader.maxRecords.toNat t ∧ ∃ chunk, t.rows = s.rows ++ chunk ∧
      Emits H reader.maxRecords.toNat s.rows chunk batch source := by
  obtain ⟨ht, hselectable, ms, rows, hrows, hcases⟩ := placeBatch_rows htracks h
  refine ⟨ht, ms.map .marker ++ rows.map .data, by simp [hrows], hdecode, hselectable, ?_, ?_⟩
  · intro hcopied
    obtain ⟨-, k, hlays⟩ := hcases.resolve_right fun h => h.1 hcopied
    refine ⟨k, hlays.bound, by simpa using hlays.rest, fun hk => ⟨?_, (hlays.repeated hk).2⟩⟩
    have hms : ms = [] := by simpa using (hlays.repeated hk).1
    simp [hms, markers_map_data]
  · intro hfailed
    obtain ⟨-, rfl, hone⟩ := hcases.resolve_left fun h => hfailed h.1
    exact ⟨by simp, by simpa [markers_map_marker] using hone⟩

theorem reduces_loop {batches : List VerifiedBatch}
    (h : batches.foldlM (reduceBatch H reader sink) s = .ok t) (hs : Tracks reader.maxRecords.toNat s) :
    ∃ rows, t.rows = s.rows ++ rows ∧ Reduces H reader.maxRecords.toNat s.rows batches rows := by
  induction batches generalizing s with
  | nil =>
    rw [foldlM_nil_eq_ok] at h
    exact ⟨[], by simp [h], rfl⟩
  | cons batch batches ih =>
    obtain ⟨mid, hfirst, hrest⟩ := foldlM_cons_eq_ok.mp h
    obtain ⟨source, hdecode, hplace⟩ := reduceBatch_ok hfirst
    obtain ⟨hmid, chunk, hchunk, hemits⟩ := placeBatch_emits hdecode hs hplace
    obtain ⟨rows, hrows, hreduces⟩ := ih hrest hmid
    refine ⟨chunk ++ rows, by simp [hrows, hchunk], source, chunk, rows, rfl, hemits, ?_⟩
    rw [← hchunk]
    exact hreduces

theorem tracks_initial : Tracks limit State.initial := by
  simp [Tracks, State.initial, fingerprints, segmentRows, dataRows, rowFingerprints]

/-- The rows of a reduction are, batch by batch, the selected records without a proved repetition. -/
theorem reduce_reduces {result : Result} {rows : List ReplayRow}
    (h : reduce H reader sink = .ok (result, rows)) :
    Reduces H reader.maxRecords.toNat [] reader.batches rows := by
  obtain ⟨s, hloop, rfl, -⟩ := reduce_ok h
  obtain ⟨rows, hrows, hreduces⟩ := reduces_loop hloop tracks_initial
  have hsame : s.rows = rows := by simpa [State.initial] using hrows
  rw [hsame]
  exact hreduces

instance repeated_reduces : Fact ((reduce mixingHashes (smallReader [smallVerified 1 [5, 6], smallVerified 2 [6, 7]])
      acceptRows).toOption.any (fun out => decide ((dataRows out.2).map (fun row => row.record.timeMSC) = [5, 6, 7]))
        = true) := ⟨by decide +kernel⟩

/-- The second batch repeats the last tick of the first: of its two records one is emitted. -/
theorem reduce_reduces_repeated : ∃ result rows,
    reduce mixingHashes (smallReader [smallVerified 1 [5, 6], smallVerified 2 [6, 7]]) acceptRows = .ok (result, rows) ∧
      (dataRows rows).map (fun row => row.record.timeMSC) = [5, 6, 7] ∧
      Reduces mixingHashes 2 [] [smallVerified 1 [5, 6], smallVerified 2 [6, 7]] rows := by
  obtain ⟨out, hout, hcheck⟩ := exists_ok_of_any repeated_reduces.out
  exact ⟨out.1, out.2, hout, of_decide_eq_true hcheck, reduce_reduces hout⟩

end TickPlatform.Continuity
