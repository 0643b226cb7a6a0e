import TickPlatform.Continuity.Reducer
import TickPlatform.Replay.Chain

/-!
# The reduced stream

The rows `Reduce` emits form a well-formed replay stream, and its summary, which it keeps in counters
while it runs, is the summary of that list of rows.
-/

namespace TickPlatform.Continuity

open Bytes Protocol Replay

variable {H : Hashes} {reader : VerifiedBatchReader} {sink : RowSink} {limit : Nat}

/-! ## What one emission does -/

variable {s t : State}

theorem emit_ok {row : ReplayRow} (h : emit H sink s row = .ok t) :
    ∃ canonical, row.canonicalBytes H = .ok canonical ∧ row.streamSequence = s.result.rowCount ∧
      t = s.push H row canonical := by
  simp only [emit, bind_eq_ok, pure_eq_ok, reject_eq_ok, not_not] at h
  obtain ⟨canonical, hcanonical, -, hsequence, -, -, ht⟩ := h
  exact ⟨canonical, hcanonical, hsequence, ht.symm⟩

/-- A state that starts a segment with a marker. -/
structure Starts (H : Hashes) (code : MarkerCode) (s t : State) (m : ReplayMarkerRow) : Prop where
  code : m.markerCode = code
  sequence : m.streamSequence = s.result.rowCount
  predecessor : m.predecessorRowChainHash = s.previousRowHash
  segment : segmentID H m.scope m.referenceGatewayIngestSequence m.referenceRecordOrdinal m.markerCode
    m.predecessorRowChainHash = .ok m.continuitySegmentID
  state : ∃ canonical, (ReplayRow.marker m).canonicalBytes H = .ok canonical ∧
    t = (s.push H (.marker m) canonical).enter m.continuitySegmentID

variable {batch : VerifiedBatch} {code : MarkerCode}

theorem startSegment_ok {reason : MarkerReason} {detail : Bytes} {reference : Option FingerprintOccurrence}
    (h : startSegment H reader sink code reason detail batch reference s = .ok t) :
    ∃ m, Starts H code s t m := by
  simp only [startSegment, bind_eq_ok, pure_eq_ok] at h
  obtain ⟨id, hid, next, hemit, ht⟩ := h
  obtain ⟨canonical, hcanonical, hsequence, hnext⟩ := emit_ok hemit
  refine ⟨_, rfl, rfl, rfl, hid, canonical, hcanonical, ?_⟩
  rw [← ht, hnext]
  rfl

/-- A state that emits one occurrence. -/
structure Places (H : Hashes) (reader : VerifiedBatchReader) (s t : State)
    (occurrence : FingerprintOccurrence) (row : ReplayDataRow) : Prop where
  made : row = makeDataRow H reader.replayScope s.currentSegmentID occurrence s.result.rowCount
  state : ∃ canonical, (ReplayRow.data row).canonicalBytes H = .ok canonical ∧
    t = { s.push H (.data row) canonical with
      tail := extendTail reader.maxRecords.toNat s.tail occurrence
      previousOccurrence := some occurrence }

variable {occurrence : FingerprintOccurrence}

theorem emitOccurrence_ok
    (h : emitOccurrence H reader sink s occurrence = .ok t) : ∃ row, Places H reader s t occurrence row := by
  simp only [emitOccurrence, bind_eq_ok, pure_eq_ok] at h
  obtain ⟨next, hemit, ht⟩ := h
  obtain ⟨canonical, hcanonical, -, hnext⟩ := emit_ok hemit
  refine ⟨_, rfl, canonical, hcanonical, ?_⟩
  rw [← ht, hnext]
  rfl

/-! ## Well-formed streams -/

/-- The structure of a replay stream, read off the list of its rows. -/
structure WellFormed (H : Hashes) (rows : List ReplayRow) : Prop where
  sequence : ∀ before row after, rows = before ++ row :: after →
    row.streamSequence = UInt64.ofNat before.length
  opening : ∀ row rest, rows = row :: rest → ∃ m, row = .marker m ∧ m.markerCode = .segmentStart
  inSegment : ∀ before row after, rows = before ++ .data row :: after →
    ∃ m, (markers before).getLast? = some m ∧ row.continuitySegmentID = m.continuitySegmentID
  anchored : ∀ before m after, rows = before ++ .marker m :: after →
    rowChainRoot H before = .ok m.predecessorRowChainHash ∧
      segmentID H m.scope m.referenceGatewayIngestSequence m.referenceRecordOrdinal m.markerCode
        m.predecessorRowChainHash = .ok m.continuitySegmentID

theorem wellFormed_nil : WellFormed H [] := by
  constructor <;> simp

theorem snoc_eq_split {α : Type} {l before after : List α} {a b : α} (h : l ++ [a] = before ++ b :: after) :
    (before = l ∧ b = a ∧ after = []) ∨ ∃ rest, after = rest ++ [a] ∧ l = before ++ b :: rest := by
  induction after using List.reverseRecOn with
  | nil =>
    have := List.append_inj' h rfl
    simp_all
  | append_singleton rest c _ =>
    rw [← List.cons_append, ← List.append_assoc] at h
    have := List.append_inj' h rfl
    exact .inr ⟨rest, by simp_all, this.1⟩

theorem WellFormed.snoc {rows : List ReplayRow} {row : ReplayRow} (h : WellFormed H rows)
    (hsequence : row.streamSequence = UInt64.ofNat rows.length)
    (hopening : rows = [] → ∃ m, row = .marker m ∧ m.markerCode = .segmentStart)
    (hdata : ∀ d, row = .data d →
      ∃ m, (markers rows).getLast? = some m ∧ d.continuitySegmentID = m.continuitySegmentID)
    (hmarker : ∀ m, row = .marker m → rowChainRoot H rows = .ok m.predecessorRowChainHash ∧
      segmentID H m.scope m.referenceGatewayIngestSequence m.referenceRecordOrdinal m.markerCode
        m.predecessorRowChainHash = .ok m.continuitySegmentID) : WellFormed H (rows ++ [row]) := by
  constructor
  case sequence =>
    intro before r after heq
    rcases snoc_eq_split heq with ⟨rfl, rfl, -⟩ | ⟨rest, -, hrows⟩
    · exact hsequence
    · exact h.sequence before r rest hrows
  case opening =>
    intro r rest heq
    rcases @snoc_eq_split _ rows [] rest row r heq with ⟨hrows, rfl, -⟩ | ⟨rest', -, hrows⟩
    · exact hopening hrows.symm
    · exact h.opening r rest' hrows
  case inSegment =>
    intro before d after heq
    rcases snoc_eq_split heq with ⟨rfl, hr, -⟩ | ⟨rest, -, hrows⟩
    · exact hdata d hr.symm
    · exact h.inSegment before d rest hrows
  case anchored =>
    intro before m after heq
    rcases snoc_eq_split heq with ⟨rfl, hr, -⟩ | ⟨rest, -, hrows⟩
    · exact hmarker m hr.symm
    · exact h.anchored before m rest hrows

theorem WellFormed.exists_marker {rows : List ReplayRow} (h : WellFormed H rows) (hne : rows ≠ []) :
    ∃ m, (markers rows).getLast? = some m := by
  obtain ⟨row, rest, rfl⟩ := List.exists_cons_of_ne_nil hne
  obtain ⟨m, rfl, -⟩ := h.opening row rest rfl
  have hmarkers : markers (.marker m :: rest) ≠ [] := by simp [markers, ReplayRow.marker?]
  exact ⟨_, List.getLast?_eq_some_getLast hmarkers⟩

/-! ## The invariant of the loop -/

/-- The counters and hashes of a state are those of the rows it has emitted. -/
structure Sound (H : Hashes) (limit : Nat) (s : State) : Prop where
  rowCount : s.result.rowCount = UInt64.ofNat s.rows.length
  markerCount : s.result.markerCount = UInt64.ofNat (markers s.rows).length
  segmentCount : s.result.segmentCount = UInt64.ofNat (markers s.rows).length
  lastSegmentID : s.result.lastSegmentID = ((markers s.rows).getLast?.map (·.continuitySegmentID)).getD []
  currentSegmentID : s.currentSegmentID = s.result.lastSegmentID
  root : rowChainRoot H s.rows = .ok s.previousRowHash
  stream : WellFormed H s.rows
  tail : s.tail.length ≤ limit

theorem sound_initial : Sound H limit State.initial := by
  constructor <;> first | rfl | exact wellFormed_nil | exact Nat.zero_le _

theorem markers_data (row : ReplayDataRow) : markers [.data row] = [] := rfl

theorem markers_marker (m : ReplayMarkerRow) : markers [.marker m] = [m] := rfl

variable {m : ReplayMarkerRow}

theorem Sound.starts (h : Sound H limit s)
    (hstart : Starts H code s t m) (hfirst : s.rows = [] → code = .segmentStart) : Sound H limit t := by
  obtain ⟨canonical, hcanonical, rfl⟩ := hstart.state
  have hsequence : (ReplayRow.marker m).streamSequence = UInt64.ofNat s.rows.length :=
    hstart.sequence.trans h.rowCount
  have hroot : rowChainRoot H s.rows = .ok m.predecessorRowChainHash := by
    rw [hstart.predecessor]
    exact h.root
  constructor
  case rowCount => simp [State.enter, State.push, h.rowCount]
  case markerCount =>
    simp [State.enter, State.push, h.markerCount, markers_marker, ReplayRow.isData, ReplayRow.data?]
  case segmentCount => simp [State.enter, State.push, h.segmentCount, markers_marker]
  case lastSegmentID => simp [State.enter, State.push, markers_marker]
  case currentSegmentID => rfl
  case root => exact rowChainRoot_snoc h.root hsequence hcanonical
  case stream =>
    apply h.stream.snoc hsequence
    · intro hnil
      exact ⟨m, rfl, hstart.code.trans (hfirst hnil)⟩
    · intro d hd
      exact absurd hd (by simp)
    · intro m' hm
      injection hm with hm
      subst hm
      exact ⟨hroot, hstart.segment⟩
  case tail => simp [State.enter]

theorem length_extendTail (limit : Nat) (tail : List FingerprintOccurrence) (occurrence : FingerprintOccurrence) :
    (extendTail limit tail occurrence).length ≤ limit := by
  simp only [extendTail]
  split
  · rw [List.length_drop]
    omega
  · omega

variable {row : ReplayDataRow}

theorem Sound.places
    (h : Sound H reader.maxRecords.toNat s) (hplace : Places H reader s t occurrence row) (hne : s.rows ≠ []) :
    Sound H reader.maxRecords.toNat t := by
  obtain ⟨canonical, hcanonical, rfl⟩ := hplace.state
  have hrow := hplace.made
  have hsequence : (ReplayRow.data row).streamSequence = UInt64.ofNat s.rows.length := by
    rw [← h.rowCount, hrow]
    rfl
  obtain ⟨m, hm⟩ := h.stream.exists_marker hne
  constructor
  case rowCount => simp [State.push, h.rowCount]
  case markerCount => simp [State.push, h.markerCount, markers_data, ReplayRow.isData, ReplayRow.data?]
  case segmentCount => simp [State.push, h.segmentCount, markers_data]
  case lastSegmentID => simp [State.push, h.lastSegmentID, markers_data]
  case currentSegmentID => exact h.currentSegmentID
  case root => exact rowChainRoot_snoc h.root hsequence hcanonical
  case stream =>
    apply h.stream.snoc hsequence
    · intro hnil
      exact absurd hnil hne
    · intro d hd
      injection hd with hd
      subst hd
      refine ⟨m, hm, ?_⟩
      rw [hrow]
      change s.currentSegmentID = m.continuitySegmentID
      rw [h.currentSegmentID, h.lastSegmentID, hm]
      rfl
    · intro m' hm'
      exact absurd hm' (by simp)
  case tail => exact length_extendTail _ _ _

/-! ## One batch -/

/-- A state reached by starting segments only. -/
inductive Marks (H : Hashes) (s : State) : State → List ReplayMarkerRow → Prop
  | none : Marks H s s []
  | start {t u : State} {ms : List ReplayMarkerRow} {m : ReplayMarkerRow} {code : MarkerCode} :
    Marks H s t ms → Starts H code t u m → Marks H s u (ms ++ [m])

theorem Starts.rows (h : Starts H code s t m) : t.rows = s.rows ++ [.marker m] := by
  obtain ⟨canonical, -, rfl⟩ := h.state
  rfl

theorem Starts.marks (h : Starts H code s t m) : Marks H s t [m] :=
  Marks.none.start h

theorem Marks.rows {ms : List ReplayMarkerRow} (h : Marks H s t ms) : t.rows = s.rows ++ ms.map .marker := by
  induction h with
  | none => simp
  | start _ hstart ih => simp [hstart.rows, ih]

variable {source : BatchFrameV1}

theorem openBatch_ok (h : openBatch H reader sink batch source s = .ok t) : ∃ mid, t = mid.note source ∧
      ((s.haveBatchSequence = false ∧ ∃ m, Starts H .segmentStart s mid m) ∨
        (s.haveBatchSequence = true ∧ (mid = s ∨ ∃ m, Starts H .gap s mid m))) := by
  simp only [openBatch, bind_eq_ok, pure_eq_ok] at h
  obtain ⟨mid, hmid, rfl⟩ := h
  refine ⟨mid, rfl, ?_⟩
  unfold openSegment at hmid
  split at hmid
  case isTrue hfirst => exact .inl ⟨hfirst, startSegment_ok hmid⟩
  case isFalse hlater =>
    have hlater : s.haveBatchSequence = true := by simpa using hlater
    split at hmid
    · exact .inr ⟨hlater, .inr (startSegment_ok hmid)⟩
    · injection hmid with hmid
      exact .inr ⟨hlater, .inl hmid.symm⟩

theorem Starts.tail (h : Starts H code s t m) : t.tail = [] := by
  obtain ⟨canonical, -, rfl⟩ := h.state
  rfl

theorem alignBatch_ok {occurrences : List FingerprintOccurrence}
    {placed : Nat × State} (h : alignBatch H reader sink batch occurrences s = .ok placed) :
    ∃ ms, Marks H s placed.2 ms ∧ (placed.1 = 0 → placed.2.tail = []) ∧
      (placed.1 = 0 ∨ (ms = [] ∨ placed.2.tail = []) ∧ overlapLength placed.2.tail occurrences = (placed.1, false)) := by
  simp only [alignBatch, bind_eq_ok] at h
  obtain ⟨mid, hmid, h⟩ := h
  have hfirst : ∃ ms, Marks H s mid ms ∧ (ms = [] ∨ mid.tail = []) := by
    unfold checkRegression at hmid
    split at hmid
    · obtain ⟨m, hm⟩ := startSegment_ok hmid
      exact ⟨[m], hm.marks, .inr hm.tail⟩
    · injection hmid with hmid
      exact ⟨[], hmid ▸ Marks.none, .inl rfl⟩
  obtain ⟨ms, hms, htail⟩ := hfirst
  split at h
  · simp only [bind_eq_ok, pure_eq_ok] at h
    obtain ⟨next, hnext, rfl⟩ := h
    obtain ⟨m, hm⟩ := startSegment_ok hnext
    exact ⟨ms ++ [m], hms.start hm, fun _ => hm.tail, .inl rfl⟩
  · split at h
    · simp only [bind_eq_ok, pure_eq_ok] at h
      obtain ⟨next, hnext, rfl⟩ := h
      obtain ⟨m, hm⟩ := startSegment_ok hnext
      exact ⟨ms ++ [m], hms.start hm, fun _ => hm.tail, .inl rfl⟩
    · rename_i hclear
      rw [pure_eq_ok] at h
      subst h
      obtain ⟨hunambiguous, hempty⟩ := not_or.mp hclear
      refine ⟨ms, hms, fun hzero => ?_, .inr ⟨htail, Prod.ext rfl (by simpa using hunambiguous)⟩⟩
      have hlength : ¬ mid.tail.length > 0 := fun hpos => hempty ⟨hzero, hpos⟩
      exact List.length_eq_zero_iff.mp (Nat.eq_zero_of_not_pos hlength)

/-- A run over the batches has emitted a row exactly if it has seen a batch. -/
def Begun (s : State) : Prop := s.haveBatchSequence = true ↔ s.rows ≠ []

theorem Sound.note (h : Sound H limit s) (source : BatchFrameV1) : Sound H limit (s.note source) :=
  ⟨h.rowCount, h.markerCount, h.segmentCount, h.lastSegmentID, h.currentSegmentID, h.root, h.stream, h.tail⟩

theorem Sound.opened (h : Sound H limit s) (hbegun : Begun s) (hopen : openBatch H reader sink batch source s = .ok t) :
    Sound H limit t ∧ t.rows ≠ [] ∧ t.haveBatchSequence = true := by
  obtain ⟨mid, rfl, hcases⟩ := openBatch_ok hopen
  have hmid : Sound H limit mid ∧ mid.rows ≠ [] := by
    rcases hcases with ⟨-, m, hm⟩ | ⟨hhave, rfl | ⟨m, hm⟩⟩
    · exact ⟨h.starts hm fun _ => rfl, by simp [hm.rows]⟩
    · exact ⟨h, hbegun.mp hhave⟩
    · refine ⟨h.starts hm fun hnil => ?_, by simp [hm.rows]⟩
      exact absurd hnil (hbegun.mp hhave)
  exact ⟨hmid.1.note source, hmid.2, rfl⟩

theorem Places.rows (h : Places H reader s t occurrence row) : t.rows = s.rows ++ [.data row] := by
  obtain ⟨canonical, -, rfl⟩ := h.state
  rfl

theorem placeBatch_ok
    (h : placeBatch H reader sink batch source s = .ok t) :
    ∃ opened occurrences, openBatch H reader sink batch source s = .ok opened ∧
      selectOccurrences H reader batch source batch.selectedRecordOrdinals = .ok occurrences ∧
      ((source.copyTicksError ≠ 0 ∧ ∃ m, Starts H .sourceError opened t m) ∨
        (source.copyTicksError = 0 ∧ occurrences = [] ∧ t = opened) ∨
        (source.copyTicksError = 0 ∧ ∃ placed, alignBatch H reader sink batch occurrences opened = .ok placed ∧
          (occurrences.drop placed.1).foldlM (emitOccurrence H reader sink) placed.2 = .ok t)) := by
  simp only [placeBatch, bind_eq_ok] at h
  obtain ⟨opened, hopen, occurrences, hselect, h⟩ := h
  refine ⟨opened, occurrences, hopen, hselect, ?_⟩
  split at h
  case isTrue hfailed => exact .inl ⟨hfailed, startSegment_ok h⟩
  case isFalse hcopied =>
    have hcopied : source.copyTicksError = 0 := not_not.mp hcopied
    split at h
    case isTrue hempty =>
      injection h with h
      exact .inr (.inl ⟨hcopied, List.length_eq_zero_iff.mp hempty, h.symm⟩)
    case isFalse =>
      simp only [bind_eq_ok] at h
      exact .inr (.inr ⟨hcopied, h⟩)

theorem reduceBatch_ok (h : reduceBatch H reader sink s batch = .ok t) :
    ∃ source, decodeBatch H batch.frame = .ok source ∧ placeBatch H reader sink batch source s = .ok t := by
  simp only [reduceBatch, bind_eq_ok, mapError_eq_ok] at h
  obtain ⟨source, hdecode, -, -, hplace⟩ := h
  exact ⟨source, hdecode, hplace⟩

theorem reduce_ok {result : Result} {rows : List ReplayRow} (h : reduce H reader sink = .ok (result, rows)) :
    ∃ s, reader.batches.foldlM (reduceBatch H reader sink) State.initial = .ok s ∧ rows = s.rows ∧
      result = { s.result with
        rowChainRoot := s.previousRowHash
        tailSize := UInt32.ofNat s.tail.length } := by
  simp only [reduce, bind_eq_ok, pure_eq_ok, Prod.mk.injEq] at h
  obtain ⟨-, -, -, -, -, -, s, hloop, -, -, hresult, hrows⟩ := h
  exact ⟨s, hloop, hrows.symm, hresult.symm⟩

/-! ## The loop -/

/-- The invariant while a batch is placed. -/
structure Underway (H : Hashes) (limit : Nat) (s : State) : Prop where
  sound : Sound H limit s
  rows : s.rows ≠ []
  begun : s.haveBatchSequence = true

theorem Underway.starts (h : Underway H limit s) (hstart : Starts H code s t m) : Underway H limit t := by
  refine ⟨h.sound.starts hstart fun hnil => absurd hnil h.rows, by simp [hstart.rows], ?_⟩
  obtain ⟨canonical, -, rfl⟩ := hstart.state
  exact h.begun

theorem Underway.marks {ms : List ReplayMarkerRow} (h : Underway H limit s)
    (hmarks : Marks H s t ms) : Underway H limit t := by
  induction hmarks with
  | none => exact h
  | start _ hstart ih => exact ih.starts hstart

theorem Underway.places (h : Underway H reader.maxRecords.toNat s) (hplace : Places H reader s t occurrence row) :
    Underway H reader.maxRecords.toNat t := by
  refine ⟨h.sound.places hplace h.rows, by simp [hplace.rows], ?_⟩
  obtain ⟨canonical, -, rfl⟩ := hplace.state
  exact h.begun

theorem Underway.emitted {occurrences : List FingerprintOccurrence} (h : Underway H reader.maxRecords.toNat s)
    (hemit : occurrences.foldlM (emitOccurrence H reader sink) s = .ok t) :
    Underway H reader.maxRecords.toNat t := by
  refine foldlM_keeps ?_ h hemit
  intro occurrence _ s t hs hstep
  obtain ⟨row, hrow⟩ := emitOccurrence_ok hstep
  exact hs.places hrow

theorem Sound.placed (h : Sound H reader.maxRecords.toNat s) (hbegun : Begun s)
    (hplace : placeBatch H reader sink batch source s = .ok t) : Underway H reader.maxRecords.toNat t := by
  obtain ⟨opened, occurrences, hopen, -, hcases⟩ := placeBatch_ok hplace
  have hopened : Underway H reader.maxRecords.toNat opened :=
    ⟨(h.opened hbegun hopen).1, (h.opened hbegun hopen).2.1, (h.opened hbegun hopen).2.2⟩
  rcases hcases with ⟨-, m, hm⟩ | ⟨-, -, rfl⟩ | ⟨-, placed, halign, hemit⟩
  · exact hopened.starts hm
  · exact hopened
  · obtain ⟨ms, hms, -⟩ := alignBatch_ok halign
    exact (hopened.marks hms).emitted hemit

theorem sound_loop {batches : List VerifiedBatch}
    (h : batches.foldlM (reduceBatch H reader sink) State.initial = .ok s) :
    Sound H reader.maxRecords.toNat s := by
  have hstart : Sound H reader.maxRecords.toNat State.initial ∧ Begun State.initial :=
    ⟨sound_initial, by simp [Begun, State.initial]⟩
  refine (foldlM_keeps (P := fun s => Sound H reader.maxRecords.toNat s ∧ Begun s) ?_ hstart h).1
  intro batch _ s t hs hstep
  obtain ⟨source, -, hplace⟩ := reduceBatch_ok hstep
  have ht := hs.1.placed hs.2 hplace
  exact ⟨ht.sound, by simp [Begun, ht.rows, ht.begun]⟩

/-! ## Segments -/

theorem segmentID_eq_ok {scope : ReplayScope} {g : UInt64} {o : UInt32} {c : MarkerCode} {d : Digest}
    {id : Bytes} (h : segmentID H scope g o c d = .ok id) :
    ∃ input, segmentInput scope g o c d = .ok input ∧ id = hexBytes (H.sha256 input).bytes := by
  simp only [segmentID, bind_eq_ok, pure_eq_ok] at h
  obtain ⟨input, hinput, hid⟩ := h
  exact ⟨input, hinput, hid.symm⟩

/-- Markers with one segment id have one predecessor. -/
theorem predecessor_unique {rows : List ReplayRow} (hwf : WellFormed H rows)
    (hfree : CollisionFree H (hashedInputs H rows)) {i j : Nat} (hi : i < rows.length) (hj : j < rows.length)
    {m' : ReplayMarkerRow} (hm : rows[i] = .marker m) (hm' : rows[j] = .marker m')
    (hid : m.continuitySegmentID = m'.continuitySegmentID) :
    m.predecessorRowChainHash = m'.predecessorRowChainHash := by
  have hmem : ∀ i (hi : i < rows.length) m, rows[i] = .marker m → ∃ input ∈ hashedInputs H rows,
      segmentInput m.scope m.referenceGatewayIngestSequence m.referenceRecordOrdinal m.markerCode
        m.predecessorRowChainHash = .ok input ∧
      m.continuitySegmentID = hexBytes (H.sha256 input).bytes := by
    intro i hi m hm
    have hsplit : rows = rows.take i ++ .marker m :: rows.drop (i + 1) := by
      rw [← hm, List.getElem_cons_drop, List.take_append_drop]
    obtain ⟨input, hinput, hid⟩ := segmentID_eq_ok (hwf.anchored _ _ _ hsplit).2
    refine ⟨input, ?_, hinput, hid⟩
    unfold hashedInputs
    apply List.mem_append_right
    rw [List.mem_filterMap]
    refine ⟨m, List.mem_filterMap.mpr ⟨_, List.getElem_mem hi, by rw [hm]; rfl⟩, ?_⟩
    simp [markerInput, hinput, Except.toOption]
  obtain ⟨input, hin, hinput, hhex⟩ := hmem i hi m hm
  obtain ⟨input', hin', hinput', hhex'⟩ := hmem j hj m' hm'
  have hbytes := hexBytes_injective (hhex.symm.trans (hid.trans hhex'))
  have hsame := hfree.1 input hin input' hin' (digest_eq_of_bytes hbytes)
  subst hsame
  exact segmentInput_predecessor hinput hinput'

theorem segments_distinct {rows : List ReplayRow} {root : Digest} (hwf : WellFormed H rows)
    (hroot : rowChainRoot H rows = .ok root) (hfree : CollisionFree H (hashedInputs H rows)) :
    ((markers rows).map (·.continuitySegmentID)).Nodup := by
  have hanchor : ∀ i (hi : i < rows.length) m, rows[i] = .marker m →
      m.predecessorRowChainHash = rootAt H rows i := by
    intro i hi m hm
    have hsplit : rows = rows.take i ++ .marker m :: rows.drop (i + 1) := by
      rw [← hm, List.getElem_cons_drop, List.take_append_drop]
    have hat := (hwf.anchored _ _ _ hsplit).1
    rw [rowChainRoot_take hroot i] at hat
    injection hat with hat
    exact hat.symm
  unfold List.Nodup markers
  rw [List.pairwise_map, List.pairwise_filterMap, List.pairwise_iff_getElem]
  intro i j hi hj hlt m hm m' hm' hid
  have hrow : ∀ {row : ReplayRow} {m : ReplayMarkerRow}, row.marker? = some m → row = .marker m := by
    intro row m h
    cases row <;> simp_all [ReplayRow.marker?]
  have hpred := predecessor_unique hwf hfree hi hj (hrow hm) (hrow hm') hid
  rw [hanchor i hi m (hrow hm), hanchor j hj m' (hrow hm')] at hpred
  have := rootAt_unique hroot hfree (Nat.le_of_lt hi) (Nat.le_of_lt hj) hpred
  omega

/-! ## The summary -/

/-- Whatever the reader delivers and the sink accepts, the emitted rows are a well-formed stream and
the result is their summary. A row's position is the `uint64` the rows themselves carry. -/
theorem reduce_wellFormed {result : Result} {rows : List ReplayRow}
    (h : reduce H reader sink = .ok (result, rows)) :
    WellFormed H rows ∧ rowChainRoot H rows = .ok result.rowChainRoot ∧
      result.rowCount = UInt64.ofNat rows.length ∧
      result.markerCount = UInt64.ofNat (markers rows).length ∧
      result.segmentCount = UInt64.ofNat (markers rows).length ∧
      result.lastSegmentID = ((markers rows).getLast?.map (·.continuitySegmentID)).getD [] ∧
      result.tailSize ≤ reader.maxRecords ∧
      (CollisionFree H (hashedInputs H rows) → ((markers rows).map (·.continuitySegmentID)).Nodup) := by
  obtain ⟨s, hloop, rfl, rfl⟩ := reduce_ok h
  have hs := sound_loop hloop
  refine ⟨hs.stream, hs.root, hs.rowCount, hs.markerCount, hs.segmentCount, hs.lastSegmentID, ?_,
    segments_distinct hs.stream hs.root⟩
  have hlimit := hs.tail
  have hmax := reader.maxRecords.toNat_lt
  rw [UInt32.le_iff_toNat_le, UInt32.toNat_ofNat']
  omega

/-- Hash functions to run the reducer with: a polynomial of the input, never zero. -/
def mixingHashes : Hashes where
  sha256 data := Digest.ofBytes (1 :: putLE 31 (data.foldl (fun acc b => (acc * 257 + b.toNat + 1) % 2 ^ 248) 0))
  crc32c data := UInt32.ofNat data.length

def smallIdentity : ProducerIdentity where
  producerInstanceID := ascii "p"
  providerID := ascii "v"
  stableFeedID := ascii "f"
  brokerServerFingerprint := ascii "b"
  exactSourceSymbol := ascii "S"

def smallTick (time : Int64) : RawMqlTickV1 where
  time := 0
  bidBits := 0
  askBits := 0
  lastBits := 0
  volume := 0
  timeMSC := time
  flags := 0
  volumeRealBits := 0
  captureSequence := 0

def smallSource (sequence : UInt64) (times : List Int64) : BatchFrameV1 where
  sessionLeaseID := deriveSessionLeaseID mixingHashes smallIdentity.producerInstanceID (ascii "s")
    smallIdentity.providerID smallIdentity.stableFeedID smallIdentity.brokerServerFingerprint
    smallIdentity.exactSourceSymbol
  producerSessionID := ascii "s"
  batchSequence := sequence
  requestedFromMSC := 1
  requestedCount := 4
  fetchWallStartS := 0
  fetchWallEndS := 0
  fetchMonotonicStartUS := 0
  fetchMonotonicEndUS := 0
  returnedCount := Int32.ofNat times.length
  copyTicksError := 0
  sourceStatusFlags := 0
  sourceSchemaID := sourceSchemaMT5
  records := times.map smallTick

def smallVerified (sequence : UInt64) (times : List Int64) : VerifiedBatch where
  objectKey := rawWALObjectKey (Digest.ofBytes [7])
  objectSHA256 := Digest.ofBytes [7]
  gatewayIngestSequence := sequence
  frame := batchFrame mixingHashes (smallSource sequence times)
  selectedRecordOrdinals := (List.range times.length).map UInt32.ofNat

def smallScope : ReplayScope where
  datasetID := ascii "d"
  dayDefinitionID := ascii "u"
  date := ascii "2026-01-02"
  replayContractID := ascii "r"
  conversionID := ascii "c"
  rawDayManifestKey := ascii "raw/m"
  rawDayManifestSHA256 := Digest.ofBytes [9]

def smallReader (batches : List VerifiedBatch) : VerifiedBatchReader where
  replayScope := smallScope
  producerIdentity := smallIdentity
  maxRecords := 2
  batches := batches
  ending := .ok ()

def acceptRows : RowSink := fun _ _ => .ok ()

instance gap_reduces : Fact ((reduce mixingHashes (smallReader [smallVerified 1 [5], smallVerified 3 [7]]) acceptRows).toOption.any
      (fun out => decide ((markers out.2).length = 2 ∧ CollisionFree mixingHashes (hashedInputs mixingHashes out.2)))
        = true) := ⟨by decide +kernel⟩

/-- A batch lost between two others starts a second segment under an id of its own. -/
theorem reduce_wellFormed_gap : ∃ result rows,
    reduce mixingHashes (smallReader [smallVerified 1 [5], smallVerified 3 [7]]) acceptRows = .ok (result, rows) ∧
      (markers rows).length = 2 ∧ WellFormed mixingHashes rows ∧
      ((markers rows).map (·.continuitySegmentID)).Nodup := by
  obtain ⟨out, hout, hcheck⟩ := exists_ok_of_any gap_reduces.out
  obtain ⟨htwo, hfree⟩ := of_decide_eq_true hcheck
  obtain ⟨hwf, -, -, -, -, -, -, hdistinct⟩ := reduce_wellFormed hout
  exact ⟨out.1, out.2, hout, htwo, hwf, hdistinct hfree⟩

end TickPlatform.Continuity
