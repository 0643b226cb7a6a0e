import TickPlatform.Cuts
import TickPlatform.Parquet.Written
import TickPlatform.Replay.Chain

/-!
# How the rows are cut into parts

The generator cuts the stream greedily: a part ends where the next row does not fit. The rows keep their order, their
places are their numbers in the stream, and the row chain runs through all parts.
-/

namespace TickPlatform.Parquet

open Bytes Protocol Replay Cuts

variable {F : FileFormat} {H : Hashes}

/-! ## Rows -/

/-- A row as `makeParquetRow` makes it after the chain hash `previous`. -/
structure Made (H : Hashes) (previous : Digest) (b : BufferedRow) : Prop where
  canonical : b.row.canonicalBytes H = .ok b.canonical
  place : b.row.streamSequence ≠ Wal.maxUint64
  chain : b.chain = rowChainStep H b.row.streamSequence previous b.canonical
  physical : b.physical = physicalRow b.row previous b.chain

variable {b : BufferedRow} {previous : Digest}

theorem made_of_makeParquetRow {row : ReplayRow}
    (h : makeParquetRow H row previous = .ok b) : b.row = row ∧ Made H previous b := by
  simp only [makeParquetRow, bind_eq_ok, reject_eq_ok, pure_eq_ok] at h
  obtain ⟨canonical, hcanonical, _, hplace, rfl⟩ := h
  exact ⟨rfl, hcanonical, hplace, rfl, rfl⟩

/-- Rows one after the other from a place and a chain hash on, up to the last chain hash. -/
def Chained (H : Hashes) : Nat → Digest → List BufferedRow → Digest → Prop
  | _, previous, [], last => last = previous
  | n, previous, b :: rows, last => b.row.streamSequence.toNat = n ∧ Made H previous b ∧ Chained H (n + 1) b.chain rows last

variable {last : Digest} {n : Nat}

theorem chained_append {xs ys : List BufferedRow} : Chained H n previous (xs ++ ys) last ↔
      ∃ middle, Chained H n previous xs middle ∧ Chained H (n + xs.length) middle ys last := by
  induction xs generalizing n previous with
  | nil => simp [Chained]
  | cons b xs ih =>
    simp only [List.cons_append, Chained, ih, List.length_cons]
    rw [show n + (xs.length + 1) = n + 1 + xs.length by omega]
    simp only [exists_and_left, and_assoc]

theorem Chained.rowChainFrom {rows : List BufferedRow}
    (h : Chained H n previous rows last) : rowChainFrom H n previous (rows.map (·.row)) = .ok last := by
  induction rows generalizing n previous with
  | nil =>
    rw [h]
    rfl
  | cons b rows ih =>
    obtain ⟨hplace, hmade, hrest⟩ := h
    have hsequence : b.row.streamSequence = UInt64.ofNat n := by rw [← hplace, UInt64.ofNat_toNat]
    have hnext := ih hrest
    rw [hmade.chain] at hnext
    simp only [List.map_cons, Replay.rowChainFrom, bind_eq_ok, reject_eq_ok, not_not]
    exact ⟨(), hsequence, b.canonical, hmade.canonical, hnext⟩

/-! ## Limits -/

def canonicalSize (H : Hashes) (row : ReplayRow) : Nat := ((row.canonicalBytes H).toOption.getD []).length

/-- The limits of a part. -/
def Fits (H : Hashes) (spec : ConversionSpec) (group : List ReplayRow) : Prop :=
  group.length ≤ spec.maxRowsPerPart.toNat ∧
    (group.map (canonicalSize H)).sum ≤ spec.maxCanonicalBytesPerPart.toNat

theorem Made.size (h : Made H previous b) : canonicalSize H b.row = b.canonical.length := by
  rw [canonicalSize, h.canonical]
  rfl

theorem Chained.size {rows : List BufferedRow} (h : Chained H n previous rows last) :
    ((rows.map (·.row)).map (canonicalSize H)).sum = rowBytes rows := by
  induction rows generalizing n previous with
  | nil => rfl
  | cons b rows ih =>
    obtain ⟨-, hmade, hrest⟩ := h
    have htail := ih hrest
    simp only [List.map_cons, List.sum_cons, rowBytes] at htail ⊢
    rw [htail, hmade.size]

/-! ## The generator -/

/-- The buffered rows as a group of their own, once there are any. -/
def pending (rows : List BufferedRow) : List (List BufferedRow) := if rows = [] then [] else [rows]

theorem pending_nil : pending [] = [] := rfl

theorem pending_of_ne {rows : List BufferedRow} (h : rows ≠ []) : pending rows = [rows] := if_neg h

/-- The rows of the groups, without what the generator keeps beside them. -/
def replayRows (groups : List (List BufferedRow)) : List (List ReplayRow) := groups.map fun group => group.map (·.row)

theorem replayRows_append (xs ys : List (List BufferedRow)) : replayRows (xs ++ ys) = replayRows xs ++ replayRows ys :=
  List.map_append

theorem flatten_replayRows (groups : List (List BufferedRow)) :
    (replayRows groups).flatten = groups.flatten.map (·.row) := by
  rw [replayRows, List.map_flatten]

theorem Generator.checkRow_eq_ok {g : Generator} {row : ReplayRow} (h : g.checkRow H row = .ok b) :
    b.row = row ∧ row.streamSequence = g.rowCount ∧ Made H g.rowChainRoot b ∧
      b.canonical.length ≤ g.spec.maxCanonicalBytesPerPart.toNat := by
  simp only [Generator.checkRow, bind_eq_ok, reject_eq_ok, pure_eq_ok, mapError_eq_ok, not_not, not_lt] at h
  obtain ⟨_, -, _, -, _, hplace, _, hmake, _, hsize, rfl⟩ := h
  obtain ⟨hrow, hmade⟩ := made_of_makeParquetRow hmake
  exact ⟨hrow, hplace, hmade, hsize⟩

/-- A generator that has taken rows and written parts: the groups of the written parts, and the buffer after them. -/
structure Filled (F : FileFormat) (H : Hashes) (g : Generator) (taken : List ReplayRow) (written : List PlannedPart)
    (groups : List (List BufferedRow)) : Prop where
  parts : g.parts = written.map (·.artifact)
  planned : List.Forall₂ (fun group part => planPart F H (UInt32.ofNat group.2) g.scope g.spec group.1 = .ok part)
    groups.zipIdx written
  counted : groups.length ≤ 4294967296
  cut : Cut (Fits H g.spec) (replayRows (groups ++ pending g.rows))
  rows : (groups.flatten ++ g.rows).map (·.row) = taken
  chained : Chained H 0 Digest.zero (groups.flatten ++ g.rows) g.rowChainRoot
  count : g.rowCount.toNat = taken.length
  bytes : g.canonicalBytes = rowBytes g.rows

variable {g g' : Generator} {taken : List ReplayRow} {written : List PlannedPart} {groups : List (List BufferedRow)}
  {row : ReplayRow} {rows : List ReplayRow} {parts : List PlannedPart}

theorem filled_start {spec : ConversionSpec} {scope : ReplayScope} (h : newGenerator H spec scope = .ok g) :
    Filled F H g [] [] [] := by
  rw [(newGenerator_eq_ok h).2.2.2.2]
  exact ⟨rfl, .nil, Nat.zero_le _, cut_nil, rfl, rfl, rfl, rfl⟩

theorem Filled.flushed (h : Filled F H g taken written groups) (hflush : g.Flushes F H parts g') :
    Filled F H g' taken (written ++ parts) (groups ++ pending g.rows) ∧ g'.rows = [] := by
  cases hflush with
  | empty hrows =>
    rw [hrows, pending_nil, List.append_nil, List.append_nil]
    exact ⟨h, rfl⟩
  | @part part hrows hcount hplan =>
    rw [pending_of_ne hrows]
    have hlength : groups.length = g.parts.length := by
      have hsame := h.planned.length_eq
      rw [List.length_zipIdx] at hsame
      rw [h.parts, List.length_map, hsame]
    refine ⟨⟨?_, ?_, ?_, ?_, ?_, ?_, h.count, rfl⟩, rfl⟩
    · rw [List.map_append, ← h.parts]
      rfl
    · rw [List.zipIdx_append]
      refine List.rel_append h.planned (.cons ?_ .nil)
      show planPart F H (UInt32.ofNat (0 + groups.length)) g.scope g.spec g.rows = .ok part
      rw [Nat.zero_add, hlength]
      exact hplan
    · rw [List.length_append, List.length_singleton, hlength]
      omega
    · have hcut := h.cut
      rw [pending_of_ne hrows] at hcut
      rw [show (g.addPart part.artifact).rows = [] from rfl, pending_nil, List.append_nil]
      exact hcut
    · rw [← h.rows]
      simp [Generator.addPart]
    · have hchained := h.chained
      simp only [Generator.addPart, List.flatten_append, List.flatten_singleton, List.append_nil]
      exact hchained

theorem toNat_succ_of_ne {n : UInt64} (h : n ≠ Wal.maxUint64) : (n + 1).toNat = n.toNat + 1 := by
  have hlt : n.toNat ≠ 18446744073709551615 := fun heq => h (UInt64.toNat_inj.mp heq)
  have := n.toNat_lt
  rw [UInt64.toNat_add]
  simp
  omega

/-- A row that the cut allows joins the buffer. -/
theorem Filled.added (h : Filled F H g taken written groups) (hrow : b.row = row)
    (hplace : row.streamSequence = g.rowCount) (hmade : Made H g.rowChainRoot b)
    (hcut : Cut (Fits H g.spec) (replayRows (groups ++ [g.rows ++ [b]]))) :
    Filled F H (g.addRow b) (taken ++ [row]) written groups := by
  have hrows : (g.addRow b).rows = g.rows ++ [b] := rfl
  have hsequence : b.row.streamSequence.toNat = taken.length := by rw [hrow, hplace, h.count]
  refine ⟨h.parts, h.planned, h.counted, ?_, ?_, ?_, ?_, ?_⟩
  · rw [hrows, pending_of_ne (by simp)]
    exact hcut
  · rw [hrows, ← List.append_assoc, List.map_append, h.rows, List.map_singleton, hrow]
  · have hlength : (groups.flatten ++ g.rows).length = taken.length := by rw [← h.rows, List.length_map]
    rw [hrows, ← List.append_assoc, chained_append]
    refine ⟨g.rowChainRoot, h.chained, ?_, hmade, rfl⟩
    rw [Nat.zero_add, hlength, hsequence]
  · have hnext : g.rowCount ≠ Wal.maxUint64 := by
      rw [← hplace, ← hrow]
      exact hmade.place
    show (g.rowCount + 1).toNat = (taken ++ [row]).length
    rw [toNat_succ_of_ne hnext, h.count, List.length_append, List.length_singleton]
  · show g.canonicalBytes + b.canonical.length = rowBytes (g.rows ++ [b])
    rw [h.bytes, rowBytes, rowBytes, List.map_append, List.sum_append, List.map_singleton, List.sum_singleton]

theorem Filled.fits_added (h : Filled F H g taken written groups) (hmade : Made H g.rowChainRoot b) :
    Fits H g.spec ((g.rows ++ [b]).map (·.row)) ↔ g.rows.length + 1 ≤ g.spec.maxRowsPerPart.toNat ∧
      g.canonicalBytes + b.canonical.length ≤ g.spec.maxCanonicalBytesPerPart.toNat := by
  obtain ⟨_, -, hbuffer⟩ := chained_append.mp h.chained
  rw [Fits, List.map_append, List.length_append, List.map_append, List.sum_append, hbuffer.size, h.bytes]
  simp [hmade.size]

/-- One row: the parts written for it are the group before it, and it ends up in the buffer. -/
theorem Filled.takes (h : Filled F H g taken written groups) (hidle : g.rows = [] → groups = [])
    (htakes : g.Takes F H row parts g') :
    ∃ groups', Filled F H g' (taken ++ [row]) (written ++ parts) groups' ∧ g'.rows ≠ [] := by
  cases htakes with
  | @fits b hcheck hfull hspace =>
    obtain ⟨hrow, hplace, hmade, hsize⟩ := Generator.checkRow_eq_ok hcheck
    have hbytes : g.canonicalBytes + b.canonical.length ≤ g.spec.maxCanonicalBytesPerPart.toNat := by
      by_cases hempty : g.rows = []
      · rw [h.bytes, hempty]
        simpa [rowBytes] using hsize
      · simp only [Generator.isFull, decide_eq_false_iff_not, not_and, not_or, not_le, not_lt] at hfull
        have := (hfull hempty).2
        omega
    have hfits := (h.fits_added hmade).mpr ⟨hspace, hbytes⟩
    refine ⟨groups, ?_, by simp [Generator.addRow]⟩
    rw [List.append_nil]
    refine h.added hrow hplace hmade ?_
    by_cases hempty : g.rows = []
    · rw [hempty] at hfits ⊢
      rw [hidle hempty]
      exact cut_nil.start hfits (by simp)
    · have hcut := h.cut
      rw [pending_of_ne hempty, replayRows_append] at hcut
      rw [replayRows_append]
      have := hcut.extend (x := b.row) (by simpa using hfits)
      simpa [replayRows] using this
  | @starts b _ flushed hcheck hfull hflush hspace =>
    obtain ⟨hrow, hplace, hmade, hsize⟩ := Generator.checkRow_eq_ok hcheck
    simp only [Generator.isFull, decide_eq_true_eq] at hfull
    have hover : ¬ Fits H g.spec ((g.rows ++ [b]).map (·.row)) := by
      rw [h.fits_added hmade]
      omega
    obtain ⟨hflushed, hrows⟩ := h.flushed hflush
    cases hflush with
    | empty hempty => exact absurd hempty hfull.1
    | part =>
      refine ⟨_, hflushed.added hrow hplace hmade ?_, by simp [Generator.addRow]⟩
      have hsingle : Fits H g.spec [b.row] := ⟨hspace, by simpa [hmade.size] using hsize⟩
      have hcut := h.cut
      rw [pending_of_ne hfull.1] at hcut
      rw [hrows, pending_of_ne hfull.1, replayRows_append]
      refine hcut.start hsingle fun last hlast => ?_
      rw [replayRows_append, List.getLast?_append] at hlast
      cases hlast
      simpa using hover

theorem Filled.takesAll (h : Filled F H g taken written groups) (hidle : g.rows = [] → groups = [])
    (htakes : Generator.TakesAll F H g rows parts g') :
    ∃ groups', Filled F H g' (taken ++ rows) (written ++ parts) groups' := by
  induction htakes generalizing taken written groups with
  | nil g => exact ⟨groups, by rwa [List.append_nil, List.append_nil]⟩
  | cons htake _ ih =>
    obtain ⟨groups', hfilled, hrows⟩ := h.takes hidle htake
    obtain ⟨groups'', hall⟩ := ih hfilled fun hempty => absurd hempty hrows
    rw [List.append_assoc, List.append_assoc] at hall
    exact ⟨groups'', hall⟩

theorem filled_of_converts {spec : ConversionSpec} {scope : ReplayScope} {result : GenerationResult}
    (h : Converts F H spec scope rows parts result) :
    ∃ closed groups, Filled F H closed rows parts groups ∧ closed.rows = [] ∧ closed.spec = spec ∧ closed.scope = scope ∧
      result = closed.result := by
  obtain ⟨start, filled, closed, written, rest, hstart, htakes, -, hflushes, rfl, rfl⟩ := h
  obtain ⟨-, -, -, -, hinitial⟩ := newGenerator_eq_ok hstart
  obtain ⟨groups, hfilled⟩ := (filled_start (F := F) hstart).takesAll (fun _ => rfl) htakes
  rw [List.nil_append, List.nil_append] at hfilled
  have hclosing : Filled F H { filled with closed := true } rows written groups :=
    ⟨hfilled.parts, hfilled.planned, hfilled.counted, hfilled.cut, hfilled.rows, hfilled.chained, hfilled.count,
      hfilled.bytes⟩
  obtain ⟨hclosed, hempty⟩ := hclosing.flushed hflushes
  rw [hinitial] at htakes
  exact ⟨closed, _, hclosed, hempty, hflushes.binding.1.trans htakes.binding.1,
    hflushes.binding.2.trans htakes.binding.2, rfl⟩

end TickPlatform.Parquet
