import TickPlatform.Parquet.Partition
import TickPlatform.Replay.PartRules

/-!
# What the parts say of their rows

The summaries of the parts of a conversion: their sequences count up, their row ranges and row chains join, and their
sizes are those of their rows.
-/

namespace TickPlatform.Parquet

open Bytes Protocol Replay Cuts

variable {F : FileFormat} {H : Hashes} {spec : ConversionSpec} {scope : ReplayScope}

/-- The summary of a part with the rows `group`, which starts at a row and a chain hash and ends at a chain hash. -/
structure Summarizes (H : Hashes) (scope : ReplayScope) (index start : Nat) (previous root : Digest)
    (group : List ReplayRow) (artifact : PartArtifact) : Prop where
  sequence : artifact.partSequence.toNat = index
  key : replayPartObjectKey H scope artifact.firstStreamSequence artifact.lastStreamSequence artifact.partSHA256 =
    .ok artifact.partKey
  bytes : artifact.partBytes ≠ 0
  rowCount : artifact.rowCount.toNat = group.length
  canonicalRowBytes : artifact.canonicalRowBytes.toNat = (group.map (canonicalSize H)).sum
  nonempty : 0 < artifact.canonicalRowBytes.toNat
  first : artifact.firstStreamSequence.toNat = start
  last : artifact.lastStreamSequence.toNat + 1 = start + group.length
  previousChain : artifact.previousRowChainHash = previous
  firstChain : ∃ input, artifact.firstRowChainHash = H.sha256 input
  lastChain : artifact.lastRowChainHash = root ∧ ∃ input, root = H.sha256 input

variable {index : Nat} {previous root : Digest} {start : Nat}

theorem Summarizes.length_pos {group : List ReplayRow} {artifact : PartArtifact}
    (h : Summarizes H scope index start previous root group artifact) : 0 < group.length := by
  have hpositive := h.nonempty
  rw [h.canonicalRowBytes] at hpositive
  cases group with
  | nil => cases hpositive
  | cons row rows => simp

/-- The summaries of the parts from an index, a row and a chain hash on. -/
inductive Summarized (H : Hashes) (scope : ReplayScope) :
    Nat → Nat → Digest → List (List ReplayRow) → List PartArtifact → Digest → Prop
  | nil (index start : Nat) (root : Digest) : Summarized H scope index start root [] [] root
  | cons {index start : Nat} {previous last root : Digest} {group : List ReplayRow} {groups : List (List ReplayRow)}
      {artifact : PartArtifact} {artifacts : List PartArtifact} :
      Summarizes H scope index start previous last group artifact →
      Summarized H scope (index + 1) (start + group.length) last groups artifacts root →
      Summarized H scope index start previous (group :: groups) (artifact :: artifacts) root

/-! ## One part -/

theorem planPart_eq_ok {sequence : UInt32} {rows : List BufferedRow} {part : PlannedPart}
    (h : planPart F H sequence scope spec rows = .ok part) :
    ∃ first final key, rows.head? = some first ∧ rows.getLast? = some final ∧
      F.write spec.createdBy spec.maxRowsPerRowGroup (rows.map (·.physical)) = some part.data ∧
      replayPartObjectKey H scope first.physical.streamSequence final.physical.streamSequence (H.sha256 part.data) =
        .ok key ∧
      part.artifact = partArtifact H sequence first final rows part.data key := by
  simp only [planPart, bind_eq_ok, pure_eq_ok, elim_eq_ok] at h
  obtain ⟨data, hwrite, artifact, hartifact, rfl⟩ := h
  unfold summarizePart at hartifact
  split at hartifact
  · next first final hfirst hfinal =>
    simp only [bind_eq_ok, pure_eq_ok] at hartifact
    obtain ⟨key, hkey, _, -, rfl⟩ := hartifact
    exact ⟨first, final, key, hfirst, hfinal, hwrite, hkey, rfl⟩
  · cases hartifact

theorem canonicalBytes_ne_nil {row : ReplayRow} {canonical : Bytes} (h : row.canonicalBytes H = .ok canonical) :
    canonical ≠ [] := by
  simp only [ReplayRow.canonicalBytes, bind_eq_ok, pure_eq_ok] at h
  obtain ⟨_, -, _, -, _, -, rfl⟩ := h
  simp

section
variable {start : Nat} {previous last : Digest} {rows : List BufferedRow} {first final : BufferedRow}

theorem Chained.head (h : Chained H start previous rows last) (hfirst : rows.head? = some first) :
    first.row.streamSequence.toNat = start ∧ Made H previous first := by
  obtain ⟨rest, rfl⟩ := List.head?_eq_some_iff.mp hfirst
  exact ⟨h.1, h.2.1⟩

theorem Chained.getLast (h : Chained H start previous rows last) (hfinal : rows.getLast? = some final) :
    final.row.streamSequence.toNat + 1 = start + rows.length ∧ final.chain = last ∧ ∃ before, Made H before final := by
  obtain ⟨front, rfl⟩ := List.getLast?_eq_some_iff.mp hfinal
  obtain ⟨middle, -, hplace, hmade, hend⟩ := chained_append.mp h
  refine ⟨?_, hend.symm, middle, hmade⟩
  rw [hplace, List.length_append, List.length_singleton, Nat.add_assoc]

theorem physicalRow_streamSequence {b : BufferedRow} (h : Made H previous b) :
    b.physical.streamSequence = b.row.streamSequence := by
  rw [h.physical]
  rfl

/-- A part made of chained rows within the limits is summarized rightly. -/
theorem summarizes_of_plan {index : Nat} (hindex : index < 4294967296) {part : PlannedPart}
    (hplan : planPart F H (UInt32.ofNat index) scope spec rows = .ok part)
    (hchained : Chained H start previous rows last) (hfits : Fits H spec (rows.map (·.row))) :
    Summarizes H scope index start previous last (rows.map (·.row)) part.artifact := by
  obtain ⟨first, final, key, hfirst, hfinal, hwrite, hkey, hartifact⟩ := planPart_eq_ok hplan
  obtain ⟨hstart, hmade⟩ := hchained.head hfirst
  obtain ⟨hend, hlast, before, hmade'⟩ := hchained.getLast hfinal
  obtain ⟨hpositive, hsize⟩ := F.size_write hwrite
  obtain ⟨hrows, hbytes⟩ := hfits
  rw [hchained.size] at hbytes
  rw [List.length_map] at hrows
  have hword : UInt64.size = 18446744073709551616 := rfl
  have hmaxRows := spec.maxRowsPerPart.toNat_lt
  have hmaxBytes := spec.maxCanonicalBytesPerPart.toNat_lt
  have hcanonical : (UInt64.ofNat (rowBytes rows)).toNat = rowBytes rows := UInt64.toNat_ofNat_of_lt' (by omega)
  rw [hartifact]
  refine ⟨?_, hkey, ?_, ?_, ?_, ?_, ?_, ?_, ?_, ?_, ?_⟩
  · exact UInt32.toNat_ofNat_of_lt' hindex
  · show UInt64.ofNat part.data.length ≠ 0
    intro hzero
    have hnat := congrArg UInt64.toNat hzero
    rw [UInt64.toNat_ofNat_of_lt' (by omega)] at hnat
    exact absurd hnat hpositive.ne'
  · show (UInt64.ofNat rows.length).toNat = _
    rw [UInt64.toNat_ofNat_of_lt' (by omega), List.length_map]
  · show (UInt64.ofNat (rowBytes rows)).toNat = _
    rw [hcanonical, hchained.size]
  · show 0 < (UInt64.ofNat (rowBytes rows)).toNat
    rw [hcanonical]
    obtain ⟨rest, rfl⟩ := List.head?_eq_some_iff.mp hfirst
    have hne := List.length_pos_of_ne_nil (canonicalBytes_ne_nil hmade.canonical)
    simp only [rowBytes, List.map_cons, List.sum_cons]
    omega
  · show first.physical.streamSequence.toNat = start
    rw [physicalRow_streamSequence hmade, hstart]
  · show final.physical.streamSequence.toNat + 1 = _
    rw [physicalRow_streamSequence hmade', hend, List.length_map]
  · show first.physical.previousRowChainHash = previous
    rw [hmade.physical]
    rfl
  · exact ⟨_, hmade.chain⟩
  · exact ⟨hlast, _, hlast.symm.trans hmade'.chain⟩

end

/-! ## All parts -/

theorem summarized_of_plans {groups : List (List BufferedRow)} {written : List PlannedPart}
    (hplans : List.Forall₂ (fun group part => planPart F H (UInt32.ofNat group.2) scope spec group.1 = .ok part)
      (groups.zipIdx index) written)
    (hcount : index + groups.length ≤ 4294967296) (hfits : ∀ group ∈ groups, Fits H spec (group.map (·.row)))
    (hchained : Chained H start previous groups.flatten root) :
    Summarized H scope index start previous (replayRows groups) (written.map (·.artifact)) root := by
  induction groups generalizing written index start previous with
  | nil =>
    cases hplans
    cases hchained
    exact .nil index start root
  | cons group groups ih =>
    rw [List.zipIdx_cons] at hplans
    cases hplans with
    | cons hplan hplans =>
      rw [List.flatten_cons, chained_append] at hchained
      obtain ⟨middle, hgroup, hrest⟩ := hchained
      rw [List.forall_mem_cons] at hfits
      rw [List.length_cons] at hcount
      refine .cons (summarizes_of_plan (by omega) hplan hgroup hfits.1) ?_
      rw [List.length_map]
      exact ih hplans (by omega) hfits.2 hrest

/-- The rows of a part, as its summary gives them. -/
def streamRange (artifact : PartArtifact) : List Nat :=
  List.range' artifact.firstStreamSequence.toNat
    (artifact.lastStreamSequence.toNat + 1 - artifact.firstStreamSequence.toNat)

theorem Summarized.flatMap_streamRange {groups : List (List ReplayRow)}
    {artifacts : List PartArtifact} (h : Summarized H scope index start previous groups artifacts root) :
    artifacts.flatMap streamRange = List.range' start groups.flatten.length := by
  induction h with
  | nil => rfl
  | @cons _ start _ _ _ group _ artifact _ hpart _ ih =>
    have hrange : streamRange artifact = List.range' start group.length := by
      rw [streamRange, hpart.last, hpart.first, Nat.add_sub_cancel_left]
    rw [List.flatMap_cons, ih, hrange, List.flatten_cons, List.length_append, List.range'_append_1]

/-- **Every conversion that ends well is a greedy cut of its rows, and its parts are summarized rightly.** -/
theorem summarized_of_converts {rows : List ReplayRow} {parts : List PlannedPart} {result : GenerationResult}
    (h : Converts F H spec scope rows parts result) :
    ∃ groups, groups.flatten = rows ∧ Cut (Fits H spec) groups ∧
      Summarized H scope 0 0 Digest.zero groups result.parts result.rowChainRoot ∧
      result.parts = parts.map (·.artifact) ∧ rowChainRoot H rows = .ok result.rowChainRoot := by
  obtain ⟨closed, groups, hclosed, hempty, hspec, hscope, rfl⟩ := filled_of_converts h
  have hplans := hclosed.planned
  have hcut := hclosed.cut
  have hchained := hclosed.chained
  have hrows := hclosed.rows
  rw [hempty, List.append_nil] at hchained hrows
  rw [hempty, pending_nil, List.append_nil, hspec] at hcut
  rw [hspec, hscope] at hplans
  have hfits : ∀ group ∈ groups, Fits H spec (group.map (·.row)) :=
    fun group hgroup => hcut.within _ (List.mem_map_of_mem hgroup)
  refine ⟨replayRows groups, ?_, hcut, ?_, hclosed.parts, ?_⟩
  · rw [flatten_replayRows]
    exact hrows
  · show Summarized H scope 0 0 Digest.zero _ closed.parts closed.rowChainRoot
    rw [hclosed.parts]
    refine summarized_of_plans hplans ?_ hfits hchained
    rw [Nat.zero_add]
    exact hclosed.counted
  · rw [← hrows]
    exact hchained.rowChainFrom

theorem planned_of_converts {rows : List ReplayRow} {parts : List PlannedPart} {result : GenerationResult}
    (h : Converts F H spec scope rows parts result) :
    ∀ part ∈ parts, ∃ sequence group, planPart F H sequence scope spec group = .ok part := by
  obtain ⟨closed, groups, hclosed, -, rfl, rfl, -⟩ := filled_of_converts h
  intro part hpart
  obtain ⟨group, -, hplan⟩ := exists_left_of_mem hclosed.planned hpart
  exact ⟨_, _, hplan⟩

end TickPlatform.Parquet
