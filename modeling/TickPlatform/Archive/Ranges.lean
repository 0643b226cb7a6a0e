import TickPlatform.Archive.Selection
import TickPlatform.Archive.Valid

/-!
# The ranges of a selection

The ranges that a selection lists are valid and ascend, and the objects of its slice make a valid chain.
-/

namespace TickPlatform.Archive

open Bytes Protocol Replay Wal

/-! ## Runs of ordinals -/

/-- The runs of ascending ordinals ascend, and the first begins with the first ordinal. -/
theorem ordinalRuns_spec {ordinals : List UInt32} (h : ordinals.Pairwise (· < ·)) :
    (ordinalRuns ordinals).Pairwise (fun a b => a.2 < b.1) ∧ (∀ run ∈ ordinalRuns ordinals, run.1 ≤ run.2) ∧
      (ordinalRuns ordinals).head?.map (·.1) = ordinals.head? := by
  induction ordinals with
  | nil => simp [ordinalRuns]
  | cons ordinal rest ih =>
    rw [List.pairwise_cons] at h
    obtain ⟨hruns, horder, hhead⟩ := ih h.2
    rw [ordinalRuns]
    cases hcase : ordinalRuns rest with
    | nil => simp
    | cons run runs =>
      obtain ⟨first, last⟩ := run
      rw [hcase] at hruns horder hhead
      have hmem : first ∈ rest := by
        rw [List.head?_cons, Option.map_some] at hhead
        exact List.mem_of_mem_head? hhead.symm
      have hlt := h.1 first hmem
      have hle := horder (first, last) List.mem_cons_self
      rw [List.pairwise_cons] at hruns
      dsimp only
      split
      · refine ⟨List.pairwise_cons.mpr hruns, List.forall_mem_cons.mpr ⟨?_, ?_⟩, rfl⟩
        · exact UInt32.le_of_lt (UInt32.lt_of_lt_of_le hlt hle)
        · exact (List.forall_mem_cons.mp horder).2
      · refine ⟨List.pairwise_cons.mpr ⟨List.forall_mem_cons.mpr ⟨hlt, ?_⟩, List.pairwise_cons.mpr hruns⟩,
          List.forall_mem_cons.mpr ⟨UInt32.le_refl _, horder⟩, rfl⟩
        intro later hlater
        exact UInt32.lt_trans (UInt32.lt_of_lt_of_le hlt hle) (hruns.1 later hlater)

theorem ordinalRuns_ne_nil {ordinals : List UInt32} (h : ordinals ≠ []) : ordinalRuns ordinals ≠ [] := by
  cases ordinals with
  | nil => exact absurd rfl h
  | cons ordinal rest =>
    rw [ordinalRuns]
    split
    · simp
    · split <;> simp

theorem selectedOrdinals_pairwise (date : Bytes) {batch : BatchFrameV1} (h : batch.records.length < 4294967296) :
    (selectedOrdinals date batch).Pairwise (· < ·) := by
  unfold selectedOrdinals
  split
  · split <;> simp
  · have hindices : (batch.records.zipIdx.map (·.2)).Pairwise (· < ·) := by
      rw [List.zipIdx_map_snd]
      exact List.pairwise_lt_range'
    rw [List.pairwise_map] at hindices ⊢
    refine (hindices.filter _).imp_of_mem fun {a b} ha hb hab => ?_
    have hbound : ∀ x ∈ batch.records.zipIdx, x.2 < 4294967296 := by
      intro x hx
      have := (List.mem_zipIdx hx).2.1
      omega
    have hsmall := hbound a (List.mem_of_mem_filter ha)
    have hsmall' := hbound b (List.mem_of_mem_filter hb)
    rw [UInt32.lt_iff_toNat_lt, UInt32.toNat_ofNat', UInt32.toNat_ofNat']
    omega

/-! ## Ranges -/

/-- The object is named by its hash and has the size of its file. -/
structure Named (object : RawObject) : Prop where
  key : object.key = rawWALObjectKey object.sha256
  bytes : object.bytes = object.segment.fileBytes

theorem size_ne_zero {H : Hashes} {object : RawObject} (h : SegmentRun H object.segment) (hnamed : Named object) :
    UInt64.ofNat object.bytes ≠ 0 := by
  have hbytes := h.bytes
  have hsize := h.size
  rw [hnamed.bytes]
  intro hzero
  have := congrArg UInt64.toNat hzero
  rw [UInt64.toNat_ofNat'] at this
  simp at this
  omega

section
variable {H : Hashes} {objects : List RawObject} {date : Bytes}

theorem mem_hitRanges {hit : Hit} {range : RawObjectRange} (h : range ∈ hitRanges date hit) :
    ∃ run ∈ ordinalRuns (selectedOrdinals date hit.batch), range = runRange hit.object hit.entry.sequence run := by
  obtain ⟨run, hrun, rfl⟩ := List.mem_map.mp h
  exact ⟨run, hrun, rfl⟩

variable {place : RawObject × Entry}

/-- Of the ranges of numbered places, those of one place. -/
theorem filter_hitRanges {places : List (RawObject × Entry)}
    (hordered : (places.map (·.2)).Pairwise fun a b => a.sequence.toNat < b.sequence.toNat)
    (hplace : place ∈ places) {p : RawObjectRange → Bool} (hown : ∀ run, p (runRange place.1 place.2.sequence run) = true)
    (hother : ∀ object sequence run, sequence ≠ place.2.sequence → p (runRange object sequence run) = false) :
    ((places.filterMap (hit? H date)).flatMap (hitRanges date)).filter p =
      (hit? H date place).elim [] (hitRanges date) := by
  rw [List.pairwise_map] at hordered
  have hnodup : places.Nodup := hordered.imp fun hlt heq => absurd (heq ▸ hlt) (Nat.lt_irrefl _)
  rw [Lists.flatMap_filterMap]
  refine Lists.filter_flatMap_of_mem hplace hnodup ?_ ?_
  · intro range hrange
    cases hhit : hit? H date place with
    | none => simp [hhit] at hrange
    | some hit =>
      rw [hhit, Option.elim_some] at hrange
      obtain ⟨run, -, rfl⟩ := mem_hitRanges hrange
      obtain ⟨hobject, hentry, -, -⟩ := hit?_eq_some.mp hhit
      rw [hobject, hentry]
      exact hown run
  · intro other hmem hne range hrange
    cases hhit : hit? H date other with
    | none => simp [hhit] at hrange
    | some hit =>
      rw [hhit, Option.elim_some] at hrange
      obtain ⟨run, -, rfl⟩ := mem_hitRanges hrange
      obtain ⟨-, hentry, -, -⟩ := hit?_eq_some.mp hhit
      have hdistinct : (places.map fun place => place.2.sequence).Nodup := by
        rw [List.Nodup, List.pairwise_map]
        exact hordered.imp fun hlt heq => absurd (congrArg UInt64.toNat heq) (Nat.ne_of_lt hlt)
      refine hother hit.object hit.entry.sequence run fun heq => hne ?_
      rw [hentry] at heq
      exact List.inj_on_of_nodup_map hdistinct hmem hplace heq

theorem hitRanges_valid (h : Contiguous H objects) (hnamed : ∀ object ∈ objects, Named object)
    (hlimit : ∀ hit ∈ hitsIn H date 0 0 objects, hit.batch.records.length < 4294967296) :
    ∀ range ∈ (hitsIn H date 0 0 objects).flatMap (hitRanges date), RangeValid range := by
  intro range hrange
  obtain ⟨hit, hhit, hrange⟩ := List.mem_flatMap.mp hrange
  obtain ⟨run, hrun, rfl⟩ := mem_hitRanges hrange
  have hplace := (mem_hits hhit).1
  have hobject := (mem_located.mp hplace).1
  refine ⟨(hnamed _ hobject).key, size_ne_zero (h.segments _ hobject) (hnamed _ hobject), h.number hplace,
    UInt64.le_refl _, fun _ => ?_⟩
  exact (ordinalRuns_spec (selectedOrdinals_pairwise date (hlimit hit hhit))).2.1 run hrun

theorem hitRanges_pairwise (h : Contiguous H objects)
    (hlimit : ∀ hit ∈ hitsIn H date 0 0 objects, hit.batch.records.length < 4294967296) :
    ((hitsIn H date 0 0 objects).flatMap (hitRanges date)).Pairwise Before := by
  rw [List.pairwise_flatMap]
  constructor
  · intro hit hhit
    rw [hitRanges, List.pairwise_map]
    refine (ordinalRuns_spec (selectedOrdinals_pairwise date (hlimit hit hhit))).1.imp fun {a b} hab => ?_
    simp [Before, coordinateLT, RawObjectRange.last, RawObjectRange.first, runRange, hab]
  · refine (hits_pairwise h date).imp fun {a b} hab range hrange later hlater => ?_
    obtain ⟨run, -, rfl⟩ := mem_hitRanges hrange
    obtain ⟨run', -, rfl⟩ := mem_hitRanges hlater
    have hlt : a.entry.sequence < b.entry.sequence := UInt64.lt_iff_toNat_lt.mpr hab
    simp [Before, coordinateLT, RawObjectRange.last, RawObjectRange.first, runRange, hlt]

theorem hitRanges_ne_nil {hits : List Hit} (hne : hits ≠ [])
    (hordinals : ∀ hit ∈ hits, selectedOrdinals date hit.batch ≠ []) : hits.flatMap (hitRanges date) ≠ [] := by
  obtain ⟨hit, hhit⟩ := List.exists_mem_of_ne_nil _ hne
  have hruns := ordinalRuns_ne_nil (hordinals hit hhit)
  intro hnone
  rw [List.flatMap_eq_nil_iff] at hnone
  exact hruns (List.map_eq_nil_iff.mp (hnone hit hhit))

/-! ## The chain objects of a slice -/

theorem head?_slice (h : Contiguous H objects) (hplace : place ∈ located objects)
    {endSequence : UInt64} (hle : place.2.sequence ≤ endSequence) :
    (objects.filter (meets place.2.sequence endSequence)).head? = some place.1 := by
  obtain ⟨hobject, hentry⟩ := mem_located.mp hplace
  obtain ⟨front, back, hsplit⟩ := List.append_of_mem hobject
  have hwithin := (h.segments _ hobject).within hentry
  have hordered := h.pairwise
  rw [hsplit, List.pairwise_append] at hordered
  have hfront : front.filter (meets place.2.sequence endSequence) = [] := by
    rw [List.filter_eq_nil_iff]
    intro object hmem hmeets
    have hlt := hordered.2.2 object hmem place.1 List.mem_cons_self
    rw [meets, Bool.and_eq_true, decide_eq_true_eq] at hmeets
    exact absurd (UInt64.lt_of_lt_of_le hlt (UInt64.le_trans hwithin.1 hmeets.1)) (UInt64.lt_irrefl _)
  have hmeets : meets place.2.sequence endSequence place.1 = true := by
    rw [meets, Bool.and_eq_true, decide_eq_true_eq, decide_eq_true_eq]
    exact ⟨hwithin.2, UInt64.le_trans hwithin.1 hle⟩
  rw [hsplit, List.filter_append, hfront, List.nil_append, List.filter_cons_of_pos hmeets, List.head?_cons]

theorem getLast?_slice (h : Contiguous H objects) (hplace : place ∈ located objects)
    {startSequence : UInt64} (hle : startSequence ≤ place.2.sequence) :
    (objects.filter (meets startSequence place.2.sequence)).getLast? = some place.1 := by
  obtain ⟨hobject, hentry⟩ := mem_located.mp hplace
  obtain ⟨front, back, hsplit⟩ := List.append_of_mem hobject
  have hwithin := (h.segments _ hobject).within hentry
  have hordered := h.pairwise
  rw [hsplit, List.pairwise_append] at hordered
  have hback : back.filter (meets startSequence place.2.sequence) = [] := by
    rw [List.filter_eq_nil_iff]
    intro object hmem hmeets
    have hlt := (List.pairwise_cons.mp hordered.2.1).1 object hmem
    rw [meets, Bool.and_eq_true, decide_eq_true_eq, decide_eq_true_eq] at hmeets
    exact absurd (UInt64.lt_of_lt_of_le hlt (UInt64.le_trans hmeets.2 hwithin.2)) (UInt64.lt_irrefl _)
  have hmeets : meets startSequence place.2.sequence place.1 = true := by
    rw [meets, Bool.and_eq_true, decide_eq_true_eq, decide_eq_true_eq]
    exact ⟨UInt64.le_trans hle hwithin.2, hwithin.1⟩
  rw [hsplit, List.filter_append, List.filter_cons_of_pos hmeets, hback, List.getLast?_append, List.getLast?_singleton,
    Option.some_or]

theorem isChain_chainObject {slice : List RawObject} (h : slice.IsChain Continues) :
    (slice.map chainObject).IsChain Adjacent := by
  rw [List.isChain_map]
  exact h.imp fun _ _ hcontinues => ⟨hcontinues.1, hcontinues.2.1⟩

theorem filter_sameObject {chain : List RawChainObject} (hkeys : (chain.map (·.key)).Nodup) {object : RawChainObject}
    (hobject : object ∈ chain) {range : RawObjectRange} (hsame : sameObject range object = true) :
    chain.filter (sameObject range) = [object] := by
  have hkey : ∀ other, sameObject range other = true → other.key = object.key := by
    intro other hother
    simp only [sameObject, decide_eq_true_eq] at hsame hother
    rw [← hsame.1, hother.1]
  obtain ⟨front, back, rfl⟩ := List.append_of_mem hobject
  rw [List.map_append, List.map_cons, List.nodup_append, List.nodup_cons] at hkeys
  have hfront : front.filter (sameObject range) = [] := by
    rw [List.filter_eq_nil_iff]
    intro other hother hsame'
    exact hkeys.2.2 other.key (List.mem_map_of_mem hother) object.key List.mem_cons_self (hkey other hsame')
  have hback : back.filter (sameObject range) = [] := by
    rw [List.filter_eq_nil_iff]
    intro other hother hsame'
    exact hkeys.2.1.1 (hkey other hsame' ▸ List.mem_map_of_mem hother)
  rw [List.filter_append, hfront, List.nil_append, List.filter_cons_of_pos hsame, hback]

theorem mem_slice {startSequence endSequence : UInt64} (h : Contiguous H objects)
    (hplace : place ∈ located objects) (hlow : startSequence ≤ place.2.sequence) (hhigh : place.2.sequence ≤ endSequence) :
    place.1 ∈ objects.filter (meets startSequence endSequence) := by
  obtain ⟨hobject, hentry⟩ := mem_located.mp hplace
  have hwithin := (h.segments _ hobject).within hentry
  refine List.mem_filter.mpr ⟨hobject, ?_⟩
  rw [meets, Bool.and_eq_true, decide_eq_true_eq, decide_eq_true_eq]
  exact ⟨UInt64.le_trans hlow hwithin.2, UInt64.le_trans hwithin.1 hhigh⟩

theorem validChain_of_hits (h : Contiguous H objects) (hnamed : ∀ object ∈ objects, Named object)
    (hkeys : (objects.map (·.key)).Nodup) {m : RawDayManifest} {first last : Hit}
    (hfirst : first ∈ (hitsIn H m.date 0 0 objects).head?) (hlast : last ∈ (hitsIn H m.date 0 0 objects).getLast?)
    (hobjects : m.objects = (hitsIn H m.date 0 0 objects).flatMap (hitRanges m.date))
    (hstart : m.chainSliceStartSequence = first.entry.sequence) (hend : m.chainSliceEndSequence = last.entry.sequence)
    (hchain : m.chainObjects =
      (objects.filter (meets m.chainSliceStartSequence m.chainSliceEndSequence)).map chainObject) :
    ValidChain m := by
  have hordered := hits_pairwise h m.date
  have hfirstMem := List.mem_of_mem_head? hfirst
  have hlastMem := List.mem_of_getLast? hlast
  have hfirstPlace := (mem_hits hfirstMem).1
  have hlastPlace := (mem_hits hlastMem).1
  have hle : first.entry.sequence ≤ last.entry.sequence := by
    rw [UInt64.le_iff_toNat_le]
    exact Lists.head_le hordered hfirst last hlastMem
  have hsliceKeys : (m.chainObjects.map (·.key)).Nodup := by
    rw [hchain, List.map_map]
    exact hkeys.sublist (List.filter_sublist.map _)
  refine ⟨?_, ?_, ?_, ?_, hsliceKeys, ?_, ?_, ?_, ?_⟩
  · rw [hobjects]
    exact hitRanges_ne_nil (List.ne_nil_of_mem hfirstMem) fun hit hhit => (mem_hits hhit).2.2
  · rw [hstart]
    exact h.number hfirstPlace
  · rw [hstart, hend]
    exact hle
  · intro descriptor hdescriptor
    rw [hchain] at hdescriptor
    obtain ⟨object, hobject, rfl⟩ := List.mem_map.mp hdescriptor
    obtain ⟨hmem, hmeets⟩ := List.mem_filter.mp hobject
    rw [meets, Bool.and_eq_true, decide_eq_true_eq, decide_eq_true_eq] at hmeets
    have hsegment := h.segments object hmem
    have hnonempty := List.length_pos_of_ne_nil hsegment.nonempty
    have hlength := hsegment.last
    refine ⟨(hnamed object hmem).key, size_ne_zero hsegment (hnamed object hmem), hsegment.start, ?_, hmeets.2, hmeets.1⟩
    show object.segment.startSequence ≤ object.segment.lastSequence
    rw [UInt64.le_iff_toNat_le]
    omega
  · rw [hchain]
    exact isChain_chainObject (h.slice _ _).continues
  · rw [hchain, List.head?_map, hstart, hend, head?_slice h hfirstPlace hle]
    rintro _ ⟨⟩
    have hwithin := (h.segments _ (mem_located.mp hfirstPlace).1).within (mem_located.mp hfirstPlace).2
    exact hwithin
  · rw [hchain, List.getLast?_map, hstart, hend, getLast?_slice h hlastPlace hle]
    rintro _ ⟨⟩
    exact (h.segments _ (mem_located.mp hlastPlace).1).within (mem_located.mp hlastPlace).2
  · intro range hrange
    rw [hobjects] at hrange
    obtain ⟨hit, hhit, hrange⟩ := List.mem_flatMap.mp hrange
    obtain ⟨run, -, rfl⟩ := mem_hitRanges hrange
    have hplace := (mem_hits hhit).1
    have hlow : m.chainSliceStartSequence ≤ hit.entry.sequence := by
      rw [hstart, UInt64.le_iff_toNat_le]
      exact Lists.head_le hordered hfirst hit hhit
    have hhigh : hit.entry.sequence ≤ m.chainSliceEndSequence := by
      rw [hend, UInt64.le_iff_toNat_le]
      exact Lists.le_getLast hordered hlast hit hhit
    have hwithin := (h.segments _ (mem_located.mp hplace).1).within (mem_located.mp hplace).2
    refine ⟨chainObject hit.object, filter_sameObject hsliceKeys ?_ ?_, hwithin.1, hwithin.2, hlow, hhigh⟩
    · rw [hchain]
      exact List.mem_map_of_mem (mem_slice h hplace hlow hhigh)
    · simp [sameObject, runRange, chainObject]

end

end TickPlatform.Archive
