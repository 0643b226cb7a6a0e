import TickPlatform.Archive.Manifest

/-!
# Valid manifests

What `ValidateRawDayManifest` accepts, as a structure: its loops over the ranges and the chain objects said of the
whole lists.
-/

namespace TickPlatform.Archive

open Bytes Protocol Replay Wal

/-! ## Ranges -/

structure RangeValid (range : RawObjectRange) : Prop where
  key : range.key = rawWALObjectKey range.sha256
  bytes : range.bytes ≠ 0
  start : range.startIngestSequence ≠ 0
  order : range.startIngestSequence ≤ range.endIngestSequence
  ordinals : range.startIngestSequence = range.endIngestSequence → range.firstRecordOrdinal ≤ range.lastRecordOrdinal

theorem rawWALObjectKey_ne_nil (sha256 : Digest) : rawWALObjectKey sha256 ≠ [] := by
  rw [rawWALObjectKey, List.append_assoc]
  exact List.append_ne_nil_of_left_ne_nil (by decide) _

variable {u : Unit}

theorem validateObjectRange_eq_ok {range : RawObjectRange} : validateObjectRange range = .ok u ↔ RangeValid range := by
  simp only [validateObjectRange, validateRawWALObjectKey, bind_eq_ok, reject_eq_ok, not_or, not_and, not_not,
    UInt64.not_lt, UInt32.not_lt]
  constructor
  · rintro ⟨_, -, _, hkey, _, hbytes, _, ⟨hstart, horder⟩, hordinals⟩
    exact ⟨hkey, hbytes, hstart, horder, hordinals⟩
  · rintro ⟨hkey, hbytes, hstart, horder, hordinals⟩
    refine ⟨(), ⟨?_, ?_⟩, (), hkey, (), hbytes, (), ⟨hstart, horder⟩, hordinals⟩
    · rw [hkey]
      exact rawWALObjectKey_ne_nil _
    · rw [hkey, utf8Valid_of_isASCII (isASCII_rawWALObjectKey _)]
      decide

/-- One range ends before the next begins. -/
def Before (a b : RawObjectRange) : Prop := coordinateLT a.last b.first = true

variable {ranges : List RawObjectRange}

theorem foldlM_addRange {previous result : Option RawObjectRange} : ranges.foldlM addRange previous = .ok result ↔
      (∀ range ∈ ranges, RangeValid range) ∧ (previous.toList ++ ranges).IsChain Before ∧
        result = ranges.getLast?.or previous := by
  induction ranges generalizing previous with
  | nil =>
    rw [foldlM_nil_eq_ok]
    cases previous <;> simp [eq_comm]
  | cons range ranges ih =>
    simp only [foldlM_cons_eq_ok, addRange, bind_eq_ok, pure_eq_ok, reject_eq_ok, validateObjectRange_eq_ok, ih,
      List.forall_mem_cons]
    constructor
    · rintro ⟨_, ⟨_, hvalid, _, hbefore, rfl⟩, hrest, hchain, rfl⟩
      refine ⟨⟨hvalid, hrest⟩, ?_, ?_⟩
      · cases previous with
        | none => exact hchain
        | some p =>
          refine List.isChain_cons_cons.mpr ⟨?_, hchain⟩
          simpa [Before] using hbefore
      · cases ranges <;> simp [List.getLast?_cons]
    · rintro ⟨⟨hvalid, hrest⟩, hchain, rfl⟩
      refine ⟨_, ⟨(), hvalid, (), ?_, rfl⟩, hrest, ?_, ?_⟩
      · cases previous with
        | none => simp
        | some p => simpa [Before] using (List.isChain_cons_cons.mp hchain).1
      · cases previous with
        | none => exact hchain
        | some p => exact (List.isChain_cons_cons.mp hchain).2
      · cases ranges <;> simp [List.getLast?_cons]

theorem validateOrderedRanges_eq_ok :
    validateOrderedRanges ranges = .ok u ↔ (∀ range ∈ ranges, RangeValid range) ∧ ranges.IsChain Before := by
  simp only [validateOrderedRanges, bind_eq_ok, foldlM_addRange]
  constructor
  · rintro ⟨_, ⟨hvalid, hascending, -⟩, -⟩
    exact ⟨hvalid, hascending⟩
  · rintro ⟨hvalid, hascending⟩
    exact ⟨_, ⟨hvalid, hascending, rfl⟩, rfl⟩

def setRoot (H : Hashes) (ranges : List RawObjectRange) : Digest :=
  H.sha256 (rawSetRootDomain ++ putUint32 (UInt32.ofNat ranges.length) ++ ranges.flatMap (·.rootBytes))

variable {H : Hashes}

theorem rawSetRoot_eq_ok {root : Digest} : rawSetRoot H ranges = .ok root ↔
      ranges.length < 2 ^ 32 ∧ (∀ range ∈ ranges, RangeValid range) ∧ root = setRoot H ranges := by
  simp only [rawSetRoot, bind_eq_ok, pure_eq_ok, reject_eq_ok, each_eq_ok, validateObjectRange_eq_ok, setRoot,
    ge_iff_le, Nat.not_le, exists_unit, eq_comm (a := root)]

/-! ## Chain objects -/

structure ChainObjectValid (m : RawDayManifest) (object : RawChainObject) : Prop where
  key : object.key = rawWALObjectKey object.sha256
  bytes : object.bytes ≠ 0
  start : object.startIngestSequence ≠ 0
  order : object.startIngestSequence ≤ object.endIngestSequence
  begins : object.startIngestSequence ≤ m.chainSliceEndSequence
  ends : m.chainSliceStartSequence ≤ object.endIngestSequence

/-- An object and the one that continues it. -/
def Adjacent (a b : RawChainObject) : Prop :=
  a.endIngestSequence ≠ maxUint64 ∧ b.startIngestSequence = a.endIngestSequence + 1

variable {m : RawDayManifest}

theorem addChainObject_eq_ok (seen : List RawChainObject) (object : RawChainObject)
    (next : List RawChainObject) : addChainObject m seen object = .ok next ↔
      ∃ kept, (kept = object ∧ ChainObjectValid m object) ∧ (∀ prior ∈ seen, prior.key ≠ kept.key) ∧
        (∀ prior ∈ seen.head?, Adjacent prior kept) ∧ next = kept :: seen := by
  simp only [addChainObject, validateRawWALObjectKey, bind_eq_ok, pure_eq_ok, reject_eq_ok, not_or, not_not,
    UInt64.not_lt, gt_iff_lt, List.any_eq_true, not_exists, not_and, decide_eq_true_eq]
  constructor
  · rintro ⟨_, hkey, _, ⟨hbytes, hstart, horder⟩, _, hfresh, _, ⟨hbegins, hends⟩, _, hlinked, rfl⟩
    refine ⟨object, ⟨rfl, hkey, hbytes, hstart, horder, hbegins, hends⟩, hfresh, ?_, rfl⟩
    intro prior hprior
    rw [Option.mem_def] at hprior
    simpa [hprior, Adjacent] using hlinked
  · rintro ⟨_, ⟨rfl, hvalid⟩, hfresh, hlinked, rfl⟩
    refine ⟨(), hvalid.key, (), ⟨hvalid.bytes, hvalid.start, hvalid.order⟩, (), hfresh, (), ⟨hvalid.begins, hvalid.ends⟩,
      (), ?_, rfl⟩
    cases hhead : seen.head? with
    | none => simp
    | some prior => simpa [Adjacent] using hlinked prior hhead

theorem foldlM_addChainObject {objects : List RawChainObject} :
    (∃ result, objects.foldlM (addChainObject m) [] = .ok result) ↔
      (∀ object ∈ objects, ChainObjectValid m object) ∧ (objects.map (·.key)).Nodup ∧ objects.IsChain Adjacent := by
  simp only [foldlM_linked_nil addChainObject_eq_ok, List.Nodup, List.pairwise_map]
  constructor
  · rintro ⟨_, made, hmade, hfresh, hlinked, -⟩
    have hsame : made = objects := by
      have heq : List.Forall₂ Eq made objects := hmade.flip.imp fun _ _ h => h.1
      rwa [List.forall₂_eq_eq_eq] at heq
    subst hsame
    refine ⟨fun object hobject => ?_, hfresh, hlinked⟩
    obtain ⟨_, -, -, hvalid⟩ := exists_right_of_mem hmade hobject
    exact hvalid
  · rintro ⟨hvalid, hfresh, hlinked⟩
    refine ⟨_, objects, List.forall₂_same.mpr fun object hobject => ⟨rfl, hvalid object hobject⟩, hfresh, hlinked, rfl⟩

/-- A range lies in its file and in the slice. -/
def RangeWithin (m : RawDayManifest) (range : RawObjectRange) (object : RawChainObject) : Prop :=
  object.startIngestSequence ≤ range.startIngestSequence ∧ range.endIngestSequence ≤ object.endIngestSequence ∧
    m.chainSliceStartSequence ≤ range.startIngestSequence ∧ range.endIngestSequence ≤ m.chainSliceEndSequence

/-- What holds of a manifest that has chain objects. -/
structure ValidChain (m : RawDayManifest) : Prop where
  ranges : m.objects ≠ []
  start : m.chainSliceStartSequence ≠ 0
  order : m.chainSliceStartSequence ≤ m.chainSliceEndSequence
  valid : ∀ object ∈ m.chainObjects, ChainObjectValid m object
  keys : (m.chainObjects.map (·.key)).Nodup
  adjacent : m.chainObjects.IsChain Adjacent
  first : ∀ object ∈ m.chainObjects.head?, object.startIngestSequence ≤ m.chainSliceStartSequence ∧
    m.chainSliceStartSequence ≤ object.endIngestSequence
  last : ∀ object ∈ m.chainObjects.getLast?, object.startIngestSequence ≤ m.chainSliceEndSequence ∧
    m.chainSliceEndSequence ≤ object.endIngestSequence
  within : ∀ range ∈ m.objects, ∃ object, m.chainObjects.filter (sameObject range) = [object] ∧ RangeWithin m range object

theorem checkRange_eq_ok {range : RawObjectRange} : checkRange m range = .ok u ↔
      ∃ object, m.chainObjects.filter (sameObject range) = [object] ∧ RangeWithin m range object := by
  simp only [checkRange, bind_eq_ok, reject_eq_ok, not_not, RangeWithin]
  constructor
  · rintro ⟨_, hwithin, hone⟩
    obtain ⟨object, hobject⟩ := List.length_eq_one_iff.mp hone
    rw [hobject] at hwithin
    refine ⟨object, hobject, ?_⟩
    simpa using hwithin
  · rintro ⟨object, hobject, hwithin⟩
    rw [hobject]
    refine ⟨(), ?_, rfl⟩
    simpa using hwithin

theorem validateChainObjects_eq_ok : validateChainObjects m = .ok u ↔
      (m.chainObjects = [] ∧ m.objects = [] ∧ zeroSlice m = true) ∨ (m.chainObjects ≠ [] ∧ ValidChain m) := by
  unfold validateChainObjects
  rcases hcase : m.chainObjects with _ | ⟨first, rest⟩
  · simp
  · obtain ⟨last, hlast⟩ : ∃ last, (first :: rest).getLast? = some last := ⟨_, List.getLast?_eq_some_getLast (by simp)⟩
    rw [List.head?_cons, hlast]
    simp only [bind_eq_ok, reject_eq_ok, each_eq_ok, checkRange_eq_ok, not_or, UInt64.not_lt, gt_iff_lt]
    constructor
    · rintro ⟨_, ⟨hranges, hstart, horder⟩, _, hfold, _, ⟨hfirst, hfirst', hlast₁, hlast₂⟩, hwithin⟩
      rw [← hcase] at hfold
      obtain ⟨hvalid, hkeys, hadjacent⟩ := foldlM_addChainObject.mp ⟨_, hfold⟩
      refine .inr ⟨by simp, ⟨hranges, hstart, horder, hvalid, hkeys, hadjacent, ?_, ?_, hwithin⟩⟩
      · simpa [hcase] using ⟨hfirst, hfirst'⟩
      · simpa [hcase, hlast] using ⟨hlast₁, hlast₂⟩
    · rintro (⟨habsurd, -⟩ | ⟨-, h⟩)
      · cases habsurd
      · obtain ⟨result, hfold⟩ := foldlM_addChainObject.mpr ⟨h.valid, h.keys, h.adjacent⟩
        have hfirst := h.first first (by simp [hcase])
        have hlast' := h.last last (by simp [hcase, hlast])
        rw [hcase] at hfold
        exact ⟨(), ⟨h.ranges, h.start, h.order⟩, result, hfold, (), ⟨hfirst.1, hfirst.2, hlast'.1, hlast'.2⟩, h.within⟩

/-! ## Manifests -/

structure ValidManifest (H : Hashes) (m : RawDayManifest) : Prop where
  version : m.manifestVersion = rawDayManifestVersion
  id : m.manifestID ≠ []
  revision : m.revision ≠ 0
  dataset : m.datasetID ≠ []
  dayDefinition : m.dayDefinitionID ≠ []
  publisher : m.publisherID ≠ []
  settlePolicy : m.settlePolicy ≠ []
  date : m.date ≠ [] ∧ (parseDate m.date).isSome = true
  protocol : m.protocolVersion = Protocol.protocolVersion
  sourceSchema : m.sourceSchemaID = sourceSchemaMT5
  walSchema : m.walSchemaID = Archive.walSchemaID
  sync : validSyncStatus m.terminalSyncStatus = true
  completeness : validCompletenessStatus m.completenessStatus = true
  ranges : ∀ range ∈ m.objects, RangeValid range
  ascending : m.objects.IsChain Before
  count : m.objects.length < 2 ^ 32
  root : m.rawSetRoot = setRoot H m.objects
  chain : (m.chainObjects = [] ∧ m.objects = [] ∧ zeroSlice m = true) ∨ (m.chainObjects ≠ [] ∧ ValidChain m)
  previous : m.revision = 1 ↔ m.previousManifestSHA256 = none

theorem validateRawDayManifest_eq_ok : validateRawDayManifest H m = .ok u ↔ ValidManifest H m := by
  simp only [validateRawDayManifest, parseUTCDate, bind_eq_ok, reject_eq_ok, validateOrderedRanges_eq_ok, rawSetRoot_eq_ok,
    validateChainObjects_eq_ok, not_or, not_not]
  constructor
  · rintro ⟨_, ⟨hversion, hid, hrevision⟩, _, ⟨hdataset, hday, hdate, hpublisher, hsettle⟩, _, hparse, _,
      ⟨hprotocol, hsource, hwal⟩, _, ⟨hsync, hcompleteness⟩, _, ⟨hranges, hascending⟩, _, ⟨hcount, -, rfl⟩, _, hroot, _,
      hchain, _, hprevious, -⟩
    refine ⟨hversion, hid, ?_, hdataset, hday, hpublisher, hsettle, ⟨hdate, ?_⟩, hprotocol, hsource, hwal, by simpa using hsync,
      by simpa using hcompleteness, hranges, hascending, hcount, hroot, hchain, ?_⟩
    · rintro hzero
      exact hrevision (by rw [hzero]; decide)
    · simpa [← Option.isSome_iff_ne_none, Option.not_isNone] using hparse
    · cases hcase : m.previousManifestSHA256 with
      | none => simpa [hcase] using hprevious
      | some digest => simpa [hcase] using hprevious
  · intro h
    refine ⟨(), ⟨h.version, h.id, ?_⟩, (), ⟨h.dataset, h.dayDefinition, h.date.1, h.publisher, h.settlePolicy⟩, (), ?_, (),
      ⟨h.protocol, h.sourceSchema, h.walSchema⟩, (), ⟨by simp [h.sync], by simp [h.completeness]⟩, (),
      ⟨h.ranges, h.ascending⟩, _, ⟨h.count, h.ranges, rfl⟩, (), h.root, (), h.chain, (), ?_, ?_⟩
    · rw [UInt64.lt_iff_toNat_lt]
      have hrevision : m.revision.toNat ≠ 0 := fun hzero => h.revision (UInt64.toNat_inj.mp hzero)
      show ¬ m.revision.toNat < 1
      omega
    · simp [Option.isNone_iff_eq_none, ← Option.not_isSome_iff_eq_none, h.date.2]
    · cases hcase : m.previousManifestSHA256 with
      | none => simpa [hcase] using h.previous
      | some digest => simpa [hcase] using h.previous
    · rcases h.chain with ⟨-, hempty, hzero⟩ | ⟨-, hchain⟩
      · rw [if_pos hempty, reject_eq_ok]
        simp [hzero]
      · rw [if_neg hchain.ranges, reject_eq_ok, not_or, UInt64.not_lt]
        exact ⟨hchain.start, hchain.order⟩

theorem chain_of_validate (h : validateRawDayManifest H m = .ok ()) (hne : m.chainObjects ≠ []) : ValidChain m :=
  ((validateRawDayManifest_eq_ok.mp h).chain.resolve_left fun hempty => hne hempty.1).2

end TickPlatform.Archive
