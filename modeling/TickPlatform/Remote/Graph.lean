import TickPlatform.Archive.Encoded
import TickPlatform.Ranked
import TickPlatform.Remote.Revision

/-!
# The revisions of a day are one chain

What `ValidateRevisionGraph` accepts, in any order and with any record more than once: the manifests that are there are
revisions one to `n`, each a cumulative successor of the one before, and the candidate is one of them or the next.
-/

namespace TickPlatform.Remote

open Bytes Protocol Replay Archive Ranked

/-! ## Successors -/

/-- The same day, and nothing taken back. -/
structure Cumulative (previous current : RawDayManifest) : Prop where
  dataset : previous.datasetID = current.datasetID
  dayDefinition : previous.dayDefinitionID = current.dayDefinitionID
  date : previous.date = current.date
  publisher : previous.publisherID = current.publisherID
  epoch : previous.publisherEpoch = current.publisherEpoch
  config : previous.configHash = current.configHash
  settlePolicy : previous.settlePolicy = current.settlePolicy
  objects : previous.objects <+: current.objects
  chainObjects : previous.chainObjects <+: current.chainObjects
  accepted : previous.acceptedRecordCount ≤ current.acceptedRecordCount
  errors : previous.errorCount ≤ current.errorCount
  throughSource : previous.observedThroughSourceMSC ≤ current.observedThroughSourceMSC
  throughCapture : previous.observedThroughCaptureSeq ≤ current.observedThroughCaptureSeq
  start : previous.chainSliceStartSequence = current.chainSliceStartSequence
  startRoot : previous.chainSliceStartRoot = current.chainSliceStartRoot
  order : previous.chainSliceEndSequence ≤ current.chainSliceEndSequence
  endRoot : previous.chainSliceEndSequence = current.chainSliceEndSequence →
    previous.chainSliceEndRoot = current.chainSliceEndRoot

theorem validateRevisionSuccessor_eq_ok {previous current : RawDayManifest} {u : Unit} :
    validateRevisionSuccessor previous current = .ok u ↔ Cumulative previous current := by
  simp only [validateRevisionSuccessor, bind_eq_ok, reject_eq_ok, not_or, not_and, not_not, Bool.not_eq_true',
    Bool.not_eq_false, List.isPrefixOf_iff_prefix, gt_iff_lt, UInt64.not_lt, Int64.not_lt]
  constructor
  · rintro ⟨_, ⟨hdataset, hday, hdate, hpublisher, hepoch, hconfig, hsettle⟩, _, -, _, hobjects, _, -, _, hchain, _,
      ⟨haccepted, herrors, hsource, hcapture⟩, _, ⟨hstart, hstartRoot⟩, _, horder, hendRoot⟩
    exact ⟨hdataset, hday, hdate, hpublisher, hepoch, hconfig, hsettle, hobjects, hchain, haccepted, herrors, hsource,
      hcapture, hstart, hstartRoot, horder, hendRoot⟩
  · intro h
    refine ⟨(), ⟨h.dataset, h.dayDefinition, h.date, h.publisher, h.epoch, h.config, h.settlePolicy⟩, (), ?_, (), h.objects,
      (), ?_, (), h.chainObjects, (), ⟨h.accepted, h.errors, h.throughSource, h.throughCapture⟩, (),
      ⟨h.start, h.startRoot⟩, (), h.order, h.endRoot⟩
    · exact Nat.not_lt.mpr h.objects.length_le
    · exact Nat.not_lt.mpr h.chainObjects.length_le

/-- A revision and the one that names it as its predecessor. -/
structure Follows (previous current : RawDayManifest) : Prop where
  digest : current.previousManifestSHA256 = some previous.manifestSHA256
  cumulative : Cumulative previous current

def revisionNumber (m : RawDayManifest) : Nat := m.revision.toNat

/-- Revisions one to the last, the first without a predecessor. -/
structure RevisionChain (chain : List RawDayManifest) : Prop where
  numbered : Numbered revisionNumber Follows chain
  genesis : ∀ first ∈ chain.head?, first.previousManifestSHA256 = none

theorem revisionNumber_eq_one {m : RawDayManifest} : revisionNumber m = 1 ↔ m.revision = 1 :=
  UInt64.toNat_inj (b := 1)

theorem revisionNumber_succ {previous current : RawDayManifest} (h : previous.revision + 1 = current.revision)
    (hne : current.revision ≠ 0) : revisionNumber current = revisionNumber previous + 1 := by
  have hlt := previous.revision.toNat_lt
  have hsum : current.revision.toNat = (previous.revision.toNat + 1) % 2 ^ 64 := by
    rw [← h, UInt64.toNat_add]
    rfl
  have hpos : current.revision.toNat ≠ 0 := fun hzero => hne (UInt64.toNat_inj.mp hzero)
  rw [revisionNumber, revisionNumber]
  omega

/-! ## Records -/

/-- A record whose bytes are those of its manifest. -/
structure Genuine (H : Hashes) (record : ManifestRecord) : Prop where
  valid : ValidManifest H record.manifest
  canonical : manifestCanonicalJSON record.manifest = .ok record.bytes
  digest : record.manifest.manifestSHA256 = rawDayManifestDigest H record.bytes

variable {H : Hashes} {record : ManifestRecord}

theorem genuine_of_validate (hversion : record.manifest.manifestVersion ≠ [])
    (h : validateManifestRecord H record = .ok ()) : Genuine H record := by
  simp only [validateManifestRecord, bind_eq_ok, mapError_eq_ok, reject_eq_ok, not_not, toOption_eq_some] at h
  obtain ⟨found, hverified, _, hdigest, hcanonical⟩ := h
  obtain ⟨rfl, hvalid⟩ := (verifyRawDayManifest_eq_ok hversion hcanonical).mp hverified
  exact ⟨hvalid, hcanonical, hdigest.symm⟩

theorem Genuine.manifest_eq {left right : ManifestRecord} (hleft : Genuine H left) (hright : Genuine H right)
    (h : left.bytes = right.bytes) : left.manifest = right.manifest := by
  have hread := verifyRawDayManifest_canonical hleft.valid hleft.canonical
  have hother := verifyRawDayManifest_canonical hright.valid hright.canonical
  rw [← hleft.digest] at hread
  rw [← hright.digest, ← h] at hother
  exact Except.ok.inj (hread.symm.trans hother)

/-- What is asked of two records: neither a digest nor a revision stands for two manifests. -/
def Agree (left right : ManifestRecord) : Prop :=
  (left.manifest.manifestSHA256 = right.manifest.manifestSHA256 → left.bytes = right.bytes) ∧
    (left.manifest.revision = right.manifest.revision → left.manifest.manifestSHA256 = right.manifest.manifestSHA256)

instance : Std.Symm Agree :=
  ⟨fun _ _ h => ⟨fun hsame => (h.1 hsame.symm).symm, fun hsame => (h.2 hsame.symm).symm⟩⟩

variable {candidate : RawDayManifest}

theorem addRecord_eq_ok {seen next : List ManifestRecord} : addRecord H candidate seen record = .ok next ↔
      validateManifestRecord H record = .ok () ∧ sameManifestScope record.manifest candidate = true ∧
        (∀ prior ∈ seen, Agree prior record) ∧ next = seen ++ [record] := by
  simp only [addRecord, bind_eq_ok, reject_eq_ok, pure_eq_ok, List.any_eq_true, not_exists, not_and, Bool.not_eq_true',
    Bool.not_eq_false, decide_eq_true_eq, not_not]
  constructor
  · rintro ⟨_, hrecord, _, hscope, _, hdigests, _, hrevisions, rfl⟩
    exact ⟨hrecord, hscope, fun prior hprior => ⟨hdigests prior hprior, hrevisions prior hprior⟩, rfl⟩
  · rintro ⟨hrecord, hscope, hagree, rfl⟩
    exact ⟨(), hrecord, (), hscope, (), fun prior hprior => (hagree prior hprior).1, (),
      fun prior hprior => (hagree prior hprior).2, rfl⟩

theorem foldlM_addRecord {records seen result : List ManifestRecord}
    (h : records.foldlM (addRecord H candidate) seen = .ok result) :
    (∀ record ∈ records, validateManifestRecord H record = .ok () ∧ sameManifestScope record.manifest candidate = true) ∧
      (∀ prior ∈ seen, ∀ record ∈ records, Agree prior record) ∧ records.Pairwise Agree := by
  induction records generalizing seen with
  | nil => simp
  | cons record records ih =>
    obtain ⟨_, hfirst, hrest⟩ := foldlM_cons_eq_ok.mp h
    obtain ⟨hrecord, hscope, hagree, rfl⟩ := addRecord_eq_ok.mp hfirst
    obtain ⟨hchecked, hseen, hpairs⟩ := ih hrest
    refine ⟨List.forall_mem_cons.mpr ⟨⟨hrecord, hscope⟩, hchecked⟩, fun prior hprior => ?_, ?_⟩
    · exact List.forall_mem_cons.mpr ⟨hagree prior hprior, hseen prior (List.mem_append_left _ hprior)⟩
    · exact List.pairwise_cons.mpr ⟨hseen record (by simp), hpairs⟩

/-! ## Predecessors -/

variable {existing : List ManifestRecord}

theorem byDigest_eq_some {digest : Digest}
    (h : byDigest existing digest = some record) : record ∈ existing ∧ record.manifest.manifestSHA256 = digest := by
  refine ⟨List.mem_reverse.mp (List.mem_of_find?_eq_some h), ?_⟩
  simpa using List.find?_some h

theorem byDigest_eq_none {digest : Digest} (h : byDigest existing digest = none) :
    ∀ record ∈ existing, record.manifest.manifestSHA256 ≠ digest := by
  intro record hrecord
  simpa using List.find?_eq_none.mp h record (List.mem_reverse.mpr hrecord)

/-- What a revision after the first rests on. -/
def HasPredecessor (existing : List ManifestRecord) (m : RawDayManifest) : Prop :=
  ∃ record ∈ existing, m.previousManifestSHA256 = some record.manifest.manifestSHA256 ∧
    record.manifest.revision + 1 = m.revision ∧ Cumulative record.manifest m

theorem hasPredecessor {m : RawDayManifest} {missing absent : String}
    {predecessor : ManifestRecord} (h : predecessorOf existing m missing absent = .ok predecessor)
    (hsuccessor : validateRevisionSuccessor predecessor.manifest m = .ok ()) : HasPredecessor existing m := by
  simp only [predecessorOf, bind_eq_ok, pure_eq_ok, elim_eq_ok, reject_eq_ok, not_not] at h
  obtain ⟨digest, hdigest, _, hfound, _, hadjacent, rfl⟩ := h
  obtain ⟨hmem, rfl⟩ := byDigest_eq_some hfound
  exact ⟨_, hmem, hdigest, hadjacent, validateRevisionSuccessor_eq_ok.mp hsuccessor⟩

/-- A first revision without a predecessor, or a later one with it. -/
def Rooted (existing : List ManifestRecord) (m : RawDayManifest) : Prop :=
  (m.revision = 1 ∧ m.previousManifestSHA256 = none) ∨ (m.revision ≠ 1 ∧ HasPredecessor existing m)

variable {children : List (Digest × Digest)}

theorem rooted_of_addChild {next : List (Digest × Digest)} (h : addChild existing children record = .ok next) : Rooted existing record.manifest := by
  rw [addChild] at h
  split at h
  case isTrue hone =>
    simp only [bind_eq_ok, reject_eq_ok, Bool.not_eq_true, Option.isSome_eq_false_iff, Option.isNone_iff_eq_none] at h
    obtain ⟨_, hnone, -⟩ := h
    exact .inl ⟨hone, hnone⟩
  case isFalse hlater =>
    simp only [bind_eq_ok] at h
    obtain ⟨predecessor, hfound, _, hsuccessor, -⟩ := h
    exact .inr ⟨hlater, hasPredecessor hfound hsuccessor⟩

theorem rooted_of_checkCandidate (h : checkCandidate candidate existing children = .ok ()) : Rooted existing candidate := by
  rw [checkCandidate] at h
  split at h
  case isTrue hone =>
    simp only [reject_eq_ok, Bool.not_eq_true, Option.isSome_eq_false_iff, Option.isNone_iff_eq_none] at h
    exact .inl ⟨hone, h⟩
  case isFalse hlater =>
    simp only [bind_eq_ok] at h
    obtain ⟨predecessor, hfound, _, hsuccessor, -⟩ := h
    exact .inr ⟨hlater, hasPredecessor hfound hsuccessor⟩

theorem foldlM_addChild {records : List ManifestRecord} {result : List (Digest × Digest)}
    (h : records.foldlM (addChild existing) children = .ok result) : ∀ record ∈ records, Rooted existing record.manifest := by
  induction records generalizing children with
  | nil => simp
  | cons record records ih =>
    obtain ⟨_, hfirst, hrest⟩ := foldlM_cons_eq_ok.mp h
    exact List.forall_mem_cons.mpr ⟨rooted_of_addChild hfirst, ih hrest⟩

/-! ## The graph -/

/-- What the two loops over the existing records establish. -/
structure Graph (H : Hashes) (existing : List ManifestRecord) : Prop where
  genuine : ∀ record ∈ existing, Genuine H record
  agree : existing.Pairwise Agree
  rooted : ∀ record ∈ existing, Rooted existing record.manifest

theorem Graph.manifest_unique (h : Graph H existing)
    {left right : ManifestRecord} (hleft : left ∈ existing) (hright : right ∈ existing)
    (hnumber : revisionNumber left.manifest = revisionNumber right.manifest) : left.manifest = right.manifest := by
  have hrevision : left.manifest.revision = right.manifest.revision := UInt64.toNat_inj.mp hnumber
  -- Of two records one comes first, and the other was compared with it.
  have hagree : Agree left right := h.agree.forall_of_forall (fun _ _ => ⟨fun _ => rfl, fun _ => rfl⟩) hleft hright
  exact (h.genuine left hleft).manifest_eq (h.genuine right hright) (hagree.1 (hagree.2 hrevision))

/-- The manifests that are there are one chain. -/
theorem Graph.exists_chain (h : Graph H existing) :
    ∃ chain, RevisionChain chain ∧ ∀ m, m ∈ chain ↔ m ∈ existing.map (·.manifest) := by
  have hpred : ∀ m ∈ existing.map (·.manifest), revisionNumber m ≠ 1 →
      ∃ previous ∈ existing.map (·.manifest), revisionNumber m = revisionNumber previous + 1 ∧ Follows previous m := by
    intro m hm hlater
    obtain ⟨record, hrecord, rfl⟩ := List.mem_map.mp hm
    rcases h.rooted record hrecord with ⟨hone, -⟩ | ⟨-, previous, hprevious, hdigest, hadjacent, hcumulative⟩
    · exact absurd (revisionNumber_eq_one.mpr hone) hlater
    · exact ⟨previous.manifest, List.mem_map_of_mem hprevious,
        revisionNumber_succ hadjacent (h.genuine record hrecord).valid.revision, hdigest, hcumulative⟩
  have hunique : ∀ left ∈ existing.map (·.manifest), ∀ right ∈ existing.map (·.manifest),
      revisionNumber left = revisionNumber right → left = right := by
    intro left hleft right hright hnumber
    obtain ⟨leftRecord, hleftRecord, rfl⟩ := List.mem_map.mp hleft
    obtain ⟨rightRecord, hrightRecord, rfl⟩ := List.mem_map.mp hright
    exact h.manifest_unique hleftRecord hrightRecord hnumber
  obtain ⟨chain, hchain, hmem⟩ := exists_numbered hpred hunique
  refine ⟨chain, ⟨hchain, fun first hfirst => ?_⟩, hmem⟩
  obtain ⟨record, hrecord, rfl⟩ := List.mem_map.mp ((hmem first).mp (List.mem_of_mem_head? hfirst))
  have hone : revisionNumber record.manifest = 1 := hchain.rank_head hfirst
  exact ((h.genuine record hrecord).valid.previous).mp (revisionNumber_eq_one.mp hone)

/-- A manifest with a number of its own whose predecessor is there comes after the last. -/
theorem RevisionChain.next {chain : List RawDayManifest} (h : RevisionChain chain)
    (hmem : ∀ m, m ∈ chain ↔ m ∈ existing.map (·.manifest)) (hne : candidate.revision ≠ 0)
    (hnew : ∀ record ∈ existing, record.manifest.revision ≠ candidate.revision) (hrooted : Rooted existing candidate) :
    RevisionChain (chain ++ [candidate]) := by
  have habsent : ∀ m ∈ chain, revisionNumber m ≠ revisionNumber candidate := by
    intro m hm hsame
    obtain ⟨record, hrecord, rfl⟩ := List.mem_map.mp ((hmem m).mp hm)
    exact hnew record hrecord (UInt64.toNat_inj.mp hsame)
  rcases hrooted with ⟨hone, hnone⟩ | ⟨-, previous, hprevious, hdigest, hadjacent, hcumulative⟩
  · have hnil : chain = [] := by
      by_contra hsome
      obtain ⟨first, hfirst⟩ := Option.isSome_iff_exists.mp (List.isSome_head?.mpr hsome)
      refine habsent first (List.mem_of_mem_head? hfirst) ?_
      rw [h.numbered.rank_head hfirst, revisionNumber_eq_one.mpr hone]
    subst hnil
    refine ⟨numbered_snoc.mpr ⟨numbered_nil, revisionNumber_eq_one.mpr hone, nofun⟩, fun first hfirst => ?_⟩
    obtain rfl : candidate = first := Option.some.inj hfirst
    exact hnone
  · have hin : previous.manifest ∈ chain := (hmem _).mpr (List.mem_map_of_mem hprevious)
    have hnumber : revisionNumber candidate = revisionNumber previous.manifest + 1 := revisionNumber_succ hadjacent hne
    have hlast := h.numbered.getLast? hin (by rw [← hnumber]; exact habsent)
    refine ⟨numbered_snoc.mpr ⟨h.numbered, ?_, ?_⟩, fun first hfirst => ?_⟩
    · rw [hnumber, h.numbered.rank_getLast hlast]
    · intro last hmemLast
      rw [hlast] at hmemLast
      obtain rfl : previous.manifest = last := Option.some.inj hmemLast
      exact ⟨hdigest, hcumulative⟩
    · have hsome : chain ≠ [] := List.ne_nil_of_mem hin
      rw [List.head?_append_of_ne_nil _ hsome] at hfirst
      exact h.genesis first hfirst

variable {candidateBytes : Bytes}

theorem graph_of_validate {identical : Bool}
    (h : validateRevisionGraph H candidate candidateBytes existing = .ok identical) :
    ValidManifest H candidate ∧ Graph H existing := by
  simp only [validateRevisionGraph, bind_eq_ok, mapError_eq_ok, reject_eq_ok] at h
  obtain ⟨_, -, _, -, _, hvalid, _, hrecords, _, hchildren, -⟩ := h
  have hcandidate := validateRawDayManifest_eq_ok.mp hvalid
  obtain ⟨hchecked, -, hagree⟩ := foldlM_addRecord hrecords
  refine ⟨hcandidate, fun record hrecord => genuine_of_validate ?_ (hchecked record hrecord).1, hagree,
    foldlM_addChild hchildren⟩
  -- An empty version would be written as the current one; the candidate's scope rules it out.
  have hscope := (hchecked record hrecord).2
  simp only [sameManifestScope, decide_eq_true_eq] at hscope
  rw [hscope.1, hcandidate.version]
  decide

theorem new_of_validate (h : validateRevisionGraph H candidate candidateBytes existing = .ok false) :
    (∀ record ∈ existing, record.manifest.revision ≠ candidate.revision) ∧ Rooted existing candidate := by
  simp only [validateRevisionGraph, bind_eq_ok] at h
  obtain ⟨_, -, _, -, _, -, _, -, children, -, h⟩ := h
  split at h
  case h_1 prior hprior =>
    simp only [bind_eq_ok, pure_eq_ok] at h
    obtain ⟨_, -, _, -, habsurd⟩ := h
    cases habsurd
  case h_2 hnone =>
    simp only [bind_eq_ok, reject_eq_ok, List.any_eq_true, decide_eq_true_eq, not_exists, not_and, not_not] at h
    obtain ⟨_, hfree, _, hcandidate, -⟩ := h
    refine ⟨fun record hrecord hsame => ?_, rooted_of_checkCandidate hcandidate⟩
    exact byDigest_eq_none hnone record hrecord (hfree record hrecord hsame)

theorem known_of_validate (h : validateRevisionGraph H candidate candidateBytes existing = .ok true) :
    ∃ record ∈ existing, record.bytes = candidateBytes ∧ record.manifest.manifestSHA256 = candidate.manifestSHA256 := by
  simp only [validateRevisionGraph, bind_eq_ok] at h
  obtain ⟨_, -, _, -, _, -, _, -, children, -, h⟩ := h
  split at h
  case h_1 prior hprior =>
    simp only [bind_eq_ok, reject_eq_ok, not_not] at h
    obtain ⟨_, hbytes, -⟩ := h
    obtain ⟨hmem, hdigest⟩ := byDigest_eq_some hprior
    exact ⟨prior, hmem, hbytes, hdigest⟩
  case h_2 hnone =>
    simp only [bind_eq_ok, pure_eq_ok] at h
    obtain ⟨_, -, _, -, habsurd⟩ := h
    cases habsurd

/-- What is there is a complete chain, and the candidate is its next revision or one of it. -/
theorem revision_graph_is_chain {H : Hashes} {candidate : RawDayManifest} {candidateBytes : Bytes}
    {existing : List ManifestRecord} {identical : Bool} (hbytes : manifestCanonicalJSON candidate = .ok candidateBytes)
    (h : validateRevisionGraph H candidate candidateBytes existing = .ok identical) :
    ∃ chain, RevisionChain chain ∧ (∀ m, m ∈ chain ↔ m ∈ existing.map (·.manifest)) ∧
      (identical = false → RevisionChain (chain ++ [candidate])) ∧
      (identical = true → candidate ∈ chain ∧ ∃ record ∈ existing, record.bytes = candidateBytes) := by
  obtain ⟨hcandidate, hgraph⟩ := graph_of_validate h
  obtain ⟨chain, hchain, hmem⟩ := hgraph.exists_chain
  refine ⟨chain, hchain, hmem, ?_, ?_⟩
  · rintro rfl
    obtain ⟨hnew, hrooted⟩ := new_of_validate h
    exact hchain.next hmem hcandidate.revision hnew hrooted
  · rintro rfl
    obtain ⟨record, hrecord, hsame, hdigest⟩ := known_of_validate h
    refine ⟨(hmem candidate).mpr (List.mem_map.mpr ⟨record, hrecord, ?_⟩), record, hrecord, hsame⟩
    have hgenuine := hgraph.genuine record hrecord
    have hitself : Genuine H ⟨[], candidateBytes, candidate⟩ := by
      refine ⟨hcandidate, hbytes, ?_⟩
      rw [← hdigest, hgenuine.digest, hsame]
    exact hgenuine.manifest_eq hitself hsame

/-! ## A day without records -/

def quietDay (revision : UInt64) (previous : Option Digest) : RawDayManifest where
  manifestVersion := rawDayManifestVersion
  manifestID := ascii "m"
  datasetID := ascii "d"
  dayDefinitionID := ascii "u"
  date := utf8 "1970-01-01"
  revision := revision
  publisherID := ascii "p"
  publisherEpoch := 1
  configHash := Digest.zero
  protocolVersion := Protocol.protocolVersion
  sourceSchemaID := sourceSchemaMT5
  walSchemaID := Archive.walSchemaID
  observedThroughSourceMSC := 0
  observedThroughCaptureSeq := 0
  terminalSyncStatus := ascii "s"
  settlePolicy := ascii "x"
  completenessStatus := utf8 "provisional"
  objects := []
  chainObjects := []
  acceptedRecordCount := 0
  errorCount := 0
  chainSliceStartSequence := 0
  chainSliceStartRoot := Digest.zero
  chainSliceEndSequence := 0
  chainSliceEndRoot := Digest.zero
  rawSetRoot := setRoot sampleHashes []
  previousManifestSHA256 := previous
  logicalCloseTimeS := 0
  manifestSHA256 := Digest.zero

def quietBytes (revision : UInt64) (previous : Option Digest) : Bytes :=
  (manifestCanonicalJSON (quietDay revision previous)).toOption.getD []

/-- A revision of the day as it is stored. -/
def quietRecord (revision : UInt64) (previous : Option Digest) : ManifestRecord where
  key := []
  bytes := quietBytes revision previous
  manifest :=
    { quietDay revision previous with
      manifestSHA256 := rawDayManifestDigest sampleHashes (quietBytes revision previous) }

def quietFirst : ManifestRecord := quietRecord 1 none
def quietSecond : ManifestRecord := quietRecord 2 (some quietFirst.manifest.manifestSHA256)
def quietThird : ManifestRecord := quietRecord 3 (some quietSecond.manifest.manifestSHA256)

theorem quiet_verified (revision : UInt64) (previous : Option Digest)
    (hvalid : validateRawDayManifest sampleHashes (quietDay revision previous) = .ok ())
    (hencodes : (manifestCanonicalJSON (quietDay revision previous)).toOption.isSome = true) :
    verifyRawDayManifest sampleHashes (quietRecord revision previous).bytes =
      .ok (quietRecord revision previous).manifest := by
  obtain ⟨text, htext⟩ := Option.isSome_iff_exists.mp hencodes
  have hbytes : quietBytes revision previous = text := by rw [quietBytes, htext, Option.getD_some]
  rw [toOption_eq_some, ← hbytes] at htext
  exact verifyRawDayManifest_canonical (validateRawDayManifest_eq_ok.mp hvalid) htext

theorem revision_graph_is_chain_quiet :
    validateRevisionGraph sampleHashes quietThird.manifest quietThird.bytes [quietSecond, quietFirst, quietSecond] =
        .ok false ∧
      ∃ chain, RevisionChain (chain ++ [quietThird.manifest]) := by
  have hbytes : (manifestCanonicalJSON quietThird.manifest).toOption = some quietThird.bytes := by decide +kernel
  have hfirst : verifyRawDayManifest sampleHashes quietFirst.bytes = .ok quietFirst.manifest :=
    quiet_verified 1 none (by decide +kernel) (by decide +kernel)
  have hsecond : verifyRawDayManifest sampleHashes quietSecond.bytes = .ok quietSecond.manifest :=
    quiet_verified 2 _ (by decide +kernel) (by decide +kernel)
  have hthird : verifyRawDayManifest sampleHashes quietThird.bytes = .ok quietThird.manifest :=
    quiet_verified 3 _ (by decide +kernel) (by decide +kernel)
  have haccepted : (validateRevisionGraph sampleHashes quietThird.manifest quietThird.bytes
      [quietSecond, quietFirst, quietSecond]).toOption = some false := by
    simp only [validateRevisionGraph, List.foldlM_cons, List.foldlM_nil, addRecord, validateManifestRecord, hfirst, hsecond,
      hthird]
    decide +kernel
  rw [toOption_eq_some] at hbytes haccepted
  obtain ⟨chain, -, -, hnext, -⟩ := revision_graph_is_chain hbytes haccepted
  exact ⟨haccepted, chain, hnext rfl⟩

end TickPlatform.Remote
