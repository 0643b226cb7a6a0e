import TickPlatform.Archive.Encoded
import TickPlatform.Archive.Local

/-!
# Building manifests

`BuildRawDayManifest`, and that what it builds decodes and verifies. The files do not change while it runs.
-/

namespace TickPlatform.Archive

open Bytes Protocol Replay Wal

/-! ## The objects -/

/-- A `RawObject` as the builder is given it. Its segment is read again from the path. -/
structure SourceObject where
  key : Bytes
  path : String
  sha256 : Digest
  bytes : Int64
deriving DecidableEq

structure RawDayManifestInput where
  scope : ScopeConfig
  date : Bytes
  rawObjects : List SourceObject
  revision : UInt64
  previous : Option RawDayManifest
  terminalSyncStatus : Bytes
  completenessStatus : Bytes
  logicalCloseTimeS : Int64

def verifyObject (H : Hashes) (disk : Disk) (source : SourceObject) : Except ArchiveError RawObject := do
  reject (source.path = "") (.integrity "raw object has no verified source path")
  let segment ← (verifySealedSegment H disk source.path).mapError fun _ =>
    .integrity "raw object failed sealed WAL verification"
  reject (source.key = [] ∨ source.bytes < 0 ∨ segment.entries = []) (.integrity "raw object has invalid metadata")
  reject (source.sha256 ≠ segment.objectSHA256 ∨ source.bytes.toUInt64 ≠ UInt64.ofNat segment.fileBytes)
    (.integrity "raw object metadata does not match verified segment")
  (validateRawWALObjectKey source.key source.sha256).mapError fun err => .other s!"raw object: {err}"
  return { key := source.key, sha256 := source.sha256, bytes := source.bytes.toNatClampNeg, segment }

/-- By the first sequence, then by hash. -/
def objectLE (a b : RawObject) : Prop :=
  a.segment.startSequence < b.segment.startSequence ∨
    (a.segment.startSequence = b.segment.startSequence ∧ keyLE a.sha256.bytes b.sha256.bytes)

instance : DecidableRel objectLE := fun a b =>
  inferInstanceAs (Decidable (a.segment.startSequence < b.segment.startSequence ∨
    (a.segment.startSequence = b.segment.startSequence ∧ a.sha256.bytes.map UInt8.toNat ≤ b.sha256.bytes.map UInt8.toNat)))

/-- The objects compared so far, the last of them first. -/
def addContiguous (seen : List RawObject) (object : RawObject) : Except ArchiveError (List RawObject) := do
  reject (seen.head?.any fun previous => previous.segment.lastSequence = maxUint64 ∨
      object.segment.startSequence ≠ previous.segment.lastSequence + 1)
    (.integrity "scope WAL segments are not contiguous")
  reject (seen.head?.any fun previous => object.segment.chainStart ≠ previous.segment.chainRoot)
    (.integrity "scope WAL chain predecessor mismatch")
  return object :: seen

/-- The sort is not stable, but objects that it may swap are not contiguous. -/
def orderedVerifiedObjects (H : Hashes) (disk : Disk) (input : List SourceObject) :
    Except ArchiveError (List RawObject) := do
  let objects ← input.mapM (verifyObject H disk)
  let ordered := objects.insertionSort objectLE
  let _ ← ordered.foldlM addContiguous []
  return ordered

/-! ## The manifest -/

def nextRevision (revision : UInt64) : Option RawDayManifest → Except ArchiveError UInt64
  | none => do
    let revision := if revision = 0 then 1 else revision
    reject (revision ≠ 1) (.other "genesis raw-day revision must be 1")
    return revision
  | some previous => do
    reject (previous.revision < 1) (.other "previous raw-day revision must be at least 1")
    let revision := if revision = 0 then previous.revision + 1 else revision
    reject (revision ≠ previous.revision + 1) (.other "raw-day revision must succeed previous revision")
    return revision

/-- `manifestID`. The scope is normalized, so its path key is there. -/
def rawManifestID (H : Hashes) (scope : ScopeConfig) (date : Bytes) (revision : UInt64) : Bytes :=
  utf8 "raw-" ++ ((scopePathKey H scope).toOption.getD []).take 16 ++ utf8 "-" ++ date ++ utf8 "-r" ++
    utf8 (toString revision.toNat)

def sameScope (previous current : RawDayManifest) : Bool :=
  previous.manifestVersion = rawDayManifestVersion ∧ previous.datasetID = current.datasetID ∧
    previous.dayDefinitionID = current.dayDefinitionID ∧ previous.date = current.date ∧
    previous.publisherID = current.publisherID ∧ previous.publisherEpoch = current.publisherEpoch ∧
    previous.configHash = current.configHash

def validatePreviousManifest (H : Hashes) (previous current : RawDayManifest) : Except ArchiveError Unit := do
  (validateRawDayManifest H previous).mapError fun err => .integrity s!"previous manifest is invalid: {err}"
  reject (!sameScope previous current) (.integrity "previous raw-day scope or publisher differs")
  reject (previous.objects.length > current.objects.length) (.integrity "raw-day objects are not cumulative")
  reject (!previous.objects.isPrefixOf current.objects)
    (.integrity "raw-day object ranges were reordered or changed")
  reject (previous.chainObjects.length > current.chainObjects.length)
    (.integrity "raw-day chain objects are not cumulative")
  reject (!previous.chainObjects.isPrefixOf current.chainObjects)
    (.integrity "raw-day chain objects were reordered or changed")
  reject (previous.acceptedRecordCount > current.acceptedRecordCount ∨ previous.errorCount > current.errorCount)
    (.integrity "raw-day counts decreased")
  reject (previous.observedThroughSourceMSC > current.observedThroughSourceMSC ∨
      previous.observedThroughCaptureSeq > current.observedThroughCaptureSeq)
    (.integrity "raw-day watermark decreased")
  reject (previous.chainSliceStartSequence ≠ current.chainSliceStartSequence ∨
      previous.chainSliceStartRoot ≠ current.chainSliceStartRoot)
    (.integrity "raw-day chain start changed")
  reject (previous.chainSliceEndSequence > current.chainSliceEndSequence)
    (.integrity "raw-day chain end moved backwards")
  reject (previous.chainSliceEndSequence = current.chainSliceEndSequence ∧
      previous.chainSliceEndRoot ≠ current.chainSliceEndRoot)
    (.integrity "raw-day chain end root changed without extension")

/-- The digest that the next revision names. -/
def previousDigest (H : Hashes) (current : RawDayManifest) : Option RawDayManifest → Except ArchiveError (Option Digest)
  | none => .ok none
  | some previous => do
    validatePreviousManifest H previous current
    let digest ← (manifestDigest H previous).mapError .other
    reject (previous.manifestSHA256 ≠ Digest.zero ∧ previous.manifestSHA256 ≠ digest)
      (.integrity "previous manifest digest does not match its canonical bytes")
    return some digest

/-- The manifest before its root, the previous digest and its own digest are known. -/
def draftManifest (H : Hashes) (input : RawDayManifestInput) (scope : ScopeConfig) (revision : UInt64)
    (objects : List RawObject) (configHash : Digest) (selection : DaySelection) : RawDayManifest where
  manifestVersion := rawDayManifestVersion
  manifestID := rawManifestID H scope input.date revision
  datasetID := scope.datasetID
  dayDefinitionID := scope.dayDefinitionID
  date := input.date
  revision := revision
  publisherID := scope.publisherID
  publisherEpoch := scope.publisherEpoch
  configHash := configHash
  protocolVersion := Protocol.protocolVersion
  sourceSchemaID := sourceSchemaMT5
  walSchemaID := Archive.walSchemaID
  observedThroughSourceMSC := selection.observedThroughSourceMSC
  observedThroughCaptureSeq := selection.observedThroughCaptureSeq
  terminalSyncStatus := input.terminalSyncStatus
  settlePolicy := scope.settlePolicy
  completenessStatus := input.completenessStatus
  objects := selection.objects
  chainObjects := chainObjectsForSlice objects selection.chainSliceStartSequence selection.chainSliceEndSequence
  acceptedRecordCount := selection.acceptedRecordCount
  errorCount := selection.errorCount
  chainSliceStartSequence := selection.chainSliceStartSequence
  chainSliceStartRoot := selection.chainSliceStartRoot
  chainSliceEndSequence := selection.chainSliceEndSequence
  chainSliceEndRoot := selection.chainSliceEndRoot
  rawSetRoot := Digest.zero
  previousManifestSHA256 := none
  logicalCloseTimeS := input.logicalCloseTimeS
  manifestSHA256 := Digest.zero

def buildRawDayManifest (H : Hashes) (disk : Disk) (input : RawDayManifestInput) : Except ArchiveError RawDayManifest := do
  let scope ← input.scope.normalized.mapError .other
  (parseUTCDate input.date).mapError .other
  reject (!validSyncStatus input.terminalSyncStatus) (.other "invalid terminal_sync_status")
  reject (!validCompletenessStatus input.completenessStatus) (.other "invalid completeness_status")
  let revision ← nextRevision input.revision input.previous
  let objects ← orderedVerifiedObjects H disk input.rawObjects
  let configHash ← (scope.configHash H).mapError .other
  let selection ← (deriveDaySelection H objects input.date 0 0 scope.protocolLimits.maxRecords).mapError .other
  let draft := draftManifest H input scope revision objects configHash selection
  (validateOrderedRanges draft.objects).mapError .other
  let root ← (Archive.rawSetRoot H draft.objects).mapError .other
  let digest ← previousDigest H { draft with rawSetRoot := root } input.previous
  let manifest := { draft with rawSetRoot := root, previousManifestSHA256 := digest }
  (validateRawDayManifest H manifest).mapError .other
  let own ← (manifestDigest H manifest).mapError .other
  return { manifest with manifestSHA256 := own }

/-! ## What the parts return -/

theorem toUInt64_eq_ofNat {x : Int64} (hx : 0 ≤ x) {n : Nat} (hn : n < 9223372036854775808) :
    x.toUInt64 = UInt64.ofNat n ↔ x.toNatClampNeg = n := by
  rw [← UInt64.toNat_inj, Int64.toNat_toUInt64_of_le hx, UInt64.toNat_ofNat']
  omega

/-- The source is of a sealed file, and this is the object of the file. -/
structure IsObject (H : Hashes) (disk : Disk) (source : SourceObject) (object : RawObject) : Prop where
  path : source.path ≠ ""
  verified : verifySealedSegment H disk source.path = .ok object.segment
  key : source.key = rawWALObjectKey source.sha256
  sha256 : source.sha256 = object.segment.objectSHA256
  positive : 0 ≤ source.bytes
  bytes : source.bytes.toNatClampNeg = object.segment.fileBytes
  object : object = objectOf source.key object.segment

variable {H : Hashes} {disk : Disk}

theorem verifyObject_eq_ok {source : SourceObject} {object : RawObject} :
    verifyObject H disk source = .ok object ↔ IsObject H disk source object := by
  simp only [verifyObject, validateRawWALObjectKey, bind_eq_ok, pure_eq_ok, mapError_eq_ok, reject_eq_ok, not_or, not_not,
    Int64.not_lt]
  constructor
  · rintro ⟨_, hpath, segment, hsegment, _, ⟨-, hpositive, -⟩, _, ⟨hsha, hbytes⟩, _, hkey, rfl⟩
    rw [toUInt64_eq_ofNat hpositive (segmentRun_of_file hsegment).size] at hbytes
    exact ⟨hpath, hsegment, hkey, hsha, hpositive, hbytes, by simp [objectOf, hsha, hbytes]⟩
  · intro h
    have hrun := segmentRun_of_file h.verified
    refine ⟨(), h.path, object.segment, h.verified, (), ⟨?_, h.positive, hrun.nonempty⟩, (), ⟨h.sha256, ?_⟩, (), h.key, ?_⟩
    · rw [h.key]
      exact rawWALObjectKey_ne_nil _
    · rw [toUInt64_eq_ofNat h.positive hrun.size]
      exact h.bytes
    · rw [h.object]
      simp [objectOf, h.sha256, h.bytes]

theorem addContiguous_eq_ok (seen : List RawObject) (object : RawObject) (next : List RawObject) :
    addContiguous seen object = .ok next ↔
      ∃ kept, kept = object ∧ (∀ prior ∈ seen, True) ∧ (∀ previous ∈ seen.head?, Continues previous kept) ∧
        next = kept :: seen := by
  simp only [addContiguous, bind_eq_ok, pure_eq_ok, reject_eq_ok, exists_eq_left, implies_true, true_and]
  cases seen.head? with
  | none =>
    simp only [Option.any_none, Option.mem_def, reduceCtorEq, false_imp_iff, implies_true, true_and]
    constructor
    · rintro ⟨_, -, _, -, rfl⟩
      rfl
    · rintro rfl
      exact ⟨(), by simp, (), by simp, rfl⟩
  | some previous =>
    simp only [Option.any_some, decide_eq_true_eq, not_or, not_not, Option.mem_def, Option.some.injEq, forall_eq',
      Continues, exists_unit, and_assoc, eq_comm (a := next)]

variable {objects : List RawObject}

theorem foldlM_addContiguous :
    (∃ result, objects.foldlM addContiguous [] = .ok result) ↔ objects.IsChain Continues := by
  simp only [foldlM_linked_nil addContiguous_eq_ok]
  constructor
  · rintro ⟨_, made, hmade, -, hchain, -⟩
    have hsame : List.Forall₂ Eq made objects := hmade.flip
    rw [List.forall₂_eq_eq_eq] at hsame
    exact hsame ▸ hchain
  · intro hchain
    exact ⟨_, objects, List.forall₂_same.mpr fun _ _ => rfl, List.pairwise_of_forall fun _ _ => trivial, hchain, rfl⟩

theorem orderedVerifiedObjects_eq_ok {input : List SourceObject} {ordered : List RawObject} :
    orderedVerifiedObjects H disk input = .ok ordered ↔
      ∃ objects, List.Forall₂ (IsObject H disk) input objects ∧ ordered = objects.insertionSort objectLE ∧
        ordered.IsChain Continues := by
  simp only [orderedVerifiedObjects, bind_eq_ok, pure_eq_ok, mapM_eq_ok, verifyObject_eq_ok]
  constructor
  · rintro ⟨objects, hobjects, result, hresult, rfl⟩
    exact ⟨objects, hobjects, rfl, foldlM_addContiguous.mp ⟨result, hresult⟩⟩
  · rintro ⟨objects, hobjects, rfl, hchain⟩
    obtain ⟨result, hresult⟩ := foldlM_addContiguous.mpr hchain
    exact ⟨objects, hobjects, result, hresult, rfl⟩

theorem contiguous_of_ordered {input : List SourceObject} {ordered : List RawObject}
    (h : orderedVerifiedObjects H disk input = .ok ordered) :
    Contiguous H ordered ∧ ∀ object ∈ ordered, ∃ source ∈ input, IsObject H disk source object := by
  obtain ⟨objects, hobjects, rfl, hchain⟩ := orderedVerifiedObjects_eq_ok.mp h
  have hsource : ∀ object ∈ objects.insertionSort objectLE, ∃ source ∈ input, IsObject H disk source object := by
    intro object hobject
    exact exists_left_of_mem hobjects ((List.perm_insertionSort _ _).mem_iff.mp hobject)
  refine ⟨⟨fun object hobject => ?_, hchain⟩, hsource⟩
  obtain ⟨source, -, hobject⟩ := hsource object hobject
  exact segmentRun_of_file hobject.verified

/-! ## What the builder returns -/

/-- The manifest as it is compared with the previous one. -/
def rootedDraft (H : Hashes) (input : RawDayManifestInput) (scope : ScopeConfig) (revision : UInt64)
    (objects : List RawObject) (configHash : Digest) (selection : DaySelection) : RawDayManifest :=
  { draftManifest H input scope revision objects configHash selection with rawSetRoot := setRoot H selection.objects }

/-- What the builder computes on its way. -/
structure BuildParts where
  scope : ScopeConfig
  revision : UInt64
  objects : List RawObject
  configHash : Digest
  selection : DaySelection
  previous : Option Digest
  text : Bytes

/-- The manifest that is validated and written. -/
def BuildParts.manifest (H : Hashes) (input : RawDayManifestInput) (parts : BuildParts) : RawDayManifest :=
  { rootedDraft H input parts.scope parts.revision parts.objects parts.configHash parts.selection with
    previousManifestSHA256 := parts.previous }

structure Builds (H : Hashes) (disk : Disk) (input : RawDayManifestInput) (parts : BuildParts) : Prop where
  scope : input.scope.normalized = .ok parts.scope
  revision : nextRevision input.revision input.previous = .ok parts.revision
  objects : orderedVerifiedObjects H disk input.rawObjects = .ok parts.objects
  configHash : parts.scope.configHash H = .ok parts.configHash
  selection : deriveDaySelection H parts.objects input.date 0 0 parts.scope.protocolLimits.maxRecords = .ok parts.selection
  previous : previousDigest H (rootedDraft H input parts.scope parts.revision parts.objects parts.configHash
    parts.selection) input.previous = .ok parts.previous
  valid : ValidManifest H (parts.manifest H input)
  text : manifestCanonicalJSON (parts.manifest H input) = .ok parts.text

variable {m : RawDayManifest}

theorem buildRawDayManifest_eq_ok {input : RawDayManifestInput} : buildRawDayManifest H disk input = .ok m ↔
      ∃ parts, Builds H disk input parts ∧
        m = { parts.manifest H input with manifestSHA256 := rawDayManifestDigest H parts.text } := by
  simp only [buildRawDayManifest, parseUTCDate, bind_eq_ok, pure_eq_ok, mapError_eq_ok, reject_eq_ok,
    validateOrderedRanges_eq_ok, rawSetRoot_eq_ok, validateRawDayManifest_eq_ok, manifestDigest_eq_ok]
  constructor
  · rintro ⟨scope, hscope, _, -, _, -, _, -, revision, hrevision, objects, hobjects, configHash, hconfig, selection,
      hselection, _, -, _, ⟨-, -, rfl⟩, previous, hprevious, _, hvalid, _, ⟨text, htext, rfl⟩, rfl⟩
    exact ⟨⟨scope, revision, objects, configHash, selection, previous, text⟩,
      ⟨hscope, hrevision, hobjects, hconfig, hselection, hprevious, hvalid, htext⟩, rfl⟩
  · rintro ⟨parts, h, rfl⟩
    have hdate : (parseDate input.date).isSome = true := h.valid.date.2
    have hsync : validSyncStatus input.terminalSyncStatus = true := h.valid.sync
    have hcompleteness : validCompletenessStatus input.completenessStatus = true := h.valid.completeness
    refine ⟨parts.scope, h.scope, (), ?_, (), by simp [hsync], (), by simp [hcompleteness], parts.revision, h.revision,
      parts.objects, h.objects, parts.configHash, h.configHash, parts.selection, h.selection, (),
      ⟨h.valid.ranges, h.valid.ascending⟩, _, ⟨h.valid.count, h.valid.ranges, rfl⟩, parts.previous, h.previous, (), h.valid,
      _, ⟨parts.text, h.text, rfl⟩, rfl⟩
    simp [Option.isNone_iff_eq_none, ← Option.not_isSome_iff_eq_none, hdate]

/-! ## What is built verifies -/

/-- The slice of a manifest shows what was selected from all objects. -/
theorem shows_of_selection (h : Contiguous H objects)
    {maxRecords : UInt32} {selection : DaySelection} (hmatch : selectionMatches selection m = true)
    (hselection : deriveDaySelection H objects m.date 0 0 maxRecords = .ok selection)
    (hchain : m.chainObjects = chainObjectsForSlice objects selection.chainSliceStartSequence selection.chainSliceEndSequence)
    (hne : m.chainObjects ≠ []) :
    m.chainObjects = (objects.filter (meets m.chainSliceStartSequence m.chainSliceEndSequence)).map chainObject ∧
      Shows H m maxRecords (objects.filter (meets m.chainSliceStartSequence m.chainSliceEndSequence)) := by
  obtain ⟨hfits, hselected⟩ := deriveDaySelection_eq_ok.mp hselection
  have hsummary : Summarises m.date (hitsIn H m.date 0 0 objects) selection := by
    rw [hselected]
    exact summarises_foldl fun hit hhit => h.number (mem_hits hhit).1
  have hsame := hmatch
  simp only [selectionMatches, decide_eq_true_eq] at hsame
  obtain ⟨-, -, -, -, -, hstart, hstartRoot, hend, hendRoot⟩ := hsame
  have hhits : hitsIn H m.date 0 0 objects ≠ [] := by
    intro hnone
    have hzero : selection.chainSliceStartSequence = 0 := by
      rw [hsummary.start, hnone]
      rfl
    rw [hchain, chainObjectsForSlice, if_pos (.inl hzero)] at hne
    exact hne rfl
  obtain ⟨first, hfirst⟩ : ∃ first, (hitsIn H m.date 0 0 objects).head? = some first := ⟨_, List.head?_eq_some_head hhits⟩
  obtain ⟨last, hlast⟩ : ∃ last, (hitsIn H m.date 0 0 objects).getLast? = some last :=
    ⟨_, List.getLast?_eq_some_getLast hhits⟩
  rw [hsummary.start, hfirst, Option.map_some, Option.getD_some] at hstart
  rw [hsummary.startRoot, hfirst, Option.map_some, Option.getD_some] at hstartRoot
  rw [hsummary.finish, hlast, Option.map_some, Option.getD_some] at hend
  rw [hsummary.finishRoot, hlast, Option.map_some, Option.getD_some] at hendRoot
  have hfirstPlace := (mem_hits (List.mem_of_mem_head? hfirst)).1
  have hlastMem := List.mem_of_getLast? hlast
  have hlastPlace := (mem_hits hlastMem).1
  have hstartNumber : m.chainSliceStartSequence ≠ 0 := hstart ▸ h.number hfirstPlace
  have hendNumber : m.chainSliceEndSequence ≠ 0 := hend ▸ h.number hlastPlace
  have horder : first.entry.sequence ≤ last.entry.sequence := by
    rw [UInt64.le_iff_toNat_le]
    exact Lists.head_le (hits_pairwise h m.date) hfirst last hlastMem
  rw [hsummary.start, hsummary.finish, hfirst, hlast, Option.map_some, Option.map_some, Option.getD_some, Option.getD_some,
    hstart, hend, chainObjectsForSlice_eq hstartNumber hendNumber] at hchain
  refine ⟨hchain, ?_, ⟨selection, deriveDaySelection_eq_ok.mpr ⟨?_, ?_⟩, hmatch⟩, ?_⟩
  · -- the walk follows the entries from the first hit to the last
    obtain ⟨run, hrun⟩ : ∃ n root, Run n root ((located objects).map (·.2)) := by
      cases objects with
      | nil => exact ⟨0, Digest.zero, trivial⟩
      | cons object objects => exact ⟨_, _, h.run⟩
    obtain ⟨root, hrun⟩ := hrun
    obtain ⟨stretch, hslice, hstretch⟩ := run_between hrun (List.mem_map_of_mem hfirstPlace) (List.mem_map_of_mem hlastPlace)
      horder
    rw [entries_slice h, ← hstart, ← hend, hslice, ← hstartRoot, ← hendRoot]
    exact walkSlice_run hstretch
  · intro place hplace _
    obtain ⟨hobject, hentry⟩ := mem_located.mp hplace
    refine hfits place (mem_located.mpr ⟨List.mem_of_mem_filter hobject, hentry⟩) ?_
    simp [inSlice]
  · rw [hselected, ← hstart, ← hend, hitsIn_slice h hfirst hlast]
  · rw [chainObjectsForSlice_eq hstartNumber hendNumber, List.filter_filter, hchain]
    simp

/-- Each chain object has the path of its own file. -/
def FilesOf (H : Hashes) (disk : Disk) (sources : List SourceObject) (m : RawDayManifest) (paths : ObjectPaths) : Prop :=
  ∀ source ∈ sources, ∀ segment, verifySealedSegment H disk source.path = .ok segment →
    chainObject (objectOf source.key segment) ∈ m.chainObjects → paths source.key = some source.path

theorem inScope_of_builds {input : RawDayManifestInput} {parts : BuildParts} (h : Builds H disk input parts) :
    InScope H { parts.manifest H input with manifestSHA256 := rawDayManifestDigest H parts.text } input.scope parts.scope := by
  refine ⟨h.scope, validateRawDayManifest_eq_ok.mpr (h.valid.withDigest _), ⟨parts.configHash, h.configHash, ?_⟩, .inr ?_⟩
  · simp [manifestInScope, BuildParts.manifest, rootedDraft, draftManifest]
  · exact manifestDigest_eq_ok.mpr ⟨parts.text, h.text, rfl⟩

/-- The files of the slice open as the objects that were selected from. -/
theorem foldlM_openChainObject_slice {sources : List SourceObject}
    (hcontiguous : Contiguous H objects) (hsources : ∀ object ∈ objects, ∃ source ∈ sources, IsObject H disk source object) (hvalid : ValidChain m) {paths : ObjectPaths} (hpaths : FilesOf H disk sources m paths)
    (hchain : m.chainObjects =
      (objects.filter (meets m.chainSliceStartSequence m.chainSliceEndSequence)).map chainObject) :
    m.chainObjects.foldlM (openChainObject H disk paths) [] =
      .ok (objects.filter (meets m.chainSliceStartSequence m.chainSliceEndSequence)).reverse := by
  rw [foldlM_linked_nil openChainObject_eq_ok]
  refine ⟨_, ?_, ?_, (hcontiguous.slice _ _).continues, rfl⟩
  · rw [hchain, List.forall₂_map_left_iff, List.forall₂_same]
    intro object hobject
    obtain ⟨source, hsource, hfile⟩ := hsources object (List.mem_of_mem_filter hobject)
    have hmem : chainObject object ∈ m.chainObjects := hchain ▸ List.mem_map_of_mem hobject
    rw [hfile.object] at hmem ⊢
    refine ⟨⟨source.path, object.segment, ?_, hfile.path, hfile.verified, rfl⟩, ?_⟩
    · exact hpaths source hsource object.segment hfile.verified hmem
    · simp [describesSegment, chainObject, objectOf]
  · have hkeys := hvalid.keys
    rw [hchain, List.map_map] at hkeys
    exact List.pairwise_map.mp hkeys

/-- A manifest that was built comes back from its canonical bytes and is a view of its own chain objects. -/
theorem built_verifies {H : Hashes} {disk : Disk} {input : RawDayManifestInput} {m : RawDayManifest}
    (h : buildRawDayManifest H disk input = .ok m) :
    (∃ text, manifestCanonicalJSON m = .ok text ∧ verifyRawDayManifest H text = .ok m) ∧
      ∀ paths, FilesOf H disk input.rawObjects m paths → verifyRawDaySnapshot H m disk paths input.scope = .ok () := by
  obtain ⟨parts, hbuilds, rfl⟩ := buildRawDayManifest_eq_ok.mp h
  refine ⟨⟨parts.text, hbuilds.text, verifyRawDayManifest_canonical hbuilds.valid hbuilds.text⟩, fun paths hpaths => ?_⟩
  obtain ⟨hcontiguous, hsources⟩ := contiguous_of_ordered hbuilds.objects
  refine verifyRawDaySnapshot_eq_ok.mpr ⟨parts.scope, inScope_of_builds hbuilds, ?_⟩
  by_cases hempty : (parts.manifest H input).chainObjects = []
  · exact .inl hempty
  · have hvalid := ((hbuilds.valid.withDigest (rawDayManifestDigest H parts.text)).chain.resolve_left
      fun hnone => hempty hnone.1).2
    have hmatch : selectionMatches parts.selection
        { parts.manifest H input with manifestSHA256 := rawDayManifestDigest H parts.text } = true := by
      simp [selectionMatches, BuildParts.manifest, rootedDraft, draftManifest]
    obtain ⟨hchain, hshows⟩ := shows_of_selection hcontiguous hmatch hbuilds.selection rfl hempty
    refine .inr ⟨_, foldlM_openChainObject_slice hcontiguous hsources hvalid hpaths hchain, ?_⟩
    rw [List.reverse_reverse]
    exact hshows

def daySources : List SourceObject :=
  dayObjects.map fun object => ⟨object.key, "a", object.sha256, Int64.ofNat object.bytes⟩

def dayInput : RawDayManifestInput where
  scope := dayScope
  date := utf8 "1970-01-01"
  rawObjects := daySources
  revision := 0
  previous := none
  terminalSyncStatus := ascii "s"
  completenessStatus := utf8 "provisional"
  logicalCloseTimeS := 0

instance dayInput_builds : Fact ((buildRawDayManifest Hashes.sample dayDisk dayInput).toOption.any (fun m => m.chainObjects ≠ []) = true) := ⟨by decide +kernel⟩

theorem built_verifies_day : ∃ m, buildRawDayManifest Hashes.sample dayDisk dayInput = .ok m ∧ m.chainObjects ≠ [] ∧
    (∃ text, manifestCanonicalJSON m = .ok text ∧ verifyRawDayManifest Hashes.sample text = .ok m) ∧
    verifyRawDaySnapshot Hashes.sample m dayDisk dayPaths dayScope = .ok () := by
  obtain ⟨m, hbuilt, hne⟩ := exists_ok_of_any dayInput_builds.out
  have hfiles : FilesOf Hashes.sample dayDisk dayInput.rawObjects m dayPaths := by
    intro source hsource _ _ _
    simp only [dayInput, daySources, List.mem_map] at hsource
    obtain ⟨object, hobject, rfl⟩ := hsource
    exact if_pos (List.mem_map_of_mem hobject)
  have hscope : dayInput.scope = dayScope := rfl
  obtain ⟨htext, hsnapshot⟩ := built_verifies hbuilt
  rw [hscope] at hsnapshot
  exact ⟨m, hbuilt, of_decide_eq_true hne, htext, hsnapshot dayPaths hfiles⟩

end TickPlatform.Archive
