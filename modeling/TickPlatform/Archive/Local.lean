import TickPlatform.Archive.Selection
import TickPlatform.Archive.Valid

/-!
# Verifying a snapshot from local files

`VerifyRawDaySnapshot` opens the files of the chain objects itself. It is a second copy of the checks of
`VerifyRawDaySnapshotSegments`; here the two are compared.
-/

namespace TickPlatform.Archive

open Bytes Protocol Replay Wal

/-- The files that can be read. -/
abbrev Disk := String → Option Bytes

/-- Local paths by object key. -/
abbrev ObjectPaths := Bytes → Option String

/-- `wal.VerifySealedSegment`. -/
def verifySealedSegment (H : Hashes) (disk : Disk) (path : String) : Except WalError VerifiedSegment := do
  let data ← (disk path).elim (.error (.unavailable "read sealed WAL segment")) .ok
  verifySealedBytes H path data

/-- The path of an object, where there is one. -/
def localPath (paths : ObjectPaths) (key : Bytes) : Except ArchiveError String := do
  let path ← (paths key).elim (.error (.integrity "chain object is missing locally")) .ok
  reject (path = "") (.integrity "chain object is missing locally")
  return path

def describesSegment (descriptor : RawChainObject) (segment : VerifiedSegment) : Bool :=
  segment.objectSHA256 = descriptor.sha256 ∧ UInt64.ofNat segment.fileBytes = descriptor.bytes ∧
    segment.startSequence = descriptor.startIngestSequence ∧ segment.lastSequence = descriptor.endIngestSequence

/-- The object that a verified file is. -/
def objectOf (key : Bytes) (segment : VerifiedSegment) : RawObject where
  key := key
  sha256 := segment.objectSHA256
  bytes := segment.fileBytes
  segment := segment

/-- The objects opened so far, the last of them first. -/
def openChainObject (H : Hashes) (disk : Disk) (paths : ObjectPaths) (opened : List RawObject)
    (descriptor : RawChainObject) : Except ArchiveError (List RawObject) := do
  reject (opened.any fun prior => prior.key = descriptor.key) (.integrity "chain object is duplicated")
  let path ← localPath paths descriptor.key
  let segment ← (verifySealedSegment H disk path).mapError fun _ =>
    .integrity "chain object failed sealed WAL verification"
  reject (!describesSegment descriptor segment) (.integrity "chain object metadata does not match its bytes")
  reject (opened.head?.any fun previous => previous.segment.lastSequence = maxUint64 ∨
      segment.startSequence ≠ previous.segment.lastSequence + 1 ∨ segment.chainStart ≠ previous.segment.chainRoot)
    (.integrity "chain object sequence or hash continuity failed")
  return objectOf descriptor.key segment :: opened

/-- A digest that is not set is not compared. -/
def checkDigest (H : Hashes) (m : RawDayManifest) : Except ArchiveError Unit :=
  if m.manifestSHA256 = Digest.zero then return ()
  else do
    let digest ← (manifestDigest H m).mapError fun err => .integrity s!"manifest digest cannot be computed: {err}"
    reject (m.manifestSHA256 ≠ digest) (.integrity "manifest digest does not match canonical bytes")

def verifyRawDaySnapshot (H : Hashes) (m : RawDayManifest) (disk : Disk) (paths : ObjectPaths) (scope : ScopeConfig) :
    Except ArchiveError Unit := do
  let normalized ← scope.normalized.mapError fun err => .integrity s!"scope config is invalid: {err}"
  let configHash ← (normalized.configHash H).mapError fun err =>
    .integrity s!"scope config hash cannot be computed: {err}"
  reject (!manifestInScope m normalized configHash) (.integrity "manifest scope does not match verification scope")
  (validateRawDayManifest H m).mapError fun err => .integrity s!"manifest is invalid: {err}"
  checkDigest H m
  if m.chainObjects = [] then return ()
  else do
    let reversed ← m.chainObjects.foldlM (openChainObject H disk paths) []
    let verified := reversed.reverse
    let (reached, root) ← walkSlice m.chainSliceEndSequence m.chainSliceStartSequence m.chainSliceStartRoot
      (verified.flatMap (sliceEntries m))
    reject (!reached ∨ root ≠ m.chainSliceEndRoot)
      (.integrity "selected WAL entry chain does not match manifest roots")
    let selection ← (deriveDaySelection H verified m.date m.chainSliceStartSequence m.chainSliceEndSequence
      normalized.protocolLimits.maxRecords).mapError fun err => .integrity s!"could not rederive selected ranges: {err}"
    reject (!selectionMatches selection m) (.integrity "manifest selection or watermark does not match WAL bytes")
    reject (chainObjectsForSlice verified m.chainSliceStartSequence m.chainSliceEndSequence ≠ m.chainObjects)
      (.integrity "chain_objects does not match WAL bytes")

/-! ## What the two verifiers check -/

/-- The manifest is valid, of the scope, and its digest is its own. -/
def InScope (H : Hashes) (m : RawDayManifest) (scope normalized : ScopeConfig) : Prop :=
  scope.normalized = .ok normalized ∧ validateRawDayManifest H m = .ok () ∧
    (∃ configHash, normalized.configHash H = .ok configHash ∧ manifestInScope m normalized configHash = true) ∧
    (m.manifestSHA256 = Digest.zero ∨ manifestDigest H m = .ok m.manifestSHA256)

/-- The objects are those of the manifest, and the manifest is a view of their bytes. -/
def Shows (H : Hashes) (m : RawDayManifest) (maxRecords : UInt32) (verified : List RawObject) : Prop :=
  walkSlice m.chainSliceEndSequence m.chainSliceStartSequence m.chainSliceStartRoot (verified.flatMap (sliceEntries m)) =
      .ok (true, m.chainSliceEndRoot) ∧
    (∃ selection, deriveDaySelection H verified m.date m.chainSliceStartSequence m.chainSliceEndSequence maxRecords =
      .ok selection ∧ selectionMatches selection m = true) ∧
    chainObjectsForSlice verified m.chainSliceStartSequence m.chainSliceEndSequence = m.chainObjects

variable {H : Hashes} {m : RawDayManifest}

theorem checkDigest_eq_ok {u : Unit} :
    checkDigest H m = .ok u ↔ m.manifestSHA256 = Digest.zero ∨ manifestDigest H m = .ok m.manifestSHA256 := by
  unfold checkDigest
  split
  · rename_i hzero
    simp [hzero, pure_eq_ok]
  · rename_i hzero
    simp only [bind_eq_ok, mapError_eq_ok, reject_eq_ok, not_not, hzero, false_or]
    constructor
    · rintro ⟨digest, hdigest, rfl⟩
      exact hdigest
    · exact fun hdigest => ⟨_, hdigest, rfl⟩

variable {disk : Disk} {paths : ObjectPaths} {scope : ScopeConfig}

theorem verifyRawDaySnapshot_eq_ok : verifyRawDaySnapshot H m disk paths scope = .ok () ↔
      ∃ normalized, InScope H m scope normalized ∧ (m.chainObjects = [] ∨
        ∃ reversed, m.chainObjects.foldlM (openChainObject H disk paths) [] = .ok reversed ∧
          Shows H m normalized.protocolLimits.maxRecords reversed.reverse) := by
  simp only [verifyRawDaySnapshot, InScope, bind_eq_ok, mapError_eq_ok, reject_eq_ok, checkDigest_eq_ok, Bool.not_eq_true']
  constructor
  · rintro ⟨normalized, hscope, configHash, hconfig, _, hmatch, _, hvalid, _, hdigest, h⟩
    refine ⟨normalized, ⟨hscope, hvalid, ⟨configHash, hconfig, by simpa using hmatch⟩, hdigest⟩, ?_⟩
    split at h
    · rename_i hempty
      exact .inl hempty
    · simp only [bind_eq_ok, mapError_eq_ok, reject_eq_ok, not_or, not_not] at h
      obtain ⟨reversed, hopened, ⟨reached, root⟩, hwalk, _, ⟨hreached, hroot⟩, selection, hselection, _, hsame, hchain⟩ := h
      dsimp only at hreached hroot
      refine .inr ⟨reversed, hopened, ?_, ⟨selection, hselection, by simpa using hsame⟩, hchain⟩
      rw [hwalk, hroot]
      simp at hreached
      rw [hreached]
  · rintro ⟨normalized, ⟨hscope, hvalid, ⟨configHash, hconfig, hmatch⟩, hdigest⟩, h⟩
    refine ⟨normalized, hscope, configHash, hconfig, (), by simp [hmatch], (), hvalid, (), hdigest, ?_⟩
    split
    · rfl
    · rename_i hne
      obtain ⟨reversed, hopened, hwalk, ⟨selection, hselection, hsame⟩, hchain⟩ := h.resolve_left hne
      simp only [bind_eq_ok, mapError_eq_ok, reject_eq_ok, not_or, not_not]
      exact ⟨reversed, hopened, _, hwalk, (), by simp, selection, hselection, (), by simp [hsame], hchain⟩

theorem verifyManifestScope_eq_ok {normalized : ScopeConfig} {digest : Digest} {hashText digestText : String} :
    verifyManifestScope H m scope hashText digestText = .ok (normalized, digest) ↔
      InScope H m scope normalized ∧ manifestDigest H m = .ok digest := by
  simp only [verifyManifestScope, InScope, bind_eq_ok, pure_eq_ok, mapError_eq_ok, reject_eq_ok, Prod.mk.injEq]
  constructor
  · rintro ⟨_, hscope, _, hvalid, configHash, hconfig, _, hmatch, _, hdigest, _, hsame, rfl, rfl⟩
    refine ⟨⟨hscope, hvalid, ⟨configHash, hconfig, by simpa using hmatch⟩, ?_⟩, hdigest⟩
    rw [not_and_or, not_not, not_not] at hsame
    rcases hsame with hzero | hsame
    · exact .inl hzero
    · exact .inr (hsame ▸ hdigest)
  · rintro ⟨⟨hscope, hvalid, ⟨configHash, hconfig, hmatch⟩, hsame⟩, hdigest⟩
    refine ⟨normalized, hscope, (), hvalid, configHash, hconfig, (), by simp [hmatch], digest, hdigest, (), ?_, rfl, rfl⟩
    rintro ⟨hzero, hother⟩
    rcases hsame with hsame | hsame
    · exact hzero hsame
    · rw [hdigest] at hsame
      exact hother (Except.ok.inj hsame).symm

/-- What the supplied objects have to be. -/
def Supplied (objects : List RawObject) : Prop :=
  (∀ object ∈ objects, object.key ≠ [] ∧ object.bytes ≠ 0 ∧ object.segment.objectSHA256 = object.sha256 ∧
    object.segment.fileBytes = object.bytes) ∧ (objects.map (·.key)).Nodup

variable {objects : List RawObject}

theorem foldlM_addSupplied {known result : List RawObject} (hknown : Supplied known) :
    objects.foldlM addSupplied known = .ok result ↔ result = known ++ objects ∧ Supplied (known ++ objects) := by
  induction objects generalizing known with
  | nil =>
    rw [foldlM_nil_eq_ok, List.append_nil, and_iff_left hknown, eq_comm]
  | cons object objects ih =>
    have hsplit : known ++ object :: objects = (known ++ [object]) ++ objects := by simp
    simp only [foldlM_cons_eq_ok, addSupplied, bind_eq_ok, pure_eq_ok, reject_eq_ok, not_or, not_not]
    rw [hsplit]
    constructor
    · rintro ⟨_, ⟨_, hobject, _, hfresh, rfl⟩, hrest⟩
      refine (ih ⟨?_, ?_⟩).mp hrest
      · intro other hother
        rcases List.mem_append.mp hother with hother | hother
        · exact hknown.1 other hother
        · rw [List.mem_singleton.mp hother]
          exact hobject
      · rw [List.map_append, List.nodup_append]
        refine ⟨hknown.2, by simp, ?_⟩
        intro key hkey other hother
        obtain ⟨prior, hprior, rfl⟩ := List.mem_map.mp hkey
        rw [List.map_singleton, List.mem_singleton] at hother
        rintro rfl
        exact hfresh (List.any_eq_true.mpr ⟨prior, hprior, by simpa using hother⟩)
    · rintro ⟨rfl, hall⟩
      have hfront : Supplied (known ++ [object]) := by
        refine ⟨fun other hother => hall.1 other (List.mem_append_left _ hother), ?_⟩
        have hnodup := hall.2
        rw [List.map_append] at hnodup
        exact (List.nodup_append.mp hnodup).1
      refine ⟨known ++ [object], ⟨(), ?_, (), ?_, rfl⟩, (ih hfront).mpr ⟨rfl, hall⟩⟩
      · exact hfront.1 object (by simp)
      · intro hany
        obtain ⟨prior, hprior, heq⟩ := List.any_eq_true.mp hany
        have hnodup := hfront.2
        rw [List.map_append, List.nodup_append] at hnodup
        exact hnodup.2.2 prior.key (List.mem_map_of_mem hprior) object.key (by simp) (by simpa using heq)

theorem verifyRawDaySnapshotSegments_eq_ok (hdigest : ∃ digest, manifestDigest H m = .ok digest) :
    (∃ report, verifyRawDaySnapshotSegments H m objects scope = .ok report) ↔
      ∃ normalized, InScope H m scope normalized ∧ ((m.chainObjects = [] ∧ objects = []) ∨
        (m.chainObjects ≠ [] ∧ Supplied objects ∧ objects.length = m.chainObjects.length ∧
          ∃ reversed, m.chainObjects.foldlM (addVerified objects) [] = .ok reversed ∧
            Shows H m normalized.protocolLimits.maxRecords reversed.reverse)) := by
  have hnone : Supplied [] := ⟨by simp, by simp⟩
  constructor
  · rintro ⟨report, h⟩
    obtain ⟨⟨normalized, digest⟩, hscope, h⟩ := bind_eq_ok.mp h
    obtain ⟨hin, -⟩ := verifyManifestScope_eq_ok.mp hscope
    refine ⟨normalized, hin, ?_⟩
    dsimp only at h
    split at h
    · rename_i hempty
      simp only [bind_eq_ok, reject_eq_ok, not_not] at h
      obtain ⟨_, hobjects, -⟩ := h
      exact .inl ⟨hempty, hobjects⟩
    · rename_i hne
      simp only [bind_eq_ok, mapError_eq_ok, reject_eq_ok, not_or, not_not] at h
      obtain ⟨supplied, hsupplied, _, hlength, reversed, hreversed, ⟨reached, root⟩, hwalk, _, ⟨hreached, hroot⟩, selection,
        hselection, _, hsame, _, hchain, -⟩ := h
      rw [foldlM_addSupplied hnone, List.nil_append] at hsupplied
      obtain ⟨rfl, hsupplied⟩ := hsupplied
      dsimp only at hreached hroot
      refine .inr ⟨hne, hsupplied, hlength, reversed, hreversed, ?_, ⟨selection, hselection, by simpa using hsame⟩, hchain⟩
      rw [hwalk, hroot]
      simp at hreached
      rw [hreached]
  · rintro ⟨normalized, hin, h⟩
    obtain ⟨digest, hdigest⟩ := hdigest
    have hscope : verifyManifestScope H m scope "scope config hash cannot be computed" "manifest digest cannot be computed" =
        .ok (normalized, digest) := verifyManifestScope_eq_ok.mpr ⟨hin, hdigest⟩
    unfold verifyRawDaySnapshotSegments
    rw [hscope]
    rcases h with ⟨hempty, rfl⟩ | ⟨hne, hsupplied, hlength, reversed, hreversed, hwalk, ⟨selection, hselection, hsame⟩, hchain⟩
    · simp only [bind_eq_ok, Except.ok.injEq, exists_eq_left', hempty, if_true, reject_eq_ok, pure_eq_ok]
      exact ⟨_, (), by simp, rfl⟩
    · have hknown : objects.foldlM addSupplied [] = .ok objects := (foldlM_addSupplied hnone).mpr ⟨rfl, hsupplied⟩
      simp only [bind_eq_ok, Except.ok.injEq, exists_eq_left', if_neg hne, mapError_eq_ok, reject_eq_ok, not_or, not_not,
        pure_eq_ok]
      exact ⟨_, objects, hknown, (), hlength, reversed, hreversed, _, hwalk, (), by simp, selection, hselection, (),
        by simp [hsame], (), hchain, rfl⟩

/-! ## The two loops over the chain objects -/

/-- The file of a chain object can be read and verifies, as this object. -/
def Opens (H : Hashes) (disk : Disk) (paths : ObjectPaths) (descriptor : RawChainObject) (object : RawObject) : Prop :=
  ∃ path segment, paths descriptor.key = some path ∧ path ≠ "" ∧ verifySealedSegment H disk path = .ok segment ∧
    object = objectOf descriptor.key segment

theorem localPath_eq_ok {key : Bytes} {path : String} :
    localPath paths key = .ok path ↔ paths key = some path ∧ path ≠ "" := by
  unfold localPath
  cases hpath : paths key with
  | none => simp [bind_eq_ok]
  | some found =>
    simp only [Option.elim_some, bind_eq_ok, Except.ok.injEq, exists_eq_left', reject_eq_ok, pure_eq_ok, Option.some.injEq]
    constructor
    · rintro ⟨_, hne, rfl⟩
      exact ⟨rfl, hne⟩
    · rintro ⟨rfl, hne⟩
      exact ⟨(), hne, rfl⟩

variable {object : RawObject}

theorem not_discontinuous {opened : List RawObject} {segment : VerifiedSegment} (hsegment : object.segment = segment) :
    ¬ (opened.head?.any fun previous => previous.segment.lastSequence = maxUint64 ∨
        segment.startSequence ≠ previous.segment.lastSequence + 1 ∨
        segment.chainStart ≠ previous.segment.chainRoot) = true ↔
      ∀ previous ∈ opened.head?, Continues previous object := by
  subst hsegment
  cases opened.head? with
  | none => simp
  | some previous => simp [Continues]

theorem openChainObject_eq_ok (opened : List RawObject) (descriptor : RawChainObject) (next : List RawObject) :
    openChainObject H disk paths opened descriptor = .ok next ↔
      ∃ object, (Opens H disk paths descriptor object ∧ describesSegment descriptor object.segment = true) ∧
        (∀ prior ∈ opened, prior.key ≠ object.key) ∧ (∀ previous ∈ opened.head?, Continues previous object) ∧
        next = object :: opened := by
  simp only [openChainObject, Opens, bind_eq_ok, mapError_eq_ok, reject_eq_ok, pure_eq_ok, localPath_eq_ok,
    List.any_eq_true, not_exists, not_and, decide_eq_true_eq, Bool.not_eq_true', Bool.not_eq_false]
  constructor
  · rintro ⟨_, hfresh, path, ⟨hpath, hne⟩, segment, hsegment, _, hmeta, _, hlinked, rfl⟩
    exact ⟨_, ⟨⟨path, segment, hpath, hne, hsegment, rfl⟩, hmeta⟩, hfresh, (not_discontinuous rfl).mp hlinked, rfl⟩
  · rintro ⟨_, ⟨⟨path, segment, hpath, hne, hsegment, rfl⟩, hmeta⟩, hfresh, hlinked, rfl⟩
    exact ⟨(), hfresh, path, ⟨hpath, hne⟩, segment, hsegment, (), hmeta, (), (not_discontinuous rfl).mpr hlinked, rfl⟩

theorem addVerified_eq_ok {supplied : List RawObject} (hsupplied : Supplied supplied) (verified : List RawObject)
    (descriptor : RawChainObject) (next : List RawObject) :
    addVerified supplied verified descriptor = .ok next ↔
      ∃ object, (supplied.find? (fun object => object.key = descriptor.key) = some object ∧
          describesSegment descriptor object.segment = true) ∧
        (∀ prior ∈ verified, True) ∧ (∀ previous ∈ verified.head?, Continues previous object) ∧
        next = object :: verified := by
  simp only [addVerified, bind_eq_ok, pure_eq_ok, reject_eq_ok, not_discontinuous rfl]
  cases hfind : supplied.find? fun object => object.key = descriptor.key with
  | none => simp
  | some object =>
    obtain ⟨-, -, hsha, hbytes⟩ := hsupplied.1 object (List.mem_of_find?_eq_some hfind)
    simp only [Option.elim_some, Except.ok.injEq, Option.some.injEq, describesSegment, decide_eq_true_eq, not_or, not_not,
      implies_true, true_and]
    constructor
    · rintro ⟨_, rfl, _, hmeta, _, hlinked, rfl⟩
      rw [← hsha, ← hbytes] at hmeta
      exact ⟨object, ⟨rfl, hmeta⟩, hlinked, rfl⟩
    · rintro ⟨_, ⟨rfl, hmeta⟩, hlinked, rfl⟩
      rw [hsha, hbytes] at hmeta
      exact ⟨object, rfl, (), hmeta, (), hlinked, rfl⟩

/-! ## The files of a valid chain -/

theorem segmentRun_of_file {path : String} {segment : VerifiedSegment}
    (h : verifySealedSegment H disk path = .ok segment) : SegmentRun H segment := by
  obtain ⟨data, -, hverified⟩ := bind_eq_ok.mp h
  exact segmentRun_of_verified hverified

theorem Opens.key {descriptor : RawChainObject}
    (h : Opens H disk paths descriptor object) : object.key = descriptor.key := by
  obtain ⟨_, _, -, -, -, rfl⟩ := h
  rfl

variable {descriptors : List RawChainObject}

theorem keys_of_opens (h : List.Forall₂ (Opens H disk paths) descriptors objects) :
    objects.map (·.key) = descriptors.map (·.key) := by
  induction h with
  | nil => rfl
  | cons hfirst _ ih => rw [List.map_cons, List.map_cons, ih, hfirst.key]

theorem find?_key (hkeys : (objects.map (·.key)).Nodup)
    (hobject : object ∈ objects) : objects.find? (fun other => other.key = object.key) = some object := by
  cases hfind : objects.find? fun other => other.key = object.key with
  | none =>
    have := List.find?_eq_none.mp hfind object hobject
    simp at this
  | some other =>
    have hkey : other.key = object.key := by simpa using List.find?_some hfind
    rw [List.inj_on_of_nodup_map hkeys (List.mem_of_find?_eq_some hfind) hobject hkey]

theorem supplied_of_opens (hkeys : (descriptors.map (·.key)).Nodup)
    (hnames : ∀ descriptor ∈ descriptors, descriptor.key = rawWALObjectKey descriptor.sha256)
    (h : List.Forall₂ (Opens H disk paths) descriptors objects) : Supplied objects := by
  refine ⟨fun object hobject => ?_, keys_of_opens h ▸ hkeys⟩
  obtain ⟨descriptor, hdescriptor, path, segment, -, -, hsegment, rfl⟩ := exists_left_of_mem h hobject
  obtain ⟨data, -, hverified⟩ := bind_eq_ok.mp hsegment
  obtain ⟨-, -, -, hbytes, hdata⟩ := verifySealedBytes_facts hverified
  refine ⟨?_, ?_, rfl, rfl⟩
  · show descriptor.key ≠ []
    rw [hnames descriptor hdescriptor]
    exact rawWALObjectKey_ne_nil _
  · show segment.fileBytes ≠ 0
    rw [hbytes]
    exact fun hzero => hdata (List.length_eq_zero_iff.mp hzero)

theorem finds_of_opens (hkeys : (objects.map (·.key)).Nodup)
    (h : List.Forall₂ (Opens H disk paths) descriptors objects) :
    List.Forall₂ (fun descriptor object => objects.find? (fun other => other.key = descriptor.key) = some object)
      descriptors objects := by
  refine List.forall₂_iff_zip.mpr ⟨h.length_eq, fun {descriptor object} hmem => ?_⟩
  have hopen := (List.forall₂_iff_zip.mp h).2 hmem
  rw [← hopen.key]
  exact find?_key hkeys (List.of_mem_zip hmem).2

/-- With the files of its chain objects open, the first loop does what the second does. -/
theorem foldlM_openChainObject {reversed : List RawObject} (hkeys : (descriptors.map (·.key)).Nodup)
    (hnames : ∀ descriptor ∈ descriptors, descriptor.key = rawWALObjectKey descriptor.sha256) :
    descriptors.foldlM (openChainObject H disk paths) [] = .ok reversed ↔
      ∃ objects, List.Forall₂ (Opens H disk paths) descriptors objects ∧
        descriptors.foldlM (addVerified objects) [] = .ok reversed := by
  rw [foldlM_linked_nil openChainObject_eq_ok]
  constructor
  · rintro ⟨objects, hitems, -, hlinked, rfl⟩
    have hopens : List.Forall₂ (Opens H disk paths) descriptors objects := hitems.imp fun _ _ h => h.1
    have hsupplied := supplied_of_opens hkeys hnames hopens
    refine ⟨objects, hopens, ?_⟩
    rw [foldlM_linked_nil (addVerified_eq_ok hsupplied)]
    refine ⟨objects, ?_, List.pairwise_of_forall fun _ _ => trivial, hlinked, rfl⟩
    exact List.Forall₂.mp (fun _ _ => And.intro) (finds_of_opens hsupplied.2 hopens) (hitems.imp fun _ _ h => h.2)
  · rintro ⟨objects, hopens, hfold⟩
    have hsupplied := supplied_of_opens hkeys hnames hopens
    rw [foldlM_linked_nil (addVerified_eq_ok hsupplied)] at hfold
    obtain ⟨made, hitems, -, hlinked, rfl⟩ := hfold
    have hsame : made = objects := by
      refine List.right_unique_forall₂' ?_ (hitems.imp fun _ _ h => h.1) (finds_of_opens hsupplied.2 hopens)
      intro descriptor object other hobject hother
      rw [hobject] at hother
      exact Option.some.inj hother
    subst hsame
    refine ⟨made, List.Forall₂.mp (fun _ _ => And.intro) hopens (hitems.imp fun _ _ h => h.2), ?_, hlinked, rfl⟩
    exact List.pairwise_map.mp hsupplied.2

/-! ## The two verifiers -/

/-- The local verifier accepts just what the other accepts of the files, where all of them can be read and verify. -/
theorem verifyRawDaySnapshot_iff_segments {H : Hashes} {m : RawDayManifest}
    (hencodes : ∃ text, manifestCanonicalJSON m = .ok text) (disk : Disk) (paths : ObjectPaths) (scope : ScopeConfig) :
    verifyRawDaySnapshot H m disk paths scope = .ok () ↔
      ∃ objects, List.Forall₂ (Opens H disk paths) m.chainObjects objects ∧
        ∃ report, verifyRawDaySnapshotSegments H m objects scope = .ok report := by
  obtain ⟨text, htext⟩ := hencodes
  have hdigest : manifestDigest H m = .ok (rawDayManifestDigest H text) := by
    rw [manifestDigest, htext]
    rfl
  simp only [verifyRawDaySnapshot_eq_ok, verifyRawDaySnapshotSegments_eq_ok ⟨_, hdigest⟩]
  constructor
  · rintro ⟨normalized, hin, h⟩
    by_cases hempty : m.chainObjects = []
    · rw [hempty]
      exact ⟨[], .nil, normalized, hin, .inl ⟨rfl, rfl⟩⟩
    · obtain ⟨reversed, hfold, hshows⟩ := h.resolve_left hempty
      have hchain := chain_of_validate hin.2.1 hempty
      obtain ⟨objects, hopens, hverified⟩ := (foldlM_openChainObject hchain.keys fun d hd => (hchain.valid d hd).key).mp hfold
      refine ⟨objects, hopens, normalized, hin, .inr ⟨hempty, ?_, hopens.length_eq.symm, reversed, hverified, hshows⟩⟩
      exact supplied_of_opens hchain.keys (fun d hd => (hchain.valid d hd).key) hopens
  · rintro ⟨objects, hopens, normalized, hin, h⟩
    refine ⟨normalized, hin, ?_⟩
    rcases h with ⟨hempty, -⟩ | ⟨hne, -, -, reversed, hverified, hshows⟩
    · exact .inl hempty
    · have hchain := chain_of_validate hin.2.1 hne
      refine .inr ⟨reversed, ?_, hshows⟩
      exact (foldlM_openChainObject hchain.keys fun d hd => (hchain.valid d hd).key).mpr ⟨objects, hopens, hverified⟩

/-! ## A day of one file -/

def dayScope : ScopeConfig where
  datasetID := ascii "d"
  providerID := ascii "v"
  stableFeedID := ascii "f"
  exactSourceSymbol := ascii "S"
  brokerServerFingerprint := ascii "b"
  gatewayBuildIdentity := ascii "g"
  producerBuildIdentity := ascii "p"
  dayDefinitionID := ascii "u"
  settlePolicy := ascii "t"
  publisherID := ascii "q"
  publisherEpoch := 1
  protocolVersion := 0
  protocolLimits := ⟨0, 0, 0⟩

def dayTick (time : Int64) : RawMqlTickV1 where
  time := 0
  bidBits := 0
  askBits := 0
  lastBits := 0
  volume := 0
  timeMSC := time
  flags := 0
  volumeRealBits := 0
  captureSequence := 0

def dayBatch (sequence : UInt64) (times : List Int64) : BatchFrameV1 :=
  { emptyBatch (ascii "l") (ascii "s") sequence with
    requestedCount := 4
    returnedCount := Int32.ofNat times.length
    records := times.map dayTick }

/-- The sealed file of one batch. -/
def dayFile (p : Position) (times : List Int64) : Bytes :=
  sealedBytes Hashes.sample (ascii "g") p
    { entries := [makeEntry Hashes.sample 31 p.next p.last (batchFrame Hashes.sample (dayBatch p.next times)) 0 0]
      createdWallS := 0 }

def dayDisk : Disk := fun path => if path = "a" then some (dayFile ⟨1, Digest.zero⟩ [5, 7]) else none

def dayObjects : List RawObject :=
  ((verifySealedSegment Hashes.sample dayDisk "a").toOption.map fun segment =>
    objectOf (rawWALObjectKey segment.objectSHA256) segment).toList

def daySelected : DaySelection :=
  ((deriveDaySelection Hashes.sample dayObjects (utf8 "1970-01-01") 0 0 8).toOption).getD emptySelection

/-- The first manifest of that day. -/
def dayManifest : RawDayManifest where
  manifestVersion := rawDayManifestVersion
  manifestID := ascii "m"
  datasetID := dayScope.datasetID
  dayDefinitionID := dayScope.dayDefinitionID
  date := utf8 "1970-01-01"
  revision := 1
  publisherID := dayScope.publisherID
  publisherEpoch := dayScope.publisherEpoch
  configHash := ((dayScope.configHash Hashes.sample).toOption).getD Digest.zero
  protocolVersion := Protocol.protocolVersion
  sourceSchemaID := sourceSchemaMT5
  walSchemaID := Archive.walSchemaID
  observedThroughSourceMSC := daySelected.observedThroughSourceMSC
  observedThroughCaptureSeq := daySelected.observedThroughCaptureSeq
  terminalSyncStatus := ascii "s"
  settlePolicy := dayScope.settlePolicy
  completenessStatus := utf8 "provisional"
  objects := daySelected.objects
  chainObjects := chainObjectsForSlice dayObjects daySelected.chainSliceStartSequence daySelected.chainSliceEndSequence
  acceptedRecordCount := daySelected.acceptedRecordCount
  errorCount := daySelected.errorCount
  chainSliceStartSequence := daySelected.chainSliceStartSequence
  chainSliceStartRoot := daySelected.chainSliceStartRoot
  chainSliceEndSequence := daySelected.chainSliceEndSequence
  chainSliceEndRoot := daySelected.chainSliceEndRoot
  rawSetRoot := setRoot Hashes.sample daySelected.objects
  previousManifestSHA256 := none
  logicalCloseTimeS := 0
  manifestSHA256 := Digest.zero

def dayPaths : ObjectPaths := fun key => if key ∈ dayObjects.map (·.key) then some "a" else none

instance dayManifest_encodes : Fact ((manifestCanonicalJSON dayManifest).toOption.any (fun _ => true) = true) := ⟨by decide +kernel⟩

instance dayManifest_verifies : Fact ((verifyRawDaySnapshot Hashes.sample dayManifest dayDisk dayPaths dayScope).toOption.any
      (fun _ => true) = true) := ⟨by decide +kernel⟩

theorem verifyRawDaySnapshot_iff_segments_day :
    verifyRawDaySnapshot Hashes.sample dayManifest dayDisk dayPaths dayScope = .ok () ∧
      ∃ objects, List.Forall₂ (Opens Hashes.sample dayDisk dayPaths) dayManifest.chainObjects objects ∧
        ∃ report, verifyRawDaySnapshotSegments Hashes.sample dayManifest objects dayScope = .ok report := by
  obtain ⟨text, htext, -⟩ := exists_ok_of_any dayManifest_encodes.out
  obtain ⟨_, hverified, -⟩ := exists_ok_of_any dayManifest_verifies.out
  exact ⟨hverified, (verifyRawDaySnapshot_iff_segments ⟨text, htext⟩ _ _ _).mp hverified⟩

end TickPlatform.Archive
