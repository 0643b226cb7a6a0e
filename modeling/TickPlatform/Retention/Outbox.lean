import TickPlatform.Retention.Execution

/-!
# The raw outbox

Promotion of a sealed segment into the outbox, and the candidates that a prune of the outbox starts from: the files
that were found and observed, and the completions of earlier prunes.
-/

namespace TickPlatform.Retention

open Bytes Protocol Replay Wal Files Crash

variable {H : Hashes}

/-! ## Promotion -/

inductive PromoteError
  /-- `archive.ErrIntegrity`. -/
  | integrity (text : String)
  | other (text : String)
deriving DecidableEq, Repr

structure RawObject where
  key : Bytes
  sha256 : Digest
  bytes : Nat
  segment : VerifiedSegment

abbrev PromoteProg (H : Hashes) := Prog (PruneDisk H) (PruneOp H) PromoteError

/-- `objects/raw/.raw-wal-segment-v1-*.tmp`. -/
def promoteTemporary (nonce : Bytes) : Bytes := utf8 "objects/raw/.raw-wal-segment-v1-" ++ nonce ++ utf8 ".tmp"

/-- A file that is to be the same segment as its source. -/
def checkCopy (H : Hashes) (source : VerifiedSegment) (data copy : Bytes) (invalid changed differ : String) :
    Except PromoteError VerifiedSegment := do
  let segment ← (verifySealedSegment H copy).mapError fun _ => .integrity invalid
  reject (segment.objectSHA256 ≠ source.objectSHA256 ∨ segment.fileBytes ≠ source.fileBytes) (.integrity changed)
  reject (copy ≠ data) (.integrity differ)
  return segment

def bytesAt (name : PruneName) (disk : PruneDisk H) : Bytes := ((disk.lookup name).map Content.bytes).getD []

def verifyExistingObject (key : Bytes) (source : VerifiedSegment) (data : Bytes) : PromoteProg H RawObject := do
  let copy ← .read (bytesAt (.outbox key))
  let existing ← .lift (checkCopy H source data copy "existing outbox object is invalid"
    "existing outbox object has different content" "existing outbox object bytes differ")
  return ⟨key, existing.objectSHA256, existing.fileBytes, existing⟩

/-- Written under a temporary name, verified there, and linked to its own. -/
def publishObject (key nonce : Bytes) (source : VerifiedSegment) (data : Bytes) : PromoteProg H RawObject := do
  .emit (.write (.outbox (promoteTemporary nonce)) (.data data))
  let copy ← .read (bytesAt (.outbox (promoteTemporary nonce)))
  let _ ← .lift (checkCopy H source data copy "temporary outbox object failed sealed verification"
    "temporary outbox object hash or size mismatch" "temporary outbox object bytes differ")
  .emit (.link (.outbox (promoteTemporary nonce)) (.outbox key))
  .emit (.remove (.outbox (promoteTemporary nonce)))
  verifyExistingObject key source data

/-- The nonce is the random part of the temporary name. -/
def promoteSealedSegment (name nonce : Bytes) : PromoteProg H RawObject := do
  let data ← .read (bytesAt (.sealed name))
  let source ← .lift ((verifySealedSegment H data).mapError fun _ => .integrity "source is not a verified sealed WAL")
  let existing ← .read (·.lookup (.outbox (rawWALObjectKey source.objectSHA256)))
  if existing.isSome then verifyExistingObject (rawWALObjectKey source.objectSHA256) source data
  else publishObject (rawWALObjectKey source.objectSHA256) nonce source data

/-! ## Candidates -/

def artifactID (H : Hashes) (text : String) (artifact : LocalArtifact) : Except PruneError (Bytes × LocalArtifact) := do
  let id ← (artifact.stableID H).mapError fun err => otherError s!"{text}: {err}"
  return (id, artifact)

def bindRemoteVerification (verified : LocalArtifact → Bool) (candidate : CandidateFact) : CandidateFact :=
  { candidate with remoteVerified := verified candidate.artifact }

/-- A file is observed unless a completion speaks for it. -/
def outboxCandidates (observe : LocalArtifact → CandidateFact) (verified : LocalArtifact → Bool) (disk : PruneDisk H)
    (maxObjects maxBytes : UInt64) : Except PruneError (List CandidateFact) := do
  let artifacts ← inventoryFiles disk maxObjects maxBytes
  let recovered ← inventoryPruneCompletions disk maxObjects maxBytes
  let completed ← recovered.mapM fun candidate =>
    artifactID H "retention completion candidate identity" candidate.artifact
  let found ← artifacts.mapM (artifactID H "retention artifact identity")
  let observed := found.filter fun artifact => !(completed.any fun done => done.1 = artifact.1)
  return (observed.map (fun artifact => observe artifact.2) ++ recovered).map (bindRemoteVerification verified)

/-! ## An outbox in order -/

variable {disk : PruneDisk H} {maxObjects maxBytes : UInt64}

/-- Every file of the outbox is a segment under its key, and every completion is valid. -/
structure Kept (disk : PruneDisk H) : Prop where
  objects : ∀ path content, disk.lookup (.outbox path) = some content →
    ∃ found, inventoryObject (path, content) = .ok found
  completions : ∀ id content, disk.lookup (.completion id) = some content →
    ∃ recovered, inventoryCompletion disk (id, content) = .ok recovered
  temporaries : ∀ nonce, disk.lookup (.completionTemporary nonce) = none
  others : ∀ name, disk.lookup (.completionOther name) = none

/-- The files and the completions are within the limits of their inventories. -/
structure OutboxFits (disk : PruneDisk H) (maxObjects maxBytes : UInt64) : Prop where
  objects_pos : maxObjects ≠ 0
  bytes_pos : maxBytes ≠ 0
  objects : (outboxFolder.list keyLE disk).length ≤ maxObjects.toNat
  bytes : ((outboxFolder.list keyLE disk).map fileSize).sum ≤ maxBytes.toNat
  completions : (completionFolder.list keyLE disk).length ≤ maxObjects.toNat
  completionBytes : ((completionFolder.list keyLE disk).map fileSize).sum ≤ maxBytes.toNat

variable {content : Content H} {path : Bytes}

theorem mem_outbox : (path, content) ∈ outboxFolder.list keyLE disk ↔ disk.lookup (.outbox path) = some content :=
  outboxFolder.mem_list keyLE

variable {id : Bytes}

theorem mem_completions :
    (id, content) ∈ completionFolder.list keyLE disk ↔ disk.lookup (.completion id) = some content :=
  completionFolder.mem_list keyLE

theorem inventoryFiles_eq_ok {artifacts : List LocalArtifact} :
    inventoryFiles disk maxObjects maxBytes = .ok artifacts ↔
      (maxObjects ≠ 0 ∧ maxBytes ≠ 0) ∧ (outboxFolder.list keyLE disk).length ≤ maxObjects.toNat ∧
        ((outboxFolder.list keyLE disk).map fileSize).sum ≤ maxBytes.toNat ∧
        ∃ found, List.Forall₂ (fun file found => inventoryObject file = .ok found) (outboxFolder.list keyLE disk) found ∧
          artifacts = found.map (·.1) := by
  simp only [inventoryFiles, addObject, bind_eq_ok, pure_eq_ok, reject_eq_ok, collect_all, not_or]
  constructor
  · rintro ⟨_, hlimits, ⟨found, size⟩, ⟨hcount, hsum, hall, -⟩, rfl⟩
    exact ⟨hlimits, hcount, hsum, found, hall, rfl⟩
  · rintro ⟨hlimits, hcount, hsum, found, hall, rfl⟩
    exact ⟨(), hlimits, (found, _), ⟨hcount, hsum, hall, rfl⟩, rfl⟩

variable {recovered : List CandidateFact}

theorem inventoryPruneCompletions_eq_ok : inventoryPruneCompletions disk maxObjects maxBytes = .ok recovered ↔
      (maxObjects ≠ 0 ∧ maxBytes ≠ 0) ∧ ¬ disk.keys.any PruneName.unexpectedCompletion ∧
        (completionFolder.list keyLE disk).length ≤ maxObjects.toNat ∧
        ((completionFolder.list keyLE disk).map fileSize).sum ≤ maxBytes.toNat ∧
        List.Forall₂ (fun file found => inventoryCompletion disk file = .ok found) (completionFolder.list keyLE disk)
          recovered := by
  simp only [inventoryPruneCompletions, addCompletion, bind_eq_ok, pure_eq_ok, reject_eq_ok, collect_all, not_or]
  constructor
  · rintro ⟨_, hlimits, _, hnames, ⟨found, size⟩, ⟨hcount, hsum, hall, -⟩, rfl⟩
    exact ⟨hlimits, hnames, hcount, hsum, hall⟩
  · rintro ⟨hlimits, hnames, hcount, hsum, hall⟩
    exact ⟨(), hlimits, (), hnames, (recovered, _), ⟨hcount, hsum, hall, rfl⟩, rfl⟩

theorem unexpected_iff : ¬ (disk.keys.any PruneName.unexpectedCompletion = true) ↔
    (∀ nonce, disk.lookup (.completionTemporary nonce) = none) ∧ (∀ name, disk.lookup (.completionOther name) = none) ∧
      ∀ id, disk.lookup (.completion id) ≠ none → artifactPrefixText.isPrefixOf id = true := by
  rw [Bool.not_eq_true, any_key]
  constructor
  · intro h
    refine ⟨fun nonce => h _ rfl, fun name => h _ rfl, fun id hid => ?_⟩
    by_contra hname
    rw [Bool.not_eq_true] at hname
    exact hid (h _ (by rw [PruneName.unexpectedCompletion, hname]; rfl))
  · rintro ⟨htemporary, hother, hnamed⟩ name hbad
    cases name with
    | completionTemporary nonce => exact htemporary nonce
    | completionOther name => exact hother name
    | completion id =>
      by_contra hne
      rw [PruneName.unexpectedCompletion, hnamed id hne] at hbad
      cases hbad
    | sealed name => cases hbad
    | trash name => cases hbad
    | checkpoint endSequence => cases hbad
    | checkpointTemporary nonce => cases hbad
    | checkpointOther name => cases hbad
    | outbox path => cases hbad

theorem isPrefixOf_id {artifact : LocalArtifact} (h : artifact.stableID H = .ok id) :
    artifactPrefixText.isPrefixOf id = true := by
  obtain ⟨-, -, -, canonical, -, rfl⟩ := stableID_eq_ok.mp h
  rw [List.isPrefixOf_iff_prefix]
  exact ⟨_, rfl⟩

theorem inventoryCompletion_id {recovered : CandidateFact}
    (h : inventoryCompletion disk (id, content) = .ok recovered) : recovered.artifact.stableID H = .ok id := by
  obtain ⟨document, artifact, -, hid, -, hartifact, -, rfl⟩ := inventoryCompletion_eq_ok.mp h
  rw [← hid]
  exact (completionArtifact_eq_ok hartifact).2.1

/-! ## Keys -/

theorem components_of_no_slash (h : 47 ∉ path) : components path = [path] := by
  induction path with
  | nil => rfl
  | cons b rest ih =>
    rw [List.mem_cons, not_or] at h
    rw [components, if_neg (Ne.symm h.1), ih h.2]
    rfl

theorem components_append (front : Bytes) (rest : Bytes) (h : 47 ∉ front) :
    components (front ++ 47 :: rest) = front :: components rest := by
  induction front with
  | nil => rfl
  | cons b front ih =>
    rw [List.mem_cons, not_or] at h
    rw [List.cons_append, components, if_neg (Ne.symm h.1), ih h.2]
    rfl

theorem doubleSlash_of_no_slash (h : 47 ∉ path) : doubleSlash path = false := by
  induction path with
  | nil => rfl
  | cons b rest ih =>
    rw [List.mem_cons, not_or] at h
    cases rest with
    | nil => rfl
    | cons c rest =>
      rw [doubleSlash, ih h.2, beq_eq_false_iff_ne.mpr (Ne.symm h.1)]
      rfl

theorem doubleSlash_append {front rest : Bytes} (h : 47 ∉ front) (hrest : doubleSlash rest = false)
    (hhead : rest.head? ≠ some 47) : doubleSlash (front ++ 47 :: rest) = false := by
  induction front with
  | nil =>
    cases rest with
    | nil => rfl
    | cons c rest =>
      rw [List.nil_append, doubleSlash, hrest, beq_eq_false_iff_ne.mpr (fun heq => hhead (by rw [heq]; rfl) : c ≠ 47)]
      rfl
  | cons b front ih =>
    rw [List.mem_cons, not_or] at h
    have htail := ih h.2
    rw [List.cons_append]
    cases hcase : front ++ 47 :: rest with
    | nil => rfl
    | cons c tail =>
      rw [hcase] at htail
      rw [doubleSlash, htail, beq_eq_false_iff_ne.mpr (Ne.symm h.1)]
      rfl

/-- A key is two folders and a file name of its own. -/
theorem rawWALObjectKey_split (sha256 : Digest) : ∃ name, rawWALObjectKey sha256 =
    utf8 "objects" ++ 47 :: (utf8 "raw" ++ 47 :: (119 :: name)) ∧ name.length = 71 ∧
      ∀ x ∈ name, x ≠ 47 ∧ x ≠ 92 ∧ x ≠ 13 ∧ x ≠ 10 ∧ x < 0x80 := by
  have hfront : ascii "objects/raw/wal-" = utf8 "objects" ++ 47 :: (utf8 "raw" ++ 47 :: (119 :: ascii "al-")) := by
    decide
  have hdigit : ∀ x : UInt8, ((48 ≤ x ∧ x ≤ 57) ∨ (97 ≤ x ∧ x ≤ 102)) → x ≠ 47 ∧ x ≠ 92 ∧ x ≠ 13 ∧ x ≠ 10 ∧ x < 0x80 := by
    intro x hx
    refine ⟨?_, ?_, ?_, ?_, ?_⟩
    · rintro rfl
      exact absurd hx (by decide)
    · rintro rfl
      exact absurd hx (by decide)
    · rintro rfl
      exact absurd hx (by decide)
    · rintro rfl
      exact absurd hx (by decide)
    · rcases hx with ⟨-, hx⟩ | ⟨-, hx⟩
      · exact UInt8.lt_of_le_of_lt hx (by decide)
      · exact UInt8.lt_of_le_of_lt hx (by decide)
  have hlengths : (ascii "al-").length = 3 ∧ (ascii ".rtw").length = 4 := by decide
  have htexts : ((ascii "al-" ++ ascii ".rtw").all fun x => x ≠ 47 ∧ x ≠ 92 ∧ x ≠ 13 ∧ x ≠ 10 ∧ x < 0x80) = true := by
    decide
  refine ⟨ascii "al-" ++ hexBytes sha256.bytes ++ ascii ".rtw", ?_, ?_, ?_⟩
  · rw [rawWALObjectKey, hfront]
    simp
  · have hlength := length_encodeHashHex sha256
    rw [encodeHashHex] at hlength
    rw [List.length_append, List.length_append, hlength, hlengths.1, hlengths.2]
  · intro x hx
    rw [List.mem_append, List.mem_append] at hx
    rcases hx with (hx | hx) | hx
    · exact of_decide_eq_true (List.all_eq_true.mp htexts x (List.mem_append_left _ hx))
    · exact hdigit x (hexBytes_digits _ x hx)
    · exact of_decide_eq_true (List.all_eq_true.mp htexts x (List.mem_append_right _ hx))

theorem validateRelativePath_key (sha256 : Digest) : validateRelativePath (rawWALObjectKey sha256) = .ok () := by
  obtain ⟨name, hkey, hlength, hname⟩ := rawWALObjectKey_split sha256
  have hfile : 47 ∉ (119 :: name : Bytes) := by
    rw [List.mem_cons, not_or]
    exact ⟨by decide, fun hmem => (hname 47 hmem).1 rfl⟩
  have hfolders : (47 ∉ utf8 "objects" ∧ 47 ∉ utf8 "raw") ∧ (utf8 "objects").length = 7 ∧ (utf8 "raw").length = 3 ∧
      (utf8 "objects").head? = some 111 ∧ (utf8 "raw").head? = some 114 := by
    decide
  have hbytes : ((utf8 "objects" ++ utf8 "raw").all fun x => x ≠ 92 ∧ x ≠ 13 ∧ x ≠ 10) = true := by decide
  have hchecks : checkPathComponent (utf8 "objects") = .ok () ∧ checkPathComponent (utf8 "raw") = .ok () ∧
      (utf8 ".").length = 1 ∧ (utf8 "..").length = 2 := by
    decide
  obtain ⟨⟨hobjects, hraw⟩, hobjectsLength, hrawLength, hobjectsHead, hrawHead⟩ := hfolders
  simp only [validateRelativePath, bind_eq_ok, reject_eq_ok, not_or, each_eq_ok]
  rw [hkey]
  refine ⟨(), ⟨by simp, ?_, ?_, ?_, ?_⟩, ?_⟩
  · simp only [List.length_append, List.length_cons, hobjectsLength, hrawLength, hlength, maxPathBytes]
    omega
  · rw [List.head?_append, hobjectsHead]
    simp
  · rw [List.any_eq_true]
    rintro ⟨x, hx, hbad⟩
    rw [decide_eq_true_eq] at hbad
    have hgood : x ≠ 92 ∧ x ≠ 13 ∧ x ≠ 10 := by
      simp only [List.mem_append, List.mem_cons] at hx
      rcases hx with hx | rfl | hx | rfl | rfl | hx
      · exact of_decide_eq_true (List.all_eq_true.mp hbytes x (List.mem_append_left _ hx))
      · decide
      · exact of_decide_eq_true (List.all_eq_true.mp hbytes x (List.mem_append_right _ hx))
      · decide
      · decide
      · exact ⟨(hname x hx).2.1, (hname x hx).2.2.1, (hname x hx).2.2.2.1⟩
    rcases hbad with h | h | h
    · exact hgood.1 h
    · exact hgood.2.1 h
    · exact hgood.2.2 h
  · rw [doubleSlash_append hobjects (doubleSlash_append hraw (doubleSlash_of_no_slash hfile) (by simp))
      (by rw [List.head?_append, hrawHead]; simp)]
    decide
  · rw [components_append _ _ hobjects, components_append _ _ hraw, components_of_no_slash hfile]
    simp only [List.forall_mem_cons, forall_mem_nil_iff, and_true]
    refine ⟨hchecks.1, hchecks.2.1, ?_⟩
    rw [checkPathComponent, reject_eq_ok, not_or, not_or]
    refine ⟨by simp, fun heq => ?_, fun heq => ?_⟩
    · have := congrArg List.length heq
      rw [hchecks.2.2.1, List.length_cons, hlength] at this
      omega
    · have := congrArg List.length heq
      rw [hchecks.2.2.2, List.length_cons, hlength] at this
      omega

theorem promoteTemporary_ne (nonce : Bytes) (sha256 : Digest) : promoteTemporary nonce ≠ rawWALObjectKey sha256 := by
  intro heq
  obtain ⟨name, hkey, -⟩ := rawWALObjectKey_split sha256
  have hfront : utf8 "objects/raw/.raw-wal-segment-v1-" =
      utf8 "objects" ++ 47 :: (utf8 "raw" ++ 47 :: (46 :: utf8 "raw-wal-segment-v1-")) := by
    decide
  rw [hkey, promoteTemporary, hfront] at heq
  simp at heq

/-! ## What the candidates are -/

theorem inventoryObject_id (hnonzero : ∀ data, H.sha256 data ≠ Digest.zero)
    {found : Inventoried} (h : inventoryObject (path, content) = .ok found) (hsize : content.bytes.length < 2 ^ 64) :
    ∃ id, found.1.stableID H = .ok id := by
  obtain ⟨hpath, segment, hverified, rfl⟩ := inventoryObject_eq_ok.mp h
  obtain ⟨-, -, hsha, hbytes, hne⟩ := verifySealedBytes_facts hverified
  have hlength : content.bytes.length ≠ 0 := fun hzero => hne (List.length_eq_zero_iff.mp hzero)
  have hencodes : Encodes (segmentArtifact .rawOutbox path segment).value := by
    rw [LocalArtifact.value, encodes_jsonObject]
    simp only [List.forall_mem_cons, forall_mem_nil_iff, and_true, encodes_uint, encodes_hash,
      true_and]
    refine ⟨encodes_text _, encodes_string.mpr (utf8Valid_of_isASCII ?_)⟩
    show isASCII path = true
    rw [hpath]
    exact isASCII_rawWALObjectKey _
  obtain ⟨canonical, hcanonical⟩ := hencodes
  refine ⟨_, stableID_eq_ok.mpr ⟨?_, ?_, ?_, canonical, hcanonical, rfl⟩⟩
  · show validateRelativePath path = .ok ()
    rw [hpath]
    exact validateRelativePath_key _
  · show UInt64.ofNat segment.fileBytes ≠ 0
    rw [hbytes]
    intro hzero
    have := congrArg UInt64.toNat hzero
    rw [UInt64.toNat_ofNat_of_lt' hsize] at this
    exact hlength this
  · show segment.objectSHA256 ≠ Digest.zero
    rw [hsha]
    exact hnonzero _

variable (observe : LocalArtifact → CandidateFact) (verified : LocalArtifact → Bool)

/-- A completion speaks for its artifact; any other file is observed. -/
inductive OutboxCandidate (disk : PruneDisk H) : CandidateFact → Prop
  | completed (id : Bytes) (content : Content H) (recovered : CandidateFact)
      (hfile : disk.lookup (.completion id) = some content)
      (hinventory : inventoryCompletion disk (id, content) = .ok recovered) :
      OutboxCandidate disk (bindRemoteVerification verified recovered)
  | observed (path : Bytes) (content : Content H) (found : Inventoried) (id : Bytes)
      (hfile : disk.lookup (.outbox path) = some content)
      (hinventory : inventoryObject (path, content) = .ok found) (hid : found.1.stableID H = .ok id)
      (hnew : disk.lookup (.completion id) = none) :
      OutboxCandidate disk (bindRemoteVerification verified (observe found.1))

variable {observe verified}

theorem artifactID_eq_ok {text : String} {artifact : LocalArtifact} {found : Bytes × LocalArtifact} :
    artifactID H text artifact = .ok found ↔ artifact.stableID H = .ok found.1 ∧ found.2 = artifact := by
  simp only [artifactID, bind_eq_ok, pure_eq_ok, mapError_eq_ok]
  constructor
  · rintro ⟨id, hid, rfl⟩
    exact ⟨hid, rfl⟩
  · rintro ⟨hid, rfl⟩
    exact ⟨found.1, hid, rfl⟩

/-- The lists that the candidates are put together from. -/
structure Inventory (observe : LocalArtifact → CandidateFact) (verified : LocalArtifact → Bool) (disk : PruneDisk H)
    (found : List Inventoried) (ids : List (Bytes × LocalArtifact)) (recovered : List CandidateFact)
    (completed : List (Bytes × LocalArtifact)) (candidates : List CandidateFact) : Prop where
  objects : List.Forall₂ (fun file found => inventoryObject file = .ok found) (outboxFolder.list keyLE disk) found
  identified : List.Forall₂ (fun entry id => entry.1.stableID H = .ok id.1 ∧ id.2 = entry.1) found ids
  completions : List.Forall₂ (fun file found => inventoryCompletion disk file = .ok found)
    (completionFolder.list keyLE disk) recovered
  done : List.Forall₂ (fun candidate done => candidate.artifact.stableID H = .ok done.1 ∧ done.2 = candidate.artifact)
    recovered completed
  all : candidates = ((ids.filter fun artifact => !(completed.any fun done => done.1 = artifact.1)).map
    (fun artifact => observe artifact.2) ++ recovered).map (bindRemoteVerification verified)

variable {candidates : List CandidateFact}

theorem outboxCandidates_inventory : outboxCandidates observe verified disk maxObjects maxBytes = .ok candidates ↔
      OutboxFits disk maxObjects maxBytes ∧ ¬ disk.keys.any PruneName.unexpectedCompletion ∧
        ∃ found ids recovered completed, Inventory observe verified disk found ids recovered completed candidates := by
  simp only [outboxCandidates, bind_eq_ok, pure_eq_ok, inventoryFiles_eq_ok, inventoryPruneCompletions_eq_ok, mapM_eq_ok,
    artifactID_eq_ok]
  constructor
  · rintro ⟨artifacts, ⟨hlimits, hcount, hsum, found, hobjects, rfl⟩, recovered, ⟨-, hnames, hcount', hsum', hcompletions⟩,
      completed, hcompleted, ids, hids, rfl⟩
    rw [List.forall₂_map_left_iff] at hids
    exact ⟨⟨hlimits.1, hlimits.2, hcount, hsum, hcount', hsum'⟩, hnames, found, ids, recovered, completed, hobjects, hids,
      hcompletions, hcompleted, rfl⟩
  · rintro ⟨hfits, hnames, found, ids, recovered, completed, hobjects, hids, hcompletions, hcompleted, rfl⟩
    refine ⟨_, ⟨⟨hfits.objects_pos, hfits.bytes_pos⟩, hfits.objects, hfits.bytes, found, hobjects, rfl⟩, recovered,
      ⟨⟨hfits.objects_pos, hfits.bytes_pos⟩, hnames, hfits.completions, hfits.completionBytes, hcompletions⟩, completed,
      hcompleted, ids, ?_, rfl⟩
    rw [List.forall₂_map_left_iff]
    exact hids

theorem Inventory.completed_iff {found : List Inventoried} {ids completed : List (Bytes × LocalArtifact)}
    (h : Inventory observe verified disk found ids recovered completed candidates) :
    (completed.any fun done => done.1 = id) = true ↔ disk.lookup (.completion id) ≠ none := by
  rw [List.any_eq_true]
  constructor
  · rintro ⟨done, hdone, hid⟩
    rw [decide_eq_true_eq] at hid
    obtain ⟨candidate, hcandidate, hstable, -⟩ := exists_left_of_mem h.done hdone
    obtain ⟨⟨name, content⟩, hfile, hinventory⟩ := exists_left_of_mem h.completions hcandidate
    rw [inventoryCompletion_id hinventory, Except.ok.injEq] at hstable
    rw [mem_completions, hstable, hid] at hfile
    rw [hfile]
    simp
  · intro hne
    obtain ⟨content, hfile⟩ := Option.ne_none_iff_exists'.mp hne
    obtain ⟨candidate, hcandidate, hinventory⟩ := exists_right_of_mem h.completions (mem_completions.mpr hfile)
    obtain ⟨done, hdone, hstable, -⟩ := exists_right_of_mem h.done hcandidate
    rw [inventoryCompletion_id hinventory, Except.ok.injEq] at hstable
    exact ⟨done, hdone, by rw [← hstable]; simp⟩

theorem Inventory.mem_iff {found : List Inventoried} {ids completed : List (Bytes × LocalArtifact)}
    (h : Inventory observe verified disk found ids recovered completed candidates) {candidate : CandidateFact} :
    candidate ∈ candidates ↔ OutboxCandidate observe verified disk candidate := by
  rw [h.all, List.mem_map]
  constructor
  · rintro ⟨fact, hfact, rfl⟩
    rcases List.mem_append.mp hfact with hfact | hfact
    · obtain ⟨⟨id, artifact⟩, hid, rfl⟩ := List.mem_map.mp hfact
      rw [List.mem_filter] at hid
      obtain ⟨entry, hentry, hstable, hsame⟩ := exists_left_of_mem h.identified hid.1
      obtain ⟨⟨path, content⟩, hfile, hinventory⟩ := exists_left_of_mem h.objects hentry
      simp only at hstable hsame
      subst hsame
      refine .observed path content entry id (mem_outbox.mp hfile) hinventory hstable ?_
      by_contra hne
      rw [h.completed_iff.mpr hne] at hid
      exact absurd hid.2 (by simp)
    · obtain ⟨⟨id, content⟩, hfile, hinventory⟩ := exists_left_of_mem h.completions hfact
      exact .completed id content fact (mem_completions.mp hfile) hinventory
  · intro hcandidate
    cases hcandidate with
    | completed id content recovered hfile hinventory =>
      obtain ⟨fact, hfact, hinventory'⟩ := exists_right_of_mem h.completions (mem_completions.mpr hfile)
      rw [hinventory, Except.ok.injEq] at hinventory'
      subst hinventory'
      exact ⟨_, List.mem_append_right _ hfact, rfl⟩
    | observed path content entry id hfile hinventory hid hnew =>
      obtain ⟨entry', hentry, hinventory'⟩ := exists_right_of_mem h.objects (mem_outbox.mpr hfile)
      rw [hinventory, Except.ok.injEq] at hinventory'
      subst hinventory'
      obtain ⟨⟨id', artifact⟩, hids, hstable, hsame⟩ := exists_right_of_mem h.identified hentry
      simp only at hstable hsame
      subst hsame
      rw [hid, Except.ok.injEq] at hstable
      subst hstable
      refine ⟨_, List.mem_append_left _ (List.mem_map.mpr ⟨(id, entry.1), List.mem_filter.mpr ⟨hids, ?_⟩, rfl⟩), rfl⟩
      have hfalse : (completed.any fun done => done.1 = id) = false := by
        rw [← Bool.not_eq_true, h.completed_iff]
        simpa using hnew
      rw [hfalse]
      rfl

theorem fileSize_lt (hfits : OutboxFits disk maxObjects maxBytes)
    (hfile : disk.lookup (.outbox path) = some content) : content.bytes.length < 2 ^ 64 := by
  have hmem : fileSize (path, content) ∈ (outboxFolder.list keyLE disk).map fileSize :=
    List.mem_map_of_mem (mem_outbox.mpr hfile)
  have hle := List.single_le_sum (fun _ _ => Nat.zero_le _) _ hmem
  have hsum := hfits.bytes
  have hmax := maxBytes.toNat_lt
  rw [show fileSize (path, content) = content.bytes.length from rfl] at hle
  omega

/-- Just an outbox in order and within the limits has candidates. -/
theorem outboxCandidates_ok (hnonzero : ∀ data, H.sha256 data ≠ Digest.zero) :
    (∃ candidates, outboxCandidates observe verified disk maxObjects maxBytes = .ok candidates) ↔
      Kept disk ∧ OutboxFits disk maxObjects maxBytes := by
  constructor
  · rintro ⟨candidates, h⟩
    obtain ⟨hfits, hnames, found, ids, recovered, completed, hinventory⟩ := outboxCandidates_inventory.mp h
    obtain ⟨htemporaries, hothers, -⟩ := unexpected_iff.mp hnames
    refine ⟨⟨fun path content hfile => ?_, fun id content hfile => ?_, htemporaries, hothers⟩, hfits⟩
    · obtain ⟨entry, -, hentry⟩ := exists_right_of_mem hinventory.objects (mem_outbox.mpr hfile)
      exact ⟨entry, hentry⟩
    · obtain ⟨candidate, -, hcandidate⟩ := exists_right_of_mem hinventory.completions (mem_completions.mpr hfile)
      exact ⟨candidate, hcandidate⟩
  · rintro ⟨hkept, hfits⟩
    have hobjects : ∃ found, List.Forall₂ (fun file (found : Inventoried) => inventoryObject file = .ok found)
        (outboxFolder.list keyLE disk) found :=
      exists_forall₂ fun file hfile => hkept.objects file.1 file.2 (mem_outbox.mp hfile)
    have hcompletions : ∃ recovered, List.Forall₂ (fun file found => inventoryCompletion disk file = .ok found)
        (completionFolder.list keyLE disk) recovered :=
      exists_forall₂ fun file hfile => hkept.completions file.1 file.2 (mem_completions.mp hfile)
    obtain ⟨found, hfound⟩ := hobjects
    obtain ⟨recovered, hrecovered⟩ := hcompletions
    have hids : ∃ ids, List.Forall₂ (fun (entry : Inventoried) (id : Bytes × LocalArtifact) =>
        entry.1.stableID H = .ok id.1 ∧ id.2 = entry.1) found ids := by
      refine exists_forall₂ fun entry hentry => ?_
      obtain ⟨⟨path, content⟩, hfile, hinventory⟩ := exists_left_of_mem hfound hentry
      obtain ⟨id, hid⟩ := inventoryObject_id hnonzero hinventory (fileSize_lt hfits (mem_outbox.mp hfile))
      exact ⟨(id, entry.1), hid, rfl⟩
    have hdone : ∃ completed, List.Forall₂ (fun (candidate : CandidateFact) (done : Bytes × LocalArtifact) =>
        candidate.artifact.stableID H = .ok done.1 ∧ done.2 = candidate.artifact) recovered completed := by
      refine exists_forall₂ fun candidate hcandidate => ?_
      obtain ⟨⟨id, content⟩, -, hinventory⟩ := exists_left_of_mem hrecovered hcandidate
      exact ⟨(id, candidate.artifact), inventoryCompletion_id hinventory, rfl⟩
    obtain ⟨ids, hids⟩ := hids
    obtain ⟨completed, hdone⟩ := hdone
    refine ⟨_, outboxCandidates_inventory.mpr ⟨hfits, unexpected_iff.mpr ⟨hkept.temporaries, hkept.others, ?_⟩, found, ids,
      recovered, completed, ⟨hfound, hids, hrecovered, hdone, rfl⟩⟩⟩
    intro id hid
    obtain ⟨content, hfile⟩ := Option.ne_none_iff_exists'.mp hid
    obtain ⟨candidate, hcandidate⟩ := hkept.completions id content hfile
    exact isPrefixOf_id (inventoryCompletion_id hcandidate)

theorem mem_outboxCandidates
    (h : outboxCandidates observe verified disk maxObjects maxBytes = .ok candidates) {candidate : CandidateFact} :
    candidate ∈ candidates ↔ OutboxCandidate observe verified disk candidate := by
  obtain ⟨-, -, _, _, _, _, hinventory⟩ := outboxCandidates_inventory.mp h
  exact hinventory.mem_iff

/-- No artifact is a candidate twice. -/
theorem nodup_outboxCandidates (hobserve : ∀ artifact, (observe artifact).artifact = artifact) (h : outboxCandidates observe verified disk maxObjects maxBytes = .ok candidates) :
    candidates.Nodup := by
  obtain ⟨-, -, found, ids, recovered, completed, hinventory⟩ := outboxCandidates_inventory.mp h
  have hartifacts : (ids.map (·.2)).Nodup := by
    have hsame : found.map (·.1) = ids.map (·.2) := map_eq_of_forall₂ hinventory.identified fun _ _ hid => hid.2.symm
    have hpaths : (outboxFolder.list keyLE disk).map (·.1) = (found.map (·.1)).map (·.trustedPath) := by
      rw [List.map_map]
      refine map_eq_of_forall₂ hinventory.objects fun file entry hentry => ?_
      obtain ⟨-, segment, -, rfl⟩ := inventoryObject_eq_ok.mp hentry
      rfl
    rw [← hsame]
    exact List.Nodup.of_map _ (hpaths ▸ outboxFolder.nodup_list keyLE)
  have hrecovered : (recovered.map (·.artifact)).Nodup := by
    have hnames : ((completionFolder.list keyLE disk).map (·.1)).map (fun id => (.ok id : Except String Bytes)) =
        (recovered.map (·.artifact)).map (·.stableID H) := by
      rw [List.map_map, List.map_map]
      exact map_eq_of_forall₂ hinventory.completions fun file candidate hcandidate => (inventoryCompletion_id hcandidate).symm
    refine List.Nodup.of_map (LocalArtifact.stableID H) ?_
    rw [← hnames]
    exact (completionFolder.nodup_list keyLE).map fun _ _ heq => Except.ok.inj heq
  have hmap : candidates.map (·.artifact) =
      (ids.filter fun artifact => !(completed.any fun done => done.1 = artifact.1)).map (·.2) ++
        recovered.map (·.artifact) := by
    rw [hinventory.all, List.map_map, List.map_append, List.map_map]
    congr 1
    refine List.map_congr_left fun id _ => ?_
    exact hobserve id.2
  refine List.Nodup.of_map (·.artifact) ?_
  rw [hmap, List.nodup_append]
  refine ⟨hartifacts.sublist (List.filter_sublist.map _), hrecovered, ?_⟩
  rintro artifact hleft _ hright rfl
  obtain ⟨id, hid, rfl⟩ := List.mem_map.mp hleft
  obtain ⟨candidate, hcandidate, hsame⟩ := List.mem_map.mp hright
  rw [List.mem_filter] at hid
  obtain ⟨entry, -, hstable, hentry⟩ := exists_left_of_mem hinventory.identified hid.1
  obtain ⟨done, hdone, hstable', -⟩ := exists_right_of_mem hinventory.done hcandidate
  rw [hsame, hentry, hstable, Except.ok.injEq] at hstable'
  have hany : (completed.any fun done => done.1 = id.1) = true :=
    List.any_eq_true.mpr ⟨done, hdone, by rw [hstable']; simp⟩
  rw [hany] at hid
  exact absurd hid.2 (by simp)

end TickPlatform.Retention
