import TickPlatform.Delivery.Reader

/-!
# Fetching a raw day

`Fetch` brings the manifest and the chain objects of a plan into a cache, checking each, restores the entries, and
copies the files into a directory where one is given. The copy of the manifest is checked against the digest of the
manifest, which is a hash of its bytes behind a domain; the copy hashes the bytes alone.
-/

open TickPlatform.Bytes TickPlatform.Protocol TickPlatform.Replay TickPlatform.Archive TickPlatform.Remote
open TickPlatform.Wal hiding Disk

namespace TickPlatform.Delivery

/-! ## Plans -/

structure FetchObject where
  key : Bytes
  remoteKey : Bytes
  sha256 : Digest
  bytes : UInt64
  cachePath : String
deriving DecidableEq

structure FetchPlan where
  manifestKey : Bytes
  manifestSHA256 : Digest
  manifestBytes : Bytes
  manifestCachePath : String
  objects : List FetchObject

structure FetchResult where
  manifestPath : String
  objectPaths : ObjectPaths
  entries : List RestoredEntry

def hexText (digest : Digest) : String := String.ofList (digest.bytes.flatMap hexByte)

def cacheManifestPath (r : ArchiveReader) (m : RawDayManifest) : String :=
  r.config.cacheRoot ++ "/manifests/raw-day-" ++ toString m.revision ++ "-" ++ hexText m.manifestSHA256 ++ ".json"

def cacheObjectPath (r : ArchiveReader) (hash : Digest) : String :=
  r.config.cacheRoot ++ "/objects/raw/wal-" ++ hexText hash ++ ".rtw"

def planObject (r : ArchiveReader) (layout : Layout) (planned : List FetchObject) (object : RawChainObject) :
    Except ReaderError (List FetchObject) := do
  reject (object.key ≠ rawWALObjectKey object.sha256 ∨ object.bytes = 0 ∨
      object.endIngestSequence < object.startIngestSequence)
    (.integrity "chain object identity is invalid")
  reject (planned.any fun prior => prior.key = object.key) (.integrity "chain object is duplicated")
  let remoteKey ← (layout.remoteKey object.key).mapError fun _ => .integrity "chain object key is invalid"
  return planned ++
    [{ key := object.key, remoteKey, sha256 := object.sha256, bytes := object.bytes,
       cachePath := cacheObjectPath r object.sha256 }]

def buildFetchPlan (H : Hashes) (r : ArchiveReader) (snapshot : ResolvedSnapshot) : Except ReaderError FetchPlan := do
  (validateRawDayManifest H snapshot.manifest).mapError fun _ => .integrity "snapshot manifest is invalid"
  manifestMatchesScope H snapshot.manifest snapshot.scope
  reject ((manifestCanonicalJSON snapshot.manifest).toOption ≠ some snapshot.manifestBytes)
    (.integrity "snapshot manifest bytes are not canonical")
  reject ((manifestDigest H snapshot.manifest).toOption ≠ some snapshot.manifestSHA256)
    (.integrity "snapshot manifest digest is invalid")
  reject (snapshot.manifestKey = [] ∨ snapshot.manifestSHA256 = Digest.zero)
    (.integrity "snapshot identity is incomplete")
  let layout ← (newLayout H r.config.immutableRoot snapshot.scope).mapError fun _ =>
    .integrity "snapshot scope layout is invalid"
  reject ((layout.manifestKey H snapshot.manifest).toOption ≠ some snapshot.manifestKey)
    (.integrity "manifest key does not match scope and digest")
  let objects ← snapshot.manifest.chainObjects.foldlM (planObject r layout) []
  return { manifestKey := snapshot.manifestKey, manifestSHA256 := snapshot.manifestSHA256,
           manifestBytes := snapshot.manifestBytes, manifestCachePath := cacheManifestPath r snapshot.manifest, objects }

/-- The planned object is the chain object. -/
def plans (r : ArchiveReader) (object : FetchObject) (chainObject : RawChainObject) : Bool :=
  object.key = chainObject.key ∧ object.remoteKey ≠ [] ∧ object.sha256 = chainObject.sha256 ∧
    object.bytes = chainObject.bytes ∧ object.cachePath = cacheObjectPath r object.sha256

def validateFetchPlan (H : Hashes) (r : ArchiveReader) (plan : FetchPlan) : Except ReaderError Unit := do
  reject (plan.manifestKey = [] ∨ plan.manifestBytes = [] ∨ plan.manifestSHA256 = Digest.zero)
    (.integrity "fetch plan is incomplete")
  let m ← (verifyRawDayManifest H plan.manifestBytes).mapError fun _ => .integrity "fetch plan manifest is invalid"
  reject (m.manifestSHA256 ≠ plan.manifestSHA256) (.integrity "fetch plan manifest is invalid")
  let _ ← parseManifestSelector plan.manifestKey r.config.immutableRoot
  reject (m.chainObjects.length ≠ plan.objects.length) (.integrity "fetch plan chain object count differs")
  reject (!(plan.objects.zip m.chainObjects).all fun pair => plans r pair.1 pair.2)
    (.integrity "fetch plan object differs from manifest")

/-! ## Files -/

def putFile (disk : Disk) (path : String) (data : Bytes) : Disk := fun other => if other = path then some data else disk other

def publishVerifiedBytes (disk : Disk) (path : String) (body : Bytes) : Except ReaderError Disk := do
  reject (path = "") (.integrity "cache path is empty")
  match disk path with
  | some existing => do
    reject (existing ≠ body) (.integrity "existing cache bytes differ")
    return disk
  | none => return putFile disk path body

def verifyCachedFile (H : Hashes) (disk : Disk) (path : String) (expectedHash : Digest) (expectedBytes : UInt64)
    (verifyWAL : Bool) : Except ReaderError Unit := do
  let data ← (disk path).elim (.error .notExist) .ok
  reject (data.length ≠ expectedBytes.toNat) (.integrity "cached file size differs")
  reject (H.sha256 data ≠ expectedHash) (.integrity "cached file hash differs")
  reject (verifyWAL ∧ (verifySealedSegment H disk path).toOption = none) (.integrity "cached WAL failed verification")

/-- A file that is there and verifies is left as it is; one that is not there is made. -/
def unlessCached (cached : Except ReaderError Unit) (disk : Disk) (make : Except ReaderError Disk) :
    Except ReaderError Disk :=
  match cached with
  | .ok _ => .ok disk
  | .error .notExist => make
  | .error err => .error err

/-- `int64(expectedBytes) + 1`; nothing is read below one. -/
def streamLimit (expectedBytes : UInt64) : Nat := (expectedBytes.toInt64 + 1).toInt.toNat

/-- The WAL is verified under the name of the temporary file, here under the final one. -/
def streamVerifiedFile (H : Hashes) (source : Bytes) (disk : Disk) (path : String) (expectedHash : Digest)
    (expectedBytes : UInt64) (verifyWAL : Bool) : Except ReaderError Disk := do
  reject (path = "" ∨ expectedBytes = 0) (.integrity "streamed cache target is incomplete")
  unlessCached (verifyCachedFile H disk path expectedHash expectedBytes verifyWAL) disk do
    let copied := source.take (streamLimit expectedBytes)
    reject (copied.length ≠ expectedBytes.toNat) (.integrity "streamed raw object size differs")
    reject (H.sha256 copied ≠ expectedHash) (.integrity "streamed raw object hash differs")
    reject (verifyWAL ∧ (verifySealedBytes H path copied).toOption = none)
      (.integrity "downloaded WAL failed verification")
    return putFile disk path copied

def copyVerifiedFile (H : Hashes) (disk : Disk) (source destination : String) (expectedHash : Digest)
    (expectedBytes : UInt64) (verifyWAL : Bool) : Except ReaderError Disk :=
  unlessCached (verifyCachedFile H disk destination expectedHash expectedBytes verifyWAL) disk do
    let data ← (disk source).elim (.error (.other "open verified cache")) .ok
    streamVerifiedFile H data disk destination expectedHash expectedBytes verifyWAL

/-! ## Fetching -/

def fetchManifest (r : ArchiveReader) (plan : FetchPlan) (disk : Disk) : Except ReaderError Disk := do
  let body ← metadata r plan.manifestKey
  reject (body ≠ plan.manifestBytes) (.integrity "remote manifest changed during fetch")
  publishVerifiedBytes disk plan.manifestCachePath body

def fetchRawObject (H : Hashes) (r : ArchiveReader) (disk : Disk) (object : FetchObject) : Except ReaderError Disk := do
  reject (object.bytes > r.config.maxRawObjectBytes) (.integrity "raw object exceeds configured limit")
  let (body, size) ← r.backend.openObject object.remoteKey
  reject (0 ≤ size ∧ size ≠ (object.bytes.toNat : Int)) (.integrity "remote raw object size differs")
  streamVerifiedFile H body disk object.cachePath object.sha256 object.bytes true

/-- The paths of the objects, each by its key. -/
def pathsOf (path : FetchObject → String) (objects : List FetchObject) : ObjectPaths := fun key =>
  (objects.reverse.find? fun object => object.key = key).map path

def manifestOutput (destination : String) (digest : Digest) : String :=
  destination ++ "/manifest-" ++ hexText digest ++ ".json"

def objectOutput (destination : String) (object : FetchObject) : String :=
  destination ++ "/wal-" ++ hexText object.sha256 ++ ".rtw"

/-- The result and the files after it. -/
def fetch (H : Hashes) (r : ArchiveReader) (plan : FetchPlan) (destination : String) (disk : Disk) :
    Except ReaderError (FetchResult × Disk) := do
  validateFetchPlan H r plan
  let disk ← fetchManifest r plan disk
  let disk ← plan.objects.foldlM (fetchRawObject H r) disk
  let objectPaths := pathsOf (·.cachePath) plan.objects
  -- The manifest has been decoded by the check of the plan.
  let m ← (verifyRawDayManifest H plan.manifestBytes).mapError .other
  let entries ← (restoreEntries H disk m objectPaths).mapError ofArchive
  if destination = "" then return (⟨plan.manifestCachePath, objectPaths, entries⟩, disk)
  else do
    let output := manifestOutput destination plan.manifestSHA256
    let disk ← copyVerifiedFile H disk plan.manifestCachePath output plan.manifestSHA256
      (UInt64.ofNat plan.manifestBytes.length) false
    let disk ← plan.objects.foldlM (fun disk object =>
      copyVerifiedFile H disk object.cachePath (objectOutput destination object) object.sha256 object.bytes true) disk
    return (⟨output, pathsOf (objectOutput destination) plan.objects, entries⟩, disk)

/-! ## What is cached -/

variable {disk next : Disk}

theorem unlessCached_eq_ok {cached : Except ReaderError Unit} {make : Except ReaderError Disk} :
    unlessCached cached disk make = .ok next ↔
      (cached = .ok () ∧ next = disk) ∨ (cached = .error .notExist ∧ make = .ok next) := by
  rcases cached with err | ⟨⟩
  · cases err <;> simp [unlessCached]
  · simp [unlessCached, eq_comm]

/-- A file that is there stays as it is. -/
def Keeps (disk next : Disk) : Prop := ∀ path data, disk path = some data → next path = some data

theorem Keeps.refl (disk : Disk) : Keeps disk disk := fun _ _ h => h

theorem Keeps.trans {first second third : Disk} (h : Keeps first second) (h' : Keeps second third) : Keeps first third :=
  fun path data hdata => h' path data (h path data hdata)

variable {path : String}

theorem keeps_putFile (h : disk path = none) (data : Bytes) : Keeps disk (putFile disk path data) := by
  intro other found hfound
  have hne : other ≠ path := by
    rintro rfl
    rw [h] at hfound
    cases hfound
  rw [putFile, if_neg hne, hfound]

variable {H : Hashes} {expectedBytes : UInt64} {expectedHash : Digest} {verifyWAL : Bool}

theorem verifyCachedFile_eq_ok : verifyCachedFile H disk path expectedHash expectedBytes verifyWAL = .ok () ↔
      ∃ data, disk path = some data ∧ data.length = expectedBytes.toNat ∧ H.sha256 data = expectedHash ∧
        (verifyWAL = true → (verifySealedSegment H disk path).toOption ≠ none) := by
  simp only [verifyCachedFile, bind_eq_ok, elim_eq_ok, reject_eq_ok, not_not, not_and, exists_unit]

theorem eq_none_of_notExist (h : verifyCachedFile H disk path expectedHash expectedBytes verifyWAL = .error .notExist) :
    disk path = none := by
  cases hdata : disk path with
  | none => rfl
  | some data =>
    simp [verifyCachedFile, hdata, bind_eq_error, reject_eq_error] at h

theorem streamVerifiedFile_eq_ok {source : Bytes}
    (h : streamVerifiedFile H source disk path expectedHash expectedBytes verifyWAL = .ok next) :
    (verifyCachedFile H disk path expectedHash expectedBytes verifyWAL = .ok () ∧ next = disk) ∨
      (disk path = none ∧ ∃ copied, copied = source.take (streamLimit expectedBytes) ∧
        copied.length = expectedBytes.toNat ∧ H.sha256 copied = expectedHash ∧ next = putFile disk path copied) := by
  simp only [streamVerifiedFile, bind_eq_ok, unlessCached_eq_ok, pure_eq_ok, reject_eq_ok, not_not] at h
  obtain ⟨_, -, ⟨hcached, rfl⟩ | ⟨hmissing, _, hlength, _, hhash, _, -, rfl⟩⟩ := h
  · exact .inl ⟨hcached, rfl⟩
  · exact .inr ⟨eq_none_of_notExist hmissing, _, rfl, hlength, hhash, rfl⟩

theorem keeps_streamVerifiedFile {source : Bytes}
    (h : streamVerifiedFile H source disk path expectedHash expectedBytes verifyWAL = .ok next) :
    Keeps disk next ∧ ∀ other, other ≠ path → next other = disk other := by
  rcases streamVerifiedFile_eq_ok h with ⟨-, rfl⟩ | ⟨hmissing, copied, -, -, -, rfl⟩
  · exact ⟨.refl _, fun _ _ => rfl⟩
  · exact ⟨keeps_putFile hmissing copied, fun other hne => if_neg hne⟩

theorem publishVerifiedBytes_eq_ok {body : Bytes} (h : publishVerifiedBytes disk path body = .ok next) :
    next path = some body ∧ Keeps disk next ∧ ∀ other, other ≠ path → next other = disk other := by
  simp only [publishVerifiedBytes, bind_eq_ok] at h
  obtain ⟨_, -, h⟩ := h
  cases hdata : disk path with
  | some existing =>
    simp only [hdata, bind_eq_ok, reject_eq_ok, not_not, pure_eq_ok] at h
    obtain ⟨_, rfl, rfl⟩ := h
    exact ⟨hdata, .refl _, fun _ _ => rfl⟩
  | none =>
    simp only [hdata, pure_eq_ok] at h
    subst h
    exact ⟨if_pos rfl, keeps_putFile hdata body, fun other hne => if_neg hne⟩

variable {r : ArchiveReader}

theorem fetchRawObject_keeps {object : FetchObject} (h : fetchRawObject H r disk object = .ok next) :
    Keeps disk next ∧ ∀ other, other ≠ object.cachePath → next other = disk other := by
  simp only [fetchRawObject, bind_eq_ok] at h
  obtain ⟨_, -, _, -, _, -, h⟩ := h
  exact keeps_streamVerifiedFile h

theorem foldlM_fetchRawObject_keeps {objects : List FetchObject}
    (h : objects.foldlM (fetchRawObject H r) disk = .ok next) :
    Keeps disk next ∧ ∀ other, (∀ object ∈ objects, other ≠ object.cachePath) → next other = disk other := by
  induction objects generalizing disk with
  | nil =>
    rw [foldlM_nil_eq_ok] at h
    subst h
    exact ⟨.refl _, fun _ _ => rfl⟩
  | cons object objects ih =>
    obtain ⟨mid, hfirst, hrest⟩ := foldlM_cons_eq_ok.mp h
    obtain ⟨hkeeps, hother⟩ := fetchRawObject_keeps hfirst
    obtain ⟨hkeeps', hother'⟩ := ih hrest
    refine ⟨hkeeps.trans hkeeps', fun other hne => ?_⟩
    rw [List.forall_mem_cons] at hne
    rw [hother' other hne.2, hother other hne.1]

/-! ## The copy of the manifest -/

theorem manifestOutput_ne_cacheObjectPath (r : ArchiveReader) (destination : String) (digest hash : Digest) :
    manifestOutput destination digest ≠ cacheObjectPath r hash := by
  have hjson : ∀ front : String, (front ++ ".json").toList.getLast? = some 'n' := by
    intro front
    rw [String.toList_append, List.getLast?_append]
    rfl
  have hrtw : ∀ front : String, (front ++ ".rtw").toList.getLast? = some 'w' := by
    intro front
    rw [String.toList_append, List.getLast?_append]
    rfl
  intro heq
  have hlast := congrArg (fun path => path.toList.getLast?) heq
  simp only [manifestOutput, cacheObjectPath, hjson, hrtw] at hlast
  exact absurd hlast (by decide)

theorem cachePath_of_validate {plan : FetchPlan}
    (h : validateFetchPlan H r plan = .ok ()) : ∀ object ∈ plan.objects, object.cachePath = cacheObjectPath r object.sha256 := by
  simp only [validateFetchPlan, bind_eq_ok, reject_eq_ok, not_not, Bool.not_eq_true', Bool.not_eq_false,
    List.all_eq_true] at h
  obtain ⟨_, -, m, -, _, -, _, -, _, hlength, hall⟩ := h
  intro object hobject
  obtain ⟨i, hi, rfl⟩ := List.getElem_of_mem hobject
  have hpair := hall (plan.objects[i], m.chainObjects[i]) (List.mem_iff_getElem.mpr ⟨i, by simp [hlength, hi], by simp⟩)
  simp only [plans, decide_eq_true_eq] at hpair
  exact hpair.2.2.2.2

theorem digest_of_buildFetchPlan {snapshot : ResolvedSnapshot} {plan : FetchPlan}
    (h : buildFetchPlan H r snapshot = .ok plan) :
    plan.manifestSHA256 = H.sha256 (rawDayManifestDomain ++ plan.manifestBytes) := by
  simp only [buildFetchPlan, bind_eq_ok, reject_eq_ok, not_not, toOption_eq_some, manifestDigest_eq_ok, pure_eq_ok] at h
  obtain ⟨_, -, _, -, _, hcanonical, _, ⟨text, htext, hdigest⟩, _, -, _, -, _, -, _, -, rfl⟩ := h
  obtain rfl : snapshot.manifestBytes = text := Except.ok.inj (hcanonical.symm.trans htext)
  exact hdigest

theorem hash_of_copyVerifiedFile {source destination : String} {digest : Digest}
    {body : Bytes} (hsource : disk source = some body) (hsmall : body.length < 2 ^ 64)
    (hdestination : ∀ data, disk destination = some data → data = body)
    (h : copyVerifiedFile H disk source destination digest (UInt64.ofNat body.length) false = .ok next) :
    H.sha256 body = digest := by
  have hcached : verifyCachedFile H disk destination digest (UInt64.ofNat body.length) false = .ok () →
      H.sha256 body = digest := by
    intro hverified
    obtain ⟨data, hdata, -, hhash, -⟩ := verifyCachedFile_eq_ok.mp hverified
    rw [← hdestination data hdata]
    exact hhash
  rcases unlessCached_eq_ok.mp h with ⟨hverified, -⟩ | ⟨-, hstream⟩
  · exact hcached hverified
  simp only [hsource, Option.elim_some, bind_eq_ok, Except.ok.injEq, exists_eq_left'] at hstream
  rcases streamVerifiedFile_eq_ok hstream with ⟨hverified, -⟩ | ⟨-, copied, rfl, hlength, hhash, -⟩
  · exact hcached hverified
  · rw [UInt64.toNat_ofNat', Nat.mod_eq_of_lt hsmall, List.length_take] at hlength
    rwa [List.take_of_length_le (by omega)] at hhash

/-- No plan is fetched into a directory that does not hold its manifest yet: the bytes of the manifest are compared with
a hash of the domain and the bytes. -/
theorem fetch_never_fills_directory {H : Hashes} {r : ArchiveReader} {snapshot : ResolvedSnapshot} {plan : FetchPlan}
    (hplan : buildFetchPlan H r snapshot = .ok plan) {destination : String} (hdestination : destination ≠ "") {disk : Disk}
    (hempty : disk (manifestOutput destination plan.manifestSHA256) = none)
    (hcollision : H.sha256 (rawDayManifestDomain ++ plan.manifestBytes) ≠ H.sha256 plan.manifestBytes)
    (result : FetchResult × Disk) : fetch H r plan destination disk ≠ .ok result := by
  intro h
  simp only [fetch, bind_eq_ok, if_neg hdestination] at h
  obtain ⟨⟨⟩, hvalid, cached, hmanifest, filled, hobjects, m, -, entries, -, copied, hcopy, -⟩ := h
  obtain ⟨body, hbody, ⟨⟩, hsame, hpublish⟩ := by simpa only [fetchManifest, bind_eq_ok] using hmanifest
  rw [reject_eq_ok, not_not] at hsame
  subst hsame
  obtain ⟨hpublished, -, hother⟩ := publishVerifiedBytes_eq_ok hpublish
  obtain ⟨hkeeps, hfree⟩ := foldlM_fetchRawObject_keeps hobjects
  have hbound : plan.manifestBytes.length < 2 ^ 64 := by
    simp only [metadata, bind_eq_ok, reject_eq_ok, pure_eq_ok] at hbody
    obtain ⟨_, -, _, hsize, rfl⟩ := hbody
    have hlimit := r.config.maxMetadataBytes_le
    omega
  have hpath : ∀ object ∈ plan.objects, manifestOutput destination plan.manifestSHA256 ≠ object.cachePath := by
    intro object hobject
    rw [cachePath_of_validate hvalid object hobject]
    exact manifestOutput_ne_cacheObjectPath r destination _ _
  -- Nothing but the manifest itself can stand where its copy is to go.
  have houtput : ∀ data, filled (manifestOutput destination plan.manifestSHA256) = some data → data = plan.manifestBytes := by
    intro data hdata
    rw [hfree _ hpath] at hdata
    by_cases hsame : manifestOutput destination plan.manifestSHA256 = plan.manifestCachePath
    · rw [hsame, hpublished] at hdata
      exact (Option.some.inj hdata).symm
    · rw [hother _ hsame, hempty] at hdata
      cases hdata
  have hhash := hash_of_copyVerifiedFile (hkeeps _ _ hpublished) hbound houtput hcopy
  rw [digest_of_buildFetchPlan hplan] at hhash
  exact hcollision hhash.symm

/-! ## A day in a store -/

/-- A store with these objects. -/
def storeBackend (objects : List (Bytes × Bytes)) : ReadBackend where
  listLimited keyPrefix maxObjects :=
    let listed := objects.filter fun object => keyPrefix.isPrefixOf object.1
    if listed.length > maxObjects.toNat then .error (.other "read inventory exceeds configured limit")
    else .ok (listed.map fun object => ⟨object.1, object.2.length⟩)
  getLimited key maxBytes := do
    let body ← (objects.lookup key).elim (.error (.other "remote object is missing")) .ok
    reject (body.length > maxBytes.toNat) .metadataTooLarge
    return body
  openObject key := do
    let body ← (objects.lookup key).elim (.error (.other "remote object is missing")) .ok
    return (body, body.length)

def storedFile : Bytes :=
  sealedBytes sampleHashes (ascii "g") ⟨1, Digest.zero⟩
    { entries := [makeEntry sampleHashes 31 1 Digest.zero (batchFrame sampleHashes (dayBatch 1 [5, 7])) 0 0]
      createdWallS := 0 }

def storedDisk : Disk := fun path => if path = "a" then some storedFile else none

def storedManifest : RawDayManifest :=
  ((buildRawDayManifest sampleHashes storedDisk
    { dayInput with
      rawObjects := [⟨rawWALObjectKey (sampleHashes.sha256 storedFile), "a", sampleHashes.sha256 storedFile,
        Int64.ofNat storedFile.length⟩] }).toOption).getD dayManifest

def storedLayout : Layout := ⟨ascii "r", (dayScope.normalized.toOption).getD dayScope⟩

def storedKey (key : Except String Bytes) : Bytes := key.toOption.getD []

def storedObjects : List (Bytes × Bytes) :=
  [(storedKey storedLayout.scopeDescriptorKey, storedKey dayScope.canonicalConfigJSON),
    (storedKey (storedLayout.manifestKey sampleHashes storedManifest), storedKey (manifestCanonicalJSON storedManifest)),
    (storedKey (storedLayout.remoteKey (rawWALObjectKey (sampleHashes.sha256 storedFile))), storedFile)]

def storedReader : ArchiveReader where
  config := { immutableRoot := ascii "r", cacheRoot := "c", maxMetadataBytes := 1048576, maxRawObjectBytes := 1048576,
              maxRemoteObjects := 1024, cacheRoot_ne := by decide, maxMetadataBytes_le := by decide,
              maxRawObjectBytes_le := by decide, maxRemoteObjects_le := by decide }
  backend := storeBackend storedObjects

def storedSelector : SnapshotSelector := ⟨[], [], [], [], encodeHashHex storedManifest.manifestSHA256⟩

def noFiles : Disk := fun _ => none

/-- The error of a program. -/
def failure {ε α : Type} : Except ε α → Option ε
  | .error err => some err
  | .ok _ => none

structure StoredRun where
  snapshot : ResolvedSnapshot
  plan : FetchPlan
  result : FetchResult × Disk

/-- The day resolved, planned and fetched into the cache. -/
def storedRun : Except ReaderError StoredRun := do
  let snapshot ← resolveSnapshot sampleHashes storedReader storedSelector
  let plan ← buildFetchPlan sampleHashes storedReader snapshot
  let result ← fetch sampleHashes storedReader plan "" noFiles
  return ⟨snapshot, plan, result⟩

/-- What holds of that run: the files verify, and with a directory the last step fails. -/
def StoredRun.shows (run : StoredRun) : Bool :=
  (verifyRawDaySnapshot sampleHashes run.snapshot.manifest run.result.2 run.result.1.objectPaths
      run.snapshot.scope).toOption = some () ∧
    failure (fetch sampleHashes storedReader run.plan "d" noFiles) = some (.integrity "streamed raw object hash differs") ∧
    sampleHashes.sha256 (rawDayManifestDomain ++ run.plan.manifestBytes) ≠ sampleHashes.sha256 run.plan.manifestBytes

instance storedRun_shows : Fact (storedRun.toOption.any StoredRun.shows = true) := ⟨by decide +kernel⟩

theorem stored_run : ∃ run : StoredRun, resolveSnapshot sampleHashes storedReader storedSelector = .ok run.snapshot ∧
    buildFetchPlan sampleHashes storedReader run.snapshot = .ok run.plan ∧
    fetch sampleHashes storedReader run.plan "" noFiles = .ok run.result ∧ run.shows = true := by
  obtain ⟨run, storedRun_shows.out, hshows⟩ := exists_ok_of_any storedRun_shows.out
  simp only [storedRun, bind_eq_ok, pure_eq_ok] at storedRun_shows.out
  obtain ⟨snapshot, hsnapshot, plan, hplan, result, hresult, rfl⟩ := storedRun_shows.out
  exact ⟨_, hsnapshot, hplan, hresult, hshows⟩

theorem fetch_into_directory_fails : ∃ snapshot plan result,
    resolveSnapshot sampleHashes storedReader storedSelector = .ok snapshot ∧
    buildFetchPlan sampleHashes storedReader snapshot = .ok plan ∧
    fetch sampleHashes storedReader plan "" noFiles = .ok result ∧
    verifyRawDaySnapshot sampleHashes snapshot.manifest result.2 result.1.objectPaths snapshot.scope = .ok () ∧
    failure (fetch sampleHashes storedReader plan "d" noFiles) =
      some (.integrity "streamed raw object hash differs") := by
  obtain ⟨run, hsnapshot, hplan, hresult, hshows⟩ := stored_run
  simp only [StoredRun.shows, decide_eq_true_eq, toOption_eq_some] at hshows
  exact ⟨_, _, _, hsnapshot, hplan, hresult, hshows.1, hshows.2.1⟩

theorem fetch_never_fills_directory_stored : ∃ snapshot plan,
    buildFetchPlan sampleHashes storedReader snapshot = .ok plan ∧
    ∀ result, fetch sampleHashes storedReader plan "d" noFiles ≠ .ok result := by
  obtain ⟨run, -, hplan, -, hshows⟩ := stored_run
  simp only [StoredRun.shows, decide_eq_true_eq] at hshows
  exact ⟨_, _, hplan, fetch_never_fills_directory hplan (by decide) rfl hshows.2.2⟩

end TickPlatform.Delivery
