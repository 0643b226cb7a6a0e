import TickPlatform.Delivery.Fetch

/-!
# Verifying a scope

`VerifyScope` fetches the chain objects of every manifest of a scope, checks every manifest, and follows the WAL from its
first entry to a given root.
-/

open TickPlatform.Bytes TickPlatform.Protocol TickPlatform.Replay TickPlatform.Archive TickPlatform.Remote
open TickPlatform.Wal hiding Disk

namespace TickPlatform.Delivery

structure ScopeVerificationReport where
  genesisVerified : Bool
  verificationScope : String
  datasetID : Bytes
  providerID : Bytes
  exactSourceSymbol : Bytes
  throughRoot : Digest
  verifiedThrough : UInt64
  segmentCount : Nat
  entryCount : Nat

def decodeRoot (value : Bytes) : Except ReaderError Digest := do
  reject (value.length ≠ 64 ∨ value.map toLower ≠ value) (.selectorInvalid "through-root must be lowercase SHA-256")
  let root ← (decodeHex value).elim (.error (.selectorInvalid "through-root is invalid")) .ok
  reject (root = Digest.zero) (.selectorInvalid "through-root is zero")
  return root

structure ScopeObject extends FetchObject where
  startSequence : UInt64
  endSequence : UInt64
deriving DecidableEq

/-- Two descriptions of an object differ. -/
def conflicts (prior candidate : ScopeObject) : Bool :=
  prior.remoteKey ≠ candidate.remoteKey ∨ prior.sha256 ≠ candidate.sha256 ∨ prior.bytes ≠ candidate.bytes ∨
    prior.startSequence ≠ candidate.startSequence ∨ prior.endSequence ≠ candidate.endSequence

/-- The objects by key. One that is there already is described in the same way, so it stays. -/
def addScopeObject (r : ArchiveReader) (layout : Layout) (objects : List ScopeObject) (object : RawChainObject) :
    Except ReaderError (List ScopeObject) := do
  reject (object.key ≠ rawWALObjectKey object.sha256 ∨ object.bytes = 0 ∨
      object.endIngestSequence < object.startIngestSequence)
    (.integrity "scope chain object identity is invalid")
  let remoteKey ← (layout.remoteKey object.key).mapError fun _ => .integrity "scope chain object key is invalid"
  let candidate : ScopeObject :=
    { key := object.key, remoteKey, sha256 := object.sha256, bytes := object.bytes,
      cachePath := cacheObjectPath r object.sha256, startSequence := object.startIngestSequence,
      endSequence := object.endIngestSequence }
  match objects.find? fun prior => prior.key = object.key with
  | some prior => do
    reject (conflicts prior candidate) (.integrity "scope chain object descriptor conflicts")
    return objects
  | none => return objects ++ [candidate]

structure ScopeInventory where
  disk : Disk
  manifests : List RawDayManifest
  objects : List ScopeObject

def addScopeManifest (H : Hashes) (r : ArchiveReader) (layout : Layout) (inventory : ScopeInventory)
    (snapshot : SnapshotDescriptor) : Except ReaderError ScopeInventory := do
  let body ← metadata r snapshot.manifestKey
  let decoded ← (verifyRawDayManifest H body).mapError fun _ => .integrity "scope manifest changed"
  reject (decoded.manifestSHA256 ≠ snapshot.manifestSHA256) (.integrity "scope manifest changed")
  let disk ← publishVerifiedBytes inventory.disk (cacheManifestPath r decoded) body
  let objects ← decoded.chainObjects.foldlM (addScopeObject r layout) inventory.objects
  return ⟨disk, inventory.manifests ++ [decoded], objects⟩

/-- The files and the segments fetched so far. -/
structure ScopeFetch where
  disk : Disk
  segments : List VerifiedSegment

def describesScopeObject (object : ScopeObject) (segment : VerifiedSegment) : Bool :=
  segment.objectSHA256 = object.sha256 ∧ UInt64.ofNat segment.fileBytes = object.bytes ∧
    segment.startSequence = object.startSequence ∧ segment.lastSequence = object.endSequence

def fetchScopeObject (H : Hashes) (r : ArchiveReader) (fetched : ScopeFetch) (object : ScopeObject) :
    Except ReaderError ScopeFetch := do
  let disk ← fetchRawObject H r fetched.disk object.toFetchObject
  let segment ← (verifySealedSegment H disk object.cachePath).mapError fun _ =>
    .integrity "scope segment does not match descriptor"
  reject (!describesScopeObject object segment) (.integrity "scope segment does not match descriptor")
  return ⟨disk, fetched.segments ++ [segment]⟩

structure ScopeWalk where
  expectedSequence : UInt64
  expectedPrevious : Digest
  verifiedThrough : UInt64
  segmentCount : Nat
  entryCount : Nat
  found : Bool

def ScopeWalk.start : ScopeWalk := ⟨1, Digest.zero, 0, 0, 0, false⟩

def walkEntries (root : Digest) : ScopeWalk → List Entry → Except ReaderError ScopeWalk
  | walk, [] => .ok walk
  | walk, entry :: rest => do
    reject (entry.sequence ≠ walk.expectedSequence ∨ entry.previousEntryHash ≠ walk.expectedPrevious)
      (.integrity "scope entry chain has a gap or conflict")
    let next : ScopeWalk :=
      { walk with expectedPrevious := entry.entryHash, expectedSequence := walk.expectedSequence + 1,
                  entryCount := walk.entryCount + 1 }
    if entry.entryHash = root then return { next with verifiedThrough := entry.sequence, found := true }
    else walkEntries root next rest

def walkSegments (root : Digest) : ScopeWalk → List VerifiedSegment → Except ReaderError ScopeWalk
  | walk, [] => .ok walk
  | walk, segment :: rest =>
    if walk.found then .ok walk
    else do
      reject (segment.startSequence ≠ walk.expectedSequence ∨ segment.chainStart ≠ walk.expectedPrevious)
        (.integrity "scope chain has a gap or conflicting segment")
      let walk ← walkEntries root { walk with segmentCount := walk.segmentCount + 1 } segment.entries
      walkSegments root walk rest

def verifyScope (H : Hashes) (r : ArchiveReader) (selector : RawScopeSelector) (throughRoot : Bytes) (disk : Disk) :
    Except ReaderError (ScopeVerificationReport × Disk) := do
  let root ← decodeRoot throughRoot
  let scopes ← discoverScopes H r
  let selected ← selectRawScope scopes selector
  let snapshots ← loadSnapshots H r selected
  reject (snapshots = []) (.integrity "scope has no raw snapshots")
  let layout ← (newLayout H r.config.immutableRoot selected.scope).mapError fun _ => .integrity "scope layout is invalid"
  let inventory ← snapshots.foldlM (addScopeManifest H r layout) ⟨disk, [], []⟩
  let ordered := inventory.objects.insertionSort fun a b => keyLE a.key b.key
  let fetched ← ordered.foldlM (fetchScopeObject H r) ⟨inventory.disk, []⟩
  let objectPaths := pathsOf (·.cachePath) (ordered.map (·.toFetchObject))
  each (fun m => (verifyRawDaySnapshot H m fetched.disk objectPaths selected.scope).mapError fun _ =>
    .integrity "scope raw-day manifest semantic verification failed") inventory.manifests
  let walk ← walkSegments root ScopeWalk.start
    (fetched.segments.insertionSort fun a b => a.startSequence ≤ b.startSequence)
  reject (!walk.found) (.integrity "requested scope root is absent")
  return ({ genesisVerified := true, verificationScope := "scope_genesis_to_root", datasetID := selected.scope.datasetID,
            providerID := selected.scope.providerID, exactSourceSymbol := selected.scope.exactSourceSymbol,
            throughRoot := root, verifiedThrough := walk.verifiedThrough, segmentCount := walk.segmentCount,
            entryCount := walk.entryCount }, fetched.disk)

/-! ## The walk -/

variable {next : ScopeWalk} {root : Digest} {walk : ScopeWalk}

/-- A walk over entries: it stops at the root, or follows all of them. -/
theorem walkEntries_eq_ok {entries : List Entry} {n : Nat} (hwalk : walk.found = false)
    (hrun : Run n walk.expectedPrevious entries) (h : walkEntries root walk entries = .ok next) :
    (next.found = true ∧ ∃ front last rest, entries = front ++ last :: rest ∧ last.entryHash = root ∧
        next.verifiedThrough = last.sequence ∧ next.entryCount = walk.entryCount + front.length + 1) ∨
      (next.found = false ∧ next.expectedPrevious = rootAfter walk.expectedPrevious entries ∧
        next.expectedSequence = walk.expectedSequence + UInt64.ofNat entries.length ∧
        next.entryCount = walk.entryCount + entries.length) := by
  induction entries generalizing walk n with
  | nil =>
    rw [walkEntries, Except.ok.injEq] at h
    subst h
    exact .inr ⟨hwalk, rfl, by simp, rfl⟩
  | cons entry entries ih =>
    obtain ⟨-, -, hrest⟩ := hrun
    simp only [walkEntries, bind_eq_ok] at h
    obtain ⟨_, -, h⟩ := h
    split at h
    case isTrue hroot =>
      rw [pure_eq_ok] at h
      subst h
      exact .inl ⟨rfl, [], entry, entries, rfl, hroot, rfl, rfl⟩
    case isFalse hroot =>
      rcases ih (by exact hwalk) hrest h with ⟨hfound, front, last, rest, rfl, hlast, hthrough, hcount⟩ |
          ⟨hfound, hprevious, hsequence, hcount⟩
      · refine .inl ⟨hfound, entry :: front, last, rest, rfl, hlast, hthrough, ?_⟩
        rw [hcount, List.length_cons]
        show walk.entryCount + 1 + front.length + 1 = _
        omega
      · refine .inr ⟨hfound, hprevious, ?_, ?_⟩
        · rw [hsequence, List.length_cons, Nat.add_comm entries.length, UInt64.ofNat_add]
          exact UInt64.add_assoc _ _ _
        · rw [hcount, List.length_cons]
          show walk.entryCount + 1 + entries.length = _
          omega

/-- What a successful walk has followed. -/
structure Followed (root : Digest) (walk next : ScopeWalk) (segments : List VerifiedSegment) (entries : List Entry) :
    Prop where
  run : Run walk.expectedSequence.toNat walk.expectedPrevious entries
  last : ∃ last ∈ entries.getLast?, last.entryHash = root ∧ last.sequence = next.verifiedThrough
  count : next.entryCount = walk.entryCount + entries.length
  within : ∀ entry ∈ entries, ∃ segment ∈ segments, entry ∈ segment.entries

variable {H : Hashes}

theorem Followed.start_ne_zero {segments : List VerifiedSegment}
    {entries : List Entry} (h : Followed root walk next segments entries)
    (hsegments : ∀ segment ∈ segments, SegmentRun H segment) : walk.expectedSequence.toNat ≠ 0 := by
  obtain ⟨last, hlast, -, -⟩ := h.last
  cases entries with
  | nil => cases hlast
  | cons entry entries =>
    obtain ⟨segment, hsegment, hentry⟩ := h.within entry List.mem_cons_self
    have hwithin := ((hsegments segment hsegment).within hentry).1
    have hstart : segment.startSequence.toNat ≠ 0 :=
      fun hzero => (hsegments segment hsegment).start (UInt64.toNat_inj.mp hzero)
    rw [← h.run.1]
    rw [UInt64.le_iff_toNat_le] at hwithin
    omega

theorem followed_of_walkSegments {segments : List VerifiedSegment}
    (hsegments : ∀ segment ∈ segments, SegmentRun H segment) (hwalk : walk.found = false)
    (h : walkSegments root walk segments = .ok next) (hfound : next.found = true) :
    ∃ entries, Followed root walk next segments entries := by
  induction segments generalizing walk with
  | nil =>
    rw [walkSegments, Except.ok.injEq] at h
    rw [← h, hwalk] at hfound
    cases hfound
  | cons segment segments ih =>
    rw [List.forall_mem_cons] at hsegments
    obtain ⟨hsegment, hlater⟩ := hsegments
    simp only [walkSegments, hwalk, Bool.false_eq_true, if_false, bind_eq_ok, reject_eq_ok, not_or, not_not] at h
    obtain ⟨_, ⟨hstart, hchain⟩, mid, hentries, hrest⟩ := h
    have hrun : Run walk.expectedSequence.toNat walk.expectedPrevious segment.entries := by
      rw [← hstart, ← hchain]
      exact hsegment.run
    rcases walkEntries_eq_ok rfl (by exact hrun) hentries with
      ⟨hstopped, front, last, rest, hsplit, hroot, hthrough, hcount⟩ | ⟨hgoing, hprevious, hsequence, hcount⟩
    · -- The root is in this segment; the rest of it and the later segments are not followed.
      have hnext : mid = next := by
        cases segments with
        | nil => rwa [walkSegments, Except.ok.injEq] at hrest
        | cons later segments => rwa [walkSegments, if_pos hstopped, Except.ok.injEq] at hrest
      subst hnext
      have hfront : segment.entries = (front ++ [last]) ++ rest := by rw [hsplit, List.append_assoc, List.singleton_append]
      rw [hfront, run_append] at hrun
      refine ⟨front ++ [last], hrun.1, ⟨last, List.getLast?_concat, hroot, hthrough.symm⟩, ?_, fun entry hentry => ?_⟩
      · rw [hcount, List.length_append, List.length_singleton, Nat.add_assoc]
      · exact ⟨segment, List.mem_cons_self, hfront ▸ List.mem_append_left rest hentry⟩
    · obtain ⟨entries, hfollowed⟩ := ih hlater hgoing hrest
      -- The number after the segment did not wrap: no segment starts at zero.
      have hnumber : mid.expectedSequence.toNat = walk.expectedSequence.toNat + segment.entries.length := by
        have hpos := hfollowed.start_ne_zero hlater
        have hsum : mid.expectedSequence.toNat =
            (walk.expectedSequence.toNat + segment.entries.length % 2 ^ 64) % 2 ^ 64 := by
          rw [hsequence, UInt64.toNat_add, UInt64.toNat_ofNat']
        have hlast := hsegment.last
        have hlt := segment.lastSequence.toNat_lt
        rw [hstart] at hlast
        omega
      refine ⟨segment.entries ++ entries, run_append.mpr ⟨hrun, ?_⟩, ?_, ?_, fun entry hentry => ?_⟩
      · rw [← hnumber, ← show mid.expectedPrevious = rootAfter walk.expectedPrevious segment.entries from hprevious]
        exact hfollowed.run
      · obtain ⟨last, hlast, hhash, hthrough⟩ := hfollowed.last
        exact ⟨last, List.mem_getLast?_append_of_mem_getLast? hlast, hhash, hthrough⟩
      · rw [hfollowed.count, hcount, List.length_append, Nat.add_assoc]
      · rcases List.mem_append.mp hentry with hentry | hentry
        · exact ⟨segment, List.mem_cons_self, hentry⟩
        · obtain ⟨other, hother, hin⟩ := hfollowed.within entry hentry
          exact ⟨other, List.mem_cons_of_mem _ hother, hin⟩

/-! ## What was fetched and checked -/

/-- An object that was fetched, and whose file is a sealed segment. -/
structure Fetched (H : Hashes) (r : ArchiveReader) (disk : Disk) (object : FetchObject) (segment : VerifiedSegment) :
    Prop where
  fetched : ∃ before after, fetchRawObject H r before object = .ok after
  file : ∃ data, disk object.cachePath = some data ∧ H.sha256 data = object.sha256 ∧
    verifySealedBytes H object.cachePath data = .ok segment

variable {disk : Disk} {r : ArchiveReader}

theorem Fetched.keeps {next : Disk} {object : FetchObject} {segment : VerifiedSegment}
    (h : Fetched H r disk object segment) (hkeeps : Keeps disk next) : Fetched H r next object segment := by
  obtain ⟨data, hdata, hhash, hverified⟩ := h.file
  exact ⟨h.fetched, data, hkeeps _ _ hdata, hhash, hverified⟩

theorem Fetched.segmentRun {object : FetchObject}
    {segment : VerifiedSegment} (h : Fetched H r disk object segment) : SegmentRun H segment := by
  obtain ⟨data, -, -, hverified⟩ := h.file
  exact segmentRun_of_verified hverified

theorem fetchScopeObject_eq_ok {fetched next : ScopeFetch} {object : ScopeObject}
    (h : fetchScopeObject H r fetched object = .ok next) :
    Keeps fetched.disk next.disk ∧ ∃ segment, Fetched H r next.disk object.toFetchObject segment ∧
      next.segments = fetched.segments ++ [segment] := by
  simp only [fetchScopeObject, bind_eq_ok, mapError_eq_ok, reject_eq_ok, pure_eq_ok, Bool.not_eq_true',
    Bool.not_eq_false] at h
  obtain ⟨disk, hfetch, segment, hsegment, _, hdescribes, rfl⟩ := h
  obtain ⟨data, hdata, hverified⟩ := bind_eq_ok.mp hsegment
  rw [elim_eq_ok] at hdata
  simp only [describesScopeObject, decide_eq_true_eq] at hdescribes
  have hhash : H.sha256 data = object.sha256 := by rw [← hdescribes.1, (verifySealedBytes_facts hverified).2.2.1]
  exact ⟨(fetchRawObject_keeps hfetch).1, segment, ⟨⟨_, _, hfetch⟩, data, hdata, hhash, hverified⟩, rfl⟩

theorem foldlM_fetchScopeObject {objects : List ScopeObject}
    {result : ScopeFetch} (h : objects.foldlM (fetchScopeObject H r) ⟨disk, []⟩ = .ok result) :
    ∀ segment ∈ result.segments, ∃ object, Fetched H r result.disk object segment := by
  refine foldlM_keeps
    (P := fun fetched => ∀ segment ∈ fetched.segments, ∃ object, Fetched H r fetched.disk object segment) ?_
    (fun _ h => absurd h List.not_mem_nil) h
  intro object _ fetched next hfetched hstep
  obtain ⟨hkeeps, found, hfound, hsegments⟩ := fetchScopeObject_eq_ok hstep
  intro segment hsegment
  rw [hsegments] at hsegment
  rcases List.mem_append.mp hsegment with hearlier | hnew
  · obtain ⟨before, hbefore⟩ := hfetched segment hearlier
    exact ⟨before, hbefore.keeps hkeeps⟩
  · rw [List.mem_singleton.mp hnew]
    exact ⟨_, hfound⟩

theorem manifest_of_descriptor {layout : Layout} {snapshots : List SnapshotDescriptor}
    {start result : ScopeInventory} (h : snapshots.foldlM (addScopeManifest H r layout) start = .ok result) :
    (∀ m ∈ start.manifests, m ∈ result.manifests) ∧ ∀ snapshot ∈ snapshots, ∃ body, ∃ m ∈ result.manifests,
      metadata r snapshot.manifestKey = .ok body ∧ verifyRawDayManifest H body = .ok m := by
  induction snapshots generalizing start with
  | nil =>
    rw [foldlM_nil_eq_ok] at h
    subst h
    exact ⟨fun _ hm => hm, nofun⟩
  | cons snapshot snapshots ih =>
    obtain ⟨mid, hfirst, hrest⟩ := foldlM_cons_eq_ok.mp h
    simp only [addScopeManifest, bind_eq_ok, mapError_eq_ok, pure_eq_ok] at hfirst
    obtain ⟨body, hbody, m, hm, _, -, _, -, _, -, rfl⟩ := hfirst
    obtain ⟨hkept, hlater⟩ := ih hrest
    refine ⟨fun other hother => hkept other (List.mem_append_left _ hother), List.forall_mem_cons.mpr ⟨?_, hlater⟩⟩
    exact ⟨body, m, hkept m (List.mem_append_right _ (List.mem_singleton_self m)), hbody, hm⟩

instance storedScope_verifies : Fact ((verifyScope sampleHashes storedReader ⟨ascii "d", ascii "v", ascii "S"⟩
      (encodeHashHex storedManifest.chainSliceEndRoot) noFiles).toOption.any (fun _ => true) = true) := ⟨by decide +kernel⟩

end TickPlatform.Delivery
