import TickPlatform.Wal.Log

/-!
# Starting the WAL store

`Start` on the files of a log gives back the store of that log, also where a crash of `Append` or
`Seal` left a tail.
-/

namespace TickPlatform.Wal

open Bytes Protocol Crash

variable {H : Hashes} {gatewayID : Bytes}

/-! ## Loading the sealed segments -/

theorem filter_sealedFiles (p : Position) (segs : List SegmentData) :
    (sealedFiles H gatewayID p segs).filter (fun file => hasSuffix file.1 ".wal") =
      sealedFiles H gatewayID p segs := by
  induction segs generalizing p with
  | nil => rfl
  | cons seg segs ih =>
    have hname : hasSuffix (sealedName p seg) ".wal" = true := hasSuffix_segmentName _ _
    rw [sealedFiles, List.filter_cons, hname, ih]
    rfl

variable {p : Position} {segs : List SegmentData}

theorem mapM_verify_sealedFiles (hid : ValidID gatewayID) (h : SealedOk H gatewayID p segs) :
    (sealedFiles H gatewayID p segs).mapM (fun file => verifySealedBytes H file.1 file.2) =
      .ok (verifiedSegments H gatewayID p segs) := by
  induction segs generalizing p with
  | nil => rfl
  | cons seg segs ih =>
    rw [sealedFiles, List.mapM_cons, verifySealedBytes_sealed hid h.1, verifiedSegments, ih h.2]
    rfl

theorem verifiedSegments_start (h : SealedOk H gatewayID p segs) :
    ∀ segment ∈ verifiedSegments H gatewayID p segs, p.next ≤ segment.startSequence := by
  induction segs generalizing p with
  | nil => simp [verifiedSegments]
  | cons seg segs ih =>
    intro segment hmem
    rcases List.mem_cons.mp hmem with rfl | hmem
    · exact UInt64.le_refl _
    · have hnext := h.1.next_toNat
      have := ih h.2 segment hmem
      rw [UInt64.le_iff_toNat_le] at this ⊢
      omega

theorem verifiedSegments_sorted (h : SealedOk H gatewayID p segs) :
    (verifiedSegments H gatewayID p segs).mergeSort (fun a b => a.startSequence ≤ b.startSequence) =
      verifiedSegments H gatewayID p segs := by
  apply List.mergeSort_of_pairwise
  induction segs generalizing p with
  | nil => exact .nil
  | cons seg segs ih =>
    refine List.Pairwise.cons ?_ (ih h.2)
    intro segment hmem
    have hnext := h.1.next_toNat
    have := verifiedSegments_start h.2 segment hmem
    simp only [decide_eq_true_eq]
    show p.next ≤ segment.startSequence
    rw [UInt64.le_iff_toNat_le] at this ⊢
    omega

/-- A store that has loaded sealed segments up to `p` and has no active file yet. -/
def loadedStore (gatewayID : Bytes) (p : Position) (entries : List Entry) (segments : List VerifiedSegment)
    (size : Nat) (start prunedThrough : UInt64) : Store where
  gatewayID := gatewayID
  file := false
  entries := entries
  sealed := segments
  last := p.last
  next := p.next
  start := start
  activeAt := entries.length
  sealedBytes := size
  fileBytes := size
  poisoned := false
  prunedThrough := prunedThrough

variable {seg : SegmentData}

theorem lastSequence_ne_max (h : Sealable H gatewayID p seg) : lastSequence p seg ≠ maxUint64 := by
  intro heq
  have hlast := h.lastSequence_toNat
  have hroom := h.room
  have hpos := List.length_pos_of_ne_nil h.nonempty
  rw [heq] at hlast
  simp [maxUint64] at hlast
  omega

theorem validateNextSegment_verified (h : Sealable H gatewayID p seg)
    (path : String) (s : Store) (hid : s.gatewayID = gatewayID) (hnext : s.next = p.next)
    (hlast : s.last = p.last) : s.validateNextSegment (verified H gatewayID path p seg) = .ok () := by
  simp [Store.validateNextSegment, verified, hid, hnext, hlast, lastSequence_ne_max h]

theorem acceptSegments_verified (h : SealedOk H gatewayID p segs)
    (entries : List Entry) (segments : List VerifiedSegment) (size : Nat) (start prunedThrough : UInt64) :
    (loadedStore gatewayID p entries segments size start prunedThrough).acceptSegments
        (verifiedSegments H gatewayID p segs) =
      .ok (loadedStore gatewayID (p.advance (sealedEntries segs)) (entries ++ sealedEntries segs)
        (segments ++ (verifiedSegments H gatewayID p segs).map fun segment => { segment with entries := [] })
        (size + ((sealedFiles H gatewayID p segs).map fun file => file.2.length).sum) start prunedThrough) := by
  induction segs generalizing p entries segments size with
  | nil => simp [verifiedSegments, Store.acceptSegments, sealedEntries, sealedFiles]
  | cons seg segs ih =>
    have haccept : (loadedStore gatewayID p entries segments size start prunedThrough).acceptLoadedSegment
        (verified H gatewayID (sealedName p seg) p seg) =
      loadedStore gatewayID (p.advance seg.entries) (entries ++ seg.entries)
        (segments ++ [{ verified H gatewayID (sealedName p seg) p seg with entries := [] }])
        (size + (sealedBytes H gatewayID p seg).length) start prunedThrough := by
      simp [Store.acceptLoadedSegment, loadedStore, verified, lastSequence]
    rw [verifiedSegments, Store.acceptSegments, validateNextSegment_verified h.1 _ _ rfl rfl rfl, haccept]
    show Store.acceptSegments _ _ = _
    rw [ih h.2]
    simp [sealedEntries, sealedFiles, Position.advance_append, Nat.add_assoc]

theorem loadSealedSegments_files (hid : ValidID gatewayID)
    (h : SealedOk H gatewayID p segs) (start prunedThrough : UInt64) :
    (loadedStore gatewayID p [] [] 0 start prunedThrough).loadSealedSegments H
        (sealedFiles H gatewayID p segs) =
      .ok (loadedStore gatewayID (p.advance (sealedEntries segs)) (sealedEntries segs)
        ((verifiedSegments H gatewayID p segs).map fun segment => { segment with entries := [] })
        ((sealedFiles H gatewayID p segs).map fun file => file.2.length).sum start prunedThrough) := by
  unfold Store.loadSealedSegments
  simp only [filter_sealedFiles, mapM_verify_sealedFiles hid h]
  show Store.acceptSegments _ _ = _
  rw [verifiedSegments_sorted h, acceptSegments_verified h]
  simp

/-! ## The anchor -/

/-- Where the retained chain begins. -/
def anchorPosition : Option PruneAnchor → Position
  | none => ⟨1, Digest.zero⟩
  | some anchor => ⟨anchor.endSequence + 1, anchor.chainRoot⟩

/-- What `NewStoreWithAnchor` asks of an anchor. -/
def AnchorOk : Option PruneAnchor → Prop
  | none => True
  | some anchor => anchor.endSequence ≠ 0 ∧ anchor.endSequence ≠ maxUint64 ∧ anchor.chainRoot ≠ Digest.zero

variable {anchor : Option PruneAnchor}

theorem newStoreWithAnchor_ok (hid : ValidID gatewayID) (h : AnchorOk anchor) : newStoreWithAnchor gatewayID anchor =
      .ok (loadedStore gatewayID (anchorPosition anchor) [] [] 0 (anchorPosition anchor).next
        ((anchorPosition anchor).next - 1)) := by
  obtain ⟨hne, hutf8, hshort⟩ := hid
  have hcheck : ¬ (gatewayID = [] ∨ (!utf8Valid gatewayID) = true ∨ gatewayID.length > 255) := by
    rintro (h | h | h)
    · exact hne h
    · simp [hutf8] at h
    · omega
  unfold newStoreWithAnchor
  simp only [if_neg hcheck]
  cases anchor with
  | none => rfl
  | some anchor =>
    obtain ⟨h0, hmax, hroot⟩ := h
    simp [h0, hmax, hroot, loadedStore, anchorPosition]

/-- The store after the sealed segments of a log are loaded. -/
def Log.loaded (l : Log H gatewayID) : Store :=
  loadedStore gatewayID l.activeStart (sealedEntries l.sealed)
    ((verifiedSegments H gatewayID l.base l.sealed).map fun segment => { segment with entries := [] })
    l.sealedSize l.base.next (l.base.next - 1)

theorem start_eq_openActive (l : Log H gatewayID) (ha : AnchorOk anchor)
    (hbase : anchorPosition anchor = l.base) (now : Int64) (d : Disk)
    (hd : d.sealed = sealedFiles H gatewayID l.base l.sealed) :
    (start H gatewayID anchor now).run d = (l.loaded.openActive H now).run d := by
  unfold start Store.initializeStore
  rw [newStoreWithAnchor_ok l.validID ha, Prog.lift_bind_ok, Prog.read_bind, hbase, hd,
    loadSealedSegments_files l.validID l.sealed_ok, Prog.lift_bind_ok]
  rfl

theorem sealedOk_next_le (h : SealedOk H gatewayID p segs) :
    p.next.toNat ≤ (p.advance (sealedEntries segs)).next.toNat := by
  induction segs generalizing p with
  | nil => simp [sealedEntries]
  | cons seg segs ih =>
    have hnext := h.1.next_toNat
    have hrest := ih h.2
    rw [sealedEntries, List.flatMap_cons, Position.advance_append, ← sealedEntries]
    omega

theorem Log.activeStart_next (l : Log H gatewayID) : l.activeStart.next ≠ 0 := by
  intro hzero
  have hle := sealedOk_next_le l.sealed_ok
  have hbase : l.base.next.toNat ≠ 0 := fun h => l.base_start (UInt64.toNat_inj.mp h)
  rw [← Log.activeStart, hzero] at hle
  simp at hle
  omega

theorem Log.active_chained (l : Log H gatewayID) :
    Chained H l.activeStart (30 + gatewayID.length) l.active.entries := l.active_ok

/-! ## The active file -/

theorem scan_active (l : Log H gatewayID) (tail : Bytes)
    (htail : tail = [] ∨ parseFront H true tail l.openFile.length = .ok none) :
    parseEntries H (l.openFile ++ tail)
        ⟨30 + gatewayID.length, l.activeStart.next, gatewayID⟩ none true =
      .ok (l.active.entries, l.openFile.length, decide (tail ≠ [])) := by
  have hend : lastEnd (30 + gatewayID.length) l.active.entries =
      l.openFile.length := by
    rw [lastEnd_of_chained l.active_chained]
    simp [openBytes]
  obtain ⟨previous', hloop⟩ := parseEntriesLoop_chained true tail [] l.active_chained (.inl rfl)
  have hdrop : (l.openFile ++ tail).drop (30 + gatewayID.length) =
      encodeEntries H l.active.entries ++ tail := by
    rw [Log.openFile, openBytes, List.append_assoc]
    exact List.drop_left' (by simp)
  simp only [parseEntries, hdrop]
  rw [hloop, hend]
  by_cases hnil : tail = []
  · subst hnil
    rw [parseEntriesLoop_nil]
    simp
  · have hfront := htail.resolve_left hnil
    rw [parseEntriesLoop_torn hnil hfront]
    simp [hnil]

theorem parseHeader_active (l : Log H gatewayID) (tail : Bytes) :
    parseHeader (l.openFile ++ tail) gatewayID =
      .ok ⟨30 + gatewayID.length, l.activeStart.next, gatewayID⟩ := by
  rw [Log.openFile, openBytes, List.append_assoc]
  exact parseHeader_encodeHeader l.validID _ _ _ _ l.activeStart_next (.inr rfl)

theorem openBytes_long (l : Log H gatewayID) (tail : Bytes) :
    ¬ (l.openFile ++ tail).length < 30 + gatewayID.length := by
  simp [openBytes]

/-- The operations of `Start` on an active file with a torn tail. -/
def tailOps (l : Log H gatewayID) (tail : Bytes) : List DiskOp :=
  if tail = [] then [] else [.truncateActive (openBytes H gatewayID l.activeStart l.active).length]

theorem loadActive_tail (l : Log H gatewayID) (tail : Bytes) (d : Disk)
    (htail : tail = [] ∨ parseFront H true tail l.openFile.length = .ok none) :
    (¬ l.Exhausted → (Store.loadActive H { l.loaded with file := true } (l.openFile ++ tail)).run d =
      (tailOps l tail, .ok l.store)) ∧
    (l.Exhausted → (Store.loadActive H { l.loaded with file := true } (l.openFile ++ tail)).run d =
      (tailOps l tail, .error (.integrity "WAL sequence space exhausted"))) := by
  unfold Store.loadActive
  have hid : ({ l.loaded with file := true } : Store).gatewayID = gatewayID := rfl
  rw [hid, parseHeader_active, Prog.lift_bind_ok, scan_active l tail htail, Prog.lift_bind_ok]
  have hnext : ¬ l.activeStart.next ≠ ({ l.loaded with file := true } : Store).next := by
    simp [Log.loaded, loadedStore]
  simp only [if_neg hnext]
  cases hlast : l.active.entries.getLast? with
  | none =>
    have hnil : l.active.entries = [] := List.getLast?_eq_none_iff.mp hlast
    refine ⟨fun _ => ?_, fun ⟨final, hfinal, _⟩ => by simp [hnil] at hfinal⟩
    by_cases ht : tail = [] <;>
      simp [hnil, ht, tailOps, Log.loaded, loadedStore, Log.store, Log.entries, Log.head_eq]
  | some final =>
    have hne : l.active.entries ≠ [] := by
      rintro hnil
      rw [hnil] at hlast
      cases hlast
    have hfirst := List.head?_eq_some_head hne
    obtain ⟨-, hlink⟩ := chained_head l.active_chained hfirst
    constructor
    · intro hroom
      have hmax : final.sequence ≠ maxUint64 := fun heq => hroom ⟨final, hlast, heq⟩
      have hfinal := chained_last l.active_chained hlast
      have hhash := advance_last (p := l.activeStart) hlast
      by_cases ht : tail = [] <;>
        simp [hfirst, hlink, ht, hmax, tailOps, Log.loaded, loadedStore, Log.store, Log.entries, Log.head_eq,
          hfinal, hhash]
    · rintro ⟨final', hlast', hmax⟩
      cases hlast.symm.trans hlast'
      by_cases ht : tail = [] <;> simp [hfirst, hlink, hmax, ht, tailOps, Log.loaded, loadedStore]

theorem createActive_loaded (l : Log H gatewayID) (now : Int64) (d : Disk) (hd : d.active = none) :
    (l.loaded.createActive now).run d =
      ([.createActive, .appendActive (encodeHeader gatewayID l.activeStart.next now)],
        .ok (l.recreate now).store) := by
  unfold Store.createActive
  simp [hd, Log.loaded, loadedStore, Log.store, Log.recreate, Log.entries, Log.head, Log.activeStart,
    Log.sealedSize, openBytes]

/-! ## A complete trailer in the active file -/

theorem scan_trailer (h : Countable H gatewayID p seg) :
    parseEntries H (sealedBytes H gatewayID p seg) ⟨30 + gatewayID.length, p.next, gatewayID⟩ none true =
      .error .sealedTrailerAtEntryBoundary := by
  obtain ⟨rest, hrest⟩ := encodeTrailer_magic H p.next (lastSequence p seg)
    (UInt32.ofNat seg.entries.length) (p.advance seg.entries).last (H.sha256 (openBytes H gatewayID p seg))
  have hlen : (trailerMagic ++ rest).length = trailerBytes := by rw [← hrest]; simp [trailerBytes]
  obtain ⟨previous', hloop⟩ := parseEntriesLoop_chained true (trailerMagic ++ rest) [] h.chained (.inl rfl)
  have hdrop : (sealedBytes H gatewayID p seg).drop (30 + gatewayID.length) =
      encodeEntries H seg.entries ++ (trailerMagic ++ rest) := by
    rw [sealedBytes, openBytes, trailerOf, hrest, List.append_assoc]
    exact List.drop_left' (by simp)
  simp only [parseEntries, hdrop]
  rw [hloop]
  refine parseEntriesLoop_error ?_ (parseFront_trailer H rest _ hlen)
  intro hnil
  rw [hnil] at hlen
  simp [trailerBytes] at hlen

theorem sealedBytes_long (p : Position) (seg : SegmentData) :
    ¬ (sealedBytes H gatewayID p seg).length < 30 + gatewayID.length := by
  simp [sealedBytes, openBytes]

theorem loadActive_trailer (hid : ValidID gatewayID)
    (h : Countable H gatewayID p seg) (s : Store) (hs : s.gatewayID = gatewayID) (d : Disk) :
    (s.loadActive H (sealedBytes H gatewayID p seg)).run d = ([], .error .sealedTrailerAtEntryBoundary) := by
  have hheader : parseHeader (sealedBytes H gatewayID p seg) gatewayID =
      .ok ⟨30 + gatewayID.length, p.next, gatewayID⟩ := by
    rw [sealedBytes, openBytes, List.append_assoc]
    exact parseHeader_encodeHeader hid _ _ _ _ h.start (.inr rfl)
  unfold Store.loadActive
  rw [hs, hheader, Prog.lift_bind_ok, scan_trailer h, Prog.lift_bind_error]

theorem openActive_sealed (hid : ValidID gatewayID)
    (h : Countable H gatewayID p seg) (s : Store) (hs : s.gatewayID = gatewayID) (now : Int64) (d : Disk)
    (hd : d.active = some (sealedBytes H gatewayID p seg)) :
    (s.openActive H now).run d = (Prog.lift (verifySealedBytes H "active.wal" (sealedBytes H gatewayID p seg)) >>=
      fun segment => s.recoverSealedActive H segment >>= (·.createActive now)).run d := by
  have hlong : ¬ (sealedBytes H gatewayID p seg).length < 30 + s.gatewayID.length := by
    rw [hs]
    exact sealedBytes_long p seg
  unfold Store.openActive
  rw [Prog.read_bind, hd]
  simp only [if_neg hlong]
  exact Prog.handle_error _ (loadActive_trailer hid h { s with file := true } hs d)

theorem sealedFiles_names (h : SealedOk H gatewayID p segs) :
    ∀ file ∈ sealedFiles H gatewayID p segs, ∃ start last : UInt64,
      file.1 = segmentName start last ∧ start.toNat < (p.advance (sealedEntries segs)).next.toNat ∧
        p.next.toNat ≤ start.toNat := by
  induction segs generalizing p with
  | nil => simp [sealedFiles]
  | cons seg segs ih =>
    have hnext := h.1.next_toNat
    have hpos := List.length_pos_of_ne_nil h.1.nonempty
    intro file hmem
    rw [sealedEntries, List.flatMap_cons, Position.advance_append, ← sealedEntries]
    rcases List.mem_cons.mp hmem with rfl | hmem
    · refine ⟨p.next, lastSequence p seg, rfl, ?_, Nat.le_refl _⟩
      have := sealedOk_next_le h.2
      omega
    · obtain ⟨start, last, hname, hlt, hle⟩ := ih h.2 file hmem
      exact ⟨start, last, hname, hlt, by omega⟩

theorem lookup_sealedFiles (h : SealedOk H gatewayID p segs) (last : UInt64) :
    (sealedFiles H gatewayID p segs).lookup
      (segmentName (p.advance (sealedEntries segs)).next last) = none := by
  rw [List.lookup_eq_none_iff]
  intro file hmem
  obtain ⟨start, last', hname, hlt, -⟩ := sealedFiles_names h file hmem
  rw [hname, bne_iff_ne]
  intro heq
  have := segmentName_inj heq
  rw [this] at hlt
  omega

theorem installActiveAsSealed_new (segment : VerifiedSegment) (d : Disk)
    (hd : d.sealed.lookup (segmentName segment.startSequence segment.lastSequence) = none) :
    (Store.installActiveAsSealed H segment).run d =
      ([.linkSealed (segmentName segment.startSequence segment.lastSequence), .removeActive],
        .ok { segment with path := segmentName segment.startSequence segment.lastSequence }) := by
  unfold Store.installActiveAsSealed
  simp [hd]

theorem acceptLoadedSegment_active (l : Log H gatewayID) (h : l.CanSeal) (created : Int64) :
    l.loaded.acceptLoadedSegment
        { verified H gatewayID "active.wal" l.activeStart l.active with
          path := sealedName l.activeStart l.active } =
      (l.sealActive h created).loaded := by
  simp [Store.acceptLoadedSegment, Log.loaded, loadedStore, verified, Log.sealActive, sealedEntries,
    Log.sealedSize, sealedFiles_append, verifiedSegments_append, Log.activeStart, Position.advance_append,
    lastSequence]

/-- The active file of a log with other bytes in it. -/
def Log.withActive (l : Log H gatewayID) (active : Option Bytes) : Disk := { l.disk with active }

section
variable (l : Log H gatewayID) {anchor : Option PruneAnchor} (ha : AnchorOk anchor)
  (hbase : anchorPosition anchor = l.base) (now : Int64)
include ha hbase

/-- **A torn tail is cut off**, and an exhausted log is refused. -/
theorem start_tail (tail : Bytes)
    (htail : tail = [] ∨ parseFront H true tail l.openFile.length = .ok none) :
    (¬ l.Exhausted → (start H gatewayID anchor now).run (l.withActive (some (l.openFile ++ tail))) =
      (tailOps l tail, .ok l.store)) ∧
    (l.Exhausted → (start H gatewayID anchor now).run (l.withActive (some (l.openFile ++ tail))) =
      (tailOps l tail, .error (.integrity "WAL sequence space exhausted"))) := by
  rw [start_eq_openActive l ha hbase now _ rfl]
  unfold Store.openActive
  rw [Prog.read_bind]
  simp only [Log.withActive]
  have hlong : ¬ (l.openFile ++ tail).length < 30 + l.loaded.gatewayID.length := openBytes_long l tail
  rw [if_neg hlong]
  exact ⟨fun hroom => Prog.handle_ok _ ((loadActive_tail l tail _ htail).1 hroom),
    fun h => Prog.handle_fail _ ((loadActive_tail l tail _ htail).2 h) fun _ => rfl⟩

theorem start_disk (hroom : ¬ l.Exhausted) : (start H gatewayID anchor now).run l.disk = ([], .ok l.store) := by
  have h := (start_tail l ha hbase now [] (.inl rfl)).1 hroom
  rw [List.append_nil] at h
  exact h

/-- **A missing active file is created anew.** -/
theorem start_missing : (start H gatewayID anchor now).run (l.withActive none) =
      ([.createActive, .appendActive (encodeHeader gatewayID l.activeStart.next now)],
        .ok (l.recreate now).store) := by
  rw [start_eq_openActive l ha hbase now _ rfl]
  unfold Store.openActive
  rw [Prog.read_bind]
  exact createActive_loaded l now _ rfl

/-- **A torn header is written anew.** -/
theorem start_torn_header (created : Int64) (k : Nat) (hk : k < 30 + gatewayID.length) :
    (start H gatewayID anchor now).run
        (l.withActive (some ((encodeHeader gatewayID l.activeStart.next created).take k))) =
      ([.truncateActive 0, .appendActive (encodeHeader gatewayID l.activeStart.next now)],
        .ok (l.recreate now).store) := by
  rw [start_eq_openActive l ha hbase now _ rfl]
  have hmatch := matchesIncompleteHeader_take gatewayID l.activeStart.next created k
  unfold Log.activeStart at hmatch
  unfold Store.openActive
  simp [Log.withActive, Log.loaded, loadedStore, Log.store, Log.recreate, Log.entries, Log.head,
    Log.activeStart, Log.sealedSize, openBytes, hk, hmatch]

/-- **A complete trailer is installed** as the next sealed segment. -/
theorem start_trailer (h : l.CanSeal) :
    (start H gatewayID anchor now).run (l.withActive (some l.sealedFile)) =
      ([.linkSealed (sealedName l.activeStart l.active), .removeActive, .createActive,
        .appendActive (encodeHeader gatewayID l.head.next now)], .ok (l.sealActive h now).store) := by
  rw [start_eq_openActive l ha hbase now _ rfl]
  rw [openActive_sealed l.validID h.toCountable l.loaded rfl now _ rfl, verifySealedBytes_sealed l.validID h,
    Prog.lift_bind_ok]
  have hlookup : (l.disk.sealed).lookup (sealedName l.activeStart l.active) = none :=
    lookup_sealedFiles l.sealed_ok _
  have hnext : (verified H gatewayID "active.wal" l.activeStart l.active).startSequence = l.loaded.next := rfl
  have hrecover : (l.loaded.recoverSealedActive H (verified H gatewayID "active.wal" l.activeStart l.active)).run
      (l.withActive (some l.sealedFile)) =
      ([.linkSealed (sealedName l.activeStart l.active), .removeActive], .ok (l.sealActive h now).loaded) := by
    unfold Store.recoverSealedActive
    have hinstall := installActiveAsSealed_new (H := H)
      (verified H gatewayID "active.wal" l.activeStart l.active)
      (l.withActive (some l.sealedFile)) hlookup
    rw [if_pos hnext, validateNextSegment_verified h "active.wal" l.loaded rfl rfl rfl, Prog.lift_bind_ok,
      Prog.bind_ok hinstall]
    simp only [Prog.pure_run, List.append_nil]
    rw [← acceptLoadedSegment_active l h now]
    rfl
  have hcreate := createActive_loaded (l.sealActive h now) now
    (runAll [.linkSealed (sealedName l.activeStart l.active), .removeActive]
      (l.withActive (some l.sealedFile))) rfl
  rw [Prog.bind_ok hrecover, hcreate, Log.sealActive_activeStart]
  rfl

/-- **A sealed copy of the active file is dropped** when the segment is already in the inventory. -/
theorem start_linked (h : l.CanSeal) (created : Int64) : (start H gatewayID anchor now).run
        ((l.sealActive h created).withActive (some l.sealedFile)) =
      ([.removeActive, .createActive, .appendActive (encodeHeader gatewayID l.head.next now)],
        .ok (l.sealActive h now).store) := by
  rw [start_eq_openActive (l.sealActive h created) ha hbase now _ rfl,
    openActive_sealed l.validID h.toCountable (l.sealActive h created).loaded rfl now _ rfl,
    verifySealedBytes_sealed l.validID h, Prog.lift_bind_ok]
  have hnext : (verified H gatewayID "active.wal" l.activeStart l.active).startSequence ≠
      (l.sealActive h created).loaded.next := by
    show l.activeStart.next ≠ (l.sealActive h created).activeStart.next
    rw [Log.sealActive_activeStart, Log.head_eq]
    intro heq
    have hnat := h.next_toNat
    have hpos := List.length_pos_of_ne_nil h.nonempty
    rw [← heq] at hnat
    omega
  have hlast : (l.sealActive h created).loaded.sealed.getLast? =
      some { verified H gatewayID (sealedName l.activeStart l.active) l.activeStart l.active with
        entries := [] } := by
    simp [Log.loaded, loadedStore, Log.sealActive, verifiedSegments_append, Log.activeStart]
  have hlookup : ((l.sealActive h created).disk.sealed).lookup (sealedName l.activeStart l.active) =
      some l.sealedFile := by
    have hnone : (sealedFiles H gatewayID l.base l.sealed).lookup (sealedName l.activeStart l.active) = none :=
      lookup_sealedFiles l.sealed_ok _
    simp only [Log.disk, Log.sealActive, sealedFiles_append, List.lookup_append]
    simp only [Log.sealedFile, Log.activeStart] at hnone ⊢
    rw [hnone]
    simp
  have hrecover : ((l.sealActive h created).loaded.recoverSealedActive H
        (verified H gatewayID "active.wal" l.activeStart l.active)).run
      ((l.sealActive h created).withActive (some l.sealedFile)) =
      ([.removeActive], .ok (l.sealActive h created).loaded) := by
    unfold Store.recoverSealedActive
    rw [if_neg hnext, hlast]
    have hpath : ((l.sealActive h created).withActive
        (some l.sealedFile)).sealed = (l.sealActive h created).disk.sealed := rfl
    simp only [verified, ne_eq, not_true_eq_false, or_self, if_false]
    rw [Prog.read_bind, Prog.read_bind, hpath, hlookup]
    simp [Log.withActive]
  have hcreate := createActive_loaded (l.sealActive h created) now
    (runAll [.removeActive]
      ((l.sealActive h created).withActive (some l.sealedFile))) rfl
  rw [Prog.bind_ok hrecover, hcreate, Log.sealActive_activeStart]
  rfl

end

theorem newStoreWithAnchor_inputs {s : Store}
    (h : newStoreWithAnchor gatewayID anchor = .ok s) : ValidID gatewayID ∧ AnchorOk anchor := by
  unfold newStoreWithAnchor at h
  simp only at h
  split at h
  · cases h
  · rename_i hid
    simp only [not_or, Bool.not_eq_true', Bool.not_eq_false] at hid
    refine ⟨⟨hid.1, hid.2.1, by omega⟩, ?_⟩
    cases anchor with
    | none => trivial
    | some anchor =>
      simp only at h
      split at h
      · cases h
      · rename_i hanchor
        simp only [not_or] at hanchor
        exact hanchor

theorem inputs_of_start {now : Int64} {d : Disk} {ops : List DiskOp} {s : Store}
    (h : (start H gatewayID anchor now).run d = (ops, .ok s)) : ValidID gatewayID ∧ AnchorOk anchor := by
  obtain ⟨_, s₀, _, hnew, -, -⟩ := Prog.bind_eq_ok h
  exact newStoreWithAnchor_inputs (congrArg Prod.snd hnew)

theorem start_bad_anchor (H : Hashes) (gatewayID : Bytes) (h : ¬ AnchorOk anchor)
    (now : Int64) (d : Disk) : ∃ err, (start H gatewayID anchor now).run d = ([], .error err) := by
  cases hnew : newStoreWithAnchor gatewayID anchor with
  | ok s => exact absurd (newStoreWithAnchor_inputs hnew).2 h
  | error err =>
    refine ⟨err, ?_⟩
    unfold start
    rw [hnew, Prog.lift_bind_error]

theorem anchorPosition_next (h : AnchorOk anchor) : (anchorPosition anchor).next ≠ 0 := by
  cases anchor with
  | none => decide
  | some anchor =>
    obtain ⟨-, hmax, -⟩ := h
    intro hzero
    apply hmax
    have : anchor.endSequence + 1 = 0 := hzero
    simp only [maxUint64]
    grind

end TickPlatform.Wal
