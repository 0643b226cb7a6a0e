import Mathlib.Tactic.IntervalCases
import TickPlatform.Wal.Scan

/-!
# The log behind the WAL files

A log is a chain of entries cut into sealed segments and an active one. Its files and its store
state are functions of it; the store refines it.
-/

namespace TickPlatform.Wal

open Bytes Protocol Crash

/-! ## Positions along a chain -/

theorem advance_next (p : Position) (entries : List Entry) :
    (p.advance entries).next = p.next + UInt64.ofNat entries.length := by
  induction entries generalizing p with
  | nil => simp
  | cons entry entries ih =>
    rw [Position.advance_cons, ih]
    simp [Position.after, UInt64.add_assoc, UInt64.add_comm]

variable {p : Position}

theorem advance_last {entries : List Entry} {final : Entry}
    (h : entries.getLast? = some final) : (p.advance entries).last = final.entryHash := by
  obtain ⟨front, rfl⟩ := List.getLast?_eq_some_iff.mp h
  rw [Position.advance_append]
  rfl

variable {H : Hashes}

theorem chained_head {offset : Nat} {entries : List Entry} {first : Entry}
    (h : Chained H p offset entries) (hfirst : entries.head? = some first) :
    first.sequence = p.next ∧ first.previousEntryHash = p.last := by
  cases entries with
  | nil => simp at hfirst
  | cons entry entries =>
    simp only [List.head?_cons, Option.some.injEq] at hfirst
    subst hfirst
    exact ⟨h.2.1, h.2.2.1⟩

theorem chained_last {offset : Nat} {entries : List Entry} {final : Entry}
    (h : Chained H p offset entries) (hfinal : entries.getLast? = some final) :
    final.sequence + 1 = (p.advance entries).next := by
  obtain ⟨front, rfl⟩ := List.getLast?_eq_some_iff.mp hfinal
  obtain ⟨-, hlast⟩ := (chained_append H p offset front [final]).mp h
  rw [Position.advance_append]
  show final.sequence + 1 = (p.advance front).next + 1
  rw [hlast.2.1]

/-! ## Segments -/

structure SegmentData where
  createdWallS : Int64
  entries : List Entry
deriving DecidableEq

section
variable (H : Hashes) (gatewayID : Bytes)

/-- The bytes of a segment that is not sealed. -/
def openBytes (p : Position) (seg : SegmentData) : Bytes :=
  encodeHeader gatewayID p.next seg.createdWallS ++ encodeEntries H seg.entries

def lastSequence (p : Position) (seg : SegmentData) : UInt64 := (p.advance seg.entries).next - 1

def trailerOf (p : Position) (seg : SegmentData) : Bytes :=
  encodeTrailer H p.next (lastSequence p seg) (UInt32.ofNat seg.entries.length)
    (p.advance seg.entries).last (H.sha256 (openBytes H gatewayID p seg))

def sealedBytes (p : Position) (seg : SegmentData) : Bytes :=
  openBytes H gatewayID p seg ++ trailerOf H gatewayID p seg

def sealedName (p : Position) (seg : SegmentData) : String := segmentName p.next (lastSequence p seg)

/-- What verification says about a sealed segment. -/
def verified (path : String) (p : Position) (seg : SegmentData) : VerifiedSegment where
  path := path
  gatewayInstanceID := gatewayID
  startSequence := p.next
  lastSequence := lastSequence p seg
  entryCount := UInt32.ofNat seg.entries.length
  chainStart := p.last
  chainRoot := (p.advance seg.entries).last
  trailerFileSHA256 := H.sha256 (openBytes H gatewayID p seg)
  objectSHA256 := H.sha256 (sealedBytes H gatewayID p seg)
  fileBytes := (sealedBytes H gatewayID p seg).length
  entries := seg.entries

/-- A chain of entries at `p` that a trailer can count. -/
structure Countable (p : Position) (seg : SegmentData) : Prop where
  nonempty : seg.entries ≠ []
  chained : Chained H p (30 + gatewayID.length) seg.entries
  start : p.next ≠ 0
  count : seg.entries.length < 4294967296

/-- A segment that may be sealed at `p`: its numbers stay below the last sequence number. -/
structure Sealable (p : Position) (seg : SegmentData) : Prop extends Countable H gatewayID p seg where
  room : p.next.toNat + seg.entries.length < 18446744073709551616

end

/-! ## A sealed segment verifies -/

@[simp] theorem length_trailerBody (first last : UInt64) (count : UInt32) (root hash : Digest) :
    (trailerBody first last count root hash).length = 92 := by
  simp [trailerBody]

@[simp] theorem length_encodeTrailer (H : Hashes) (first last : UInt64) (count : UInt32) (root hash : Digest) :
    (encodeTrailer H first last count root hash).length = 96 := by
  simp [encodeTrailer]

theorem encodeTrailer_magic (H : Hashes) (first last : UInt64) (count : UInt32) (root hash : Digest) :
    ∃ rest, encodeTrailer H first last count root hash = trailerMagic ++ rest := by
  refine ⟨?rest, ?eq⟩
  case eq =>
    unfold encodeTrailer trailerBody
    rw [List.append_assoc]

theorem encodeTrailer_fields (H : Hashes) (first last : UInt64) (count : UInt32) (root hash : Digest) :
    let trailer := encodeTrailer H first last count root hash
    trailer.take 4 = trailerMagic ∧ slice trailer 4 6 = putUint16 trailerVersion ∧
      slice trailer 6 8 = putUint16 (UInt16.ofNat trailerBytes) ∧ slice trailer 8 16 = putUint64 first ∧
      slice trailer 16 24 = putUint64 last ∧ slice trailer 24 28 = putUint32 count ∧
      slice trailer 28 60 = root.bytes ∧ slice trailer 60 92 = hash.bytes ∧
      slice trailer 92 96 = putUint32 (H.crc32c (trailerBody first last count root hash)) ∧
      trailer.take 92 = trailerBody first last count root hash := by
  refine ⟨?magic, ?_, ?_, ?_, ?_, ?_, ?_, ?_, ?crc, ?body⟩
  case magic =>
    obtain ⟨rest, hrest⟩ := encodeTrailer_magic H first last count root hash
    rw [hrest]
    exact List.take_left' length_trailerMagic
  case crc => exact slice_last _ _ _ _ (by simp) (by simp)
  case body => exact List.take_left' (by simp)
  all_goals
    simp (disch := simp) only [encodeTrailer, trailerBody, List.append_assoc, slice_skip, slice_here,
      length_trailerMagic, length_putUint16, length_putUint32, length_putUint64, Digest.length_bytes,
      Nat.reduceSub]

variable {gatewayID : Bytes} {seg : SegmentData}

theorem Countable.head_and_last (h : Countable H gatewayID p seg) :
    ∃ first final, seg.entries.head? = some first ∧ seg.entries.getLast? = some final ∧
      first.sequence = p.next ∧ first.previousEntryHash = p.last ∧
      final.sequence = lastSequence p seg ∧ final.entryHash = (p.advance seg.entries).last := by
  have hne := h.nonempty
  refine ⟨seg.entries.head hne, seg.entries.getLast hne, List.head?_eq_some_head hne,
    List.getLast?_eq_some_getLast hne, ?_⟩
  obtain ⟨hseq, hprev⟩ := chained_head h.chained (List.head?_eq_some_head hne)
  have hlast := chained_last h.chained (List.getLast?_eq_some_getLast hne)
  refine ⟨hseq, hprev, ?_, (advance_last (List.getLast?_eq_some_getLast hne)).symm⟩
  rw [lastSequence, ← hlast]
  simp

theorem Sealable.lastSequence_toNat (h : Sealable H gatewayID p seg) :
    (lastSequence p seg).toNat = p.next.toNat + seg.entries.length - 1 := by
  have hpos := List.length_pos_of_ne_nil h.nonempty
  have hroom := h.room
  rw [lastSequence, advance_next]
  have hlen : (UInt64.ofNat seg.entries.length).toNat = seg.entries.length := by
    rw [UInt64.toNat_ofNat']
    omega
  rw [UInt64.toNat_sub_of_le, UInt64.toNat_add, hlen]
  · simp
    omega
  · rw [UInt64.le_iff_toNat_le, UInt64.toNat_add, hlen]
    simp
    omega

theorem Sealable.next_toNat (h : Sealable H gatewayID p seg) :
    (p.advance seg.entries).next.toNat = p.next.toNat + seg.entries.length := by
  have hroom := h.room
  rw [advance_next, UInt64.toNat_add, UInt64.toNat_ofNat']
  omega

/-- What verification decides about a trailer of `Seal`: only the sequence range is in question. -/
theorem verifySealedBytes_eq (hid : ValidID gatewayID) (h : Countable H gatewayID p seg) (path : String) :
    verifySealedBytes H path (sealedBytes H gatewayID p seg) =
      if lastSequence p seg < p.next then .error (.integrity "sealed WAL sequence range is reversed")
      else if lastSequence p seg - p.next + 1 ≠ (UInt32.ofNat seg.entries.length).toUInt64 then
        .error (.integrity "sealed WAL entry count mismatch")
      else .ok (verified H gatewayID path p seg) := by
  obtain ⟨first, final, hfirst, hfinal, hseq, hprev, hlastSeq, hlastHash⟩ := h.head_and_last
  have hlen : (trailerOf H gatewayID p seg).length = 96 := by simp [trailerOf]
  have hopen : 30 ≤ (openBytes H gatewayID p seg).length := by
    simp [openBytes]
    omega
  have hsub : (sealedBytes H gatewayID p seg).length - trailerBytes =
      (openBytes H gatewayID p seg).length := by
    rw [sealedBytes, List.length_append, hlen, trailerBytes]
    omega
  have hfront : (sealedBytes H gatewayID p seg).take (openBytes H gatewayID p seg).length =
      openBytes H gatewayID p seg := List.take_left
  have htrailer : (sealedBytes H gatewayID p seg).drop (openBytes H gatewayID p seg).length =
      trailerOf H gatewayID p seg := List.drop_left
  have hlong : ¬ (sealedBytes H gatewayID p seg).length < 30 + trailerBytes := by
    rw [sealedBytes, List.length_append, hlen, trailerBytes]
    omega
  obtain ⟨hmagic, h4, h6, h8, h16, h24, h28, h60, h92, hbody⟩ :=
    encodeTrailer_fields H p.next (lastSequence p seg) (UInt32.ofNat seg.entries.length)
      (p.advance seg.entries).last (H.sha256 (openBytes H gatewayID p seg))
  rw [← trailerOf] at hmagic h4 h6 h8 h16 h24 h28 h60 h92 hbody
  have hheader : parseHeader (openBytes H gatewayID p seg) [] =
      .ok ⟨30 + gatewayID.length, p.next, gatewayID⟩ :=
    parseHeader_encodeHeader hid _ _ _ _ h.start (.inl rfl)
  have hentries : parseEntries H (openBytes H gatewayID p seg) ⟨30 + gatewayID.length, p.next, gatewayID⟩
      none false = .ok (seg.entries, (openBytes H gatewayID p seg).length, false) := by
    obtain ⟨previous', hloop⟩ := parseEntriesLoop_chained false [] [] h.chained (.inl rfl)
    rw [List.append_nil, parseEntriesLoop_nil, lastEnd_of_chained h.chained] at hloop
    have hdrop : (openBytes H gatewayID p seg).drop (30 + gatewayID.length) = encodeEntries H seg.entries :=
      List.drop_left' (by simp)
    have hend : (openBytes H gatewayID p seg).length =
        30 + gatewayID.length + (encodeEntries H seg.entries).length := by simp [openBytes]
    simp only [parseEntries, hdrop, hend]
    exact hloop
  have hcount : (UInt32.ofNat seg.entries.length).toNat = seg.entries.length := toNat_ofNat32 _ h.count
  unfold verifySealedBytes
  simp only [hsub, hfront, htrailer, if_neg hlong, hmagic, h4, h6, h8, h16, h24, h28, h60, h92, hbody,
    uint16_putUint16, uint32_putUint32, uint64_putUint64, Digest.ofBytes_bytes, ne_eq, not_true_eq_false,
    or_self, or_false, if_false, hheader, hentries, bind, Except.bind, hfirst, hfinal, hseq, hprev, hlastSeq,
    hlastHash, hcount, Bool.false_eq_true]
  rfl

/-- **A sealed segment verifies**, with the chain it was sealed from. -/
theorem verifySealedBytes_sealed (hid : ValidID gatewayID) (h : Sealable H gatewayID p seg) (path : String) :
    verifySealedBytes H path (sealedBytes H gatewayID p seg) = .ok (verified H gatewayID path p seg) := by
  have hpos := List.length_pos_of_ne_nil h.nonempty
  have hsmall := h.count
  have hle : ¬ lastSequence p seg < p.next := by
    have := h.lastSequence_toNat
    rw [UInt64.lt_iff_toNat_lt]
    omega
  have hspan : lastSequence p seg - p.next + 1 = (UInt32.ofNat seg.entries.length).toUInt64 := by
    rw [← UInt64.toNat_inj, UInt64.toNat_add, UInt64.toNat_sub_of_le _ _ (UInt64.not_lt.mp hle),
      h.lastSequence_toNat, UInt32.toNat_toUInt64, toNat_ofNat32 _ h.count]
    simp
    omega
  rw [verifySealedBytes_eq hid h.toCountable, if_neg hle, if_neg (not_not_intro hspan)]

theorem sealable_of_verified (hid : ValidID gatewayID) (h : Countable H gatewayID p seg) (hmax : lastSequence p seg ≠ maxUint64)
    {path : String} {segment : VerifiedSegment}
    (hok : verifySealedBytes H path (sealedBytes H gatewayID p seg) = .ok segment) :
    Sealable H gatewayID p seg := by
  rw [verifySealedBytes_eq hid h] at hok
  split at hok
  · cases hok
  · rename_i hle
    refine ⟨h, ?_⟩
    have hpos := List.length_pos_of_ne_nil h.nonempty
    have hcount := h.count
    have hmax' : (lastSequence p seg).toNat ≠ 18446744073709551615 := fun heq =>
      hmax (UInt64.toNat_inj.mp heq)
    have hlast : (lastSequence p seg).toNat =
        (p.next.toNat + seg.entries.length + 18446744073709551615) % 18446744073709551616 := by
      rw [lastSequence, advance_next, UInt64.toNat_sub, UInt64.toNat_add, UInt64.toNat_ofNat']
      simp
      omega
    have hstart := p.next.toNat_lt
    rw [UInt64.lt_iff_toNat_lt] at hle
    omega

/-! ## Segment names -/

theorem eq_of_digits (n a b : Nat) (ha : a < 10 ^ n) (hb : b < 10 ^ n)
    (h : ∀ i < n, a / 10 ^ i % 10 = b / 10 ^ i % 10) : a = b := by
  induction n generalizing a b with
  | zero => omega
  | succ n ih =>
    have hunit := h 0 (by omega)
    have htens : a / 10 = b / 10 := by
      refine ih (a / 10) (b / 10) (by omega) (by omega) ?_
      intro i hi
      have := h (i + 1) (by omega)
      rwa [Nat.pow_succ, Nat.mul_comm, ← Nat.div_div_eq_div_mul, ← Nat.div_div_eq_div_mul] at this
    simp at hunit
    omega

theorem digitChar_inj {a b : Nat} (ha : a < 10) (hb : b < 10) (h : Nat.digitChar a = Nat.digitChar b) : a = b := by
  revert h
  interval_cases a <;> interval_cases b <;> decide

theorem zeroPad20_inj {a b : UInt64} (h : zeroPad20 a = zeroPad20 b) : a = b := by
  have hlists := congrArg String.toList h
  simp only [zeroPad20, String.toList_ofList, List.map_inj_left, List.mem_range] at hlists
  have hdigits : ∀ i < 20, a.toNat / 10 ^ i % 10 = b.toNat / 10 ^ i % 10 := by
    intro i hi
    have := digitChar_inj (Nat.mod_lt _ (by omega)) (Nat.mod_lt _ (by omega)) (hlists (19 - i) (by omega))
    rwa [show 19 - (19 - i) = i by omega] at this
  have ha := a.toNat_lt
  have hb := b.toNat_lt
  exact UInt64.toNat_inj.mp (eq_of_digits 20 _ _ (by omega) (by omega) hdigits)

theorem segmentName_inj {a a' b b' : UInt64} (h : segmentName a b = segmentName a' b') : a = a' := by
  have hlists := congrArg String.toList h
  simp only [segmentName, String.toList_append, List.append_assoc] at hlists
  have hrest := List.append_cancel_left hlists
  refine zeroPad20_inj (String.toList_inj.mp (List.append_inj_left hrest ?_))
  simp [zeroPad20]

theorem hasSuffix_segmentName (a b : UInt64) : hasSuffix (segmentName a b) ".wal" = true := by
  unfold hasSuffix segmentName
  rw [List.isSuffixOf_iff_suffix, String.toList_append]
  exact List.suffix_append _ _

/-! ## Logs -/

section
variable (H : Hashes) (gatewayID : Bytes)

/-- Each segment may be sealed where the one before it ends. -/
def SealedOk : Position → List SegmentData → Prop
  | _, [] => True
  | p, seg :: segs => Sealable H gatewayID p seg ∧ SealedOk (p.advance seg.entries) segs

def sealedFiles : Position → List SegmentData → List (String × Bytes)
  | _, [] => []
  | p, seg :: segs =>
    (sealedName p seg, sealedBytes H gatewayID p seg) :: sealedFiles (p.advance seg.entries) segs

def verifiedSegments : Position → List SegmentData → List VerifiedSegment
  | _, [] => []
  | p, seg :: segs =>
    verified H gatewayID (sealedName p seg) p seg :: verifiedSegments (p.advance seg.entries) segs

end

def sealedEntries (segs : List SegmentData) : List Entry := segs.flatMap (·.entries)

/-- A chain of entries from `base` on, cut into sealed segments and an active one. -/
structure Log (H : Hashes) (gatewayID : Bytes) where
  base : Position
  sealed : List SegmentData
  active : SegmentData
  validID : ValidID gatewayID
  base_start : base.next ≠ 0
  sealed_ok : SealedOk H gatewayID base sealed
  active_ok : Chained H (base.advance (sealedEntries sealed)) (30 + gatewayID.length) active.entries

namespace Log

variable {H : Hashes} {gatewayID : Bytes} (l : Log H gatewayID)

def entries : List Entry := sealedEntries l.sealed ++ l.active.entries

/-- The position at which the active segment starts. -/
def activeStart : Position := l.base.advance (sealedEntries l.sealed)

def head : Position := l.base.advance l.entries

def disk : Disk where
  active := some (openBytes H gatewayID l.activeStart l.active)
  sealed := sealedFiles H gatewayID l.base l.sealed

def sealedSize : Nat := ((sealedFiles H gatewayID l.base l.sealed).map fun file => file.2.length).sum

/-- The store over the files of a log. -/
def store : Store where
  gatewayID := gatewayID
  file := true
  entries := l.entries
  sealed := (verifiedSegments H gatewayID l.base l.sealed).map fun segment => { segment with entries := [] }
  last := l.head.last
  next := l.head.next
  start := l.activeStart.next
  activeAt := (sealedEntries l.sealed).length
  sealedBytes := l.sealedSize
  fileBytes := l.sealedSize + (openBytes H gatewayID l.activeStart l.active).length
  poisoned := false
  prunedThrough := l.base.next - 1

theorem head_eq : l.head = l.activeStart.advance l.active.entries := by
  rw [head, entries, Position.advance_append, activeStart]

/-- The last entry carries the last sequence number there is. -/
def Exhausted : Prop := ∃ final, l.active.entries.getLast? = some final ∧ final.sequence = maxUint64

/-- The bytes of the active file. -/
abbrev openFile : Bytes := openBytes H gatewayID l.activeStart l.active

/-- Those bytes with their trailer. -/
abbrev sealedFile : Bytes := sealedBytes H gatewayID l.activeStart l.active

/-- The active segment may be sealed. -/
def CanSeal : Prop := Sealable H gatewayID l.activeStart l.active

end Log

theorem sealedOk_append {segs : List SegmentData} (h : SealedOk H gatewayID p segs)
    (hseg : Sealable H gatewayID (p.advance (sealedEntries segs)) seg) :
    SealedOk H gatewayID p (segs ++ [seg]) := by
  induction segs generalizing p with
  | nil => exact ⟨hseg, trivial⟩
  | cons first segs ih =>
    refine ⟨h.1, ih h.2 ?_⟩
    rwa [sealedEntries, List.flatMap_cons, Position.advance_append] at hseg

theorem sealedFiles_append (H : Hashes) (gatewayID : Bytes) (p : Position) (segs : List SegmentData)
    (seg : SegmentData) :
    sealedFiles H gatewayID p (segs ++ [seg]) = sealedFiles H gatewayID p segs ++
      [(sealedName (p.advance (sealedEntries segs)) seg,
        sealedBytes H gatewayID (p.advance (sealedEntries segs)) seg)] := by
  induction segs generalizing p with
  | nil => rfl
  | cons first segs ih =>
    simp only [List.cons_append, sealedFiles, ih, sealedEntries, List.flatMap_cons, Position.advance_append]

theorem verifiedSegments_append (H : Hashes) (gatewayID : Bytes) (p : Position) (segs : List SegmentData)
    (seg : SegmentData) :
    verifiedSegments H gatewayID p (segs ++ [seg]) = verifiedSegments H gatewayID p segs ++
      [verified H gatewayID (sealedName (p.advance (sealedEntries segs)) seg)
        (p.advance (sealedEntries segs)) seg] := by
  induction segs generalizing p with
  | nil => rfl
  | cons first segs ih =>
    simp only [List.cons_append, verifiedSegments, ih, sealedEntries, List.flatMap_cons, Position.advance_append]

@[simp] theorem sealedEntries_append (segs more : List SegmentData) :
    sealedEntries (segs ++ more) = sealedEntries segs ++ sealedEntries more := by
  simp [sealedEntries]

namespace Log

variable {H : Hashes} {gatewayID : Bytes} (l : Log H gatewayID)

/-- The log after its active segment is sealed and a new one is opened. -/
def sealActive (h : l.CanSeal) (createdWallS : Int64) : Log H gatewayID where
  base := l.base
  sealed := l.sealed ++ [l.active]
  active := ⟨createdWallS, []⟩
  validID := l.validID
  base_start := l.base_start
  sealed_ok := sealedOk_append l.sealed_ok h
  active_ok := trivial

/-- The log with the header of its empty active segment written anew. -/
def recreate (createdWallS : Int64) : Log H gatewayID where
  base := l.base
  sealed := l.sealed
  active := ⟨createdWallS, []⟩
  validID := l.validID
  base_start := l.base_start
  sealed_ok := l.sealed_ok
  active_ok := trivial

/-- The log with one more entry. -/
def push (entry : Entry)
    (h : Chained H l.head (openBytes H gatewayID l.activeStart l.active).length [entry]) :
    Log H gatewayID where
  base := l.base
  sealed := l.sealed
  active := ⟨l.active.createdWallS, l.active.entries ++ [entry]⟩
  validID := l.validID
  base_start := l.base_start
  sealed_ok := l.sealed_ok
  active_ok := by
    refine (chained_append _ _ _ _ _).mpr ⟨l.active_ok, ?_⟩
    rw [head_eq] at h
    simpa [openBytes, activeStart] using h

/-- The log of an empty directory. -/
def fresh (validID : ValidID gatewayID) (base : Position) (base_start : base.next ≠ 0)
    (createdWallS : Int64) : Log H gatewayID where
  base := base
  sealed := []
  active := ⟨createdWallS, []⟩
  validID := validID
  base_start := base_start
  sealed_ok := trivial
  active_ok := trivial

@[simp] theorem sealActive_entries (h : l.CanSeal) (created : Int64) :
    (l.sealActive h created).entries = l.entries := by
  simp [sealActive, entries, sealedEntries]

@[simp] theorem sealActive_head (h : l.CanSeal) (created : Int64) : (l.sealActive h created).head = l.head := by
  rw [head, sealActive_entries]
  rfl

theorem sealActive_activeStart (h : l.CanSeal) (created : Int64) : (l.sealActive h created).activeStart = l.head := by
  rw [← sealActive_head l h created, head_eq]
  rfl

@[simp] theorem push_entries (entry : Entry)
    (h : Chained H l.head (openBytes H gatewayID l.activeStart l.active).length [entry]) :
    (l.push entry h).entries = l.entries ++ [entry] := by
  simp [push, entries]

end Log

end TickPlatform.Wal
