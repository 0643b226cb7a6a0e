import TickPlatform.Protocol.Proofs
import TickPlatform.Wal.Store

/-!
# Scanning a segment

The scan of a chained image returns its entries, stops at a torn tail, and tells a torn trailer
from a complete one.
-/

namespace TickPlatform.Wal

open Bytes Protocol Crash

/-! ## One entry -/

/-- What `Append` guarantees about an entry. -/
structure Entry.Sound (H : Hashes) (entry : Entry) : Prop where
  batchHash : entry.batchHash = gatewayBatchSHA256 H entry.frame
  entryHash : entry.entryHash = walEntryHash H entry.sequence entry.previousEntryHash
    entry.receiveWallS entry.receiveMonotonicUS entry.batchHash entry.frame
  decodes : ∃ batch, decodeBatchFrame H entry.frame = .ok batch
  lower : 20 ≤ entry.frame.length
  upper : entry.frame.length ≤ 1048576

/-- The number of bytes of an entry in its segment. -/
def entrySize (entry : Entry) : Nat := entryFixedBytes + entry.frame.length

@[simp] theorem length_entryBody (entry : Entry) : (entryBody entry).length = 136 + entry.frame.length := by
  simp only [entryBody, List.length_append, length_putUint32, length_putUint16, length_putUint64,
    length_putInt64, Digest.length_bytes]
  omega

@[simp] theorem length_encodeEntry (H : Hashes) (entry : Entry) : (encodeEntry H entry).length = entrySize entry := by
  simp only [encodeEntry, List.length_append, length_entryBody, length_putUint32, entrySize,
    entryFixedBytes]
  omega

theorem entrySize_pos (entry : Entry) : 0 < entrySize entry := by
  simp only [entrySize, entryFixedBytes]
  omega

theorem toNat_ofNat32 (n : Nat) (h : n < 4294967296) : (UInt32.ofNat n).toNat = n := by
  rw [UInt32.toNat_ofNat']
  omega

/-- The 68 bytes in front of the frame. -/
def entryHead (entry : Entry) : Bytes :=
  putUint32 (UInt32.ofNat (entryFixedBytes + entry.frame.length)) ++ (putUint16 entryVersion ++
    (putUint16 0 ++ (putUint64 entry.sequence ++ (putInt64 entry.receiveWallS ++
      (putUint64 entry.receiveMonotonicUS ++ (entry.previousEntryHash.bytes ++
        putUint32 (UInt32.ofNat entry.frame.length)))))))

@[simp] theorem length_entryHead (entry : Entry) : (entryHead entry).length = 68 := by
  simp [entryHead]

theorem entryBody_eq (entry : Entry) : entryBody entry =
    entryHead entry ++ (entry.frame ++ (entry.batchHash.bytes ++ (entry.entryHash.bytes ++
      putUint32 commitMarker))) := by
  simp only [entryBody, entryHead, List.append_assoc]

/-- The fixed fields of an entry, whatever stands after its body. -/
theorem entryBody_fields (entry : Entry) (tail : Bytes) :
    let raw := entryBody entry ++ tail
    let n := entry.frame.length
    slice raw 0 4 = putUint32 (UInt32.ofNat (entryFixedBytes + n)) ∧
      slice raw 4 6 = putUint16 entryVersion ∧ slice raw 6 8 = putUint16 0 ∧
      slice raw 8 16 = putUint64 entry.sequence ∧ slice raw 16 24 = putInt64 entry.receiveWallS ∧
      slice raw 24 32 = putUint64 entry.receiveMonotonicUS ∧
      slice raw 32 64 = entry.previousEntryHash.bytes ∧
      slice raw 64 68 = putUint32 (UInt32.ofNat n) ∧ slice raw 68 (68 + n) = entry.frame ∧
      slice raw (68 + n) (68 + n + 32) = entry.batchHash.bytes ∧
      slice raw (68 + n + 32) (68 + n + 64) = entry.entryHash.bytes ∧
      slice raw (68 + n + 64) (68 + n + 68) = putUint32 commitMarker := by
  have hraw : entryBody entry ++ tail = entryHead entry ++ (entry.frame ++ (entry.batchHash.bytes ++
      (entry.entryHash.bytes ++ (putUint32 commitMarker ++ tail)))) := by
    simp only [entryBody_eq, List.append_assoc]
  simp only [hraw]
  refine ⟨?_, ?_, ?_, ?_, ?_, ?_, ?_, ?_, ?frame, ?batchHash, ?entryHash, ?marker⟩
  case frame => exact slice_at _ _ _ _ _ (by simp) (by simp)
  case batchHash =>
    rw [← List.append_assoc]
    exact slice_at _ _ _ _ _ (by simp) (by simp)
  case entryHash =>
    rw [← List.append_assoc, ← List.append_assoc]
    exact slice_at _ _ _ _ _ (by simp; omega) (by simp)
  case marker =>
    rw [← List.append_assoc, ← List.append_assoc, ← List.append_assoc]
    exact slice_at _ _ _ _ _ (by simp; omega) (by simp)
  all_goals
    simp (disch := simp) only [entryHead, List.append_assoc, slice_skip, slice_here, length_putUint16,
      length_putUint32, length_putUint64, length_putInt64, Digest.length_bytes, Nat.reduceSub]

/-- An entry of `Append` parses back. -/
theorem parseEntry_encodeEntry (H : Hashes) (entry : Entry) (h : entry.Sound H) :
    parseEntry H (encodeEntry H entry) = .ok { entry with offset := 0 } := by
  have hlower := h.lower
  have hupper := h.upper
  obtain ⟨batch, hbatch⟩ := h.decodes
  have hn : (UInt32.ofNat entry.frame.length).toNat = entry.frame.length := toNat_ofNat32 _ (by omega)
  have hsize : (encodeEntry H entry).length = 140 + entry.frame.length := by
    simp [entrySize, entryFixedBytes]
  have hentry : (UInt32.ofNat (entryFixedBytes + entry.frame.length)).toNat = 140 + entry.frame.length :=
    toNat_ofNat32 _ (by simp only [entryFixedBytes]; omega)
  obtain ⟨h0, h4, h6, h8, h16, h24, h32, h64, hframe, hbatchHash, hentryHash, hmarker⟩ :=
    entryBody_fields entry (putUint32 (H.crc32c (entryBody entry)))
  have hfront : slice (encodeEntry H entry) 0 (136 + entry.frame.length) = entryBody entry :=
    slice_here _ _ _ (by simp)
  have hcrc : slice (encodeEntry H entry) (136 + entry.frame.length) (140 + entry.frame.length) =
      putUint32 (H.crc32c (entryBody entry)) := slice_last _ _ _ _ (by simp) (by simp; omega)
  have hsub : 140 + entry.frame.length - 4 = 136 + entry.frame.length := by omega
  rw [← encodeEntry] at h0 h4 h6 h8 h16 h24 h32 h64 hframe hbatchHash hentryHash hmarker
  have hwall : (uint64 (putInt64 entry.receiveWallS)).toInt64 = entry.receiveWallS := by simp [putInt64]
  have hrange : ¬ (entry.frame.length < minFrameBytes.toNat ∨ entry.frame.length > maxFrameBytes.toNat ∨
      140 + entry.frame.length ≠ entryFixedBytes + entry.frame.length) := by
    simp [minFrameBytes, maxFrameBytes, entryFixedBytes]
    omega
  unfold parseEntry
  simp only [hsize, h0, h4, h6, h8, h16, h24, h32, h64, uint32_putUint32, uint16_putUint16,
    uint64_putUint64, hn, hentry, hframe, hbatchHash, hentryHash, hmarker, hsub, hfront, hcrc, hwall,
    Digest.ofBytes_bytes, hbatch, if_neg hrange, ← h.batchHash, ← h.entryHash, ne_eq, not_true_eq_false,
    or_self, if_false, show ¬ 140 + entry.frame.length < entryFixedBytes by simp [entryFixedBytes]]

/-! ## The front of the rest -/

@[simp] theorem length_trailerMagic : trailerMagic.length = 4 := by decide

theorem uint32_trailerMagic : (uint32 trailerMagic).toNat = 1381259092 := by decide

theorem encodeEntry_take_four (H : Hashes) (entry : Entry) (rest : Bytes) :
    (encodeEntry H entry ++ rest).take 4 = putUint32 (UInt32.ofNat (entrySize entry)) := by
  have h := (entryBody_fields entry (putUint32 (H.crc32c (entryBody entry)) ++ rest)).1
  simp only [slice, List.drop_zero, Nat.sub_zero] at h
  rw [encodeEntry, List.append_assoc]
  exact h

variable {H : Hashes} {entry : Entry}

theorem entry_length_field (h : entry.Sound H) :
    (uint32 (putUint32 (UInt32.ofNat (entrySize entry)))).toNat = entrySize entry := by
  have hupper := h.upper
  rw [uint32_putUint32]
  exact toNat_ofNat32 _ (by simp only [entrySize, entryFixedBytes]; omega)

theorem entry_length_ne_magic (h : entry.Sound H) : putUint32 (UInt32.ofNat (entrySize entry)) ≠ trailerMagic := by
  intro heq
  have hupper := h.upper
  have hlen := entry_length_field h
  rw [heq, uint32_trailerMagic] at hlen
  simp only [entrySize, entryFixedBytes] at hlen
  omega

theorem entrySize_in_range (h : entry.Sound H) :
    ¬ (entrySize entry < entryFixedBytes ∨ entrySize entry > entryFixedBytes + maxFrameBytes.toNat) := by
  have hupper := h.upper
  simp [entrySize, maxFrameBytes]
  omega

theorem isPartialTrailer_of_ne (remaining : Bytes) (hlen : 4 ≤ remaining.length)
    (hne : remaining.take 4 ≠ trailerMagic) : isPartialTrailer remaining = false := by
  unfold isPartialTrailer
  rw [if_neg (by simp; omega)]
  simp [hne]

theorem parseFront_encodeEntry (H : Hashes) (allowPartial : Bool) (entry : Entry) (rest : Bytes)
    (offset : Nat) (h : entry.Sound H) :
    parseFront H allowPartial (encodeEntry H entry ++ rest) offset =
      .ok (some ({ entry with offset := 0 }, entrySize entry)) := by
  have hfour := encodeEntry_take_four H entry rest
  have hne := entry_length_ne_magic h
  have hlen : (encodeEntry H entry ++ rest).length = entrySize entry + rest.length := by simp
  have hsize : 4 ≤ (encodeEntry H entry ++ rest).length := by
    rw [hlen]
    simp only [entrySize, entryFixedBytes]
    omega
  have htorn := isPartialTrailer_of_ne _ hsize (by rw [hfour]; exact hne)
  have hwhole : (encodeEntry H entry ++ rest).take (entrySize entry) = encodeEntry H entry :=
    List.take_left' (length_encodeEntry H entry)
  unfold parseFront
  simp only [hfour, hne, htorn, entry_length_field h, if_neg (entrySize_in_range h), hwhole,
    parseEntry_encodeEntry H entry h, and_false, if_false, Bool.false_eq_true,
    show ¬ (encodeEntry H entry ++ rest).length < 4 by omega,
    show ¬ (encodeEntry H entry ++ rest).length < entrySize entry by omega]

/-- A proper prefix of an entry is a torn tail. -/
theorem parseFront_torn_entry (H : Hashes) (entry : Entry) (k offset : Nat) (h : entry.Sound H)
    (hk : k < entrySize entry) :
    parseFront H true ((encodeEntry H entry).take k) offset = .ok none := by
  have hlen : ((encodeEntry H entry).take k).length = k := by
    rw [List.length_take, length_encodeEntry]
    omega
  by_cases hshort : k < 4
  · -- Too short for a length: a torn entry, or what could also be a torn trailer.
    unfold parseFront
    simp only [hlen, if_true, true_and,
      show ¬ (k = trailerBytes ∧ ((encodeEntry H entry).take k).take 4 = trailerMagic) by
        simp only [trailerBytes]; omega,
      show ¬ (4 ≤ k ∧ ((encodeEntry H entry).take k).take 4 = trailerMagic) by omega, hshort, if_false]
    split <;> rfl
  · have hfour : ((encodeEntry H entry).take k).take 4 = putUint32 (UInt32.ofNat (entrySize entry)) := by
      rw [List.take_take, Nat.min_eq_left (by omega)]
      simpa using encodeEntry_take_four H entry []
    have hne := entry_length_ne_magic h
    have htorn := isPartialTrailer_of_ne ((encodeEntry H entry).take k) (by omega)
      (by rw [hfour]; exact hne)
    unfold parseFront
    simp only [hlen, hfour, hne, htorn, entry_length_field h, if_neg (entrySize_in_range h), hshort, hk,
      and_false, if_false, if_true, Bool.false_eq_true]

theorem parseFront_torn_trailer (H : Hashes) (body : Bytes) (j offset : Nat) (hj : j < trailerBytes) :
    parseFront H true ((trailerMagic ++ body).take j) offset = .ok none := by
  have hlen : ((trailerMagic ++ body).take j).length ≤ j := List.length_take_le _ _
  have htorn : isPartialTrailer ((trailerMagic ++ body).take j) = true := by
    unfold isPartialTrailer
    rcases Nat.lt_or_ge j 4 with hshort | hlong
    · have hfront : (trailerMagic ++ body).take j = trailerMagic.take j :=
        List.take_append_of_le_length (by simp; omega)
      have hj' : (trailerMagic.take j).length = j := by simp; omega
      rw [hfront, hj', length_trailerMagic, if_pos hshort]
      simp
    · have hfour : ((trailerMagic ++ body).take j).take 4 = trailerMagic := by
        rw [List.take_take, Nat.min_eq_left hlong]
        exact List.take_left' length_trailerMagic
      rw [hfour, if_neg (by simp; omega)]
      simp
      omega
  unfold parseFront
  simp only [htorn, true_and, if_true]
  rw [if_neg (by omega)]

theorem parseFront_trailer (H : Hashes) (body : Bytes) (offset : Nat)
    (hlen : (trailerMagic ++ body).length = trailerBytes) :
    parseFront H true (trailerMagic ++ body) offset = .error .sealedTrailerAtEntryBoundary := by
  unfold parseFront
  have hfour : (trailerMagic ++ body).take 4 = trailerMagic := List.take_left' length_trailerMagic
  simp only [hlen, hfour, and_self, if_true]

/-! ## Chains -/

/-- The next sequence number, and the hash its entry must link to. -/
structure Position where
  next : UInt64
  last : Digest
deriving DecidableEq

namespace Position

def after (p : Position) (entry : Entry) : Position := ⟨p.next + 1, entry.entryHash⟩

def advance (p : Position) (entries : List Entry) : Position := entries.foldl after p

@[simp] theorem advance_nil (p : Position) : p.advance [] = p := rfl

@[simp] theorem advance_cons (p : Position) (entry : Entry) (entries : List Entry) :
    p.advance (entry :: entries) = (p.after entry).advance entries := rfl

theorem advance_append (p : Position) (entries more : List Entry) :
    p.advance (entries ++ more) = (p.advance entries).advance more := by
  simp [advance, List.foldl_append]

end Position

/-- The entries continue the chain at `p` and stand one after another from `offset`. -/
def Chained (H : Hashes) : Position → Nat → List Entry → Prop
  | _, _, [] => True
  | p, offset, entry :: entries =>
    entry.Sound H ∧ entry.sequence = p.next ∧ entry.previousEntryHash = p.last ∧ entry.offset = offset ∧
      Chained H (p.after entry) (offset + entrySize entry) entries

def entryEnd (entry : Entry) : Nat := entry.offset + entrySize entry

@[simp] theorem encodeEntries_nil (H : Hashes) : encodeEntries H [] = [] := rfl

@[simp] theorem encodeEntries_cons (H : Hashes) (entry : Entry) (entries : List Entry) :
    encodeEntries H (entry :: entries) = encodeEntry H entry ++ encodeEntries H entries := rfl

theorem encodeEntries_append (H : Hashes) (entries more : List Entry) :
    encodeEntries H (entries ++ more) = encodeEntries H entries ++ encodeEntries H more := by
  simp [encodeEntries]

theorem chained_append (H : Hashes) (p : Position) (offset : Nat) (entries more : List Entry) :
    Chained H p offset (entries ++ more) ↔
      Chained H p offset entries ∧
        Chained H (p.advance entries) (offset + (encodeEntries H entries).length) more := by
  induction entries generalizing p offset with
  | nil => simp [Chained]
  | cons entry entries ih =>
    simp only [List.cons_append, Chained, ih, Position.advance_cons, encodeEntries_cons,
      List.length_append, length_encodeEntry, Nat.add_assoc, and_assoc]

variable {entries : List Entry} {offset : Nat} {p : Position}

theorem entryEnd_of_chained
    (h : Chained H p offset entries) : ∀ entry ∈ entries, offset + entryFixedBytes ≤ entryEnd entry := by
  induction entries generalizing p offset with
  | nil => simp
  | cons first entries ih =>
    obtain ⟨_, _, _, hoffset, hrest⟩ := h
    intro entry hmem
    rcases List.mem_cons.mp hmem with rfl | hmem
    · simp only [entryEnd, hoffset, entrySize]
      omega
    · have := ih hrest entry hmem
      omega

/-- The offset after the last of the entries. -/
def lastEnd (offset : Nat) (entries : List Entry) : Nat := (entries.getLast?.map entryEnd).getD offset

theorem lastEnd_of_chained
    (h : Chained H p offset entries) : lastEnd offset entries = offset + (encodeEntries H entries).length := by
  induction entries generalizing p offset with
  | nil => simp [lastEnd]
  | cons entry entries ih =>
    obtain ⟨_, _, _, hoffset, hrest⟩ := h
    have hih := ih hrest
    cases entries with
    | nil => simp [lastEnd, entryEnd, hoffset]
    | cons next entries =>
      simp only [lastEnd, List.getLast?_cons_cons] at hih ⊢
      cases hlast : (next :: entries).getLast? with
      | none => simp at hlast
      | some last =>
        rw [hlast] at hih
        simp only [Option.map_some, Option.getD_some] at hih ⊢
        rw [hih, encodeEntries_cons H entry, List.length_append, length_encodeEntry]
        omega

/-! ## The loop -/

theorem parseEntriesLoop_nil (H : Hashes) (allowPartial : Bool) (offset : Nat) (sequence : UInt64)
    (previous : Option Digest) (acc : List Entry) :
    parseEntriesLoop H allowPartial [] offset sequence previous acc = .ok (acc, offset, false) := by
  rw [parseEntriesLoop, if_pos rfl]

variable {previous : Option Digest}

theorem parseEntriesLoop_torn {allowPartial : Bool} {remaining : Bytes}
    {sequence : UInt64} {acc : List Entry} (hne : remaining ≠ [])
    (h : parseFront H allowPartial remaining offset = .ok none) :
    parseEntriesLoop H allowPartial remaining offset sequence previous acc = .ok (acc, offset, true) := by
  rw [parseEntriesLoop, if_neg hne]
  split
  · simp_all
  · rfl
  · simp_all

theorem parseEntriesLoop_error {allowPartial : Bool} {remaining : Bytes}
    {sequence : UInt64} {acc : List Entry} {err : WalError}
    (hne : remaining ≠ []) (h : parseFront H allowPartial remaining offset = .error err) :
    parseEntriesLoop H allowPartial remaining offset sequence previous acc = .error err := by
  rw [parseEntriesLoop, if_neg hne]
  split <;> simp_all

/-- One round of the loop over an entry that continues the chain. -/
theorem parseEntriesLoop_entry (allowPartial : Bool) (rest : Bytes) (acc : List Entry)
    (hsound : entry.Sound H) (hseq : entry.sequence = p.next) (hlink : entry.previousEntryHash = p.last)
    (hoffset : entry.offset = offset) (hprev : previous = none ∨ previous = some p.last) :
    parseEntriesLoop H allowPartial (encodeEntry H entry ++ rest) offset p.next previous acc =
      parseEntriesLoop H allowPartial rest (offset + entrySize entry) (p.after entry).next
        (some (p.after entry).last) (acc ++ [entry]) := by
  have hne : encodeEntry H entry ++ rest ≠ [] := by
    intro hnil
    have hlen := congrArg List.length hnil
    have hpos := entrySize_pos entry
    simp at hlen
    omega
  have hfront := parseFront_encodeEntry H allowPartial entry rest offset hsound
  obtain ⟨next, last⟩ := p
  subst hseq hlink hoffset
  have hget : previous.getD entry.previousEntryHash = entry.previousEntryHash := by
    rcases hprev with rfl | rfl <;> rfl
  rw [parseEntriesLoop, if_neg hne]
  split
  · simp_all
  · simp_all
  · rename_i e n h
    rw [hfront] at h
    simp only [Except.ok.injEq, Option.some.injEq, Prod.mk.injEq] at h
    obtain ⟨rfl, rfl⟩ := h
    simp only [hget, ne_eq, not_true_eq_false, if_false]
    rw [List.drop_left' (length_encodeEntry H entry)]
    rfl

theorem parseEntriesLoop_chained (allowPartial : Bool) (rest : Bytes) (acc : List Entry)
    (h : Chained H p offset entries) (hprev : previous = none ∨ previous = some p.last) :
    ∃ previous', parseEntriesLoop H allowPartial (encodeEntries H entries ++ rest) offset p.next previous acc =
      parseEntriesLoop H allowPartial rest (lastEnd offset entries) (p.advance entries).next previous'
        (acc ++ entries) := by
  rw [lastEnd_of_chained h]
  induction entries generalizing p offset previous acc with
  | nil => exact ⟨previous, by simp⟩
  | cons entry entries ih =>
    obtain ⟨hsound, hseq, hlink, hoffset, hrest⟩ := h
    obtain ⟨previous', hloop⟩ := ih (acc ++ [entry]) hrest (.inr rfl)
    refine ⟨previous', ?_⟩
    rw [encodeEntries_cons, List.append_assoc,
      parseEntriesLoop_entry allowPartial _ acc hsound hseq hlink hoffset hprev, hloop]
    simp [Nat.add_assoc]

/-- The loop over the first `k` bytes of a chain: the entries that end within them. -/
theorem parseEntriesLoop_truncated (k : Nat) (acc : List Entry)
    (h : Chained H p offset entries) (hprev : previous = none ∨ previous = some p.last)
    (hk : k ≤ (encodeEntries H entries).length) :
    parseEntriesLoop H true ((encodeEntries H entries).take k) offset p.next previous acc =
      let whole := entries.filter fun entry => entryEnd entry ≤ offset + k
      .ok (acc ++ whole, lastEnd offset whole, decide (lastEnd offset whole < offset + k)) := by
  induction entries generalizing p offset previous acc k with
  | nil =>
    simp only [encodeEntries_nil, List.length_nil, Nat.le_zero] at hk
    subst hk
    simp [parseEntriesLoop_nil, lastEnd]
  | cons entry entries ih =>
    have hends := entryEnd_of_chained h
    obtain ⟨hsound, hseq, hlink, hoffset, hrest⟩ := h
    have hend : entryEnd entry = offset + entrySize entry := by rw [entryEnd, hoffset]
    rcases Nat.lt_or_ge k (entrySize entry) with hcut | hcut
    · -- The cut is inside this entry, and every later one ends behind it.
      have hwhole : (entry :: entries).filter (fun entry => entryEnd entry ≤ offset + k) = [] := by
        rw [List.filter_eq_nil_iff]
        intro e he
        rcases List.mem_cons.mp he with rfl | he
        · simp only [hend, decide_eq_true_eq]; omega
        · have := entryEnd_of_chained hrest e he
          simp only [decide_eq_true_eq]; omega
      have htake : (encodeEntries H (entry :: entries)).take k = (encodeEntry H entry).take k := by
        rw [encodeEntries_cons, List.take_append_of_le_length (by rw [length_encodeEntry]; omega)]
      simp only [hwhole, htake, lastEnd, List.getLast?_nil, Option.map_none, Option.getD_none, List.append_nil]
      rcases Nat.eq_zero_or_pos k with rfl | hpos
      · simp [parseEntriesLoop_nil]
      · have hne : (encodeEntry H entry).take k ≠ [] := by
          intro hnil
          have hlen := congrArg List.length hnil
          have hsize := entrySize_pos entry
          simp at hlen
          omega
        rw [parseEntriesLoop_torn hne (parseFront_torn_entry H entry k offset hsound hcut)]
        simp [hpos]
    · have htake : (encodeEntries H (entry :: entries)).take k =
          encodeEntry H entry ++ (encodeEntries H entries).take (k - entrySize entry) := by
        rw [encodeEntries_cons, List.take_append, List.take_of_length_le (by simpa using hcut),
          length_encodeEntry]
      have hk' : k - entrySize entry ≤ (encodeEntries H entries).length := by
        simp at hk
        omega
      have hsum : offset + entrySize entry + (k - entrySize entry) = offset + k := by omega
      rw [htake, parseEntriesLoop_entry true _ acc hsound hseq hlink hoffset hprev,
        ih (k - entrySize entry) (acc ++ [entry]) hrest (.inr rfl) hk', hsum]
      have hfirst : (entry :: entries).filter (fun entry => entryEnd entry ≤ offset + k) =
          entry :: entries.filter fun entry => entryEnd entry ≤ offset + k := by
        rw [List.filter_cons_of_pos (by simp only [hend, decide_eq_true_eq]; omega)]
      have hlast : ∀ l : List Entry, lastEnd (offset + entrySize entry) l = lastEnd offset (entry :: l) := by
        intro l
        cases l with
        | nil => simp [lastEnd, hend]
        | cons a l => simp [lastEnd, List.getLast?_eq_some_getLast]
      simp only [hfirst, hlast, List.append_assoc, List.singleton_append]

/-! ## The header -/

/-- A gateway id that `NewStore` accepts. -/
structure ValidID (gatewayID : Bytes) : Prop where
  nonempty : gatewayID ≠ []
  utf8 : utf8Valid gatewayID = true
  short : gatewayID.length ≤ 255

@[simp] theorem length_fileMagic : fileMagic.length = 4 := by decide

@[simp] theorem length_encodeHeader (gatewayID : Bytes) (start : UInt64) (created : Int64) :
    (encodeHeader gatewayID start created).length = 30 + gatewayID.length := by
  simp [encodeHeader]
  omega

theorem encodeHeader_fields (gatewayID : Bytes) (start : UInt64) (created : Int64) (rest : Bytes) :
    let data := encodeHeader gatewayID start created ++ rest
    slice data 0 4 = fileMagic ∧ slice data 4 6 = putUint16 walSchemaVersion ∧
      slice data 6 8 = putUint16 (UInt16.ofNat (30 + gatewayID.length)) ∧
      slice data 8 16 = putUint64 start ∧ slice data 24 28 = putUint32 0 ∧
      slice data 28 30 = putUint16 (UInt16.ofNat gatewayID.length) ∧
      slice data 30 (30 + gatewayID.length) = gatewayID := by
  refine ⟨?_, ?_, ?_, ?_, ?_, ?_, ?_⟩ <;>
    simp (disch := simp) only [encodeHeader, List.append_assoc, slice_skip, slice_here, length_fileMagic,
      length_putUint16, length_putUint32, length_putUint64, length_putInt64, Nat.reduceSub,
      Nat.sub_sub, Nat.reduceAdd, Nat.add_sub_cancel_left]

theorem parseHeader_encodeHeader {gatewayID : Bytes} (hid : ValidID gatewayID) (start : UInt64)
    (created : Int64) (rest expected : Bytes) (hstart : start ≠ 0)
    (hexpected : expected = [] ∨ expected = gatewayID) :
    parseHeader (encodeHeader gatewayID start created ++ rest) expected =
      .ok ⟨30 + gatewayID.length, start, gatewayID⟩ := by
  obtain ⟨hne, hutf8, hshort⟩ := hid
  have hpos := List.length_pos_of_ne_nil hne
  obtain ⟨h0, h4, h6, h8, h24, h28, h30⟩ := encodeHeader_fields gatewayID start created rest
  have hlen : (UInt16.ofNat (30 + gatewayID.length)).toNat = 30 + gatewayID.length := by
    rw [UInt16.toNat_ofNat']
    omega
  have hidlen : (UInt16.ofNat gatewayID.length).toNat = gatewayID.length := by
    rw [UInt16.toNat_ofNat']
    omega
  have hdata : (encodeHeader gatewayID start created ++ rest).length =
      30 + gatewayID.length + rest.length := by simp
  have hmatch : ¬ (expected ≠ [] ∧ gatewayID ≠ expected) := by
    rintro ⟨h1, h2⟩
    rcases hexpected with rfl | rfl
    · exact h1 rfl
    · exact h2 rfl
  unfold parseHeader
  simp only [h0, h4, h6, h8, h24, h28, uint16_putUint16, uint32_putUint32, uint64_putUint64, hlen, hidlen,
    h30, hdata, if_neg hmatch, hutf8, hstart, ne_eq, not_true_eq_false, or_false, false_or, if_false,
    Bool.not_true, Bool.false_eq_true]
  rw [if_neg (by omega), if_neg (by omega)]

theorem encodeHeader_getElem? (gatewayID : Bytes) (start : UInt64) (created created' : Int64) (i : Nat)
    (hi : i < 16 ∨ 24 ≤ i) :
    (encodeHeader gatewayID start created)[i]? = (encodeHeader gatewayID start created')[i]? := by
  have hsplit : ∀ time : Int64, encodeHeader gatewayID start time =
      (fileMagic ++ putUint16 walSchemaVersion ++ putUint16 (UInt16.ofNat (30 + gatewayID.length)) ++
        putUint64 start) ++ (putInt64 time ++ (putUint32 0 ++
          (putUint16 (UInt16.ofNat gatewayID.length) ++ gatewayID))) := by
    intro time
    simp [encodeHeader]
  rw [hsplit, hsplit]
  exact getElem?_outside _ _ _ _ i (by simp) (by simp; omega)

theorem matchesIncompleteHeader_take (gatewayID : Bytes) (start : UInt64) (created : Int64) (k : Nat) :
    matchesIncompleteHeader ((encodeHeader gatewayID start created).take k) gatewayID start = true := by
  unfold matchesIncompleteHeader
  simp only [List.all_eq_true, List.mem_range]
  intro i hi
  by_cases htime : 16 ≤ i ∧ i < 24
  · simp [htime]
  · have hik : i < k := by
      rw [List.length_take] at hi
      omega
    have heq := encodeHeader_getElem? gatewayID start created 0 i (by omega)
    simp [hik, heq]

end TickPlatform.Wal
