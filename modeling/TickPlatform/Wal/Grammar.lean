import TickPlatform.Wal.Log

/-!
# The grammar of a sealed segment

Verification accepts the bytes of a header, a chain of entries and the trailer over them, and nothing else.
-/

namespace TickPlatform.Wal

open Bytes Protocol

/-! ## The header -/

theorem putInt64_uint64 {b : Bytes} (h : b.length = 8) : putInt64 (uint64 b).toInt64 = b := by
  rw [putInt64, UInt64.toUInt64_toInt64]
  exact putUint64_uint64 h

/-- A header that parses was written by `writeHeader`, at some time. -/
theorem parseHeader_eq_ok {data : Bytes} {header : WalHeader} (h : parseHeader data [] = .ok header) :
    ValidID header.gatewayID ∧ header.startSequence ≠ 0 ∧ header.length = 30 + header.gatewayID.length ∧
      ∃ created, data = encodeHeader header.gatewayID header.startSequence created ++ data.drop header.length := by
  unfold parseHeader at h
  extract_lets headerLength idLength gatewayID startSequence at h
  simp only [ite_error_eq_ok] at h
  obtain ⟨hmagic, hschema, hlength, hflags, hutf8, -, hstart, h⟩ := h
  cases h
  show ValidID gatewayID ∧ startSequence ≠ 0 ∧ headerLength = 30 + gatewayID.length ∧
    ∃ created, data = encodeHeader gatewayID startSequence created ++ data.drop headerLength
  simp only [not_or, not_lt, not_not, Bool.not_eq_true, Bool.not_eq_false'] at hmagic hschema hlength hflags hutf8
  obtain ⟨hsize, hmagic⟩ := hmagic
  obtain ⟨hlen, hfits, hid, hshort⟩ := hlength
  have hgateway : gatewayID.length = idLength := by
    rw [length_slice _ _ _ hfits, hlen, Nat.add_sub_cancel_left]
  have hfield : ∀ lo hi, hi ≤ 30 → (slice data lo hi).length = hi - lo := fun lo hi hhi =>
    length_slice data lo hi (by omega)
  have hlenField : putUint16 (UInt16.ofNat (30 + gatewayID.length)) = slice data 6 8 := by
    rw [hgateway, ← hlen, UInt16.ofNat_toNat, putUint16_uint16 (hfield 6 8 (by omega))]
  have hidField : putUint16 (UInt16.ofNat gatewayID.length) = slice data 28 30 := by
    rw [hgateway, UInt16.ofNat_toNat, putUint16_uint16 (hfield 28 30 (by omega))]
  refine ⟨⟨?_, hutf8, by omega⟩, hstart, by omega, (uint64 (slice data 16 24)).toInt64, ?_⟩
  · intro hnil
    apply hid
    rw [← hgateway, hnil, List.length_nil]
  · rw [encodeHeader, hlenField, hidField, ← hmagic, ← hschema, ← hflags, putUint16_uint16 (hfield 4 6 (by omega)),
      putUint64_uint64 (hfield 8 16 (by omega)), putInt64_uint64 (hfield 16 24 (by omega)),
      putUint32_uint32 (hfield 24 28 (by omega))]
    iterate 7 rw [← slice_split data (by omega) (by omega)]
    simp [slice]

/-! ## One entry -/

variable {H : Hashes}

theorem frame_length_of_decodes {raw : Bytes} {batch : BatchFrameV1} (h : decodeBatchFrame H raw = .ok batch) :
    20 ≤ raw.length ∧ raw.length ≤ 1048576 := by
  unfold decodeBatchFrame at h
  cases hframe : decodeFrame H raw with
  | error err => simp [hframe] at h
  | ok frame =>
    unfold decodeFrame at hframe
    extract_lets size frameLength version messageType want got wantHex gotHex at hframe
    simp only [ite_error_eq_ok] at hframe
    obtain ⟨-, hupper, hlower, -, hsize, -⟩ := hframe
    rw [not_not] at hsize
    rw [gt_iff_lt, UInt32.not_lt, UInt32.le_iff_toNat_le, ← hsize] at hupper
    rw [UInt32.not_lt, UInt32.le_iff_toNat_le, ← hsize] at hlower
    exact ⟨hlower, hupper⟩

theorem Entry.sound_of_decodes {entry : Entry} {batch : BatchFrameV1}
    (hbatchHash : entry.batchHash = gatewayBatchSHA256 H entry.frame)
    (hentryHash : entry.entryHash = walEntryHash H entry.sequence entry.previousEntryHash entry.receiveWallS
      entry.receiveMonotonicUS entry.batchHash entry.frame)
    (hdecodes : decodeBatchFrame H entry.frame = .ok batch) : entry.Sound H :=
  ⟨hbatchHash, hentryHash, ⟨batch, hdecodes⟩, (frame_length_of_decodes hdecodes).1, (frame_length_of_decodes hdecodes).2⟩

/-- An entry that parses was written by `Append`. -/
theorem parseEntry_eq_ok {raw : Bytes} {entry : Entry} (h : parseEntry H raw = .ok entry) :
    entry.Sound H ∧ raw = encodeEntry H entry := by
  unfold parseEntry at h
  extract_lets size frameLength frameEnd frame previous batchHash entryHash sequence receiveWallS receiveMonotonicUS at h
  simp only [ite_error_eq_ok] at h
  obtain ⟨hsize, hlength, hversion, hframeLength, h⟩ := h
  cases hdecode : decodeBatchFrame H frame with
  | error err => simp [hdecode] at h
  | ok batch =>
    rw [hdecode] at h
    simp only [ite_error_eq_ok] at h
    obtain ⟨hmarker, hcrc, hbatchHash, hentryHash, h⟩ := h
    cases h
    simp only [not_or, not_lt, not_not, gt_iff_lt] at hsize hlength hversion hframeLength hmarker hcrc hbatchHash hentryHash
    obtain ⟨-, -, hexact⟩ := hframeLength
    have hraw : raw.length = 140 + frameLength := hexact
    have hframe : frame.length = frameLength := by
      rw [length_slice _ _ _ (by omega)]
      omega
    have hfield : ∀ lo hi, hi ≤ raw.length → (slice raw lo hi).length = hi - lo := fun lo hi hhi =>
      length_slice raw lo hi hhi
    refine ⟨Entry.sound_of_decodes hbatchHash hentryHash hdecode, ?_⟩
    let entry : Entry :=
      { offset := 0, sequence, receiveWallS, receiveMonotonicUS, previousEntryHash := previous, frame, batchHash, entryHash }
    have hbody : entryBody entry = slice raw 0 (size - 4) := by
      have hentryLength : putUint32 (UInt32.ofNat (entryFixedBytes + frame.length)) = slice raw 0 4 := by
        rw [hframe, ← hexact, ← hlength, UInt32.ofNat_toNat, putUint32_uint32 (hfield 0 4 (by omega))]
      have hlengthField : putUint32 (UInt32.ofNat frame.length) = slice raw 64 68 := by
        rw [hframe, UInt32.ofNat_toNat, putUint32_uint32 (hfield 64 68 (by omega))]
      show putUint32 (UInt32.ofNat (entryFixedBytes + frame.length)) ++ (putUint16 entryVersion ++ (putUint16 0 ++
        (putUint64 sequence ++ (putInt64 receiveWallS ++ (putUint64 receiveMonotonicUS ++ (previous.bytes ++
          (putUint32 (UInt32.ofNat frame.length) ++ (frame ++ (batchHash.bytes ++ (entryHash.bytes ++
            putUint32 commitMarker)))))))))) = slice raw 0 (size - 4)
      rw [hentryLength, hlengthField, ← hversion.1, ← hversion.2, ← hmarker,
        putUint16_uint16 (hfield 4 6 (by omega)), putUint16_uint16 (hfield 6 8 (by omega)),
        putUint64_uint64 (hfield 8 16 (by omega)), putInt64_uint64 (hfield 16 24 (by omega)),
        putUint64_uint64 (hfield 24 32 (by omega)), Digest.bytes_ofBytes (hfield 32 64 (by omega)),
        Digest.bytes_ofBytes (by rw [hfield _ _ (by omega)]; omega),
        Digest.bytes_ofBytes (by rw [hfield _ _ (by omega)]; omega),
        putUint32_uint32 (by rw [hfield _ _ (by omega)]; omega)]
      rw [show size - 4 = frameEnd + 68 by omega]
      have hframeField : frame = slice raw 68 frameEnd := rfl
      rw [hframeField]
      iterate 11 rw [← slice_split raw (by omega) (by omega)]
    rw [encodeEntry, hbody, ← hcrc, putUint32_uint32 (by rw [hfield _ _ (Nat.le_refl _)]; omega),
      ← slice_split raw (by omega) (by omega), slice_all raw _ rfl]

theorem parseFront_eq_ok {remaining : Bytes} {offset : Nat} {front : Option (Entry × Nat)}
    (h : parseFront H false remaining offset = .ok front) :
    ∃ entry, front = some (entry, entrySize entry) ∧ entry.Sound H ∧
      remaining = encodeEntry H entry ++ remaining.drop (entrySize entry) := by
  unfold parseFront at h
  extract_lets entryLength at h
  simp only [Bool.false_eq_true, false_and, if_false] at h
  simp only [ite_error_eq_ok] at h
  obtain ⟨-, -, -, hfits, h⟩ := h
  cases hparse : parseEntry H (remaining.take entryLength) with
  | error err => simp [hparse] at h
  | ok entry =>
    rw [hparse] at h
    cases h
    obtain ⟨hsound, htake⟩ := parseEntry_eq_ok hparse
    have hsize : entryLength = entrySize entry := by
      have hlength := congrArg List.length htake
      rw [List.length_take, length_encodeEntry] at hlength
      omega
    refine ⟨entry, by rw [hsize], hsound, ?_⟩
    rw [← htake, ← hsize, List.take_append_drop]

/-! ## The loop -/

/-- What the loop takes is the encoding of a chain. The first entry may name any hash where none is known. -/
theorem parseEntriesLoop_eq_ok {remaining : Bytes} {offset stop : Nat} {sequence : UInt64}
    {previous : Option Digest} {acc result : List Entry} {torn : Bool}
    (h : parseEntriesLoop H false remaining offset sequence previous acc = .ok (result, stop, torn)) :
    torn = false ∧ stop = offset + remaining.length ∧
      ∃ entries last, result = acc ++ entries ∧ remaining = encodeEntries H entries ∧
        Chained H ⟨sequence, last⟩ offset entries ∧ previous.getD last = last := by
  generalize hsize : remaining.length = size
  induction size using Nat.strongRecOn generalizing remaining offset sequence previous acc with
  | ind size ih =>
    rw [parseEntriesLoop] at h
    split at h
    · rename_i hnil
      cases h
      subst hnil
      refine ⟨rfl, by rw [← hsize]; rfl, [], previous.getD Digest.zero, by simp, rfl, trivial, ?_⟩
      cases previous <;> rfl
    · split at h
      · cases h
      · rename_i hnone
        obtain ⟨entry, hfront, -⟩ := parseFront_eq_ok hnone
        cases hfront
      · rename_i entry length hsome
        obtain ⟨entry', hfront, hsound, hremaining⟩ := parseFront_eq_ok hsome
        cases hfront
        obtain ⟨hsequence, h⟩ := ite_error_eq_ok.mp h
        obtain ⟨hprevious, h⟩ := ite_error_eq_ok.mp h
        rw [not_not] at hsequence hprevious
        have hlength : size = entrySize entry + (remaining.drop (entrySize entry)).length := by
          rw [← hsize, ← length_encodeEntry H entry, ← List.length_append, length_encodeEntry, ← hremaining]
        have hpos := entrySize_pos entry
        obtain ⟨htorn, hstop, entries, last, hresult, hrest, hchained, hlast⟩ := ih _ (by omega) h rfl
        simp only [Option.getD_some] at hlast
        subst hlast
        have hmoved : Entry.Sound H { entry with offset := offset } :=
          ⟨hsound.batchHash, hsound.entryHash, hsound.decodes, hsound.lower, hsound.upper⟩
        refine ⟨htorn, by omega, { entry with offset := offset } :: entries, entry.previousEntryHash, ?_, ?_, ?_,
          hprevious.symm⟩
        · rw [hresult, List.append_assoc, List.singleton_append]
        · rw [hremaining, hrest]
          rfl
        · exact ⟨hmoved, hsequence, rfl, rfl, hchained⟩

/-! ## Sealed segments -/

/-- A header of `gatewayID` for the start at `p`, and a non-empty chain of entries from there that neither the trailer's
count nor the sequence numbers wrap on. -/
structure SealedForm (H : Hashes) (gatewayID : Bytes) (p : Position) (seg : SegmentData) : Prop
    extends Countable H gatewayID p seg where
  id : ValidID gatewayID
  noWrap : p.next.toNat + seg.entries.length ≤ 18446744073709551616

variable {p : Position} {seg : SegmentData}

theorem SealedForm.lastSequence_toNat {gatewayID : Bytes}
    (h : SealedForm H gatewayID p seg) : (lastSequence p seg).toNat = p.next.toNat + seg.entries.length - 1 := by
  have hpos := List.length_pos_of_ne_nil h.nonempty
  have hwrap := h.noWrap
  have hcount := h.count
  rw [lastSequence, advance_next, UInt64.toNat_sub, UInt64.toNat_add, UInt64.toNat_ofNat']
  simp
  omega

theorem SealedForm.verifies {gatewayID : Bytes} (h : SealedForm H gatewayID p seg) (path : String) :
    verifySealedBytes H path (sealedBytes H gatewayID p seg) = .ok (verified H gatewayID path p seg) := by
  have hpos := List.length_pos_of_ne_nil h.nonempty
  have hwrap := h.noWrap
  have hcount := h.count
  have hlast := h.lastSequence_toNat
  have hle : ¬ lastSequence p seg < p.next := by
    rw [UInt64.lt_iff_toNat_lt]
    omega
  have hspan : lastSequence p seg - p.next + 1 = (UInt32.ofNat seg.entries.length).toUInt64 := by
    rw [← UInt64.toNat_inj, UInt64.toNat_add, UInt64.toNat_sub_of_le _ _ (UInt64.not_lt.mp hle), hlast,
      UInt32.toNat_toUInt64, toNat_ofNat32 _ h.count]
    simp
    omega
  rw [verifySealedBytes_eq h.id h.toCountable, if_neg hle, if_neg (not_not_intro hspan)]

/-- A trailer is its fields and the checksum over them. -/
theorem trailer_eq {trailer : Bytes} (hlength : trailer.length = 96) (hmagic : trailer.take 4 = trailerMagic)
    (hversion : uint16 (slice trailer 4 6) = trailerVersion)
    (hsize : uint16 (slice trailer 6 8) = UInt16.ofNat trailerBytes)
    (hcrc : uint32 (slice trailer 92 96) = H.crc32c (trailer.take 92)) :
    trailer = encodeTrailer H (uint64 (slice trailer 8 16)) (uint64 (slice trailer 16 24)) (uint32 (slice trailer 24 28))
      (Digest.ofBytes (slice trailer 28 60)) (Digest.ofBytes (slice trailer 60 92)) := by
  have hfield : ∀ lo hi, hi ≤ 96 → (slice trailer lo hi).length = hi - lo := fun lo hi hhi =>
    length_slice trailer lo hi (by omega)
  have hbody : trailerBody (uint64 (slice trailer 8 16)) (uint64 (slice trailer 16 24)) (uint32 (slice trailer 24 28))
      (Digest.ofBytes (slice trailer 28 60)) (Digest.ofBytes (slice trailer 60 92)) = slice trailer 0 92 := by
    have hfront : trailerMagic = slice trailer 0 4 := hmagic.symm
    rw [trailerBody, hfront, ← hversion, ← hsize, putUint16_uint16 (hfield 4 6 (by omega)),
      putUint16_uint16 (hfield 6 8 (by omega)), putUint64_uint64 (hfield 8 16 (by omega)),
      putUint64_uint64 (hfield 16 24 (by omega)), putUint32_uint32 (hfield 24 28 (by omega)),
      Digest.bytes_ofBytes (hfield 28 60 (by omega)), Digest.bytes_ofBytes (hfield 60 92 (by omega))]
    iterate 7 rw [← slice_split trailer (by omega) (by omega)]
  have hsum : H.crc32c (slice trailer 0 92) = uint32 (slice trailer 92 96) := hcrc.symm
  rw [encodeTrailer, hbody, hsum, putUint32_uint32 (hfield 92 96 (by omega)),
    ← slice_split trailer (by omega) (by omega), slice_all trailer 96 hlength]

theorem noWrap_of_range (hpos : 0 < seg.entries.length)
    (hcount : seg.entries.length < 4294967296) (hle : p.next ≤ lastSequence p seg) :
    p.next.toNat + seg.entries.length ≤ 18446744073709551616 := by
  have hstart := p.next.toNat_lt
  rw [UInt64.le_iff_toNat_le, lastSequence, advance_next, UInt64.toNat_sub, UInt64.toNat_add,
    UInt64.toNat_ofNat'] at hle
  simp at hle
  omega

theorem exists_sealedForm {path : String} {data : Bytes} {segment : VerifiedSegment}
    (h : verifySealedBytes H path data = .ok segment) :
    ∃ gatewayID p seg, SealedForm H gatewayID p seg ∧ data = sealedBytes H gatewayID p seg ∧
      segment = verified H gatewayID path p seg := by
  have haccepted := h
  unfold verifySealedBytes at h
  extract_lets trailerOffset trailer front firstSequence finalSequence entryCount chainRoot trailerFileHash at h
  simp only [ite_error_eq_ok] at h
  obtain ⟨hlength, hmagic, hversion, hcrc, h⟩ := h
  obtain ⟨header, hheader, h⟩ := bind_eq_ok.mp h
  obtain ⟨⟨entries, entriesEnd, torn⟩, hentries, h⟩ := bind_eq_ok.mp h
  simp only [not_or, not_not, not_lt] at hlength hmagic hversion hcrc
  obtain ⟨hid, hstart, hheaderLength, created, hfront⟩ := parseHeader_eq_ok hheader
  obtain ⟨-, -, entries', last, hresult, hregion, hchained, -⟩ := parseEntriesLoop_eq_ok hentries
  rw [List.nil_append] at hresult
  subst hresult
  dsimp only at h
  split at h
  · rename_i first final hfirst hfinal
    simp only [ite_error_eq_ok] at h
    obtain ⟨-, hfirstSequence, hrange, hlastSequence, hcounts, hroot, hfileHash, -⟩ := h
    simp only [not_or, not_not] at hfirstSequence hlastSequence hcounts hroot hfileHash
    let p : Position := ⟨header.startSequence, last⟩
    let seg : SegmentData := ⟨created, entries⟩
    have hcount : entries.length < 4294967296 := by
      rw [← hcounts.2]
      exact entryCount.toNat_lt
    have hcountable : Countable H header.gatewayID p seg :=
      ⟨List.ne_nil_of_mem (List.mem_of_getLast? hfinal), hheaderLength ▸ hchained, hstart, hcount⟩
    have hlast : lastSequence p seg = finalSequence := by
      have hnext := chained_last hchained hfinal
      rw [hlastSequence, lastSequence, ← hnext]
      simp
    have hnext : p.next = firstSequence := hfirstSequence.1.symm
    have hform : SealedForm H header.gatewayID p seg := by
      refine ⟨hcountable, hid, noWrap_of_range (List.length_pos_of_ne_nil hcountable.nonempty) hcount ?_⟩
      rw [hlast, hnext]
      exact UInt64.not_lt.mp hrange
    have hopen : openBytes H header.gatewayID p seg = front := by
      rw [hfront, openBytes, hregion]
    have htrailer : trailer = trailerOf H header.gatewayID p seg := by
      have htrailerLength : trailer.length = 96 := by
        simp only [trailer, trailerOffset, List.length_drop, trailerBytes] at hlength ⊢
        omega
      have hfields : trailer = encodeTrailer H firstSequence finalSequence entryCount chainRoot trailerFileHash :=
        trailer_eq htrailerLength hmagic hversion.1 hversion.2 hcrc
      have hseg : seg.entries.length = entryCount.toNat := hcounts.2.symm
      rw [trailerOf, hopen, hlast, hseg, UInt32.ofNat_toNat, advance_last hfinal, ← hroot, ← hfileHash, hnext]
      exact hfields
    have hdata : data = sealedBytes H header.gatewayID p seg := by
      rw [sealedBytes, hopen, ← htrailer, List.take_append_drop]
    refine ⟨header.gatewayID, p, seg, hform, hdata, ?_⟩
    have hverifies := hform.verifies path
    rw [← hdata, haccepted] at hverifies
    exact Except.ok.inj hverifies
  · cases h

/-- **The grammar of sealed segments.** Verification accepts just the bytes of this form, and returns what they were
made of. -/
theorem verifySealedBytes_grammar (H : Hashes) (path : String) (data : Bytes) (segment : VerifiedSegment) :
    verifySealedBytes H path data = .ok segment ↔
      ∃ gatewayID p seg, SealedForm H gatewayID p seg ∧ data = sealedBytes H gatewayID p seg ∧
        segment = verified H gatewayID path p seg := by
  constructor
  · exact exists_sealedForm
  · rintro ⟨gatewayID, p, seg, hform, rfl, rfl⟩
    exact hform.verifies path

end TickPlatform.Wal
