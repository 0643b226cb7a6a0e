import TickPlatform.Except
import TickPlatform.Protocol.Spec

/-!
# The WAL segment format

A segment is a header, entries that form a hash chain, and, once sealed, a trailer.
-/

namespace TickPlatform.Wal

open Bytes Protocol

def walSchemaVersion : UInt16 := 1
def entryVersion : UInt16 := 1
def entryFixedBytes : Nat := 140
def commitMarker : UInt32 := 0x434F4D4D
def fileMagic : Bytes := ascii "TWAL"
def trailerMagic : Bytes := ascii "TWTR"
def trailerVersion : UInt16 := 1
def trailerBytes : Nat := 96

inductive WalError
  /-- `ErrIntegrity` and its text. -/
  | integrity (detail : String)
  /-- `ErrUnavailable`. -/
  | unavailable (detail : String)
  /-- `ErrEmptySegment`. -/
  | emptySegment
  /-- `errSealedTrailerAtEntryBoundary`. -/
  | sealedTrailerAtEntryBoundary
  | frame (err : BatchError)
  | other (detail : String)
deriving DecidableEq, Repr

structure Entry where
  offset : Nat
  sequence : UInt64
  receiveWallS : Int64
  receiveMonotonicUS : UInt64
  previousEntryHash : Digest
  frame : Bytes
  batchHash : Digest
  entryHash : Digest
deriving DecidableEq

/-! ## Writing -/

/-- The header `writeHeader` writes for a segment that starts at `start`. -/
def encodeHeader (gatewayID : Bytes) (start : UInt64) (createdWallS : Int64) : Bytes :=
  fileMagic ++ (putUint16 walSchemaVersion ++ (putUint16 (UInt16.ofNat (30 + gatewayID.length)) ++
    (putUint64 start ++ (putInt64 createdWallS ++ (putUint32 0 ++
      (putUint16 (UInt16.ofNat gatewayID.length) ++ gatewayID))))))

/-- An entry up to its checksum. -/
def entryBody (entry : Entry) : Bytes :=
  putUint32 (UInt32.ofNat (entryFixedBytes + entry.frame.length)) ++ (putUint16 entryVersion ++
    (putUint16 0 ++ (putUint64 entry.sequence ++ (putInt64 entry.receiveWallS ++
      (putUint64 entry.receiveMonotonicUS ++ (entry.previousEntryHash.bytes ++
        (putUint32 (UInt32.ofNat entry.frame.length) ++ (entry.frame ++
          (entry.batchHash.bytes ++ (entry.entryHash.bytes ++ putUint32 commitMarker))))))))))

def encodeEntry (H : Hashes) (entry : Entry) : Bytes :=
  entryBody entry ++ putUint32 (H.crc32c (entryBody entry))

def encodeEntries (H : Hashes) (entries : List Entry) : Bytes := entries.flatMap (encodeEntry H)

/-- The entry `Append` builds for a frame at the end of a chain. -/
def makeEntry (H : Hashes) (offset : Nat) (sequence : UInt64) (previous : Digest) (frame : Bytes)
    (receiveWallS : Int64) (receiveMonotonicUS : UInt64) : Entry :=
  let batchHash := gatewayBatchSHA256 H frame
  { offset, sequence, receiveWallS, receiveMonotonicUS, previousEntryHash := previous, frame, batchHash,
    entryHash := walEntryHash H sequence previous receiveWallS receiveMonotonicUS batchHash frame }

def trailerBody (firstSequence lastSequence : UInt64) (entryCount : UInt32) (chainRoot fileHash : Digest) :
    Bytes :=
  trailerMagic ++ (putUint16 trailerVersion ++ (putUint16 (UInt16.ofNat trailerBytes) ++
    (putUint64 firstSequence ++ (putUint64 lastSequence ++ (putUint32 entryCount ++
      (chainRoot.bytes ++ fileHash.bytes))))))

def encodeTrailer (H : Hashes) (firstSequence lastSequence : UInt64) (entryCount : UInt32)
    (chainRoot fileHash : Digest) : Bytes :=
  let body := trailerBody firstSequence lastSequence entryCount chainRoot fileHash
  body ++ putUint32 (H.crc32c body)

/-! ## Reading -/

structure WalHeader where
  length : Nat
  startSequence : UInt64
  gatewayID : Bytes
deriving DecidableEq

/-- An empty expected id accepts every id. -/
def parseHeader (data expectedGatewayID : Bytes) : Except WalError WalHeader :=
  let headerLength := (uint16 (slice data 6 8)).toNat
  let idLength := (uint16 (slice data 28 30)).toNat
  let gatewayID := slice data 30 headerLength
  let startSequence := uint64 (slice data 8 16)
  if data.length < 30 ∨ slice data 0 4 ≠ fileMagic then
    .error (.integrity "invalid WAL header")
  else if uint16 (slice data 4 6) ≠ walSchemaVersion then
    .error (.integrity "unsupported WAL schema")
  else if headerLength ≠ 30 + idLength ∨ headerLength > data.length ∨ idLength = 0 ∨ idLength > 255 then
    .error (.integrity "invalid WAL header length")
  else if uint32 (slice data 24 28) ≠ 0 then
    .error (.integrity "unsupported WAL header flags")
  else if !utf8Valid gatewayID then
    .error (.integrity "WAL gateway identity is not UTF-8")
  else if expectedGatewayID ≠ [] ∧ gatewayID ≠ expectedGatewayID then
    .error (.integrity "WAL gateway identity mismatch")
  else if startSequence = 0 then
    .error (.integrity "invalid WAL segment start sequence")
  else
    .ok { length := headerLength, startSequence, gatewayID }

def batchErrorText : BatchError → String
  | .frame err => "invalid batch frame: " ++ err.text
  | .message err => "invalid batch message: " ++ err.text
  | .notBatch => "WAL frame is not BatchFrameV1"

/-- The offset of a parsed entry is filled in by the caller. -/
def parseEntry (H : Hashes) (raw : Bytes) : Except String Entry :=
  let size := raw.length
  let frameLength := (uint32 (slice raw 64 68)).toNat
  let frameEnd := 68 + frameLength
  let frame := slice raw 68 frameEnd
  let previous := Digest.ofBytes (slice raw 32 64)
  let batchHash := Digest.ofBytes (slice raw frameEnd (frameEnd + 32))
  let entryHash := Digest.ofBytes (slice raw (frameEnd + 32) (frameEnd + 64))
  let sequence := uint64 (slice raw 8 16)
  let receiveWallS := (uint64 (slice raw 16 24)).toInt64
  let receiveMonotonicUS := uint64 (slice raw 24 32)
  if size < entryFixedBytes then
    .error "entry is shorter than fixed layout"
  else if (uint32 (slice raw 0 4)).toNat ≠ size then
    .error "entry length mismatch"
  else if uint16 (slice raw 4 6) ≠ entryVersion ∨ uint16 (slice raw 6 8) ≠ 0 then
    .error "unsupported entry version or flags"
  else if frameLength < minFrameBytes.toNat ∨ frameLength > maxFrameBytes.toNat ∨
      size ≠ entryFixedBytes + frameLength then
    .error "invalid batch frame length"
  else
    match decodeBatchFrame H frame with
    | .error err => .error (batchErrorText err)
    | .ok _ =>
      if uint32 (slice raw (frameEnd + 64) (frameEnd + 68)) ≠ commitMarker then
        .error "missing WAL commit marker"
      else if uint32 (slice raw (size - 4) size) ≠ H.crc32c (slice raw 0 (size - 4)) then
        .error "WAL entry CRC mismatch"
      else if batchHash ≠ gatewayBatchSHA256 H frame then
        .error "WAL batch hash mismatch"
      else if entryHash ≠
          walEntryHash H sequence previous receiveWallS receiveMonotonicUS batchHash frame then
        .error "WAL entry hash mismatch"
      else
        .ok { offset := 0, sequence, receiveWallS, receiveMonotonicUS, previousEntryHash := previous, frame,
              batchHash, entryHash }

/-- A torn trailer: a proper prefix of the magic, or the magic and too few bytes. -/
def isPartialTrailer (remaining : Bytes) : Bool :=
  if remaining.length < trailerMagic.length then
    remaining = trailerMagic.take remaining.length
  else
    remaining.take 4 = trailerMagic && remaining.length < trailerBytes

/-- The front of one round of `parseEntries`, on what remains at `offset`: an entry and its length,
`none` for a torn tail. -/
def parseFront (H : Hashes) (allowPartial : Bool) (remaining : Bytes) (offset : Nat) :
    Except WalError (Option (Entry × Nat)) :=
  let entryLength := (uint32 (remaining.take 4)).toNat
  if allowPartial ∧ remaining.length = trailerBytes ∧ remaining.take 4 = trailerMagic then
    .error .sealedTrailerAtEntryBoundary
  else if allowPartial ∧ isPartialTrailer remaining then
    .ok none
  else if 4 ≤ remaining.length ∧ remaining.take 4 = trailerMagic then
    .error (.integrity "unexpected or invalid WAL trailer")
  else if remaining.length < 4 then
    if allowPartial then .ok none else .error (.integrity "incomplete WAL entry length")
  else if entryLength < entryFixedBytes ∨ entryLength > entryFixedBytes + maxFrameBytes.toNat then
    .error (.integrity s!"invalid entry length at offset {offset}")
  else if remaining.length < entryLength then
    if allowPartial then .ok none else .error (.integrity s!"incomplete WAL entry at offset {offset}")
  else
    match parseEntry H (remaining.take entryLength) with
    | .error err => .error (.integrity s!"entry at offset {offset}: {err}")
    | .ok entry => .ok (some (entry, entryLength))

theorem parseFront_length {H : Hashes} {allowPartial : Bool} {remaining : Bytes} {offset : Nat}
    {entry : Entry} {length : Nat}
    (h : parseFront H allowPartial remaining offset = .ok (some (entry, length))) :
    entryFixedBytes ≤ length ∧ length ≤ remaining.length := by
  unfold parseFront at h
  simp only at h
  split at h
  · cases h
  split at h
  · cases h
  split at h
  · cases h
  split at h
  · split at h <;> cases h
  split at h
  · cases h
  rename_i hrange
  split at h
  · split at h <;> cases h
  rename_i hfull
  split at h
  · cases h
  · simp only [Except.ok.injEq, Option.some.injEq, Prod.mk.injEq] at h
    omega

/-- The loop of `parseEntries`. `previous` is the hash the next entry must name, once it is known. -/
def parseEntriesLoop (H : Hashes) (allowPartial : Bool) (remaining : Bytes) (offset : Nat)
    (expectedSequence : UInt64) (previous : Option Digest) (entries : List Entry) :
    Except WalError (List Entry × Nat × Bool) :=
  if remaining = [] then .ok (entries, offset, false)
  else
    match h : parseFront H allowPartial remaining offset with
    | .error err => .error err
    | .ok none => .ok (entries, offset, true)
    | .ok (some (entry, entryLength)) =>
      let sequence := entry.sequence
      if sequence ≠ expectedSequence then
        .error (.integrity s!"expected sequence {expectedSequence}, got {sequence}")
      else if entry.previousEntryHash ≠ previous.getD entry.previousEntryHash then
        .error (.integrity s!"previous hash mismatch at sequence {sequence}")
      else
        parseEntriesLoop H allowPartial (remaining.drop entryLength) (offset + entryLength)
          (expectedSequence + 1) (some entry.entryHash) (entries ++ [{ entry with offset := offset }])
termination_by remaining.length
decreasing_by
  have hlen := parseFront_length h
  simp only [entryFixedBytes] at hlen
  simp only [List.length_drop]
  omega

/-- The entries, the end of the last one, and whether a torn tail follows. -/
def parseEntries (H : Hashes) (data : Bytes) (header : WalHeader) (expectedPrevious : Option Digest)
    (allowPartial : Bool) : Except WalError (List Entry × Nat × Bool) :=
  parseEntriesLoop H allowPartial (data.drop header.length) header.length header.startSequence
    expectedPrevious []

structure VerifiedSegment where
  path : String
  gatewayInstanceID : Bytes
  startSequence : UInt64
  lastSequence : UInt64
  entryCount : UInt32
  chainStart : Digest
  chainRoot : Digest
  trailerFileSHA256 : Digest
  objectSHA256 : Digest
  fileBytes : Nat
  entries : List Entry
deriving DecidableEq

def verifySealedBytes (H : Hashes) (path : String) (data : Bytes) : Except WalError VerifiedSegment :=
  let trailerOffset := data.length - trailerBytes
  let trailer := data.drop trailerOffset
  let front := data.take trailerOffset
  if data.length < 30 + trailerBytes then
    .error (.integrity "sealed WAL is too short")
  else if trailer.take 4 ≠ trailerMagic then
    .error (.integrity "sealed WAL trailer magic is missing")
  else if uint16 (slice trailer 4 6) ≠ trailerVersion ∨
      uint16 (slice trailer 6 8) ≠ UInt16.ofNat trailerBytes then
    .error (.integrity "unsupported sealed WAL trailer")
  else if uint32 (slice trailer 92 96) ≠ H.crc32c (trailer.take 92) then
    .error (.integrity "sealed WAL trailer CRC mismatch")
  else do
    let header ← parseHeader front []
    let (entries, entriesEnd, torn) ← parseEntries H front header none false
    let firstSequence := uint64 (slice trailer 8 16)
    let lastSequence := uint64 (slice trailer 16 24)
    let entryCount := uint32 (slice trailer 24 28)
    let chainRoot := Digest.ofBytes (slice trailer 28 60)
    let trailerFileHash := Digest.ofBytes (slice trailer 60 92)
    match entries.head?, entries.getLast? with
    | some first, some last =>
      if torn ∨ entriesEnd ≠ trailerOffset then
        .error (.integrity "sealed WAL entry region is incomplete")
      else if firstSequence ≠ header.startSequence ∨ firstSequence ≠ first.sequence then
        .error (.integrity "sealed WAL first sequence mismatch")
      else if lastSequence < firstSequence then
        .error (.integrity "sealed WAL sequence range is reversed")
      else if lastSequence ≠ last.sequence then
        .error (.integrity "sealed WAL last sequence mismatch")
      else if lastSequence - firstSequence + 1 ≠ entryCount.toUInt64 ∨
          entryCount.toNat ≠ entries.length then
        .error (.integrity "sealed WAL entry count mismatch")
      else if chainRoot ≠ last.entryHash then
        .error (.integrity "sealed WAL chain root mismatch")
      else if trailerFileHash ≠ H.sha256 front then
        .error (.integrity "sealed WAL file hash mismatch")
      else
        .ok { path, gatewayInstanceID := header.gatewayID, startSequence := firstSequence, lastSequence,
              entryCount, chainStart := first.previousEntryHash, chainRoot,
              trailerFileSHA256 := trailerFileHash, objectSHA256 := H.sha256 data,
              fileBytes := data.length, entries }
    | _, _ => .error (.integrity "sealed WAL entry region is incomplete")

theorem parseHeader_start {data expectedGatewayID : Bytes} {header : WalHeader}
    (h : parseHeader data expectedGatewayID = .ok header) : header.startSequence ≠ 0 := by
  unfold parseHeader at h
  extract_lets headerLength idLength gatewayID startSequence at h
  simp only [ite_error_eq_ok] at h
  obtain ⟨-, -, -, -, -, -, hstart, h⟩ := h
  cases h
  exact hstart

theorem verifySealedBytes_facts {H : Hashes} {path : String} {data : Bytes} {segment : VerifiedSegment}
    (h : verifySealedBytes H path data = .ok segment) :
    segment.startSequence ≠ 0 ∧ segment.startSequence ≤ segment.lastSequence ∧
      segment.objectSHA256 = H.sha256 data ∧ segment.fileBytes = data.length ∧ data ≠ [] := by
  unfold verifySealedBytes at h
  extract_lets trailerOffset trailer front at h
  simp only [ite_error_eq_ok] at h
  obtain ⟨hlength, -, -, -, h⟩ := h
  obtain ⟨header, hheader, h⟩ := bind_eq_ok.mp h
  obtain ⟨⟨entries, entriesEnd, torn⟩, -, h⟩ := bind_eq_ok.mp h
  have hstart := parseHeader_start hheader
  dsimp only at h
  split at h
  · simp only [ite_error_eq_ok] at h
    obtain ⟨-, hfirst, hrange, -, -, -, -, h⟩ := h
    cases h
    rw [not_or, not_not, not_not] at hfirst
    refine ⟨hfirst.1 ▸ hstart, UInt64.not_lt.mp hrange, rfl, rfl, ?_⟩
    rintro rfl
    simp [trailerBytes] at hlength
  · cases h

/-- A torn header of the segment that starts at `startSequence`: its bytes agree with that header,
the creation time apart. -/
def matchesIncompleteHeader (data gatewayID : Bytes) (startSequence : UInt64) : Bool :=
  let expected := encodeHeader gatewayID startSequence 0
  (List.range data.length).all fun index =>
    (16 ≤ index && index < 24) || data[index]? = expected[index]?

end TickPlatform.Wal
