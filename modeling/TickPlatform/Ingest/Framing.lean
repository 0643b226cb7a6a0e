import TickPlatform.Protocol.Messages
import TickPlatform.Streams

/-!
# Frames on a connection

`readFrame` takes the length of a frame from its header before anything else of it is known. It reads the frames that
`DecodeFrame` accepts, however the connection cuts them, and nothing that stands behind them.
-/

namespace TickPlatform.Ingest

open Bytes Protocol

/-- A connection to read from: the pieces in which the bytes arrive, and the error after the last of them, `none` for
the end of the stream. -/
structure Conn where
  pieces : List Bytes
  failure : Option String
deriving DecidableEq

namespace Conn

/-- The bytes to come. -/
def bytes (conn : Conn) : Bytes := conn.pieces.flatten

def readFull (conn : Conn) (size : Nat) : Bytes × Conn :=
  let read := Streams.readFull size conn.pieces
  (read.1, { conn with pieces := read.2 })

/-- The error of an `io.ReadFull` that got only some bytes. -/
def shortRead (conn : Conn) (got : Bytes) : String :=
  conn.failure.getD (if got = [] then "EOF" else "unexpected EOF")

@[simp] theorem readFull_fst (conn : Conn) (size : Nat) : (conn.readFull size).1 = conn.bytes.take size :=
  Streams.readFull_fst size conn.pieces

@[simp] theorem bytes_readFull (conn : Conn) (size : Nat) : (conn.readFull size).2.bytes = conn.bytes.drop size :=
  Streams.readFull_snd size conn.pieces

end Conn

/-- A frame, or the error with the frame as far as it was read, if its header passed. -/
abbrev FrameResult := Except (Option Bytes × ProtocolError) Bytes

/-- The part of `readFrame` after the header: the rest of the frame is zero where it did not come. -/
def readBody (H : Hashes) (header : Bytes) (frameLength : Nat) (conn : Conn) : FrameResult × Conn :=
  let body := conn.readFull (frameLength - 16)
  let raw := header ++ body.1 ++ List.replicate (frameLength - 16 - body.1.length) 0
  if body.1.length < frameLength - 16 then
    (.error (some raw, newError .truncatedFrame (conn.shortRead body.1)), body.2)
  else
    match decodeFrame H raw with
    | .error err => (.error (some raw, err), body.2)
    | .ok _ => (.ok raw, body.2)

def readFrame (H : Hashes) (maximum : UInt32) (conn : Conn) : FrameResult × Conn :=
  let header := conn.readFull 16
  let frameLength := uint32 (slice header.1 8 12)
  if header.1.length < 16 then
    (.error (none, newError .truncatedFrame (conn.shortRead header.1)), header.2)
  else if frameLength < minFrameBytes then
    (.error (none, newError .invalidFrame s!"frame length {frameLength} is below minimum"), header.2)
  else if frameLength > maximum ∨ frameLength > maxFrameBytes then
    (.error (none, newError .oversizedFrame s!"frame length {frameLength} exceeds maximum"), header.2)
  else if slice header.1 0 4 ≠ magic then
    (.error (none, newError .invalidFrame "invalid magic"), header.2)
  else if uint32 (slice header.1 12 16) ≠ headerLength then
    (.error (none, newError .invalidFrame "invalid header length"), header.2)
  else readBody H header.1 frameLength.toNat header.2

/-- Calls of `readFrame` one after the other. -/
def readFrames (H : Hashes) (maximum : UInt32) : Nat → Conn → List FrameResult × Conn
  | 0, conn => ([], conn)
  | n + 1, conn =>
    let first := readFrame H maximum conn
    let others := readFrames H maximum n first.2
    (first.1 :: others.1, others.2)

/-! ## A frame that is accepted -/

/-- What the header of an accepted frame says. -/
structure HeaderOk (raw : Bytes) : Prop where
  length : (uint32 (slice raw 8 12)).toNat = raw.length
  least : minFrameBytes ≤ uint32 (slice raw 8 12)
  most : uint32 (slice raw 8 12) ≤ maxFrameBytes
  magic : slice raw 0 4 = magic
  headerLength : uint32 (slice raw 12 16) = headerLength

variable {H : Hashes} {frame : Frame} {raw : Bytes}

theorem headerOk_of_decodeFrame (h : decodeFrame H raw = .ok frame) : HeaderOk raw := by
  unfold decodeFrame at h
  simp only [ite_error_eq_ok] at h
  obtain ⟨-, hmost, hleast, -, hlength, hmagic, hheader, -⟩ := h
  exact ⟨(not_not.mp hlength).symm, UInt32.not_lt.mp hleast, UInt32.not_lt.mp hmost, not_not.mp hmagic,
    not_not.mp hheader⟩

theorem slice_take (b : Bytes) {lo hi n : Nat} (h : hi ≤ n) : slice (b.take n) lo hi = slice b lo hi := by
  unfold slice
  rw [List.drop_take, List.take_take, Nat.min_eq_left (by omega)]

theorem HeaderOk.long (h : HeaderOk raw) : 20 ≤ raw.length := by
  have hleast := h.least
  rw [UInt32.le_iff_toNat_le, h.length] at hleast
  exact hleast

variable {conn : Conn}

theorem readBody_frame {tail : Bytes}
    (hframe : decodeFrame H raw = .ok frame) (hbytes : conn.bytes = raw.drop 16 ++ tail) :
    (readBody H (raw.take 16) raw.length conn).1 = .ok raw ∧
      (readBody H (raw.take 16) raw.length conn).2.bytes = tail := by
  have hlength : (raw.drop 16).length = raw.length - 16 := List.length_drop
  have hbody : (conn.readFull (raw.length - 16)).1 = raw.drop 16 := by
    rw [Conn.readFull_fst, hbytes, List.take_append_of_le_length (Nat.le_of_eq hlength.symm),
      List.take_of_length_le (Nat.le_of_eq hlength)]
  have hrest : (conn.readFull (raw.length - 16)).2.bytes = tail := by
    rw [Conn.bytes_readFull, hbytes, ← hlength, List.drop_left]
  have hraw : raw.take 16 ++ raw.drop 16 ++ List.replicate (raw.length - 16 - (raw.length - 16)) 0 = raw := by
    rw [Nat.sub_self, List.replicate_zero, List.append_nil, List.take_append_drop]
  unfold readBody
  simp only [hbody, hlength, Nat.lt_irrefl, if_false, hraw, hframe]
  exact ⟨trivial, hrest⟩

/-- One frame is read, up to its last byte. -/
theorem readFrame_frame {maximum : UInt32} {tail : Bytes}
    (hframe : decodeFrame H raw = .ok frame) (hmaximum : raw.length ≤ maximum.toNat)
    (hbytes : conn.bytes = raw ++ tail) :
    (readFrame H maximum conn).1 = .ok raw ∧ (readFrame H maximum conn).2.bytes = tail := by
  have hok := headerOk_of_decodeFrame hframe
  have hlong : 16 ≤ raw.length := Nat.le_trans (by decide) hok.long
  have hheader : (conn.readFull 16).1 = raw.take 16 := by
    rw [Conn.readFull_fst, hbytes, List.take_append_of_le_length hlong]
  have hrest : (conn.readFull 16).2.bytes = raw.drop 16 ++ tail := by
    rw [Conn.bytes_readFull, hbytes, List.drop_append_of_le_length hlong]
  have hsize : ¬ (raw.take 16).length < 16 := by
    rw [List.length_take]
    omega
  have hlimit : ¬ (uint32 (slice raw 8 12) > maximum ∨ uint32 (slice raw 8 12) > maxFrameBytes) := by
    rw [not_or, gt_iff_lt, gt_iff_lt, UInt32.not_lt, UInt32.not_lt]
    exact ⟨UInt32.le_iff_toNat_le.mpr (hok.length ▸ hmaximum), hok.most⟩
  unfold readFrame
  simp only [hheader, slice_take raw (show 12 ≤ 16 by decide), slice_take raw (show 4 ≤ 16 by decide),
    slice_take raw (show 16 ≤ 16 by decide), if_neg hsize, if_neg (UInt32.not_lt.mpr hok.least), if_neg hlimit,
    if_neg (not_not_intro hok.magic), if_neg (not_not_intro hok.headerLength), hok.length]
  exact readBody_frame hframe hrest

/-! ## How much is read -/

/-- What a call of `readFrame` may take from a connection. -/
def Takes (limit : Nat) (conn rest : Conn) : Prop :=
  ∃ taken, conn.bytes = taken ++ rest.bytes ∧ taken.length ≤ limit

theorem takes_readFull (conn : Conn) (size : Nat) : Takes size conn (conn.readFull size).2 :=
  ⟨conn.bytes.take size, by rw [Conn.bytes_readFull, List.take_append_drop], List.length_take_le _ _⟩

theorem Takes.trans {a b : Nat} {mid rest : Conn} (h : Takes a conn mid) (h' : Takes b mid rest) :
    Takes (a + b) conn rest := by
  obtain ⟨first, hfirst, hlen⟩ := h
  obtain ⟨second, hsecond, hlen'⟩ := h'
  exact ⟨first ++ second, by rw [hfirst, hsecond, List.append_assoc], by rw [List.length_append]; omega⟩

theorem Takes.mono {a b : Nat} {rest : Conn} (h : Takes a conn rest) (hle : a ≤ b) : Takes b conn rest := by
  obtain ⟨taken, htaken, hlen⟩ := h
  exact ⟨taken, htaken, Nat.le_trans hlen hle⟩

theorem takes_readBody (H : Hashes) (header : Bytes) (frameLength : Nat) (conn : Conn) :
    Takes (frameLength - 16) conn (readBody H header frameLength conn).2 := by
  have h := takes_readFull conn (frameLength - 16)
  unfold readBody
  extract_lets body raw
  split
  · exact h
  · split <;> exact h

theorem takes_readFrame (H : Hashes) (maximum : UInt32) (conn : Conn) :
    Takes (max 16 (min maximum.toNat maxFrameBytes.toNat)) conn (readFrame H maximum conn).2 := by
  have hheader := (takes_readFull conn 16).mono (Nat.le_max_left 16 (min maximum.toNat maxFrameBytes.toNat))
  unfold readFrame
  extract_lets header frameLength
  split
  · exact hheader
  split
  · exact hheader
  next hleast =>
  split
  · exact hheader
  next hlimit =>
  split
  · exact hheader
  split
  · exact hheader
  rw [not_or, gt_iff_lt, gt_iff_lt, UInt32.not_lt, UInt32.not_lt, UInt32.le_iff_toNat_le, UInt32.le_iff_toNat_le] at hlimit
  refine ((takes_readFull conn 16).trans (takes_readBody H header.1 frameLength.toNat header.2)).mono ?_
  omega

/-- The frames come back one by one, and what stands behind them stays on the connection, however it was cut; and no
call takes more than a frame may have. -/
theorem readFrames_exact (H : Hashes) (maximum : UInt32) :
    (∀ (frames : List Bytes) (tail : Bytes) (conn : Conn),
      (∀ raw ∈ frames, raw.length ≤ maximum.toNat ∧ ∃ frame, decodeFrame H raw = .ok frame) →
      conn.bytes = frames.flatten ++ tail →
      (readFrames H maximum frames.length conn).1 = frames.map .ok ∧
        (readFrames H maximum frames.length conn).2.bytes = tail) ∧
      ∀ conn : Conn, Takes maxFrameBytes.toNat conn (readFrame H maximum conn).2 ∧
        (minFrameBytes ≤ maximum → Takes maximum.toNat conn (readFrame H maximum conn).2) := by
  have htakes : ∀ conn : Conn, Takes (max 16 (min maximum.toNat maxFrameBytes.toNat)) conn (readFrame H maximum conn).2 :=
    takes_readFrame H maximum
  have hmost : maxFrameBytes.toNat = 1048576 := rfl
  have hleast : minFrameBytes.toNat = 20 := rfl
  refine ⟨?_, fun conn => ⟨(htakes conn).mono (by omega), fun h => (htakes conn).mono ?_⟩⟩
  · intro frames
    induction frames with
    | nil => intro tail conn _ hbytes; exact ⟨rfl, hbytes⟩
    | cons raw frames ih =>
      intro tail conn hframes hbytes
      obtain ⟨⟨hmaximum, frame, hframe⟩, hothers⟩ := List.forall_mem_cons.mp hframes
      rw [List.flatten_cons, List.append_assoc] at hbytes
      obtain ⟨hfirst, hrest⟩ := readFrame_frame hframe hmaximum hbytes
      obtain ⟨hall, hleft⟩ := ih tail (readFrame H maximum conn).2 hothers hrest
      exact ⟨by rw [List.length_cons, readFrames, List.map_cons, hfirst, hall], hleft⟩
  · rw [UInt32.le_iff_toNat_le] at h
    omega

/-- Two frames in three pieces, with a byte of the next one. -/
def sampleConn : Conn where
  pieces :=
    let raw := messageFrame Hashes.sample (.error fieldError)
    [raw.take 3, raw.drop 3 ++ raw.take 30, raw.drop 30 ++ [0x54]]
  failure := none

theorem readFrames_exact_two :
    (readFrames Hashes.sample 64 2 sampleConn).1 = List.replicate 2 (.ok (messageFrame Hashes.sample (.error fieldError))) ∧
      (readFrames Hashes.sample 64 2 sampleConn).2.bytes = [0x54] := by
  have hframe : (decodeFrame Hashes.sample (messageFrame Hashes.sample (.error fieldError))).toOption.any
      (fun _ => true) = true := by
    decide
  obtain ⟨frame, hframe, -⟩ := exists_ok_of_any hframe
  have hlength : (messageFrame Hashes.sample (.error fieldError)).length ≤ (64 : UInt32).toNat := by decide
  have hall : ∀ raw ∈ List.replicate 2 (messageFrame Hashes.sample (.error fieldError)),
      raw.length ≤ (64 : UInt32).toNat ∧ ∃ frame, decodeFrame Hashes.sample raw = .ok frame := by
    intro raw hraw
    rw [List.eq_of_mem_replicate hraw]
    exact ⟨hlength, frame, hframe⟩
  have hbytes : sampleConn.bytes =
      (List.replicate 2 (messageFrame Hashes.sample (.error fieldError))).flatten ++ [0x54] := by
    decide
  exact (readFrames_exact Hashes.sample 64).1 _ [0x54] sampleConn hall hbytes

end TickPlatform.Ingest
