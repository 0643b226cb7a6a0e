import TickPlatform.Except
import TickPlatform.Protocol.Spec

/-!
# Batch frames on the wire

A reader takes a field from the bytes that are written for it and from no others, so a batch that encodes decodes to
itself, checksum included.
-/

namespace TickPlatform.Protocol

open Bytes

open Reader

/-! ## What a reader has read -/

variable {data rest : Bytes}

theorem reader_bind_eq_ok {α β : Type} {x : Reader α} {f : α → Reader β} {b : β} :
    (x >>= f) data = .ok (b, rest) ↔ ∃ a mid, x data = .ok (a, mid) ∧ f a mid = .ok (b, rest) := by
  show (x data >>= fun p => f p.1 p.2) = _ ↔ _
  rw [bind_eq_ok, Prod.exists]

theorem reader_pure_eq_ok {α : Type} {a b : α} : (pure a : Reader α) data = .ok (b, rest) ↔ a = b ∧ data = rest := by
  show Except.ok (a, data) = _ ↔ _
  rw [Except.ok.injEq, Prod.mk.injEq]

theorem reader_reject_eq_ok {α : Type} {bad : Prop} [Decidable bad] {err : ProtocolError} {x : Reader α}
    {f : PUnit → Reader α} {data rest : Bytes} {a : α} :
    (if bad then throw err >>= f else x : Reader α) data = .ok (a, rest) ↔ ¬ bad ∧ x data = .ok (a, rest) := by
  by_cases hbad : bad
  · rw [if_pos hbad]
    simp only [hbad, not_true_eq_false, false_and, iff_false]
    intro h
    cases h
  · rw [if_neg hbad]
    simp [hbad]

theorem writer_reject_eq_ok {α : Type} {bad : Prop} [Decidable bad] {err : ProtocolError} {x : Except ProtocolError α}
    {f : PUnit → Except ProtocolError α} {a : α} :
    (if bad then throw err >>= f else x : Except ProtocolError α) = .ok a ↔ ¬ bad ∧ x = .ok a := by
  by_cases hbad : bad
  · rw [if_pos hbad]
    simp only [hbad, not_true_eq_false, false_and, iff_false]
    intro h
    cases h
  · rw [if_neg hbad]
    simp [hbad]

theorem take_eq_ok {size : Nat} {b : Bytes} : take size data = .ok (b, rest) ↔ b.length = size ∧ data = b ++ rest := by
  unfold take
  split
  · rename_i hshort
    simp only [reduceCtorEq, false_iff, not_and]
    rintro rfl rfl
    rw [List.length_append] at hshort
    omega
  · rename_i hlong
    rw [Except.ok.injEq, Prod.mk.injEq]
    constructor
    · rintro ⟨rfl, rfl⟩
      exact ⟨by rw [List.length_take]; omega, (List.take_append_drop _ _).symm⟩
    · rintro ⟨rfl, rfl⟩
      simp

/-- A field of a fixed width. -/
theorem fixed_eq_ok {α : Type} {size : Nat} {get : Bytes → α} {put : α → Bytes} {v : α}
    (hread : ∀ {b : Bytes}, b.length = size → put (get b) = b) (hlength : ∀ v, (put v).length = size)
    (hback : ∀ v, get (put v) = v) :
    (do return get (← take size) : Reader α) data = .ok (v, rest) ↔ data = put v ++ rest := by
  simp only [reader_bind_eq_ok, reader_pure_eq_ok, take_eq_ok]
  constructor
  · rintro ⟨b, _, ⟨hsize, rfl⟩, rfl, rfl⟩
    rw [hread hsize]
  · rintro rfl
    exact ⟨put v, rest, ⟨hlength v, rfl⟩, hback v, rfl⟩

theorem u8_eq_ok {v : UInt8} : u8 data = .ok (v, rest) ↔ data = [v] ++ rest := by
  have hread {b : Bytes} (hlength : b.length = 1) : [b.headD 0] = b := by
    obtain ⟨x, rfl⟩ := List.length_eq_one_iff.mp hlength
    rfl
  have hlength (v : UInt8) : [v].length = 1 := rfl
  exact fixed_eq_ok hread hlength fun _ => rfl

theorem u16_eq_ok {v : UInt16} : u16 data = .ok (v, rest) ↔ data = putUint16 v ++ rest :=
  fixed_eq_ok putUint16_uint16 (by simp) uint16_putUint16

theorem u32_eq_ok {v : UInt32} : u32 data = .ok (v, rest) ↔ data = putUint32 v ++ rest :=
  fixed_eq_ok putUint32_uint32 (by simp) uint32_putUint32

theorem u64_eq_ok {v : UInt64} : u64 data = .ok (v, rest) ↔ data = putUint64 v ++ rest :=
  fixed_eq_ok putUint64_uint64 (by simp) uint64_putUint64

theorem hash_eq_ok {digest : Digest} : Reader.hash data = .ok (digest, rest) ↔ data = digest.bytes ++ rest :=
  fixed_eq_ok Digest.bytes_ofBytes Digest.length_bytes Digest.ofBytes_bytes

theorem i32_eq_ok {v : Int32} : i32 data = .ok (v, rest) ↔ data = putInt32 v ++ rest := by
  simp only [i32, reader_bind_eq_ok, reader_pure_eq_ok, u32_eq_ok]
  constructor
  · rintro ⟨_, _, rfl, rfl, rfl⟩
    rfl
  · rintro rfl
    exact ⟨_, _, rfl, by simp, rfl⟩

theorem i64_eq_ok {v : Int64} : i64 data = .ok (v, rest) ↔ data = putInt64 v ++ rest := by
  simp only [i64, reader_bind_eq_ok, reader_pure_eq_ok, u64_eq_ok]
  constructor
  · rintro ⟨_, _, rfl, rfl, rfl⟩
    rfl
  · rintro rfl
    exact ⟨_, _, rfl, by simp, rfl⟩

@[simp] theorem length_putInt32 (v : Int32) : (putInt32 v).length = 4 := length_putUint32 _
@[simp] theorem length_putInt64 (v : Int64) : (putInt64 v).length = 8 := length_putUint64 _

/-- What `writeString` accepts. -/
def StringOk (s : Bytes) : Prop := utf8Valid s = true ∧ s.length ≤ 255

def putString (s : Bytes) : Bytes := putUint16 (UInt16.ofNat s.length) ++ s

theorem writeString_eq_ok {s out : Bytes} : writeString s = .ok out ↔ StringOk s ∧ out = putString s := by
  have hmax : maxStringBytes.toNat = 255 := rfl
  simp only [writeString, ite_error_eq_ok, Except.ok.injEq, hmax, gt_iff_lt, Nat.not_lt, StringOk, and_assoc,
    eq_comm (a := out)]
  simp [putString]

theorem string_eq_ok {s : Bytes} : string data = .ok (s, rest) ↔ StringOk s ∧ data = putString s ++ rest := by
  have hmax : maxStringBytes.toNat = 255 := rfl
  simp only [string, reader_bind_eq_ok, reader_reject_eq_ok, reader_pure_eq_ok, u16_eq_ok, take_eq_ok, gt_iff_lt,
    UInt16.lt_iff_toNat_lt, hmax]
  constructor
  · rintro ⟨size, _, rfl, hsmall, b, _, ⟨hlength, rfl⟩, hvalid, rfl, rfl⟩
    refine ⟨⟨by simpa using hvalid, by omega⟩, ?_⟩
    rw [putString, hlength, UInt16.ofNat_toNat, List.append_assoc]
  · rintro ⟨⟨hvalid, hsmall⟩, rfl⟩
    have hlength : (UInt16.ofNat s.length).toNat = s.length := by
      rw [UInt16.toNat_ofNat']
      omega
    exact ⟨_, _, List.append_assoc .., by omega, s, rest, ⟨hlength.symm, rfl⟩, by simp [hvalid], rfl, rfl⟩

/-! ## Records -/

theorem decodeRecord_eq_ok {record : RawMqlTickV1} :
    decodeRecord data = .ok (record, rest) ↔ data = putRecord record ++ rest := by
  simp only [decodeRecord, reader_bind_eq_ok, reader_pure_eq_ok, i64_eq_ok, u64_eq_ok, u32_eq_ok, putRecord,
    List.append_assoc]
  constructor
  · rintro ⟨_, _, rfl, _, _, rfl, _, _, rfl, _, _, rfl, _, _, rfl, _, _, rfl, _, _, rfl, _, _, rfl, _, _, rfl, rfl, rfl⟩
    rfl
  · rintro rfl
    exact ⟨_, _, rfl, _, _, rfl, _, _, rfl, _, _, rfl, _, _, rfl, _, _, rfl, _, _, rfl, _, _, rfl, _, _, rfl, rfl, rfl⟩

theorem decodeRecords_eq_ok {n : Nat} {records : List RawMqlTickV1} :
    decodeRecords n data = .ok (records, rest) ↔ records.length = n ∧ data = putRecords records ++ rest := by
  induction n generalizing data records rest with
  | zero =>
    simp only [decodeRecords, reader_pure_eq_ok, List.length_eq_zero_iff, eq_comm (a := records)]
    exact and_congr_right fun h => by rw [← h]; rfl
  | succ n ih =>
    simp only [decodeRecords, reader_bind_eq_ok, reader_pure_eq_ok, decodeRecord_eq_ok, ih]
    constructor
    · rintro ⟨record, _, rfl, records, _, ⟨rfl, rfl⟩, rfl, rfl⟩
      exact ⟨rfl, by simp only [putRecords, List.flatMap_cons, List.append_assoc]⟩
    · rintro ⟨hlength, rfl⟩
      obtain ⟨record, records, rfl⟩ := List.exists_cons_of_length_eq_add_one hlength
      exact ⟨record, _, List.append_assoc .., records, _, ⟨Nat.succ.inj hlength, rfl⟩, rfl, rfl⟩

@[simp] theorem length_putRecord (record : RawMqlTickV1) : (putRecord record).length = 68 := by
  simp [putRecord]

theorem length_putRecords (records : List RawMqlTickV1) : (putRecords records).length = 68 * records.length := by
  induction records with
  | nil => rfl
  | cons record records ih =>
    have hstep : putRecords (record :: records) = putRecord record ++ putRecords records := rfl
    rw [hstep, List.length_append, length_putRecord, ih, List.length_cons]
    omega

/-! ## The batch payload -/

/-- What `encodeBatch` accepts. -/
structure BatchFrameV1.Encodable (value : BatchFrameV1) : Prop where
  count : value.records.length ≤ 4096
  returned : 0 ≤ value.returnedCount → value.returnedCount = Int32.ofNat value.records.length
  failed : value.returnedCount < 0 → value.records = []
  lease : StringOk value.sessionLeaseID
  session : StringOk value.producerSessionID
  schema : StringOk value.sourceSchemaID

/-- The payload `encodeBatch` writes. -/
def batchPayload (value : BatchFrameV1) : Bytes :=
  putString value.sessionLeaseID ++ (putString value.producerSessionID ++
    (putUint64 value.batchSequence ++ (putInt64 value.requestedFromMSC ++
    (putUint32 value.requestedCount ++ (putInt64 value.fetchWallStartS ++
    (putInt64 value.fetchWallEndS ++ (putUint64 value.fetchMonotonicStartUS ++
    (putUint64 value.fetchMonotonicEndUS ++ (putInt32 value.returnedCount ++
    (putInt32 value.copyTicksError ++ (putUint32 value.sourceStatusFlags ++
    (putString value.sourceSchemaID ++ (putUint32 (UInt32.ofNat value.records.length) ++
    putRecords value.records)))))))))))))

variable {value : BatchFrameV1}

theorem encodeBatch_eq_ok {payload : Bytes} :
    encodeBatch value = .ok payload ↔ value.Encodable ∧ payload = batchPayload value := by
  have hmax : maxRecords.toNat = 4096 := rfl
  simp only [encodeBatch, bind_eq_ok, writer_reject_eq_ok, pure_eq_ok, writeString_eq_ok, hmax, gt_iff_lt, Nat.not_lt,
    not_and, not_not, ne_eq, List.length_eq_zero_iff]
  constructor
  · rintro ⟨hcount, hreturned, hfailed, _, ⟨hlease, rfl⟩, _, ⟨hsession, rfl⟩, _, ⟨hschema, rfl⟩, rfl⟩
    exact ⟨⟨hcount, hreturned, hfailed, hlease, hsession, hschema⟩, rfl⟩
  · rintro ⟨⟨hcount, hreturned, hfailed, hlease, hsession, hschema⟩, rfl⟩
    exact ⟨hcount, hreturned, hfailed, _, ⟨hlease, rfl⟩, _, ⟨hsession, rfl⟩, _, ⟨hschema, rfl⟩, rfl⟩

theorem decodeBatch_eq_ok : decodeBatch data = .ok (value, rest) ↔
    value.Encodable ∧ value.sourceSchemaID = sourceSchemaMT5 ∧ data = batchPayload value ++ rest := by
  have hmax : maxRecords.toNat = 4096 := rfl
  simp only [decodeBatch, reader_bind_eq_ok, reader_reject_eq_ok, reader_pure_eq_ok, string_eq_ok, u64_eq_ok, i64_eq_ok,
    u32_eq_ok, i32_eq_ok, decodeRecords_eq_ok, batchPayload, List.append_assoc, gt_iff_lt, UInt32.lt_iff_toNat_lt, hmax,
    not_and, not_not]
  constructor
  · rintro ⟨_, _, ⟨hlease, rfl⟩, _, _, ⟨hsession, rfl⟩, _, _, rfl, _, _, rfl, _, _, rfl, _, _, rfl, _, _, rfl, _, _, rfl, _,
      _, rfl, _, _, rfl, _, _, rfl, _, _, rfl, _, _, ⟨hschemaOk, rfl⟩, hschema, count, _, rfl, hcount, records, _,
      ⟨hlength, rfl⟩, hreturned, hfailed, rfl, rfl⟩
    obtain rfl : count = UInt32.ofNat records.length := by rw [hlength, UInt32.ofNat_toNat]
    have hsmall : records.length ≤ 4096 := by omega
    refine ⟨⟨hsmall, hreturned, fun hnegative => ?_, hlease, hsession, hschemaOk⟩, hschema, rfl⟩
    rw [hfailed hnegative] at hlength
    exact List.length_eq_zero_iff.mp hlength
  · rintro ⟨⟨hcount, hreturned, hfailed, hlease, hsession, hschemaOk⟩, hschema, rfl⟩
    have hlength : (UInt32.ofNat value.records.length).toNat = value.records.length := by
      rw [UInt32.toNat_ofNat']
      omega
    refine ⟨_, _, ⟨hlease, rfl⟩, _, _, ⟨hsession, rfl⟩, _, _, rfl, _, _, rfl, _, _, rfl, _, _, rfl, _, _, rfl, _, _, rfl, _,
      _, rfl, _, _, rfl, _, _, rfl, _, _, rfl, _, _, ⟨hschemaOk, rfl⟩, hschema, _, _, rfl, by omega, _, _,
      ⟨hlength.symm, rfl⟩, hreturned, fun hnegative => ?_, rfl, rfl⟩
    rw [hfailed hnegative]
    rfl

theorem length_batchPayload (h : value.Encodable) : (batchPayload value).length ≤ 1048556 := by
  have hcount : value.records.length ≤ 4096 := h.count
  have hlease : value.sessionLeaseID.length ≤ 255 := h.lease.2
  have hsession : value.producerSessionID.length ≤ 255 := h.session.2
  have hschema : value.sourceSchemaID.length ≤ 255 := h.schema.2
  have hlen : (batchPayload value).length = value.sessionLeaseID.length +
      value.producerSessionID.length + value.sourceSchemaID.length + 68 * value.records.length + 74 := by
    simp only [batchPayload, putString, List.length_append, length_putUint16, length_putUint32,
      length_putUint64, length_putInt32, length_putInt64, length_putRecords]
    omega
  omega

/-! ## The envelope -/

@[simp] theorem length_magic : magic.length = 4 := by decide

@[simp] theorem length_frameBody (messageType : MessageType) (payload : Bytes) :
    (frameBody messageType payload).length = 16 + payload.length := by
  simp [frameBody]
  omega

theorem frameBody_fields (messageType : MessageType) (payload tail : Bytes) :
    let raw := frameBody messageType payload ++ tail
    slice raw 0 4 = magic ∧ slice raw 4 6 = putUint16 protocolVersion ∧
      slice raw 6 8 = putUint16 messageType ∧
      slice raw 8 12 = putUint32 (UInt32.ofNat (20 + payload.length)) ∧
      slice raw 12 16 = putUint32 headerLength ∧
      slice raw 16 (16 + payload.length) = payload := by
  have hfields : frameBody messageType payload ++ tail =
      magic ++ (putUint16 protocolVersion ++ (putUint16 messageType ++
        (putUint32 (UInt32.ofNat (20 + payload.length)) ++ (putUint32 headerLength ++
          (payload ++ tail))))) := by
    simp [frameBody]
  simp only [hfields]
  refine ⟨?_, ?_, ?_, ?_, ?_, ?_⟩ <;>
    simp (disch := simp) only [slice_skip, slice_here, length_magic, length_putUint16, length_putUint32,
      Nat.reduceSub, Nat.add_sub_cancel_left, Nat.sub_sub, Nat.reduceAdd]

theorem decodeFrame_put (H : Hashes) (messageType : MessageType) (payload : Bytes)
    (hlo : messageHello ≤ messageType) (hhi : messageType ≤ messageError)
    (hsize : payload.length ≤ 1048556) :
    decodeFrame H (frameBody messageType payload ++
        putUint32 (H.crc32c (frameBody messageType payload))) =
      .ok { version := protocolVersion, messageType := messageType, payload := payload } := by
  have hlen : (UInt32.ofNat (20 + payload.length)).toNat = 20 + payload.length := by
    rw [UInt32.toNat_ofNat']
    omega
  have hmax : ¬ UInt32.ofNat (20 + payload.length) > maxFrameBytes := by
    rw [gt_iff_lt, UInt32.lt_iff_toNat_lt, hlen]
    simp [maxFrameBytes]
    omega
  have hmin : ¬ UInt32.ofNat (20 + payload.length) < minFrameBytes := by
    rw [UInt32.lt_iff_toNat_lt, hlen]
    simp [minFrameBytes]
  have htype : ¬ (messageType < messageHello ∨ messageType > messageError) := by
    rintro (h | h) <;> grind
  generalize hc : H.crc32c (frameBody messageType payload) = crc
  obtain ⟨h0, h4, h6, h8, h12, h16⟩ := frameBody_fields messageType payload (putUint32 crc)
  have hsize' : (frameBody messageType payload ++ putUint32 crc).length = 20 + payload.length := by
    simp
    omega
  have hsub : 20 + payload.length - 4 = 16 + payload.length := by omega
  have hfront : slice (frameBody messageType payload ++ putUint32 crc) 0 (16 + payload.length) =
      frameBody messageType payload := slice_here _ _ _ (by simp)
  have hcrc : slice (frameBody messageType payload ++ putUint32 crc) (16 + payload.length)
      (20 + payload.length) = putUint32 crc := slice_last _ _ _ _ (by simp) (by simp; omega)
  unfold decodeFrame
  simp only [hsize', hsub, h0, h4, h6, h8, h12, h16, hfront, hcrc, hc, uint16_putUint16,
    uint32_putUint32, hlen, if_neg hmax, if_neg hmin, if_neg htype, ne_eq, not_true_eq_false, if_false,
    Nat.lt_irrefl, show ¬ 20 + payload.length < 16 by omega]

theorem decodeFrame_eq_ok {H : Hashes} {raw : Bytes} {frame : Frame} (h : decodeFrame H raw = .ok frame) :
    raw = frameBody frame.messageType frame.payload ++
      putUint32 (H.crc32c (frameBody frame.messageType frame.payload)) := by
  unfold decodeFrame at h
  extract_lets size frameLength version messageType want got wantHex gotHex at h
  simp only [ite_error_eq_ok] at h
  obtain ⟨hsize, -, hmin, -, hlength, hmagic, hheader, hversion, -, hcrc, h⟩ := h
  cases h
  rw [not_not] at hlength hmagic hheader hversion hcrc
  have hlong : 20 ≤ size := by
    rw [UInt32.lt_iff_toNat_lt] at hmin
    have : minFrameBytes.toNat = 20 := rfl
    omega
  have hpayload : (slice raw 16 (size - 4)).length = size - 20 := by
    rw [length_slice raw 16 (size - 4) (Nat.sub_le _ _)]
    omega
  have hbody : frameBody messageType (slice raw 16 (size - 4)) = slice raw 0 (size - 4) := by
    have hlength' : UInt32.ofNat (20 + (slice raw 16 (size - 4)).length) = frameLength := by
      rw [hpayload, show 20 + (size - 20) = frameLength.toNat by omega, UInt32.ofNat_toNat]
    rw [frameBody, hlength', ← hversion, ← hheader, ← hmagic, putUint16_uint16 (length_slice raw 4 6 (by omega)),
      putUint16_uint16 (length_slice raw 6 8 (by omega)), putUint32_uint32 (length_slice raw 8 12 (by omega)),
      putUint32_uint32 (length_slice raw 12 16 (by omega)), ← slice_split raw (by omega) (by omega),
      ← slice_split raw (by omega) (by omega), ← slice_split raw (by omega) (by omega),
      ← slice_split raw (by omega) (by omega), ← slice_split raw (by omega) (by omega)]
  rw [hbody, show H.crc32c (slice raw 0 (size - 4)) = want from hcrc.symm,
    putUint32_uint32 (by rw [length_slice raw _ _ (Nat.le_refl _)]; omega), ← slice_split raw (by omega) (by omega),
    slice_all raw _ rfl]

/-! ## Whole batch frames -/

/-- The bytes on the wire for an encodable batch. -/
def batchFrame (H : Hashes) (value : BatchFrameV1) : Bytes :=
  frameBody messageBatch (batchPayload value) ++
    putUint32 (H.crc32c (frameBody messageBatch (batchPayload value)))

theorem length_batchFrame (H : Hashes) (value : BatchFrameV1) :
    (batchFrame H value).length = 20 + (batchPayload value).length := by
  simp [batchFrame]
  omega

/-- A batch of this source that carries no tick. -/
def emptyBatch (sessionLeaseID producerSessionID : Bytes) (batchSequence : UInt64) : BatchFrameV1 where
  sessionLeaseID := sessionLeaseID
  producerSessionID := producerSessionID
  batchSequence := batchSequence
  requestedFromMSC := 1
  requestedCount := 0
  fetchWallStartS := 0
  fetchWallEndS := 0
  fetchMonotonicStartUS := 0
  fetchMonotonicEndUS := 0
  returnedCount := 0
  copyTicksError := 0
  sourceStatusFlags := 0
  sourceSchemaID := sourceSchemaMT5
  records := []

theorem stringOk_sourceSchemaMT5 : StringOk sourceSchemaMT5 := ⟨by decide, by decide⟩

theorem emptyBatch_encodable {lease session : Bytes} (hlease : StringOk lease) (hsession : StringOk session)
    (sequence : UInt64) : (emptyBatch lease session sequence).Encodable where
  count := by simp [emptyBatch]
  returned := fun _ => rfl
  failed := fun _ => rfl
  lease := hlease
  session := hsession
  schema := stringOk_sourceSchemaMT5

end TickPlatform.Protocol
