import TickPlatform.Protocol.Proofs

/-!
# The five messages on the wire

Each message has one payload. The decoder reads the payloads of the messages that the encoder writes, except for two
fields that only the decoder checks: the source schema of a batch and the message type that an error is about.
-/

namespace TickPlatform.Protocol

open Bytes

open Reader

/-! ## Strings, bytes and hashes -/

def putStrings (fields : List Bytes) : Bytes := fields.flatMap putString

theorem writeStrings_eq_ok {fields : List Bytes} {out : Bytes} :
    writeStrings fields = .ok out ↔ (∀ s ∈ fields, StringOk s) ∧ out = putStrings fields := by
  induction fields generalizing out with
  | nil => simp [writeStrings, putStrings, eq_comm]
  | cons field fields ih =>
    simp only [writeStrings, bind_eq_ok, pure_eq_ok, writeString_eq_ok, ih, List.forall_mem_cons]
    constructor
    · rintro ⟨_, ⟨hfield, rfl⟩, _, ⟨hfields, rfl⟩, rfl⟩
      exact ⟨⟨hfield, hfields⟩, rfl⟩
    · rintro ⟨⟨hfield, hfields⟩, rfl⟩
      exact ⟨_, ⟨hfield, rfl⟩, _, ⟨hfields, rfl⟩, rfl⟩

variable {data rest : Bytes}

/-! ## Hello -/

structure HelloV1.Encodable (value : HelloV1) : Prop where
  strings : ∀ s ∈ value.strings, StringOk s
  mode : value.acquisitionMode = 1 ∨ value.acquisitionMode = 2

def helloPayload (value : HelloV1) : Bytes :=
  putStrings value.strings ++ ([value.acquisitionMode] ++ (putInt64 value.initialFromMSC ++ putUint32 value.capabilityFlags))

theorem encodeHello_eq_ok {value : HelloV1} {payload : Bytes} :
    encodeHello value = .ok payload ↔ value.Encodable ∧ payload = helloPayload value := by
  simp only [encodeHello, bind_eq_ok, writer_reject_eq_ok, pure_eq_ok, writeStrings_eq_ok]
  constructor
  · rintro ⟨_, ⟨hstrings, rfl⟩, hmode, rfl⟩
    exact ⟨⟨hstrings, by tauto⟩, rfl⟩
  · rintro ⟨⟨hstrings, hmode⟩, rfl⟩
    exact ⟨_, ⟨hstrings, rfl⟩, by tauto, rfl⟩

theorem decodeHello_eq_ok {value : HelloV1} :
    decodeHello data = .ok (value, rest) ↔ value.Encodable ∧ data = helloPayload value ++ rest := by
  simp only [decodeHello, reader_bind_eq_ok, reader_reject_eq_ok, reader_pure_eq_ok, string_eq_ok, u8_eq_ok, i64_eq_ok,
    u32_eq_ok, helloPayload, putStrings, HelloV1.strings, List.flatMap_cons, List.flatMap_nil, List.append_nil,
    List.append_assoc]
  constructor
  · rintro ⟨_, _, ⟨h1, rfl⟩, _, _, ⟨h2, rfl⟩, _, _, ⟨h3, rfl⟩, _, _, ⟨h4, rfl⟩, _, _, ⟨h5, rfl⟩, _, _, ⟨h6, rfl⟩, _, _,
      ⟨h7, rfl⟩, _, _, ⟨h8, rfl⟩, _, _, ⟨h9, rfl⟩, _, _, ⟨h10, rfl⟩, _, _, ⟨h11, rfl⟩, _, _, ⟨h12, rfl⟩, _, _, rfl,
      hmode, _, _, rfl, _, _, rfl, rfl, rfl⟩
    refine ⟨⟨?_, by tauto⟩, rfl⟩
    simp only [HelloV1.strings, List.forall_mem_cons]
    exact ⟨h1, h2, h3, h4, h5, h6, h7, h8, h9, h10, h11, h12, by simp⟩
  · rintro ⟨⟨hstrings, hmode⟩, rfl⟩
    simp only [HelloV1.strings, List.forall_mem_cons] at hstrings
    obtain ⟨h1, h2, h3, h4, h5, h6, h7, h8, h9, h10, h11, h12, -⟩ := hstrings
    exact ⟨_, _, ⟨h1, rfl⟩, _, _, ⟨h2, rfl⟩, _, _, ⟨h3, rfl⟩, _, _, ⟨h4, rfl⟩, _, _, ⟨h5, rfl⟩, _, _, ⟨h6, rfl⟩, _, _,
      ⟨h7, rfl⟩, _, _, ⟨h8, rfl⟩, _, _, ⟨h9, rfl⟩, _, _, ⟨h10, rfl⟩, _, _, ⟨h11, rfl⟩, _, _, ⟨h12, rfl⟩, _, _, rfl,
      by tauto, _, _, rfl, _, _, rfl, rfl, rfl⟩

/-! ## Resume -/

structure ResumeV1.Encodable (value : ResumeV1) : Prop where
  version : value.acceptedProtocolVersion = protocolVersion
  gateway : StringOk value.gatewayInstanceID
  lease : StringOk value.sessionLeaseID

def resumePayload (value : ResumeV1) : Bytes :=
  putUint16 value.acceptedProtocolVersion ++ (putString value.gatewayInstanceID ++ (putString value.sessionLeaseID ++
    (putInt64 value.committedCursorMSC ++ (value.committedBoundaryDigest.bytes ++
      (putUint64 value.lastDurableBatchSequence ++ (value.lastDurableBatchHash.bytes ++ (putInt64 value.nextFromMSC ++
        (putUint32 value.nextRequestedCount ++ (putUint32 value.maximumFrameBytes ++
          (putUint32 value.maximumRecords ++ putUint32 value.heartbeatIdleTimeoutMS))))))))))

theorem encodeResume_eq_ok {value : ResumeV1} {payload : Bytes} :
    encodeResume value = .ok payload ↔ value.Encodable ∧ payload = resumePayload value := by
  simp only [encodeResume, bind_eq_ok, writer_reject_eq_ok, pure_eq_ok, writeStrings_eq_ok, List.forall_mem_cons, not_not,
    putStrings, List.flatMap_cons, List.flatMap_nil, List.append_nil, resumePayload]
  constructor
  · rintro ⟨hversion, _, ⟨⟨hgateway, hlease, -⟩, rfl⟩, rfl⟩
    exact ⟨⟨hversion, hgateway, hlease⟩, by rw [List.append_assoc]⟩
  · rintro ⟨⟨hversion, hgateway, hlease⟩, rfl⟩
    exact ⟨hversion, _, ⟨⟨hgateway, hlease, by simp⟩, rfl⟩, by rw [List.append_assoc]⟩

theorem decodeResume_eq_ok {value : ResumeV1} :
    decodeResume data = .ok (value, rest) ↔ value.Encodable ∧ data = resumePayload value ++ rest := by
  simp only [decodeResume, reader_bind_eq_ok, reader_reject_eq_ok, reader_pure_eq_ok, string_eq_ok, u16_eq_ok, u32_eq_ok,
    u64_eq_ok, i64_eq_ok, hash_eq_ok, resumePayload, List.append_assoc, not_not]
  constructor
  · rintro ⟨_, _, rfl, hversion, _, _, ⟨hgateway, rfl⟩, _, _, ⟨hlease, rfl⟩, _, _, rfl, _, _, rfl, _, _, rfl, _, _,
      rfl, _, _, rfl, _, _, rfl, _, _, rfl, _, _, rfl, _, _, rfl, rfl, rfl⟩
    exact ⟨⟨hversion, hgateway, hlease⟩, rfl⟩
  · rintro ⟨⟨hversion, hgateway, hlease⟩, rfl⟩
    exact ⟨_, _, rfl, hversion, _, _, ⟨hgateway, rfl⟩, _, _, ⟨hlease, rfl⟩, _, _, rfl, _, _, rfl, _, _, rfl, _, _, rfl,
      _, _, rfl, _, _, rfl, _, _, rfl, _, _, rfl, _, _, rfl, rfl, rfl⟩

/-! ## Ack -/

structure AckV1.Encodable (value : AckV1) : Prop where
  status : ¬ (value.status < 1 ∨ value.status > 9)
  session : StringOk value.producerSessionID

def ackPayload (value : AckV1) : Bytes :=
  putString value.producerSessionID ++ (putUint64 value.batchSequence ++ (value.gatewayBatchSHA256.bytes ++
    (putUint64 value.gatewayIngestSequence ++ ([value.status] ++ (putInt64 value.committedCursorMSC ++
      (value.committedBoundaryDigest.bytes ++ (putInt64 value.nextFromMSC ++
        (putUint32 value.nextRequestedCount ++ putUint32 value.retryAfterMS))))))))

variable {value : AckV1}

theorem encodeAck_eq_ok {payload : Bytes} :
    encodeAck value = .ok payload ↔ value.Encodable ∧ payload = ackPayload value := by
  simp only [encodeAck, bind_eq_ok, writer_reject_eq_ok, pure_eq_ok, writeString_eq_ok]
  constructor
  · rintro ⟨hstatus, _, ⟨hsession, rfl⟩, rfl⟩
    exact ⟨⟨hstatus, hsession⟩, rfl⟩
  · rintro ⟨⟨hstatus, hsession⟩, rfl⟩
    exact ⟨hstatus, _, ⟨hsession, rfl⟩, rfl⟩

theorem decodeAck_eq_ok : decodeAck data = .ok (value, rest) ↔ value.Encodable ∧ data = ackPayload value ++ rest := by
  simp only [decodeAck, reader_bind_eq_ok, reader_reject_eq_ok, reader_pure_eq_ok, string_eq_ok, u8_eq_ok, u32_eq_ok,
    u64_eq_ok, i64_eq_ok, hash_eq_ok, ackPayload, List.append_assoc]
  constructor
  · rintro ⟨_, _, ⟨hsession, rfl⟩, _, _, rfl, _, _, rfl, _, _, rfl, _, _, rfl, hstatus, _, _, rfl, _, _, rfl, _, _,
      rfl, _, _, rfl, _, _, rfl, rfl, rfl⟩
    exact ⟨⟨hstatus, hsession⟩, rfl⟩
  · rintro ⟨⟨hstatus, hsession⟩, rfl⟩
    exact ⟨_, _, ⟨hsession, rfl⟩, _, _, rfl, _, _, rfl, _, _, rfl, _, _, rfl, hstatus, _, _, rfl, _, _, rfl, _, _, rfl,
      _, _, rfl, _, _, rfl, rfl, rfl⟩

/-! ## Error -/

structure ErrorV1.Encodable (value : ErrorV1) : Prop where
  code : ¬ (value.code < 1 ∨ value.code > 10)
  retryable : ¬ value.retryable > 1
  message : StringOk value.message

def errorPayload (value : ErrorV1) : Bytes :=
  putUint16 value.code ++ ([value.retryable] ++ (putUint16 value.relatedMessageType ++
    (putUint64 value.relatedBatchSequence ++ putString value.message)))

theorem encodeError_eq_ok {value : ErrorV1} {payload : Bytes} :
    encodeError value = .ok payload ↔ value.Encodable ∧ payload = errorPayload value := by
  simp only [encodeError, bind_eq_ok, writer_reject_eq_ok, pure_eq_ok, writeString_eq_ok]
  constructor
  · rintro ⟨hcode, hretryable, _, ⟨hmessage, rfl⟩, rfl⟩
    exact ⟨⟨hcode, hretryable, hmessage⟩, rfl⟩
  · rintro ⟨⟨hcode, hretryable, hmessage⟩, rfl⟩
    exact ⟨hcode, hretryable, _, ⟨hmessage, rfl⟩, rfl⟩

theorem decodeError_eq_ok {value : ErrorV1} : decodeError data = .ok (value, rest) ↔
    value.Encodable ∧ ¬ value.relatedMessageType > messageError ∧ data = errorPayload value ++ rest := by
  simp only [decodeError, reader_bind_eq_ok, reader_reject_eq_ok, reader_pure_eq_ok, string_eq_ok, u8_eq_ok, u16_eq_ok,
    u64_eq_ok, errorPayload, List.append_assoc]
  constructor
  · rintro ⟨_, _, rfl, hcode, _, _, rfl, hretryable, _, _, rfl, hrelated, _, _, rfl, _, _, ⟨hmessage, rfl⟩, rfl, rfl⟩
    exact ⟨⟨hcode, hretryable, hmessage⟩, hrelated, rfl⟩
  · rintro ⟨⟨hcode, hretryable, hmessage⟩, hrelated, rfl⟩
    exact ⟨_, _, rfl, hcode, _, _, rfl, hretryable, _, _, rfl, hrelated, _, _, rfl, _, _, ⟨hmessage, rfl⟩, rfl, rfl⟩

/-! ## Messages -/

def Message.Encodable : Message → Prop
  | .hello value => value.Encodable
  | .resume value => value.Encodable
  | .batch value => value.Encodable
  | .ack value => value.Encodable
  | .error value => value.Encodable

/-- What the decoder checks and the encoder does not. -/
def Message.Readable : Message → Prop
  | .batch value => value.sourceSchemaID = sourceSchemaMT5
  | .error value => ¬ value.relatedMessageType > messageError
  | _ => True

def Message.payload : Message → Bytes
  | .hello value => helloPayload value
  | .resume value => resumePayload value
  | .batch value => batchPayload value
  | .ack value => ackPayload value
  | .error value => errorPayload value

def messageFrame (H : Hashes) (m : Message) : Bytes :=
  frameBody m.messageType m.payload ++ putUint32 (H.crc32c (frameBody m.messageType m.payload))

variable {m : Message}

theorem encodePayload_eq_ok {payload : Bytes} : encodePayload m = .ok payload ↔ m.Encodable ∧ payload = m.payload := by
  cases m with
  | hello value => exact encodeHello_eq_ok
  | resume value => exact encodeResume_eq_ok
  | batch value => exact encodeBatch_eq_ok
  | ack value => exact encodeAck_eq_ok
  | error value => exact encodeError_eq_ok

theorem length_putStrings {fields : List Bytes} (h : ∀ s ∈ fields, StringOk s) :
    (putStrings fields).length ≤ 257 * fields.length := by
  induction fields with
  | nil => simp [putStrings]
  | cons field fields ih =>
    rw [List.forall_mem_cons] at h
    have hrest := ih h.2
    have hfield := h.1.2
    simp only [putStrings, List.flatMap_cons, List.length_append, putString, length_putUint16, List.length_cons] at hrest ⊢
    omega

theorem length_payload (h : m.Encodable) : m.payload.length ≤ 1048556 := by
  cases m with
  | hello value =>
    have hstrings := length_putStrings h.strings
    have hcount : value.strings.length = 12 := rfl
    simp only [Message.payload, helloPayload, List.length_append, length_putInt64, length_putUint32, List.length_singleton]
    omega
  | resume value =>
    have hgateway := h.gateway.2
    have hlease := h.lease.2
    simp only [Message.payload, resumePayload, putString, List.length_append, length_putUint16, length_putUint32,
      length_putUint64, length_putInt64, Digest.length_bytes]
    omega
  | batch value => exact length_batchPayload h
  | ack value =>
    have hsession := h.session.2
    simp only [Message.payload, ackPayload, putString, List.length_append, length_putUint16, length_putUint32,
      length_putUint64, length_putInt64, Digest.length_bytes, List.length_singleton]
    omega
  | error value =>
    have hmessage := h.message.2
    simp only [Message.payload, errorPayload, putString, List.length_append, length_putUint16, length_putUint64,
      List.length_singleton]
    omega

theorem messageType_range (m : Message) : messageHello ≤ m.messageType ∧ m.messageType ≤ messageError := by
  cases m <;> simp only [Message.messageType] <;> decide

variable {H : Hashes} {raw : Bytes}

theorem encodeMessage_eq_ok : encodeMessage H m = .ok raw ↔ m.Encodable ∧ raw = messageFrame H m := by
  have htype : ¬ (m.messageType < messageHello ∨ m.messageType > messageError) := by
    have hrange := messageType_range m
    rw [not_or, UInt16.not_lt, gt_iff_lt, UInt16.not_lt]
    exact hrange
  have hframe : m.Encodable → encodeFrame H m.messageType m.payload = .ok (messageFrame H m) := by
    intro h
    have hsize : ¬ m.payload.length > (maxFrameBytes - minFrameBytes).toNat := Nat.not_lt.mpr (length_payload h)
    simp only [encodeFrame, if_neg htype, if_neg hsize]
    rfl
  rw [encodeMessage, bind_eq_ok]
  constructor
  · rintro ⟨payload, hpayload, h⟩
    obtain ⟨hencodable, rfl⟩ := encodePayload_eq_ok.mp hpayload
    exact ⟨hencodable, Except.ok.inj (h.symm.trans (hframe hencodable))⟩
  · rintro ⟨h, rfl⟩
    exact ⟨_, encodePayload_eq_ok.mpr ⟨h, rfl⟩, hframe h⟩

theorem whole_eq_ok {α : Type} {decode : Reader α} {payload : Bytes} {value : α} :
    whole decode payload = .ok value ↔ decode payload = .ok (value, []) := by
  simp only [whole, bind_eq_ok, pure_eq_ok]
  constructor
  · rintro ⟨⟨_, rest⟩, hdecode, _, hdone, rfl⟩
    unfold done at hdone
    obtain ⟨hnothing, -⟩ := ite_error_eq_ok.mp hdone
    rw [not_not, List.length_eq_zero_iff] at hnothing
    dsimp only at hnothing ⊢
    rw [hdecode, hnothing]
  · intro h
    exact ⟨_, h, _, rfl, rfl⟩

theorem map_whole_eq_ok {α : Type} {decode : Reader α} {f : α → Message} {payload : Bytes} :
    f <$> whole decode payload = .ok m ↔ ∃ value, decode payload = .ok (value, []) ∧ f value = m := by
  simp only [← whole_eq_ok]
  cases whole decode payload <;> simp [Functor.map, Except.map]

/-- A payload is read as the message that it is written for. -/
theorem decodeMessage_eq_ok {frame : Frame} : decodeMessage frame = .ok m ↔
      frame.messageType = m.messageType ∧ m.Encodable ∧ m.Readable ∧ frame.payload = m.payload := by
  constructor
  · intro h
    unfold decodeMessage at h
    simp only at h
    split at h
    · rename_i htype
      obtain ⟨value, hvalue, rfl⟩ := map_whole_eq_ok.mp h
      obtain ⟨hencodable, hpayload⟩ := decodeHello_eq_ok.mp hvalue
      exact ⟨htype, hencodable, trivial, hpayload.trans (List.append_nil _)⟩
    split at h
    · rename_i htype
      obtain ⟨value, hvalue, rfl⟩ := map_whole_eq_ok.mp h
      obtain ⟨hencodable, hpayload⟩ := decodeResume_eq_ok.mp hvalue
      exact ⟨htype, hencodable, trivial, hpayload.trans (List.append_nil _)⟩
    split at h
    · rename_i htype
      obtain ⟨value, hvalue, rfl⟩ := map_whole_eq_ok.mp h
      obtain ⟨hencodable, hreadable, hpayload⟩ := decodeBatch_eq_ok.mp hvalue
      exact ⟨htype, hencodable, hreadable, hpayload.trans (List.append_nil _)⟩
    split at h
    · rename_i htype
      obtain ⟨value, hvalue, rfl⟩ := map_whole_eq_ok.mp h
      obtain ⟨hencodable, hpayload⟩ := decodeAck_eq_ok.mp hvalue
      exact ⟨htype, hencodable, trivial, hpayload.trans (List.append_nil _)⟩
    split at h
    · rename_i htype
      obtain ⟨value, hvalue, rfl⟩ := map_whole_eq_ok.mp h
      obtain ⟨hencodable, hreadable, hpayload⟩ := decodeError_eq_ok.mp hvalue
      exact ⟨htype, hencodable, hreadable, hpayload.trans (List.append_nil _)⟩
    · cases h
  · rintro ⟨htype, hencodable, hreadable, hpayload⟩
    unfold decodeMessage
    simp only [htype, hpayload]
    cases m with
    | hello value => exact map_whole_eq_ok.mpr ⟨value, decodeHello_eq_ok.mpr ⟨hencodable, (List.append_nil _).symm⟩, rfl⟩
    | resume value => exact map_whole_eq_ok.mpr ⟨value, decodeResume_eq_ok.mpr ⟨hencodable, (List.append_nil _).symm⟩, rfl⟩
    | batch value => exact map_whole_eq_ok.mpr ⟨value, decodeBatch_eq_ok.mpr ⟨hencodable, hreadable, (List.append_nil _).symm⟩, rfl⟩
    | ack value => exact map_whole_eq_ok.mpr ⟨value, decodeAck_eq_ok.mpr ⟨hencodable, (List.append_nil _).symm⟩, rfl⟩
    | error value => exact map_whole_eq_ok.mpr ⟨value, decodeError_eq_ok.mpr ⟨hencodable, hreadable, (List.append_nil _).symm⟩, rfl⟩

theorem decoded_eq_messageFrame {frame : Frame}
    (hframe : decodeFrame H raw = .ok frame) (hm : decodeMessage frame = .ok m) :
    m.Encodable ∧ m.Readable ∧ raw = messageFrame H m := by
  obtain ⟨htype, hencodable, hreadable, hpayload⟩ := decodeMessage_eq_ok.mp hm
  refine ⟨hencodable, hreadable, ?_⟩
  rw [decodeFrame_eq_ok hframe, htype, hpayload, messageFrame]

theorem decode_messageFrame (H : Hashes) (hencodable : m.Encodable) (hreadable : m.Readable) :
    ∃ frame, decodeFrame H (messageFrame H m) = .ok frame ∧ decodeMessage frame = .ok m := by
  have hrange := messageType_range m
  refine ⟨_, decodeFrame_put H m.messageType m.payload hrange.1 hrange.2 (length_payload hencodable), ?_⟩
  exact decodeMessage_eq_ok.mpr ⟨rfl, hencodable, hreadable, rfl⟩

theorem decodeBatchFrame_eq_ok {value : BatchFrameV1} : decodeBatchFrame H raw = .ok value ↔
      value.Encodable ∧ value.sourceSchemaID = sourceSchemaMT5 ∧ raw = batchFrame H value := by
  constructor
  · intro h
    unfold decodeBatchFrame at h
    split at h
    · cases h
    · rename_i frame hframe
      split at h
      · cases h
      · rename_i batch hmessage
        cases h
        exact decoded_eq_messageFrame hframe hmessage
      · cases h
  · rintro ⟨hencodable, hschema, rfl⟩
    obtain ⟨frame, hframe, hmessage⟩ := decode_messageFrame (m := .batch value) H hencodable hschema
    rw [decodeBatchFrame, show batchFrame H value = messageFrame H (.batch value) from rfl, hframe]
    simp only [hmessage]

/-- Bytes that are read as a message are those that are written for it, so no others are read as the same message. -/
theorem frame_is_canonical {H : Hashes} {raw : Bytes} {frame : Frame} {m : Message}
    (hframe : decodeFrame H raw = .ok frame) (hm : decodeMessage frame = .ok m) :
    encodeMessage H m = .ok raw ∧
      ∀ other frame', decodeFrame H other = .ok frame' → decodeMessage frame' = .ok m → other = raw := by
  obtain ⟨hencodable, -, hraw⟩ := decoded_eq_messageFrame hframe hm
  refine ⟨encodeMessage_eq_ok.mpr ⟨hencodable, hraw⟩, ?_⟩
  intro other frame' hframe' hm'
  obtain ⟨-, -, hother⟩ := decoded_eq_messageFrame hframe' hm'
  rw [hother, hraw]

def fieldError : ErrorV1 := ⟨7, 0, messageBatch, 1, ascii "x"⟩

theorem frame_is_canonical_error : ∃ raw frame, decodeFrame Hashes.sample raw = .ok frame ∧
    decodeMessage frame = .ok (.error fieldError) ∧ encodeMessage Hashes.sample (.error fieldError) = .ok raw := by
  have hrun : (decodeFrame Hashes.sample (messageFrame Hashes.sample (.error fieldError))).toOption.any (fun frame =>
      decodeMessage frame = .ok (.error fieldError)) = true := by
    decide
  obtain ⟨frame, hframe, hm⟩ := exists_ok_of_any hrun
  have hm := of_decide_eq_true hm
  exact ⟨_, frame, hframe, hm, (frame_is_canonical hframe hm).1⟩

/-- What is written for a message is read as that message if and only if it is readable. -/
theorem encoded_is_decoded_iff {H : Hashes} {m : Message} {raw : Bytes} (h : encodeMessage H m = .ok raw) :
    (∃ frame, decodeFrame H raw = .ok frame ∧ decodeMessage frame = .ok m) ↔ m.Readable := by
  obtain ⟨hencodable, rfl⟩ := encodeMessage_eq_ok.mp h
  constructor
  · rintro ⟨frame, -, hm⟩
    exact (decodeMessage_eq_ok.mp hm).2.2.1
  · exact decode_messageFrame H hencodable

theorem encoded_is_decoded_error : Message.Readable (.error fieldError) ∧
    ∃ frame, decodeFrame Hashes.sample (messageFrame Hashes.sample (.error fieldError)) = .ok frame ∧
      decodeMessage frame = .ok (.error fieldError) := by
  have hreadable : Message.Readable (.error fieldError) := by
    show ¬ messageBatch > messageError
    decide
  have hencoded : encodeMessage Hashes.sample (.error fieldError) = .ok (messageFrame Hashes.sample (.error fieldError)) := by
    decide
  exact ⟨hreadable, (encoded_is_decoded_iff hencoded).mpr hreadable⟩

/-- A batch of another source, and an error about a message that there is not. -/
theorem encoded_not_decoded : ([Message.batch { emptyBatch [] [] 1 with sourceSchemaID := ascii "x" },
    .error { fieldError with relatedMessageType := 6 }].all fun m => (encodeMessage Hashes.sample m).toOption.any fun raw =>
      (decodeFrame Hashes.sample raw).toOption.any fun frame => (decodeMessage frame).toOption.isNone) = true := by
  decide

end TickPlatform.Protocol
