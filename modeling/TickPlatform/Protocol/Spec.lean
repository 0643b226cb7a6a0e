import TickPlatform.Bytes

/-!
# The tick wire protocol

The frame envelope, the five messages and their codecs, and the domain-separated
hashes the gateway derives from them. A Go `string` is its bytes.
-/

namespace TickPlatform.Protocol

open Bytes

def magic : Bytes := ascii "TICK"
def protocolVersion : UInt16 := 1
def headerLength : UInt32 := 16
def minFrameBytes : UInt32 := 20
def maxFrameBytes : UInt32 := 1048576
def maxRecords : UInt32 := 4096
def maxStringBytes : UInt16 := 255
def sourceSchemaMT5 : Bytes := ascii "mt5.mqltick.v1"

abbrev MessageType := UInt16

def messageHello : MessageType := 1
def messageResume : MessageType := 2
def messageBatch : MessageType := 3
def messageAck : MessageType := 4
def messageError : MessageType := 5

def ackAcceptedAdvanced : UInt8 := 1
def ackAcceptedNoAdvance : UInt8 := 2
def ackDuplicate : UInt8 := 3
def ackDenseBoundary : UInt8 := 4
def ackDenseUnresolved : UInt8 := 5
def ackRetryableError : UInt8 := 6
def ackFatalProtocolError : UInt8 := 7
def ackSourceStateConflict : UInt8 := 8
def ackSessionLeaseConflict : UInt8 := 9

inductive ErrorCode
  | invalidFrame
  | unsupportedVersion
  | unknownMessage
  | truncatedFrame
  | oversizedFrame
  | crcMismatch
  | invalidField
  | sourceStateConflict
  | sessionLeaseConflict
  | internalRetryable
deriving DecidableEq, Repr

structure ProtocolError where
  code : ErrorCode
  detail : String
  /-- The argument of a `%q` that ends the detail. -/
  quoted : Option Bytes
deriving DecidableEq, Repr

def ErrorCode.text : ErrorCode → String
  | .invalidFrame => "INVALID_FRAME"
  | .unsupportedVersion => "UNSUPPORTED_PROTOCOL_VERSION"
  | .unknownMessage => "UNKNOWN_MESSAGE_TYPE"
  | .truncatedFrame => "TRUNCATED_FRAME"
  | .oversizedFrame => "OVERSIZED_FRAME"
  | .crcMismatch => "CRC_MISMATCH"
  | .invalidField => "INVALID_FIELD"
  | .sourceStateConflict => "SOURCE_STATE_CONFLICT"
  | .sessionLeaseConflict => "SESSION_LEASE_CONFLICT"
  | .internalRetryable => "INTERNAL_RETRYABLE"

/-- The `Error` method, up to the argument of a `%q`. -/
def ProtocolError.text (err : ProtocolError) : String :=
  if err.detail = "" then err.code.text else err.code.text ++ ": " ++ err.detail

def newError (code : ErrorCode) (detail : String) : ProtocolError := ⟨code, detail, none⟩

/-- `newError` with a format that ends in `%q`. -/
def newQuotedError (code : ErrorCode) (detail : String) (argument : Bytes) : ProtocolError := ⟨code, detail, some argument⟩

/-! ## Frames -/

structure Frame where
  version : UInt16
  messageType : MessageType
  payload : Bytes
deriving DecidableEq

/-- The lower-case hexadecimal digits of one byte. -/
def hexByte (b : UInt8) : List Char := [Nat.digitChar (b.toNat / 16), Nat.digitChar (b.toNat % 16)]

/-- Go's `%08x`. -/
def hex32 (v : UInt32) : String := String.ofList ((putUint32 v).reverse.flatMap hexByte)

/-- A frame of a payload, up to its checksum. -/
def frameBody (messageType : MessageType) (payload : Bytes) : Bytes :=
  magic ++ (putUint16 protocolVersion ++ (putUint16 messageType ++
    (putUint32 (UInt32.ofNat (20 + payload.length)) ++ (putUint32 headerLength ++ payload))))

def encodeFrame (H : Hashes) (messageType : MessageType) (payload : Bytes) :
    Except ProtocolError Bytes :=
  let size := payload.length
  if messageType < messageHello ∨ messageType > messageError then
    .error (newError .unknownMessage s!"message type {messageType}")
  else if size > (maxFrameBytes - minFrameBytes).toNat then
    .error (newError .oversizedFrame s!"payload bytes {size}")
  else
    let body := frameBody messageType payload
    .ok (body ++ putUint32 (H.crc32c body))

def decodeFrame (H : Hashes) (raw : Bytes) : Except ProtocolError Frame :=
  let size := raw.length
  let frameLength := uint32 (slice raw 8 12)
  let version := uint16 (slice raw 4 6)
  let messageType := uint16 (slice raw 6 8)
  let want := uint32 (slice raw (size - 4) size)
  let got := H.crc32c (slice raw 0 (size - 4))
  let wantHex := hex32 want
  let gotHex := hex32 got
  if size < 16 then
    .error (newError .truncatedFrame s!"frame has {size} bytes")
  else if frameLength > maxFrameBytes then
    .error (newError .oversizedFrame s!"frame length {frameLength}")
  else if frameLength < minFrameBytes then
    .error (newError .invalidFrame s!"frame length {frameLength}")
  else if size < frameLength.toNat then
    .error (newError .truncatedFrame s!"frame has {size} bytes, needs {frameLength}")
  else if size ≠ frameLength.toNat then
    .error (newError .invalidFrame "trailing bytes after frame")
  else if slice raw 0 4 ≠ magic then
    .error (newError .invalidFrame "invalid magic")
  else if uint32 (slice raw 12 16) ≠ headerLength then
    .error (newError .invalidFrame "invalid header length")
  else if version ≠ protocolVersion then
    .error (newError .unsupportedVersion s!"protocol version {version}")
  else if messageType < messageHello ∨ messageType > messageError then
    .error (newError .unknownMessage s!"message type {messageType}")
  else if want ≠ got then
    .error (newError .crcMismatch s!"want {wantHex}, got {gotHex}")
  else
    .ok { version, messageType, payload := slice raw 16 (size - 4) }

/-! ## Messages -/

structure HelloV1 where
  producerInstanceID : Bytes
  producerSessionID : Bytes
  producerBuildID : Bytes
  mqlCompilerBuild : Bytes
  terminalBuild : Bytes
  osContract : Bytes
  clockAPIID : Bytes
  providerID : Bytes
  stableFeedID : Bytes
  brokerServerFingerprint : Bytes
  exactSourceSymbol : Bytes
  sourceSchemaID : Bytes
  acquisitionMode : UInt8
  initialFromMSC : Int64
  capabilityFlags : UInt32
deriving DecidableEq

structure ResumeV1 where
  acceptedProtocolVersion : UInt16
  gatewayInstanceID : Bytes
  sessionLeaseID : Bytes
  committedCursorMSC : Int64
  committedBoundaryDigest : Digest
  lastDurableBatchSequence : UInt64
  lastDurableBatchHash : Digest
  nextFromMSC : Int64
  nextRequestedCount : UInt32
  maximumFrameBytes : UInt32
  maximumRecords : UInt32
  heartbeatIdleTimeoutMS : UInt32
deriving DecidableEq

structure RawMqlTickV1 where
  time : Int64
  bidBits : UInt64
  askBits : UInt64
  lastBits : UInt64
  volume : UInt64
  timeMSC : Int64
  flags : UInt32
  volumeRealBits : UInt64
  captureSequence : UInt64
deriving DecidableEq

structure BatchFrameV1 where
  sessionLeaseID : Bytes
  producerSessionID : Bytes
  batchSequence : UInt64
  requestedFromMSC : Int64
  requestedCount : UInt32
  fetchWallStartS : Int64
  fetchWallEndS : Int64
  fetchMonotonicStartUS : UInt64
  fetchMonotonicEndUS : UInt64
  returnedCount : Int32
  copyTicksError : Int32
  sourceStatusFlags : UInt32
  sourceSchemaID : Bytes
  records : List RawMqlTickV1
deriving DecidableEq

structure AckV1 where
  producerSessionID : Bytes
  batchSequence : UInt64
  gatewayBatchSHA256 : Digest
  gatewayIngestSequence : UInt64
  status : UInt8
  committedCursorMSC : Int64
  committedBoundaryDigest : Digest
  nextFromMSC : Int64
  nextRequestedCount : UInt32
  retryAfterMS : UInt32
deriving DecidableEq

structure ErrorV1 where
  code : UInt16
  retryable : UInt8
  relatedMessageType : MessageType
  relatedBatchSequence : UInt64
  message : Bytes
deriving DecidableEq

inductive Message
  | hello (value : HelloV1)
  | resume (value : ResumeV1)
  | batch (value : BatchFrameV1)
  | ack (value : AckV1)
  | error (value : ErrorV1)
deriving DecidableEq

def Message.messageType : Message → MessageType
  | .hello _ => messageHello
  | .resume _ => messageResume
  | .batch _ => messageBatch
  | .ack _ => messageAck
  | .error _ => messageError

/-! ## The payload writer -/

def putInt32 (v : Int32) : Bytes := putUint32 v.toUInt32
def putInt64 (v : Int64) : Bytes := putUint64 v.toUInt64

def writeString (value : Bytes) : Except ProtocolError Bytes :=
  let size := value.length
  if !utf8Valid value then
    .error (newError .invalidField "string is not UTF-8")
  else if size > maxStringBytes.toNat then
    .error (newError .invalidField s!"string has {size} bytes")
  else
    .ok (putUint16 (UInt16.ofNat size) ++ value)

def writeStrings : List Bytes → Except ProtocolError Bytes
  | [] => .ok []
  | field :: fields => do
    let first ← writeString field
    let others ← writeStrings fields
    return first ++ others

def putRecord (record : RawMqlTickV1) : Bytes :=
  putInt64 record.time ++ (putUint64 record.bidBits ++ (putUint64 record.askBits ++
    (putUint64 record.lastBits ++ (putUint64 record.volume ++ (putInt64 record.timeMSC ++
      (putUint32 record.flags ++ (putUint64 record.volumeRealBits ++
        putUint64 record.captureSequence)))))))

def putRecords (records : List RawMqlTickV1) : Bytes := records.flatMap putRecord

def HelloV1.strings (value : HelloV1) : List Bytes :=
  [value.producerInstanceID, value.producerSessionID, value.producerBuildID,
    value.mqlCompilerBuild, value.terminalBuild, value.osContract, value.clockAPIID,
    value.providerID, value.stableFeedID,
    value.brokerServerFingerprint, value.exactSourceSymbol, value.sourceSchemaID]

def encodeHello (value : HelloV1) : Except ProtocolError Bytes := do
  let mode := value.acquisitionMode
  let strings ← writeStrings value.strings
  if mode ≠ 1 ∧ mode ≠ 2 then
    throw (newError .invalidField s!"acquisition mode {mode}")
  return strings ++ ([mode] ++ (putInt64 value.initialFromMSC ++ putUint32 value.capabilityFlags))

def encodeResume (value : ResumeV1) : Except ProtocolError Bytes := do
  let version := value.acceptedProtocolVersion
  if version ≠ protocolVersion then
    throw (newError .invalidField s!"accepted protocol version {version}")
  let strings ← writeStrings [value.gatewayInstanceID, value.sessionLeaseID]
  return putUint16 version ++ (strings ++ (putInt64 value.committedCursorMSC ++
    (value.committedBoundaryDigest.bytes ++ (putUint64 value.lastDurableBatchSequence ++
      (value.lastDurableBatchHash.bytes ++ (putInt64 value.nextFromMSC ++
        (putUint32 value.nextRequestedCount ++ (putUint32 value.maximumFrameBytes ++
          (putUint32 value.maximumRecords ++ putUint32 value.heartbeatIdleTimeoutMS)))))))))

def encodeBatch (value : BatchFrameV1) : Except ProtocolError Bytes := do
  let count := value.records.length
  if count > maxRecords.toNat then
    throw (newError .invalidField s!"record count {count}")
  if 0 ≤ value.returnedCount ∧ value.returnedCount ≠ Int32.ofNat count then
    throw (newError .invalidField "returned count does not match records")
  if value.returnedCount < 0 ∧ count ≠ 0 then
    throw (newError .invalidField "negative returned count has records")
  let lease ← writeString value.sessionLeaseID
  let session ← writeString value.producerSessionID
  let schema ← writeString value.sourceSchemaID
  return lease ++ (session ++ (putUint64 value.batchSequence ++ (putInt64 value.requestedFromMSC ++
    (putUint32 value.requestedCount ++ (putInt64 value.fetchWallStartS ++
      (putInt64 value.fetchWallEndS ++ (putUint64 value.fetchMonotonicStartUS ++
        (putUint64 value.fetchMonotonicEndUS ++ (putInt32 value.returnedCount ++
          (putInt32 value.copyTicksError ++ (putUint32 value.sourceStatusFlags ++
            (schema ++ (putUint32 (UInt32.ofNat count) ++ putRecords value.records)))))))))))))

def encodeAck (value : AckV1) : Except ProtocolError Bytes := do
  let status := value.status
  if status < 1 ∨ status > 9 then
    throw (newError .invalidField s!"ack status {status}")
  let session ← writeString value.producerSessionID
  return session ++ (putUint64 value.batchSequence ++ (value.gatewayBatchSHA256.bytes ++
    (putUint64 value.gatewayIngestSequence ++ ([status] ++ (putInt64 value.committedCursorMSC ++
      (value.committedBoundaryDigest.bytes ++ (putInt64 value.nextFromMSC ++
        (putUint32 value.nextRequestedCount ++ putUint32 value.retryAfterMS))))))))

def encodeError (value : ErrorV1) : Except ProtocolError Bytes := do
  let code := value.code
  let retryable := value.retryable
  if code < 1 ∨ code > 10 then
    throw (newError .invalidField s!"error code {code}")
  if retryable > 1 then
    throw (newError .invalidField s!"retryable {retryable}")
  let message ← writeString value.message
  return putUint16 code ++ ([retryable] ++ (putUint16 value.relatedMessageType ++
    (putUint64 value.relatedBatchSequence ++ message)))

def encodePayload : Message → Except ProtocolError Bytes
  | .hello value => encodeHello value
  | .resume value => encodeResume value
  | .batch value => encodeBatch value
  | .ack value => encodeAck value
  | .error value => encodeError value

def encodeMessage (H : Hashes) (message : Message) : Except ProtocolError Bytes := do
  let payload ← encodePayload message
  encodeFrame H message.messageType payload

/-! ## The payload reader -/

/-- The state is the part of the payload that is not read yet. -/
abbrev Reader := StateT Bytes (Except ProtocolError)

namespace Reader

def take (size : Nat) : Reader Bytes := fun data =>
  if data.length < size then .error (newError .invalidField "field exceeds payload")
  else .ok (data.take size, data.drop size)

def u8 : Reader UInt8 := do return (← take 1).headD 0
def u16 : Reader UInt16 := do return uint16 (← take 2)
def u32 : Reader UInt32 := do return uint32 (← take 4)
def u64 : Reader UInt64 := do return uint64 (← take 8)
def i32 : Reader Int32 := do return (← u32).toInt32
def i64 : Reader Int64 := do return (← u64).toInt64
def hash : Reader Digest := do return Digest.ofBytes (← take 32)

def string : Reader Bytes := do
  let size ← u16
  if size > maxStringBytes then
    throw (newError .invalidField s!"string has {size} bytes")
  let b ← take size.toNat
  if !utf8Valid b then
    throw (newError .invalidField "string is not UTF-8")
  return b

def done : Reader Unit := fun data =>
  let left := data.length
  if left ≠ 0 then .error (newError .invalidField s!"{left} trailing payload bytes")
  else .ok ((), data)

end Reader

open Reader

def decodeHello : Reader HelloV1 := do
  let producerInstanceID ← string
  let producerSessionID ← string
  let producerBuildID ← string
  let mqlCompilerBuild ← string
  let terminalBuild ← string
  let osContract ← string
  let clockAPIID ← string
  let providerID ← string
  let stableFeedID ← string
  let brokerServerFingerprint ← string
  let exactSourceSymbol ← string
  let sourceSchemaID ← string
  let acquisitionMode ← u8
  if acquisitionMode ≠ 1 ∧ acquisitionMode ≠ 2 then
    throw (newError .invalidField s!"acquisition mode {acquisitionMode}")
  let initialFromMSC ← i64
  let capabilityFlags ← u32
  return { producerInstanceID, producerSessionID, producerBuildID, mqlCompilerBuild, terminalBuild,
           osContract, clockAPIID, providerID, stableFeedID, brokerServerFingerprint,
           exactSourceSymbol, sourceSchemaID, acquisitionMode, initialFromMSC, capabilityFlags }

def decodeResume : Reader ResumeV1 := do
  let acceptedProtocolVersion ← u16
  if acceptedProtocolVersion ≠ protocolVersion then
    throw (newError .invalidField s!"accepted protocol version {acceptedProtocolVersion}")
  let gatewayInstanceID ← string
  let sessionLeaseID ← string
  let committedCursorMSC ← i64
  let committedBoundaryDigest ← hash
  let lastDurableBatchSequence ← u64
  let lastDurableBatchHash ← hash
  let nextFromMSC ← i64
  let nextRequestedCount ← u32
  let maximumFrameBytes ← u32
  let maximumRecords ← u32
  let heartbeatIdleTimeoutMS ← u32
  return { acceptedProtocolVersion, gatewayInstanceID, sessionLeaseID, committedCursorMSC,
           committedBoundaryDigest, lastDurableBatchSequence, lastDurableBatchHash, nextFromMSC,
           nextRequestedCount, maximumFrameBytes, maximumRecords, heartbeatIdleTimeoutMS }

def decodeRecord : Reader RawMqlTickV1 := do
  let time ← i64
  let bidBits ← u64
  let askBits ← u64
  let lastBits ← u64
  let volume ← u64
  let timeMSC ← i64
  let flags ← u32
  let volumeRealBits ← u64
  let captureSequence ← u64
  return { time, bidBits, askBits, lastBits, volume, timeMSC, flags, volumeRealBits, captureSequence }

def decodeRecords : Nat → Reader (List RawMqlTickV1)
  | 0 => return []
  | n + 1 => do
    let record ← decodeRecord
    let records ← decodeRecords n
    return record :: records

def decodeBatch : Reader BatchFrameV1 := do
  let sessionLeaseID ← string
  let producerSessionID ← string
  let batchSequence ← u64
  let requestedFromMSC ← i64
  let requestedCount ← u32
  let fetchWallStartS ← i64
  let fetchWallEndS ← i64
  let fetchMonotonicStartUS ← u64
  let fetchMonotonicEndUS ← u64
  let returnedCount ← i32
  let copyTicksError ← i32
  let sourceStatusFlags ← u32
  let sourceSchemaID ← string
  if sourceSchemaID ≠ sourceSchemaMT5 then
    throw (newQuotedError .invalidField "source schema " sourceSchemaID)
  let count ← u32
  if count > maxRecords then
    throw (newError .invalidField s!"record count {count}")
  let records ← decodeRecords count.toNat
  if 0 ≤ returnedCount ∧ returnedCount ≠ count.toInt32 then
    throw (newError .invalidField s!"returned count {returnedCount} does not match {count} records")
  if returnedCount < 0 ∧ count ≠ 0 then
    throw (newError .invalidField "negative returned count has records")
  return { sessionLeaseID, producerSessionID, batchSequence, requestedFromMSC, requestedCount,
           fetchWallStartS, fetchWallEndS, fetchMonotonicStartUS, fetchMonotonicEndUS,
           returnedCount, copyTicksError, sourceStatusFlags, sourceSchemaID, records }

def decodeAck : Reader AckV1 := do
  let producerSessionID ← string
  let batchSequence ← u64
  let gatewayBatchSHA256 ← hash
  let gatewayIngestSequence ← u64
  let status ← u8
  if status < 1 ∨ status > 9 then
    throw (newError .invalidField s!"ack status {status}")
  let committedCursorMSC ← i64
  let committedBoundaryDigest ← hash
  let nextFromMSC ← i64
  let nextRequestedCount ← u32
  let retryAfterMS ← u32
  return { producerSessionID, batchSequence, gatewayBatchSHA256, gatewayIngestSequence, status,
           committedCursorMSC, committedBoundaryDigest, nextFromMSC, nextRequestedCount, retryAfterMS }

def decodeError : Reader ErrorV1 := do
  let code ← u16
  if code < 1 ∨ code > 10 then
    throw (newError .invalidField s!"error code {code}")
  let retryable ← u8
  if retryable > 1 then
    throw (newError .invalidField s!"retryable {retryable}")
  let relatedMessageType ← u16
  if relatedMessageType > messageError then
    throw (newError .invalidField s!"related message type {relatedMessageType}")
  let relatedBatchSequence ← u64
  let message ← string
  return { code, retryable, relatedMessageType, relatedBatchSequence, message }

/-- A payload must be used up by its message. -/
def whole {α : Type} (decode : Reader α) (payload : Bytes) : Except ProtocolError α := do
  let (value, rest) ← decode payload
  let _ ← done rest
  return value

def decodeMessage (frame : Frame) : Except ProtocolError Message :=
  let messageType := frame.messageType
  if messageType = messageHello then Message.hello <$> whole decodeHello frame.payload
  else if messageType = messageResume then Message.resume <$> whole decodeResume frame.payload
  else if messageType = messageBatch then Message.batch <$> whole decodeBatch frame.payload
  else if messageType = messageAck then Message.ack <$> whole decodeAck frame.payload
  else if messageType = messageError then Message.error <$> whole decodeError frame.payload
  else .error (newError .unknownMessage s!"message type {messageType}")

inductive BatchError
  | frame (err : ProtocolError)
  | message (err : ProtocolError)
  | notBatch
deriving DecidableEq, Repr

/-- `DecodeFrame`, `DecodeMessage` and the assertion to `BatchFrameV1`, as the WAL and the gateway
chain them. -/
def decodeBatchFrame (H : Hashes) (raw : Bytes) : Except BatchError BatchFrameV1 :=
  match decodeFrame H raw with
  | .error err => .error (.frame err)
  | .ok frame =>
    match decodeMessage frame with
    | .error err => .error (.message err)
    | .ok (.batch value) => .ok value
    | .ok _ => .error .notBatch

/-! ## Derived hashes -/

def hexBytes (b : Bytes) : Bytes := b.flatMap fun x => (hexByte x).map fun c => UInt8.ofNat c.toNat

def deriveSessionLeaseID (H : Hashes) (producerInstanceID producerSessionID providerID stableFeedID
    brokerServerFingerprint exactSourceSymbol : Bytes) : Bytes :=
  let data := List.intercalate [0] [ascii "tick-data-platform/lease/v1", producerInstanceID,
    producerSessionID, providerID, stableFeedID, brokerServerFingerprint, exactSourceSymbol]
  ascii "lease-" ++ hexBytes ((H.sha256 data).bytes.take 16)

def sourcePayloadFingerprint (H : Hashes) (record : RawMqlTickV1) : Digest :=
  H.sha256 (ascii "tick-data-platform/source-payload/v1\x00" ++
    (putUint16 (UInt16.ofNat sourceSchemaMT5.length) ++ sourceSchemaMT5) ++
    putInt64 record.time ++ putUint64 record.bidBits ++ putUint64 record.askBits ++
    putUint64 record.lastBits ++ putUint64 record.volume ++ putInt64 record.timeMSC ++
    putUint32 record.flags ++ putUint64 record.volumeRealBits)

def gatewayBatchSHA256 (H : Hashes) (frame : Bytes) : Digest :=
  H.sha256 (ascii "tick-data-platform/batch/v1\x00" ++ frame)

def walEntryHash (H : Hashes) (sequence : UInt64) (previous : Digest) (receiveWallS : Int64)
    (receiveMonotonicUS : UInt64) (batchHash : Digest) (frame : Bytes) : Digest :=
  H.sha256 (ascii "tick-data-platform/wal-entry/v1\x00" ++ putUint64 sequence ++ previous.bytes ++
    putInt64 receiveWallS ++ putUint64 receiveMonotonicUS ++ batchHash.bytes ++ frame)

def boundaryDigest (H : Hashes) (cursorMSC : Int64) (previous : Digest)
    (records : List RawMqlTickV1) : Digest :=
  H.sha256 (ascii "tick-data-platform/boundary/v1\x00" ++ putInt64 cursorMSC ++ previous.bytes ++
    putUint32 (UInt32.ofNat records.length) ++
    records.flatMap fun record => (sourcePayloadFingerprint H record).bytes)

end TickPlatform.Protocol
