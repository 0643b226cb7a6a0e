import TickPlatform.Ingest.Framing
import TickPlatform.Ingest.Gateway
import TickPlatform.Protocol.Runes

/-!
# A connection from its first frame to its last

`HandleConn` reads a hello and then batches, and answers each of them. An error ends the connection, and `writeError`
tells the producer about it in at most 255 bytes of text. It cuts the text between two bytes, which may be the bytes of
one character; such a text is not written, and the producer is told nothing.
-/

namespace TickPlatform.Ingest

open Bytes Protocol Crash Wal Journal

/-! ## The text of an error -/

/-- `strconv.IsPrint`. It decides on Latin-1 by itself, and on the rest of Unicode by a table. -/
def isPrint (table : Nat → Bool) (r : Nat) : Bool :=
  if r ≤ 0xFF then (0x20 ≤ r && r < 0x7F) || (0xA1 ≤ r && r != 0xAD) else table r

/-- The lower-case hexadecimal digits of a number, `width` bytes of it. -/
def hexDigits (width r : Nat) : Bytes := hexBytes (putLE width r).reverse

/-- `appendEscapedRune` of `strconv`, for a double-quoted string. -/
def quoteRune (table : Nat → Bool) (r : Nat) : Bytes :=
  if r = 0x22 ∨ r = 0x5C then [0x5C, UInt8.ofNat r]
  else if isPrint table r then writeRune r
  else if r = 0x07 then ascii "\\a"
  else if r = 0x08 then ascii "\\b"
  else if r = 0x0C then ascii "\\f"
  else if r = 0x0A then ascii "\\n"
  else if r = 0x0D then ascii "\\r"
  else if r = 0x09 then ascii "\\t"
  else if r = 0x0B then ascii "\\v"
  else if r < 0x20 ∨ r = 0x7F then ascii "\\x" ++ hexDigits 1 r
  else if r < 0x10000 then ascii "\\u" ++ hexDigits 2 r
  else ascii "\\U" ++ hexDigits 4 r

/-- The runes of a string in turn; a byte that starts none is written as a number. -/
def quoteRunes (table : Nat → Bool) : Nat → Bytes → Bytes
  | 0, _ => []
  | _ + 1, [] => []
  | n + 1, b :: rest =>
    match decodeRune (b :: rest) with
    | some (r, width) => quoteRune table r ++ quoteRunes table n ((b :: rest).drop width)
    | none => ascii "\\x" ++ hexDigits 1 b.toNat ++ quoteRunes table n rest

/-- Go's `%q` of a string. -/
def quote (table : Nat → Bool) (value : Bytes) : Bytes := [0x22] ++ quoteRunes table value.length value ++ [0x22]

/-- An error as `writeError` sees it: the code that `errors.As` finds in it, and its text. -/
structure ErrorValue where
  code : Option ErrorCode
  text : Bytes
deriving DecidableEq

def protocolValue (table : Nat → Bool) (err : ProtocolError) : ErrorValue where
  code := some err.code
  text := utf8 err.text ++ (err.quoted.map (quote table)).getD []

/-- The errors of the stores come from the system and its drivers; a frame of the WAL gives an error of the protocol. -/
def errorValue (table : Nat → Bool) (storage : IngestError → ErrorValue) : IngestError → ErrorValue
  | .protocol err => protocolValue table err
  | .frame (.frame err) => protocolValue table err
  | .frame (.message err) => protocolValue table err
  | err => storage err

/-! ## `writeError` -/

def errorCodeOf (err : ErrorValue) : ErrorCode := err.code.getD .internalRetryable

def errorCodeNumber : ErrorCode → UInt16
  | .invalidFrame => 1
  | .unsupportedVersion => 2
  | .unknownMessage => 3
  | .truncatedFrame => 4
  | .oversizedFrame => 5
  | .crcMismatch => 6
  | .invalidField => 7
  | .sourceStateConflict => 8
  | .sessionLeaseConflict => 9
  | .internalRetryable => 10

/-- The message for an error. -/
def errorMessage (relatedType : MessageType) (sequence : UInt64) (err : ErrorValue) : ErrorV1 where
  code := errorCodeNumber (errorCodeOf err)
  retryable := if errorCodeOf err = .internalRetryable ∨ errorCodeOf err = .sessionLeaseConflict then 1 else 0
  relatedMessageType := relatedType
  relatedBatchSequence := sequence
  message := if err.text.length > maxStringBytes.toNat then err.text.take maxStringBytes.toNat else err.text

/-- The bytes for the connection, or the error for which there are none. -/
def writeError (H : Hashes) (relatedType : MessageType) (sequence : UInt64) (err : ErrorValue) :
    Except ProtocolError Bytes :=
  encodeMessage H (.error (errorMessage relatedType sequence err))

/-! ## `HandleConn` -/

/-- A call of `writeError`. -/
structure Report where
  relatedType : MessageType
  sequence : UInt64
  err : IngestError

/-- What the handler passes on to the connection. -/
inductive Sent
  | resume (value : ResumeV1)
  | ack (value : AckV1)
  | error (report : Report)

/-- What a call of the handler finds: other connections may have run since its last one. A journal that cannot be read
is in `fault`. -/
structure Moment where
  gateway : Gateway
  durable : Durable
  surroundings : Surroundings
  fault : Option JournalError

/-- The steps with which a hello and a batch begin. Nothing is sent about a header that did not pass. -/
def readMessage (H : Hashes) (c : Config) (conn : Conn) : Except (Option Report) (Bytes × Frame × Message) × Conn :=
  match readFrame H c.maxFrameBytes conn with
  | (.error (raw, err), rest) => (.error (raw.map fun _ => ⟨0, 0, .protocol err⟩), rest)
  | (.ok raw, rest) =>
    match decodeFrame H raw with
    | .error err => (.error (some ⟨0, 0, .protocol err⟩), rest)
    | .ok frame =>
      match decodeMessage frame with
      | .error err => (.error (some ⟨frame.messageType, 0, .protocol err⟩), rest)
      | .ok message => (.ok (raw, frame, message), rest)

def Moment.startSession (H : Hashes) (c : Config) (m : Moment) (hello : HelloV1) :
    Except IngestError (ResumeV1 × Connection) :=
  match (Ingest.startSession H c m.gateway (m.durable.journal c) hello m.surroundings.now).2, m.fault with
  | .ok _, some err => .error (.lookup err)
  | result, _ => result

def Moment.acceptBatch (H : Hashes) (c : Config) (m : Moment) (session : Connection) (raw : Bytes)
    (batch : BatchFrameV1) : Except IngestError (AckV1 × Bool) :=
  match ((Ingest.acceptBatch H c m.gateway session raw batch m.surroundings).run m.durable).2, m.fault with
  | .ok _, some err => .error (.lookup err)
  | .ok (_, ack, terminal), none => .ok (ack, terminal)
  | .error (_, err), _ => .error err

/-- The loop over the batches. A message that cannot be written ends it. -/
def handleBatches (H : Hashes) (c : Config) (session : Connection) : List Moment → Conn → List Sent
  | [], _ => []
  | m :: moments, conn =>
    match readMessage H c conn with
    | (.error report, _) => report.toList.map .error
    | (.ok (raw, _, .batch batch), rest) =>
      match m.acceptBatch H c session raw batch with
      | .error err => [.error ⟨messageBatch, batch.batchSequence, err⟩]
      | .ok (ack, terminal) =>
        if (encodeMessage H (.ack ack)).toOption.isNone then []
        else .ack ack :: if terminal then [] else handleBatches H c session moments rest
    | (.ok (_, frame, _), _) =>
      [.error ⟨frame.messageType, 0, .protocol (newError .invalidField "producer message must be BatchFrameV1")⟩]

def handleConn (H : Hashes) (c : Config) (first : Moment) (moments : List Moment) (conn : Conn) : List Sent :=
  match readMessage H c conn with
  | (.error report, _) => report.toList.map .error
  | (.ok (_, _, .hello hello), rest) =>
    match first.startSession H c hello with
    | .error err => [.error ⟨messageHello, 0, err⟩]
    | .ok (resume, session) =>
      if (encodeMessage H (.resume resume)).toOption.isNone then []
      else .resume resume :: handleBatches H c session moments rest
  | (.ok (_, frame, _), _) =>
    [.error ⟨frame.messageType, 0, .protocol (newError .invalidField "first message must be HelloV1")⟩]

/-! ## What the producer is told -/

/-- The message type of a report is one that the decoder knows. -/
def Report.Related (report : Report) : Prop := ¬ report.relatedType > messageError

variable {H : Hashes}

theorem related_of_decodeFrame {raw : Bytes} {frame : Frame} (h : decodeFrame H raw = .ok frame)
    (sequence : UInt64) (err : IngestError) : Report.Related ⟨frame.messageType, sequence, err⟩ := by
  unfold decodeFrame at h
  extract_lets size frameLength version messageType want got wantHex gotHex at h
  simp only [ite_error_eq_ok] at h
  obtain ⟨-, -, -, -, -, -, -, -, htype, -, h⟩ := h
  cases h
  exact fun hlarge => htype (.inr hlarge)

/-- A message is sent about a frame that was accepted, or about none. -/
def Accepted (H : Hashes) : Except (Option Report) (Bytes × Frame × Message) → Prop
  | .error report => ∀ r ∈ report, r.Related
  | .ok (raw, frame, _) => decodeFrame H raw = .ok frame

theorem readMessage_accepted (H : Hashes) (c : Config) (conn : Conn) : Accepted H (readMessage H c conn).1 := by
  have hnone : ∀ err, Report.Related ⟨0, 0, err⟩ := by
    intro err
    show ¬ (0 : UInt16) > messageError
    decide
  unfold readMessage
  split
  next raw err rest hread =>
    intro r hr
    obtain ⟨-, -, rfl⟩ := Option.mem_map.mp hr
    exact hnone _
  next raw rest hread =>
    split
    next err hframe =>
      rintro r ⟨⟩
      exact hnone _
    next frame hframe =>
      split
      next err hmessage =>
        rintro r ⟨⟩
        exact related_of_decodeFrame hframe 0 _
      next message hmessage => exact hframe

theorem mem_reports {report : Option Report} {r : Report} (h : Sent.error r ∈ report.toList.map Sent.error) :
    r ∈ report := by
  obtain ⟨r', hr', ⟨⟩⟩ := List.mem_map.mp h
  exact Option.mem_toList.mp hr'

theorem handleBatches_related {c : Config} {session : Connection} {moments : List Moment} {conn : Conn}
    {report : Report} (h : .error report ∈ handleBatches H c session moments conn) : report.Related := by
  induction moments generalizing conn with
  | nil => cases h
  | cons m moments ih =>
    have haccepted := readMessage_accepted H c conn
    unfold handleBatches at h
    split at h
    next reports rest hread =>
      rw [hread] at haccepted
      exact haccepted report (mem_reports h)
    next raw frame batch rest hread =>
      split at h
      next err haccept =>
        cases List.mem_singleton.mp h
        show ¬ messageBatch > messageError
        decide
      next ack terminal haccept =>
        split at h
        · cases h
        · rcases List.mem_cons.mp h with hack | h
          · cases hack
          · split at h
            · cases h
            · exact ih h
    next raw frame message rest hother hread =>
      rw [hread] at haccepted
      cases List.mem_singleton.mp h
      exact related_of_decodeFrame haccepted 0 _

theorem handleConn_related {c : Config} {first : Moment} {moments : List Moment} {conn : Conn}
    {report : Report} (h : .error report ∈ handleConn H c first moments conn) : report.Related := by
  have haccepted := readMessage_accepted H c conn
  unfold handleConn at h
  split at h
  next reports rest hread =>
    rw [hread] at haccepted
    exact haccepted report (mem_reports h)
  next raw frame hello rest hread =>
    split at h
    next err hstart =>
      cases List.mem_singleton.mp h
      show ¬ messageHello > messageError
      decide
    next resume session hstart =>
      split at h
      · cases h
      · rcases List.mem_cons.mp h with hresume | h
        · cases hresume
        · exact handleBatches_related h
  next raw frame message rest hother hread =>
    rw [hread] at haccepted
    cases List.mem_singleton.mp h
    exact related_of_decodeFrame haccepted 0 _

/-! ## Whether it arrives -/

/-- The bytes of a report are one frame, and are read as the error that it is about. -/
def Report.Arrives (H : Hashes) (report : Report) (err : ErrorValue) : Prop :=
  ∃ raw frame value, writeError H report.relatedType report.sequence err = .ok raw ∧ decodeFrame H raw = .ok frame ∧
    decodeMessage frame = .ok (.error value) ∧ value.code = errorCodeNumber (errorCodeOf err) ∧
    value.relatedMessageType = report.relatedType ∧ value.relatedBatchSequence = report.sequence

theorem errorMessage_message (relatedType : MessageType) (sequence : UInt64) (err : ErrorValue) :
    (errorMessage relatedType sequence err).message = err.text.take 255 := by
  show (if err.text.length > 255 then err.text.take 255 else err.text) = err.text.take 255
  split
  · rfl
  · rw [List.take_of_length_le (by omega)]

theorem errorMessage_encodable (relatedType : MessageType) (sequence : UInt64) (err : ErrorValue) :
    (errorMessage relatedType sequence err).Encodable ↔ utf8Valid (err.text.take 255) = true := by
  constructor
  · intro h
    rw [← errorMessage_message relatedType sequence err]
    exact h.message.1
  · intro h
    refine ⟨?_, ?_, ?_⟩
    · show ¬ (errorCodeNumber (errorCodeOf err) < 1 ∨ errorCodeNumber (errorCodeOf err) > 10)
      cases errorCodeOf err <;> decide
    · show ¬ (if errorCodeOf err = .internalRetryable ∨ errorCodeOf err = .sessionLeaseConflict then 1 else 0 : UInt8) > 1
      split <;> decide
    · rw [errorMessage_message]
      exact ⟨h, List.length_take_le _ _⟩

/-- An error arrives if and only if the first 255 bytes of its text are whole characters. -/
theorem error_arrives_iff {H : Hashes} {c : Config} {first : Moment} {moments : List Moment} {conn : Conn}
    {report : Report} (table : Nat → Bool) (storage : IngestError → ErrorValue)
    (h : .error report ∈ handleConn H c first moments conn) :
    report.Arrives H (errorValue table storage report.err) ↔
      utf8Valid ((errorValue table storage report.err).text.take 255) = true := by
  generalize errorValue table storage report.err = err
  rw [← errorMessage_encodable report.relatedType report.sequence err]
  constructor
  · rintro ⟨raw, -, -, hwrite, -⟩
    exact (encodeMessage_eq_ok.mp hwrite).1
  · intro hencodable
    have hmessage : Message.Encodable (.error (errorMessage report.relatedType report.sequence err)) := hencodable
    have hreadable : Message.Readable (.error (errorMessage report.relatedType report.sequence err)) := handleConn_related h
    obtain ⟨frame, hframe, hdecoded⟩ := decode_messageFrame H hmessage hreadable
    exact ⟨_, frame, _, encodeMessage_eq_ok.mpr ⟨hmessage, rfl⟩, hframe, hdecoded, rfl, rfl, rfl⟩

/-- A connection on which one message arrives. -/
def connOf (m : Message) : Conn := ⟨[messageFrame Hashes.sample m], none⟩

theorem readMessage_connOf {m : Message} (h : (readMessage Hashes.sample defaultConfig (connOf m)).1.toOption.any
    (fun read => read.2.2 = m) = true) :
    ∃ raw frame rest, readMessage Hashes.sample defaultConfig (connOf m) = (.ok (raw, frame, m), rest) := by
  obtain ⟨⟨raw, frame, message⟩, hread, hm⟩ := exists_ok_of_any h
  cases of_decide_eq_true hm
  exact ⟨raw, frame, _, Prod.ext hread rfl⟩

theorem error_arrives_first : ∃ report, ∀ first moments table storage,
    .error report ∈ handleConn Hashes.sample defaultConfig first moments (connOf (.error fieldError)) ∧
      report.Arrives Hashes.sample (errorValue table storage report.err) := by
  obtain ⟨raw, frame, rest, hread⟩ := readMessage_connOf (m := .error fieldError) (by decide +kernel)
  refine ⟨⟨frame.messageType, 0, .protocol (newError .invalidField "first message must be HelloV1")⟩, ?_⟩
  intro first moments table storage
  have hmem : .error ⟨frame.messageType, 0, .protocol (newError .invalidField "first message must be HelloV1")⟩ ∈
      handleConn Hashes.sample defaultConfig first moments (connOf (.error fieldError)) := by
    unfold handleConn
    rw [hread]
    exact List.mem_singleton_self _
  have htext : utf8Valid ((utf8 (newError .invalidField "first message must be HelloV1").text).take 255) = true := by
    decide +kernel
  rw [← List.append_nil (utf8 _)] at htext
  exact ⟨hmem, (error_arrives_iff table storage hmem).mpr htext⟩

/-- A hello with a source schema of 107 accented letters. -/
def accentedHello : HelloV1 where
  producerInstanceID := ascii "producer"
  producerSessionID := ascii "session"
  producerBuildID := []
  mqlCompilerBuild := []
  terminalBuild := []
  osContract := []
  clockAPIID := []
  providerID := []
  stableFeedID := []
  brokerServerFingerprint := []
  exactSourceSymbol := ascii "EURUSD"
  sourceSchemaID := (List.replicate 107 [0xC3, 0xA9]).flatten
  acquisitionMode := 1
  initialFromMSC := 0
  capabilityFlags := 0

/-- The error about its schema is cut inside a letter, and nothing is written. The letter is in Latin-1, for which
`IsPrint` asks no table. -/
theorem accented_schema_is_not_told : ∃ report, ∀ first moments storage,
    .error report ∈ handleConn Hashes.sample defaultConfig first moments (connOf (.hello accentedHello)) ∧
      writeError Hashes.sample report.relatedType report.sequence (errorValue (fun _ => false) storage report.err) =
        .error (newError .invalidField "string is not UTF-8") ∧
      ¬ report.Arrives Hashes.sample (errorValue (fun _ => false) storage report.err) := by
  obtain ⟨raw, frame, rest, hread⟩ := readMessage_connOf (m := .hello accentedHello) (by decide +kernel)
  let err : IngestError :=
    .protocol (newQuotedError .invalidField "unsupported source schema " accentedHello.sourceSchemaID)
  have hvalidate : validateHello defaultConfig accentedHello = .error err := by decide +kernel
  refine ⟨⟨messageHello, 0, err⟩, ?_⟩
  intro first moments storage
  have hstart : first.startSession Hashes.sample defaultConfig accentedHello = .error err := by
    unfold Moment.startSession startSession
    rw [hvalidate]
  have hmem : .error ⟨messageHello, 0, err⟩ ∈
      handleConn Hashes.sample defaultConfig first moments (connOf (.hello accentedHello)) := by
    unfold handleConn
    rw [hread]
    simp only [hstart]
    exact List.mem_singleton_self _
  have hwrite : writeError Hashes.sample messageHello 0 (protocolValue (fun _ => false)
      (newQuotedError .invalidField "unsupported source schema " accentedHello.sourceSchemaID)) =
      .error (newError .invalidField "string is not UTF-8") := by
    decide +kernel
  refine ⟨hmem, hwrite, ?_⟩
  rintro ⟨raw', -, -, hwritten, -⟩
  cases hwrite.symm.trans hwritten

/-! ## However the stream is cut -/

/-- The same bytes and the same end are to come, in whatever pieces. -/
def Alike (conn other : Conn) : Prop := conn.bytes = other.bytes ∧ conn.failure = other.failure

def ReadsAlike {α : Type} (read : Conn → α × Conn) : Prop := ∀ conn other, Alike conn other →
  ∃ result rest rest', read conn = (result, rest) ∧ read other = (result, rest') ∧ Alike rest rest'

theorem readFull_alike (size : Nat) : ReadsAlike fun conn => conn.readFull size := by
  intro conn other ⟨hbytes, hfailure⟩
  refine ⟨conn.bytes.take size, _, _, Prod.ext (conn.readFull_fst size) rfl,
    Prod.ext (hbytes ▸ other.readFull_fst size) rfl, ?_, hfailure⟩
  rw [Conn.bytes_readFull, Conn.bytes_readFull, hbytes]

theorem readBody_alike (header : Bytes) (frameLength : Nat) : ReadsAlike (readBody H header frameLength) := by
  intro conn other h
  obtain ⟨body, rest, rest', hread, hother, hrest⟩ := readFull_alike (frameLength - 16) conn other h
  simp only [readBody, Conn.shortRead, hread, hother, h.2]
  repeat' split
  all_goals exact ⟨_, _, _, rfl, rfl, hrest⟩

theorem readFrame_alike (maximum : UInt32) : ReadsAlike (readFrame H maximum) := by
  intro conn other h
  obtain ⟨header, rest, rest', hread, hother, hrest⟩ := readFull_alike 16 conn other h
  simp only [readFrame, Conn.shortRead, hread, hother, h.2]
  repeat' split
  all_goals first | exact readBody_alike _ _ _ _ hrest | exact ⟨_, _, _, rfl, rfl, hrest⟩

theorem readMessage_alike (c : Config) : ReadsAlike (readMessage H c) := by
  intro conn other h
  obtain ⟨result, rest, rest', hread, hother, hrest⟩ := readFrame_alike (H := H) c.maxFrameBytes conn other h
  simp only [readMessage, hread, hother]
  cases result with
  | error err => exact ⟨_, _, _, rfl, rfl, hrest⟩
  | ok raw =>
    dsimp only
    repeat' split
    all_goals exact ⟨_, _, _, rfl, rfl, hrest⟩

theorem handleBatches_alike (c : Config) (session : Connection) (moments : List Moment) {conn other : Conn}
    (h : Alike conn other) : handleBatches H c session moments conn = handleBatches H c session moments other := by
  induction moments generalizing conn other with
  | nil => rfl
  | cons m moments ih =>
    obtain ⟨result, rest, rest', hread, hother, hrest⟩ := readMessage_alike (H := H) c conn other h
    rw [handleBatches, handleBatches, hread, hother]
    rcases result with report | ⟨raw, frame, message⟩
    · rfl
    · cases message <;> simp only [ih hrest]

/-- **How the network cuts the stream makes no difference**: the producer is sent what it would be sent if all its bytes
came at once. -/
theorem handleConn_of_pieces (H : Hashes) (c : Config) (first : Moment) (moments : List Moment) (pieces : List Bytes)
    (failure : Option String) :
    handleConn H c first moments ⟨pieces, failure⟩ = handleConn H c first moments ⟨[pieces.flatten], failure⟩ := by
  obtain ⟨result, rest, rest', hread, hother, hrest⟩ :=
    readMessage_alike (H := H) c ⟨pieces, failure⟩ ⟨[pieces.flatten], failure⟩ ⟨by simp [Conn.bytes], rfl⟩
  rw [handleConn, handleConn, hread, hother]
  rcases result with report | ⟨raw, frame, message⟩
  · rfl
  · cases message <;> simp only [handleBatches_alike c _ moments hrest]

end TickPlatform.Ingest
