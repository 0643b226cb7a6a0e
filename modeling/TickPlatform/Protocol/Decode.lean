import TickPlatform.Protocol.Json

/-!
# Decoding canonical JSON

`DecodeCanonicalJSON`: a parser for the value set, and the check that the bytes are the canonical encoding of what
was parsed. The fields of a decoded object are read by the strict accessors below. Offsets are left out of the error
texts.
-/

namespace TickPlatform.Protocol

open Bytes

/-! ## The parser -/

def skipWhitespace : Bytes → Bytes
  | [] => []
  | b :: rest => if b = 32 ∨ b = 9 ∨ b = 13 ∨ b = 10 then skipWhitespace rest else b :: rest

def parseLiteral (literal : String) (value : Json) (data : Bytes) : Except String (Json × Bytes) :=
  if (utf8 literal).isPrefixOf data then .ok (value, data.drop (utf8 literal).length)
  else .error "invalid JSON literal"

def parseHexDigit (b : UInt8) : Option Nat :=
  if 48 ≤ b ∧ b ≤ 57 then some (b.toNat - 48)
  else if 97 ≤ b ∧ b ≤ 102 then some (b.toNat - 87)
  else if 65 ≤ b ∧ b ≤ 70 then some (b.toNat - 55)
  else none

def parseHex4 (data : Bytes) : Except String (Nat × Bytes) := do
  reject (data.length < 4) "truncated JSON unicode escape"
  let value ← ((data.take 4).foldlM (fun acc b => (parseHexDigit b).map fun digit => acc * 16 + digit) 0).elim
    (.error "invalid JSON unicode escape") .ok
  return (value, data.drop 4)

/-- The UTF-8 bytes of a rune. -/
def writeRune (r : Nat) : Bytes :=
  if r < 0x80 then [UInt8.ofNat r]
  else if r < 0x800 then [UInt8.ofNat (0xC0 + r / 64), UInt8.ofNat (0x80 + r % 64)]
  else if r < 0x10000 then
    [UInt8.ofNat (0xE0 + r / 4096), UInt8.ofNat (0x80 + r / 64 % 64), UInt8.ofNat (0x80 + r % 64)]
  else
    [UInt8.ofNat (0xF0 + r / 262144), UInt8.ofNat (0x80 + r / 4096 % 64), UInt8.ofNat (0x80 + r / 64 % 64),
      UInt8.ofNat (0x80 + r % 64)]

/-- The escape behind `\u`, two of them for a surrogate pair. -/
def parseUnicodeEscape (data : Bytes) : Except String (Bytes × Bytes) := do
  let (unit, rest) ← parseHex4 data
  if 0xD800 ≤ unit ∧ unit ≤ 0xDBFF then do
    reject (rest.length < 6 ∨ rest.take 2 ≠ utf8 "\\u") "unpaired high surrogate in JSON string"
    let (low, rest) ← (parseHex4 (rest.drop 2)).mapError fun _ => "invalid UTF-16 surrogate pair in JSON string"
    reject (low < 0xDC00 ∨ low > 0xDFFF) "invalid UTF-16 surrogate pair in JSON string"
    return (writeRune (0x10000 + (unit - 0xD800) * 1024 + (low - 0xDC00)), rest)
  else do
    reject (0xDC00 ≤ unit ∧ unit ≤ 0xDFFF) "unpaired low surrogate in JSON string"
    return (writeRune unit, rest)

def parseEscape (data : Bytes) : Except String (Bytes × Bytes) :=
  match data with
  | [] => .error "unterminated JSON escape"
  | b :: rest =>
    if b = 34 ∨ b = 92 ∨ b = 47 then .ok ([b], rest)
    else if b = 98 then .ok ([8], rest)
    else if b = 102 then .ok ([12], rest)
    else if b = 110 then .ok ([10], rest)
    else if b = 114 then .ok ([13], rest)
    else if b = 116 then .ok ([9], rest)
    else if b = 117 then parseUnicodeEscape rest
    else .error "invalid JSON escape"

/-- Control characters other than tab, line feed and carriage return. -/
def isForbiddenControl (b : UInt8) : Bool := b < 0x20 ∧ b ≠ 9 ∧ b ≠ 10 ∧ b ≠ 13

/-- What follows the opening quote; every round takes a byte, so the length is fuel enough. -/
def parseStringBody : Nat → Bytes → Bytes → Except String (Bytes × Bytes)
  | 0, _, _ => .error "unterminated JSON string"
  | _ + 1, _, [] => .error "unterminated JSON string"
  | n + 1, out, b :: rest =>
    if b = 34 then .ok (out, rest)
    else if b = 92 then do
      let (text, rest) ← parseEscape rest
      parseStringBody n (out ++ text) rest
    else if isForbiddenControl b then .error "unescaped JSON control character"
    else if b < 0x80 then parseStringBody n (out ++ [b]) rest
    else
      match runeWidth (b :: rest) with
      | none => .error "invalid UTF-8 in JSON string"
      | some width => parseStringBody n (out ++ (b :: rest).take width) ((b :: rest).drop width)

def parseString (data : Bytes) : Except String (Bytes × Bytes) :=
  match data with
  | 34 :: rest => parseStringBody rest.length [] rest
  | _ => .error "expected JSON string"

def isDigit (b : UInt8) : Bool := 48 ≤ b ∧ b ≤ 57

def decimal (digits : Bytes) : Nat := digits.foldl (fun acc b => acc * 10 + (b.toNat - 48)) 0

/-- The digits of an integer without its sign. -/
def parseDigits (data : Bytes) : Except String (Bytes × Bytes) :=
  let digits := data.takeWhile isDigit
  if digits = [] then .error "invalid JSON integer"
  else if digits.head? = some 48 ∧ 1 < digits.length then .error "JSON integer has a leading zero"
  else .ok (digits, data.drop digits.length)

def checkIntegerEnd (rest : Bytes) : Except String Unit :=
  reject (rest.head? = some 46 ∨ rest.head? = some 101 ∨ rest.head? = some 69) "canonical JSON accepts integers only"

/-- Negative numbers are `int64`, the others `uint64`. -/
def parseInteger (data : Bytes) : Except String (Json × Bytes) :=
  match data with
  | 45 :: digits => do
    reject (digits = []) "truncated JSON integer"
    let (digits, rest) ← parseDigits digits
    checkIntegerEnd rest
    reject (decimal digits = 0) "negative zero is not canonical JSON"
    reject (decimal digits > 2 ^ 63) "JSON integer is outside signed 64-bit range"
    return (.int (-(decimal digits : Int)), rest)
  | _ => do
    let (digits, rest) ← parseDigits data
    checkIntegerEnd rest
    reject (decimal digits ≥ 2 ^ 64) "JSON integer is outside unsigned 64-bit range"
    return (.int (decimal digits), rest)

mutual

def parseValue : Nat → Bytes → Except String (Json × Bytes)
  | 0, _ => .error "canonical JSON ended before a value"
  | n + 1, data =>
    match skipWhitespace data with
    | [] => .error "canonical JSON ended before a value"
    | b :: rest =>
      if b = 110 then parseLiteral "null" .null (b :: rest)
      else if b = 116 then parseLiteral "true" (.bool true) (b :: rest)
      else if b = 102 then parseLiteral "false" (.bool false) (b :: rest)
      else if b = 34 then do
        let (text, rest) ← parseString (b :: rest)
        return (.string text, rest)
      else if b = 91 then
        match skipWhitespace rest with
        | 93 :: rest => .ok (.array [], rest)
        | rest => do
          let (items, rest) ← parseItems n [] rest
          return (.array items, rest)
      else if b = 123 then
        match skipWhitespace rest with
        | 125 :: rest => .ok (.object [], rest)
        | rest => do
          let (fields, rest) ← parseMembers n [] rest
          return (.object fields, rest)
      else if b = 45 ∨ isDigit b then parseInteger (b :: rest)
      else .error "invalid JSON value"

def parseItems : Nat → List Json → Bytes → Except String (List Json × Bytes)
  | 0, _, _ => .error "canonical JSON ended before a value"
  | n + 1, items, data => do
    let (item, rest) ← parseValue n data
    match skipWhitespace rest with
    | 93 :: rest => .ok (items ++ [item], rest)
    | 44 :: rest => parseItems n (items ++ [item]) rest
    | _ => .error "expected comma in JSON array"

def parseMembers : Nat → List (Bytes × Json) → Bytes → Except String (List (Bytes × Json) × Bytes)
  | 0, _, _ => .error "object key must be a JSON string"
  | n + 1, fields, data =>
    match skipWhitespace data with
    | 34 :: rest => do
      let (key, rest) ← parseString (34 :: rest)
      reject (fields.any fun field => field.1 = key) "duplicate JSON object key"
      match skipWhitespace rest with
      | 58 :: rest => do
        let (value, rest) ← parseValue n rest
        match skipWhitespace rest with
        | 125 :: rest => .ok (fields ++ [(key, value)], rest)
        | 44 :: rest => parseMembers n (fields ++ [(key, value)]) rest
        | _ => .error "expected comma in JSON object"
      | _ => .error "expected colon after JSON object key"
    | _ => .error "object key must be a JSON string"

end

/-- A value and each of its members take at least one byte, so the length bounds the nesting. -/
def decodeCanonicalJSON (data : Bytes) : Except String Json := do
  reject ([0xEF, 0xBB, 0xBF].isPrefixOf data) "canonical JSON must not contain a BOM"
  reject (!utf8Valid data) "canonical JSON is not valid UTF-8"
  let (value, rest) ← parseValue (2 * data.length + 1) data
  reject (skipWhitespace rest ≠ []) "canonical JSON has trailing bytes"
  let canonical ← canonicalJSON value
  reject (canonical ≠ data) "canonical JSON bytes are not canonical"
  return value

theorem canonicalJSON_of_decode {data : Bytes} {value : Json} (h : decodeCanonicalJSON data = .ok value) :
    canonicalJSON value = .ok data := by
  simp only [decodeCanonicalJSON, bind_eq_ok, pure_eq_ok, reject_eq_ok, not_not] at h
  obtain ⟨_, -, _, -, ⟨parsed, rest⟩, -, _, -, canonical, hcanonical, _, rfl, rfl⟩ := h
  exact hcanonical

example : ((decodeCanonicalJSON (utf8 "\x7b\"a\":\"\\u00e9\\\"\",\"b\":[null,-7]\x7d")).bind canonicalJSON).toOption =
    some (utf8 "\x7b\"a\":\"\\u00e9\\\"\",\"b\":[null,-7]\x7d") := by decide

/-! ## Accessors -/

abbrev JsonFields := List (Bytes × Json)

def objectFields (value : Json) (err : String) : Except String JsonFields :=
  match value with
  | .object fields => .ok fields
  | _ => .error err

def arrayItems (value : Option Json) (err : String) : Except String (List Json) :=
  match value with
  | some (.array items) => .ok items
  | _ => .error err

/-- The map of the source ranges in any order; here the first key that is wrong is reported. -/
def requireExactKeys (fields : JsonFields) (expected : List String) : Except String Unit := do
  reject (fields.any fun field => !(expected.any fun key => utf8 key = field.1)) "unknown JSON key"
  reject (expected.any fun key => (fields.lookup (utf8 key)).isNone) "missing JSON key"

def stringValue (fields : JsonFields) (key : String) : Except String Bytes :=
  match fields.lookup (utf8 key) with
  | some (.string value) => do
    reject (!utf8Valid value ∨ value = []) s!"{key} must be a non-empty string"
    return value
  | _ => .error s!"{key} must be a non-empty string"

def uint64Value (fields : JsonFields) (key : String) : Except String UInt64 :=
  match fields.lookup (utf8 key) with
  | some (.int value) => do
    reject (value < 0) s!"{key} must be a non-negative integer"
    return UInt64.ofNat value.toNat
  | _ => .error s!"{key} must be a non-negative integer"

def uint32Value (fields : JsonFields) (key : String) : Except String UInt32 := do
  let value ← (uint64Value fields key).mapError fun _ => s!"{key} is outside uint32 range"
  reject (value.toNat ≥ 2 ^ 32) s!"{key} is outside uint32 range"
  return value.toUInt32

def uint16Value (fields : JsonFields) (key : String) : Except String UInt16 := do
  let value ← (uint64Value fields key).mapError fun _ => s!"{key} is outside uint16 range"
  reject (value.toNat ≥ 2 ^ 16) s!"{key} is outside uint16 range"
  return value.toUInt16

def int64Value (fields : JsonFields) (key : String) : Except String Int64 :=
  match fields.lookup (utf8 key) with
  | some (.int value) => do
    reject (value ≥ 2 ^ 63) s!"{key} must be an integer in int64 range"
    return Int64.ofInt value
  | _ => .error s!"{key} must be an integer in int64 range"

def isLowerHexDigit (b : UInt8) : Bool := (48 ≤ b ∧ b ≤ 57) ∨ (97 ≤ b ∧ b ≤ 102)

def hexPairs : Bytes → Bytes
  | high :: low :: rest =>
    UInt8.ofNat (((parseHexDigit high).getD 0) * 16 + (parseHexDigit low).getD 0) :: hexPairs rest
  | _ => []

def parseHash (value : Option Json) : Except String Digest :=
  match value with
  | some (.string text) => do
    reject (text.length ≠ 64) "hash must be 64 lowercase hexadecimal characters"
    reject (!text.all isLowerHexDigit) "hash must be lowercase hexadecimal"
    return Digest.ofBytes (hexPairs text)
  | _ => .error "hash must be 64 lowercase hexadecimal characters"

def hashValue (fields : JsonFields) (key : String) : Except String Digest := do
  reject (fields.lookup (utf8 key)).isNone s!"missing {key}"
  parseHash (fields.lookup (utf8 key))

end TickPlatform.Protocol
