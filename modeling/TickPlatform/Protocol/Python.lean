import TickPlatform.Protocol.RoundTrip

/-!
# Canonical JSON in Python

`canonical_json` and `decode_canonical_json` of `tools/tick_protocol.py`, with the parts of `json.dumps` and
`json.loads` they use. A Python string is a list of code points, surrogates among them, and a text is such a string;
positions are left out of the error texts.
-/

namespace TickPlatform.Protocol.Python

open Bytes

abbrev Str := List Nat

inductive PyValue
  | none
  | bool (value : Bool)
  | int (value : Int)
  | str (value : Str)
  | list (items : List PyValue)
  /-- The pairs of a dict in insertion order, under distinct keys. -/
  | dict (pairs : List (Str × PyValue))

/-- An ASCII literal. -/
def codes (text : String) : Str := (utf8 text).map UInt8.toNat

/-- `str.encode("utf-8", "strict")`: a surrogate has no encoding. -/
def encode (text : Str) (err : String) : Except String Bytes := do
  reject (∃ r ∈ text, ¬ IsScalar r) err
  return writeRunes text

def runes : Nat → Bytes → Str
  | 0, _ => []
  | n + 1, b =>
    match decodeRune b with
    | some (r, width) => r :: runes n (b.drop width)
    | .none => []

/-- `bytes.decode("utf-8", "strict")`. -/
def decode (data : Bytes) : Except String Str := do
  reject (!utf8Valid data) "canonical JSON is not valid UTF-8"
  return runes data.length data

/-! ## Encoding -/

/-- The keys in the order of their UTF-8 bytes. -/
def pairLE (a b : Str × PyValue) : Prop := keyLE (writeRunes a.1) (writeRunes b.1)

instance : DecidableRel pairLE := fun a b => inferInstanceAs (Decidable (keyLE (writeRunes a.1) (writeRunes b.1)))

mutual

/-- The value with its dicts rebuilt in key order. The keys are encoded by `sorted` before any value is looked at; the
values are checked in the order given here, which only decides which of several errors is raised. -/
def check : PyValue → Except String PyValue
  | .none => .ok .none
  | .bool value => .ok (.bool value)
  | .str value => do
    let _ ← encode value "canonical JSON strings must be valid UTF-8"
    return .str value
  | .int value => do
    reject (value < -9223372036854775808 ∨ value > 18446744073709551615) "canonical JSON integer is outside 64-bit range"
    return .int value
  | .list items => do
    let items ← checkItems items
    return .list items
  | .dict pairs => do
    reject (∃ pair ∈ pairs, ∃ r ∈ pair.1, ¬ IsScalar r) "surrogates not allowed"
    let pairs ← checkPairs pairs
    return .dict (pairs.insertionSort pairLE)

def checkItems : List PyValue → Except String (List PyValue)
  | [] => .ok []
  | item :: items => do
    let first ← check item
    let rest ← checkItems items
    return first :: rest

def checkPairs : List (Str × PyValue) → Except String (List (Str × PyValue))
  | [] => .ok []
  | (key, value) :: pairs => do
    let value ← check value
    let rest ← checkPairs pairs
    return (key, value) :: rest

end

def unicodeEscapeText (value : Nat) : Str :=
  codes "\\u" ++ (hexBytes [UInt8.ofNat (value / 256), UInt8.ofNat value]).map UInt8.toNat

/-- One character under `ensure_ascii`: what is not printable ASCII is escaped. -/
def escapeASCII (r : Nat) : Str :=
  if r = 34 then codes "\\\""
  else if r = 92 then codes "\\\\"
  else if r = 8 then codes "\\b"
  else if r = 12 then codes "\\f"
  else if r = 10 then codes "\\n"
  else if r = 13 then codes "\\r"
  else if r = 9 then codes "\\t"
  else if 32 ≤ r ∧ r ≤ 126 then [r]
  else if r < 0x10000 then unicodeEscapeText r
  else unicodeEscapeText (0xD800 + (r - 0x10000) / 1024) ++ unicodeEscapeText (0xDC00 + (r - 0x10000) % 1024)

def dumpString (value : Str) : Str := [34] ++ value.flatMap escapeASCII ++ [34]

mutual

/-- `json.dumps` with the separators `,` and `:`. -/
def dumps : PyValue → Str
  | .none => codes "null"
  | .bool true => codes "true"
  | .bool false => codes "false"
  | .int value => codes (toString value)
  | .str value => dumpString value
  | .list items => [91] ++ List.intercalate [44] (dumpItems items) ++ [93]
  | .dict pairs => [123] ++ List.intercalate [44] (dumpPairs pairs) ++ [125]

def dumpItems : List PyValue → List Str
  | [] => []
  | item :: items => dumps item :: dumpItems items

def dumpPairs : List (Str × PyValue) → List Str
  | [] => []
  | (key, value) :: pairs => (dumpString key ++ [58] ++ dumps value) :: dumpPairs pairs

end

def canonicalJson (value : PyValue) : Except String Str := do
  let checked ← check value
  return dumps checked

/-! ## Decoding -/

def skip : Str → Str
  | [] => []
  | c :: rest => if c = 32 ∨ c = 9 ∨ c = 13 ∨ c = 10 then skip rest else c :: rest

def hexDigit (c : Nat) : Option Nat :=
  if 48 ≤ c ∧ c ≤ 57 then some (c - 48)
  else if 97 ≤ c ∧ c ≤ 102 then some (c - 87)
  else if 65 ≤ c ∧ c ≤ 70 then some (c - 55)
  else none

def decodeUXXXX (text : Str) : Except String (Nat × Str) := do
  reject (text.length < 4) "Invalid \\uXXXX escape"
  let value ← ((text.take 4).foldlM (fun acc c => (hexDigit c).map fun digit => acc * 16 + digit) 0).elim
    (.error "Invalid \\uXXXX escape") .ok
  return (value, text.drop 4)

/-- The escape behind `\u`; a surrogate without its partner is kept as it is. -/
def scanUnicode (text : Str) : Except String (Nat × Str) := do
  let (unit, rest) ← decodeUXXXX text
  if (0xD800 ≤ unit ∧ unit ≤ 0xDBFF) ∧ rest.take 2 = codes "\\u" then do
    let (low, after) ← decodeUXXXX (rest.drop 2)
    if 0xDC00 ≤ low ∧ low ≤ 0xDFFF then return (0x10000 + (unit - 0xD800) * 1024 + (low - 0xDC00), after)
    else return (unit, rest)
  else return (unit, rest)

def scanEscape (text : Str) : Except String (Nat × Str) :=
  match text with
  | [] => .error "Unterminated string"
  | c :: rest =>
    if c = 34 ∨ c = 92 ∨ c = 47 then .ok (c, rest)
    else if c = 98 then .ok (8, rest)
    else if c = 102 then .ok (12, rest)
    else if c = 110 then .ok (10, rest)
    else if c = 114 then .ok (13, rest)
    else if c = 116 then .ok (9, rest)
    else if c = 117 then scanUnicode rest
    else .error "Invalid \\escape"

/-- What follows the opening quote; every round takes a character, so the length is fuel enough. -/
def scanString : Nat → Str → Str → Except String (Str × Str)
  | 0, _, _ => .error "Unterminated string"
  | _ + 1, _, [] => .error "Unterminated string"
  | n + 1, out, c :: rest =>
    if c = 34 then .ok (out, rest)
    else if c = 92 then do
      let (r, rest) ← scanEscape rest
      scanString n (out ++ [r]) rest
    else if c < 32 then .error "Invalid control character"
    else scanString n (out ++ [c]) rest

def isDigitCode (c : Nat) : Bool := 48 ≤ c ∧ c ≤ 57

def intValue (digits : Str) : Nat := digits.foldl (fun acc c => acc * 10 + (c - 48)) 0

/-- The `parse_int` hook. -/
def parseInt (negative : Bool) (digits : Str) : Except String Int := do
  reject (negative ∧ digits = [48]) "non-canonical integer"
  reject (1 < digits.length ∧ digits.head? = some 48) "non-canonical integer"
  let value : Int := if negative then -(intValue digits : Int) else intValue digits
  reject (value < -9223372036854775808 ∨ value > 18446744073709551615) "canonical JSON integer is outside 64-bit range"
  return value

def hasFraction : Str → Bool
  | 46 :: c :: _ => isDigitCode c
  | _ => false

def hasExponent : Str → Bool
  | e :: 43 :: c :: _ => (e = 101 ∨ e = 69) ∧ isDigitCode c
  | e :: 45 :: c :: _ => (e = 101 ∨ e = 69) ∧ isDigitCode c
  | e :: c :: _ => (e = 101 ∨ e = 69) ∧ isDigitCode c
  | _ => false

/-- The integer part of a number: a zero, or digits that start with another. -/
def integerPart (body : Str) : Str :=
  if body.head? = some 48 then [48] else body.takeWhile isDigitCode

/-- What starts no other value: a number, a constant or nothing. The hooks for floats and constants raise. -/
def scanNumber (text : Str) : Except String (PyValue × Str) :=
  let negative : Bool := text.head? = some 45
  let body := if negative then text.drop 1 else text
  let digits := integerPart body
  let rest := body.drop digits.length
  if digits = [] then
    if (codes "NaN").isPrefixOf text ∨ (codes "Infinity").isPrefixOf text ∨ (codes "-Infinity").isPrefixOf text then
      .error "invalid JSON constant"
    else .error "Expecting value"
  else if hasFraction rest ∨ hasExponent rest then .error "canonical JSON accepts integers only"
  else do
    let value ← parseInt negative digits
    return (.int value, rest)

/-- The `object_pairs_hook`. -/
def objectPairs (pairs : List (Str × PyValue)) : Except String (List (Str × PyValue)) :=
  pairs.foldlM (fun result pair => do
    reject (result.any fun other => other.1 = pair.1) "duplicate JSON object key"
    return result ++ [pair]) []

mutual

def scanOnce : Nat → Str → Except String (PyValue × Str)
  | 0, _ => .error "Expecting value"
  | _ + 1, [] => .error "Expecting value"
  | n + 1, c :: rest =>
    if c = 34 then do
      let (value, rest) ← scanString rest.length [] rest
      return (.str value, rest)
    else if c = 123 then
      match skip rest with
      | 125 :: rest => do
        let pairs ← objectPairs []
        return (.dict pairs, rest)
      | rest => do
        let (pairs, rest) ← scanPairs n [] rest
        let pairs ← objectPairs pairs
        return (.dict pairs, rest)
    else if c = 91 then
      match skip rest with
      | 93 :: rest => .ok (.list [], rest)
      | rest => do
        let (items, rest) ← scanItems n [] rest
        return (.list items, rest)
    else if (codes "null").isPrefixOf (c :: rest) then .ok (.none, (c :: rest).drop 4)
    else if (codes "true").isPrefixOf (c :: rest) then .ok (.bool true, (c :: rest).drop 4)
    else if (codes "false").isPrefixOf (c :: rest) then .ok (.bool false, (c :: rest).drop 5)
    else scanNumber (c :: rest)

def scanItems : Nat → List PyValue → Str → Except String (List PyValue × Str)
  | 0, _, _ => .error "Expecting value"
  | n + 1, items, text => do
    let (item, rest) ← scanOnce n text
    match skip rest with
    | 93 :: rest => .ok (items ++ [item], rest)
    | 44 :: rest => scanItems n (items ++ [item]) (skip rest)
    | _ => .error "Expecting ',' delimiter"

def scanPairs : Nat → List (Str × PyValue) → Str → Except String (List (Str × PyValue) × Str)
  | 0, _, _ => .error "Expecting property name enclosed in double quotes"
  | n + 1, pairs, text =>
    match text with
    | 34 :: rest => do
      let (key, rest) ← scanString rest.length [] rest
      match skip rest with
      | 58 :: rest => do
        let (value, rest) ← scanOnce n (skip rest)
        match skip rest with
        | 125 :: rest => .ok (pairs ++ [(key, value)], rest)
        | 44 :: rest => scanPairs n (pairs ++ [(key, value)]) (skip rest)
        | _ => .error "Expecting ',' delimiter"
      | _ => .error "Expecting ':' delimiter"
    | _ => .error "Expecting property name enclosed in double quotes"

end

/-- `json.loads`. -/
def loads (text : Str) : Except String PyValue := do
  reject (text.head? = some 0xFEFF) "Unexpected UTF-8 BOM (decode using utf-8-sig)"
  let (value, rest) ← scanOnce (2 * text.length + 1) (skip text)
  reject (skip rest ≠ []) "Extra data"
  return value

def decodeCanonicalJson (data : Bytes) : Except String PyValue := do
  reject ([0xEF, 0xBB, 0xBF].isPrefixOf data) "canonical JSON must not contain a BOM"
  let text ← decode data
  let value ← (loads text).mapError fun err => s!"invalid canonical JSON: {err}"
  let canonical ← canonicalJson value
  let encoded ← encode canonical "surrogates not allowed"
  reject (encoded ≠ data) "canonical JSON bytes are not canonical"
  return value

example : ((decodeCanonicalJson (utf8 "\x7b\"a\":\"\\u007f\\\"\",\"b\":[null,-7]\x7d")).bind canonicalJson).toOption =
    some (codes "\x7b\"a\":\"\\u007f\\\"\",\"b\":[null,-7]\x7d") := by decide

end TickPlatform.Protocol.Python
