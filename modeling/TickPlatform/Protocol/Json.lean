import Mathlib.Data.List.Lex
import Mathlib.Data.List.Sort
import Mathlib.Order.Lattice.Nat
import TickPlatform.Except
import TickPlatform.Protocol.Spec

/-!
# Canonical JSON

The value set and the encoder of `CanonicalJSON`: no white space, keys in byte order, every rune
outside ASCII as a `\u` escape.
-/

namespace TickPlatform.Protocol

open Bytes

/-- A key order: bytes compared one by one. -/
def keyLE (a b : Bytes) : Prop := a.map UInt8.toNat ≤ b.map UInt8.toNat

instance : DecidableRel keyLE := fun a b => inferInstanceAs (Decidable (a.map UInt8.toNat ≤ b.map UInt8.toNat))

theorem keyLE_total (a b : Bytes) : keyLE a b ∨ keyLE b a := le_total _ _

theorem keyLE_trans {a b c : Bytes} (h : keyLE a b) (h' : keyLE b c) : keyLE a c := le_trans h h'

theorem keyLE_antisymm {a b : Bytes} (h : keyLE a b) (h' : keyLE b a) : a = b :=
  List.map_injective_iff.mpr (fun _ _ => UInt8.toNat_inj.mp) (le_antisymm h h')

inductive Json
  | null
  | bool (value : Bool)
  | int (value : Int)
  | string (value : Bytes)
  | array (items : List Json)
  /-- The fields of a map, under distinct keys. -/
  | object (fields : List (Bytes × Json))

/-! ## Strings -/

def unicodeEscape (value : Nat) : Bytes :=
  utf8 "\\u" ++ hexBytes [UInt8.ofNat (value / 256), UInt8.ofNat value]

/-- The rune in front of a valid UTF-8 string, with its width. -/
def decodeRune (b : Bytes) : Option (Nat × Nat) :=
  (runeWidth b).map fun width =>
    let tail := ((b.take width).drop 1).foldl (fun acc x => acc * 64 + (x.toNat - 0x80))
    let lead := (b.headD 0).toNat
    (if width = 1 then lead
      else if width = 2 then tail (lead - 0xC0)
      else if width = 3 then tail (lead - 0xE0)
      else tail (lead - 0xF0), width)

def escapeRune (r : Nat) : Bytes :=
  if r = 34 then utf8 "\\\""
  else if r = 92 then utf8 "\\\\"
  else if r = 8 then utf8 "\\b"
  else if r = 12 then utf8 "\\f"
  else if r = 10 then utf8 "\\n"
  else if r = 13 then utf8 "\\r"
  else if r = 9 then utf8 "\\t"
  else if r < 0x20 then unicodeEscape r
  else if r ≤ 0x7F then [UInt8.ofNat r]
  else if r ≤ 0xFFFF then unicodeEscape r
  else unicodeEscape (0xD800 + (r - 0x10000) / 1024) ++ unicodeEscape (0xDC00 + (r - 0x10000) % 1024)

/-- A rune has at least one byte, so the length is fuel enough. -/
def escapeRunes : Nat → Bytes → Bytes
  | 0, _ => []
  | n + 1, b =>
    match decodeRune b with
    | some (r, width) => escapeRune r ++ escapeRunes n (b.drop width)
    | none => []

def encodeCanonicalJSONString (value : Bytes) : Except String Bytes := do
  reject (!utf8Valid value) "canonical JSON string is not valid UTF-8"
  return [34] ++ escapeRunes value.length value ++ [34]

/-! ## Values -/

def formatInt (value : Int) : Bytes := utf8 (toString value)

/-- The members of an object with their keys, in key order. -/
def sortMembers (members : List (Bytes × Bytes)) : List (Bytes × Bytes) :=
  members.insertionSort fun a b => keyLE a.1 b.1

mutual

def canonicalJSON : Json → Except String Bytes
  | .null => .ok (utf8 "null")
  | .bool true => .ok (utf8 "true")
  | .bool false => .ok (utf8 "false")
  | .int value => .ok (formatInt value)
  | .string value => encodeCanonicalJSONString value
  | .array items => do
    let texts ← encodeItems items
    return [91] ++ List.intercalate [44] texts ++ [93]
  | .object fields => do
    let members ← encodeFields fields
    return [123] ++ List.intercalate [44] ((sortMembers members).map (·.2)) ++ [125]

def encodeItems : List Json → Except String (List Bytes)
  | [] => .ok []
  | item :: items => do
    let first ← canonicalJSON item
    let rest ← encodeItems items
    return first :: rest

def encodeFields : List (Bytes × Json) → Except String (List (Bytes × Bytes))
  | [] => .ok []
  | (key, value) :: fields => do
    let name ← encodeCanonicalJSONString key
    let text ← canonicalJSON value
    let rest ← encodeFields fields
    return (key, name ++ [58] ++ text) :: rest

end

/-- An object as the source writes its map literals. -/
def jsonObject (fields : List (String × Json)) : Json := .object (fields.map fun field => (utf8 field.1, field.2))

def jsonUint (value : UInt64) : Json := .int value.toNat

def encodeHashHex (value : Digest) : Bytes := hexBytes value.bytes

def jsonHash (value : Digest) : Json := .string (encodeHashHex value)

/-! ## What has an encoding -/

def Encodes (value : Json) : Prop := ∃ text, canonicalJSON value = .ok text

theorem encodes_string {value : Bytes} : Encodes (.string value) ↔ utf8Valid value = true := by
  simp only [Encodes, canonicalJSON, encodeCanonicalJSONString, bind_eq_ok, pure_eq_ok, reject_eq_ok]
  simp

@[simp] theorem encodes_uint (value : UInt64) : Encodes (jsonUint value) := by
  unfold Encodes jsonUint canonicalJSON
  exact ⟨_, rfl⟩

@[simp] theorem encodes_null : Encodes .null := by
  unfold Encodes canonicalJSON
  exact ⟨_, rfl⟩

@[simp] theorem encodes_bool (value : Bool) : Encodes (.bool value) := by
  cases value
  · unfold Encodes canonicalJSON
    exact ⟨_, rfl⟩
  · unfold Encodes canonicalJSON
    exact ⟨_, rfl⟩

theorem encodes_array {items : List Json} (h : ∀ item ∈ items, Encodes item) : Encodes (.array items) := by
  have hitems : ∃ texts, encodeItems items = .ok texts := by
    induction items with
    | nil => exact ⟨[], by rw [encodeItems]⟩
    | cons item items ih =>
      rw [List.forall_mem_cons] at h
      obtain ⟨text, htext⟩ := h.1
      obtain ⟨texts, htexts⟩ := ih h.2
      exact ⟨text :: texts, by rw [encodeItems]; exact bind_eq_ok.mpr ⟨text, htext, bind_eq_ok.mpr ⟨texts, htexts, rfl⟩⟩⟩
  obtain ⟨texts, htexts⟩ := hitems
  unfold Encodes canonicalJSON
  exact ⟨_, bind_eq_ok.mpr ⟨texts, htexts, rfl⟩⟩

theorem encodeFields_ok {fields : List (Bytes × Json)} :
    (∃ members, encodeFields fields = .ok members) ↔ ∀ field ∈ fields, utf8Valid field.1 = true ∧ Encodes field.2 := by
  induction fields with
  | nil => simp [encodeFields]
  | cons field fields ih =>
    obtain ⟨key, value⟩ := field
    simp only [encodeFields, bind_eq_ok, pure_eq_ok, List.forall_mem_cons, ← ih, encodeCanonicalJSONString, reject_eq_ok]
    constructor
    · rintro ⟨_, _, ⟨_, hkey, -⟩, text, htext, rest, hrest, -⟩
      exact ⟨⟨by simpa using hkey, text, htext⟩, rest, hrest⟩
    · rintro ⟨⟨hkey, text, htext⟩, rest, hrest⟩
      exact ⟨_, _, ⟨(), by simpa using hkey, rfl⟩, text, htext, rest, hrest, rfl⟩

theorem hexBytes_digits (b : Bytes) : ∀ x ∈ hexBytes b, (48 ≤ x ∧ x ≤ 57) ∨ (97 ≤ x ∧ x ≤ 102) := by
  have hdigit : ∀ i < 16, (48 ≤ UInt8.ofNat (Nat.digitChar i).toNat ∧ UInt8.ofNat (Nat.digitChar i).toNat ≤ 57) ∨
      (97 ≤ UInt8.ofNat (Nat.digitChar i).toNat ∧ UInt8.ofNat (Nat.digitChar i).toNat ≤ 102) := by
    decide
  intro x hx
  simp only [hexBytes, hexByte, List.map_cons, List.map_nil, List.mem_flatMap, List.mem_cons, List.not_mem_nil,
    or_false] at hx
  obtain ⟨y, -, rfl | rfl⟩ := hx
  · exact hdigit _ (by have := y.toNat_lt; omega)
  · exact hdigit _ (by omega)

theorem isASCII_hexBytes (b : Bytes) : isASCII (hexBytes b) = true := by
  rw [isASCII, List.all_eq_true]
  intro x hx
  rw [decide_eq_true_eq, UInt8.lt_iff_toNat_lt]
  rcases hexBytes_digits _ x hx with ⟨-, h⟩ | ⟨-, h⟩
  · have := UInt8.le_iff_toNat_le.mp h
    simp at this ⊢
    omega
  · have := UInt8.le_iff_toNat_le.mp h
    simp at this ⊢
    omega

theorem length_encodeHashHex (value : Digest) : (encodeHashHex value).length = 64 := by
  have hlength : ∀ b : Bytes, (hexBytes b).length = 2 * b.length := by
    intro b
    induction b with
    | nil => rfl
    | cons x b ih =>
      rw [hexBytes, List.flatMap_cons, List.length_append]
      rw [hexBytes] at ih
      rw [ih, List.length_cons]
      simp [hexByte]
      omega
  rw [encodeHashHex, hlength, value.length_bytes]

theorem isASCII_encodeHashHex (value : Digest) : isASCII (encodeHashHex value) = true := isASCII_hexBytes _

@[simp] theorem encodes_hash (value : Digest) : Encodes (jsonHash value) :=
  encodes_string.mpr (utf8Valid_of_isASCII (isASCII_encodeHashHex value))

example : (canonicalJSON (jsonObject [("b", .array [.null, .int (-7)]), ("a", .string [0xC3, 0xA9, 34])])).toOption =
    some (utf8 "\x7b\"a\":\"\\u00e9\\\"\",\"b\":[null,-7]\x7d") := by decide

end TickPlatform.Protocol
