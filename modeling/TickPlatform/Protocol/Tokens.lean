import TickPlatform.Protocol.Runes

/-!
# Integers and strings of canonical JSON

What the encoder writes for an integer or a string is read back by the parser.
-/

namespace TickPlatform.Protocol

open Bytes

/-! ## Integers -/

theorem utf8_ofList {chars : List Char} (h : ∀ c ∈ chars, c.toNat < 0x80) :
    utf8 (String.ofList chars) = chars.map fun c => UInt8.ofNat c.toNat := by
  rw [utf8, String.toByteArray_ofList]
  induction chars with
  | nil => rfl
  | cons c chars ih =>
    rw [List.forall_mem_cons] at h
    have hc : String.utf8EncodeChar c = [UInt8.ofNat c.toNat] := by
      have hsmall : c.val.toNat ≤ 0x7F := Nat.le_of_lt_succ h.1
      unfold String.utf8EncodeChar
      simp only [hsmall, if_true]
      rfl
    rw [List.utf8Encode_cons]
    simp [hc, ih h.2, List.utf8Encode_singleton]

variable {n : Nat}

theorem mem_toDigits {c : Char} (h : c ∈ Nat.toDigits 10 n) : 48 ≤ c.toNat ∧ c.toNat ≤ 57 :=
  Char.isDigit_iff_toNat.mp (Nat.isDigit_of_mem_toDigits (by omega) (by omega) h)

theorem toDigits_head (h : 0 < n) : (Nat.toDigits 10 n).head? ≠ some '0' := by
  induction n using Nat.strong_induction_on with
  | _ n ih =>
    rw [Nat.toDigits_eq_if (by omega)]
    split
    · rename_i hlt
      have hdigit : ∀ m < 10, 0 < m → [m.digitChar].head? ≠ some '0' := by decide
      exact hdigit n hlt h
    · rename_i hge
      rw [List.head?_append_of_ne_nil _ Nat.toDigits_ne_nil]
      exact ih (n / 10) (by omega) (by omega)

def digitBytes (n : Nat) : Bytes := (Nat.toDigits 10 n).map fun c => UInt8.ofNat c.toNat

theorem decimal_digitBytes (n : Nat) : decimal (digitBytes n) = n := by
  have hfold : ∀ (chars : List Char) (acc : Nat), (∀ c ∈ chars, 48 ≤ c.toNat ∧ c.toNat ≤ 57) →
      (chars.map fun c => UInt8.ofNat c.toNat).foldl (fun acc b => acc * 10 + (b.toNat - 48)) acc =
        Nat.ofDigitChars 10 chars acc := by
    intro chars
    induction chars with
    | nil => intro acc _; rfl
    | cons c chars ih =>
      intro acc h
      rw [List.forall_mem_cons] at h
      rw [List.map_cons, List.foldl_cons, ih _ h.2, Nat.ofDigitChars_cons, toNat_ofNat8 (by omega), Nat.mul_comm]
      rfl
  rw [decimal, digitBytes, hfold _ _ (fun c hc => mem_toDigits hc), Nat.ofDigitChars_ten_toDigits]

theorem digitBytes_eq (n : Nat) : utf8 n.repr = digitBytes n := by
  rw [Nat.repr_eq_ofList_toDigits, utf8_ofList, digitBytes]
  intro c hc
  have := (mem_toDigits hc).2
  omega

theorem formatInt_ofNat (n : Nat) : formatInt n = digitBytes n := by
  rw [formatInt, ← digitBytes_eq]
  rfl

theorem formatInt_negSucc (n : Nat) : formatInt (Int.negSucc n) = 45 :: digitBytes (n + 1) := by
  have htext : toString (Int.negSucc n) = "-" ++ (n + 1).repr := rfl
  rw [formatInt, htext, utf8_append, digitBytes_eq]
  rfl

theorem mem_digitBytes {b : UInt8} (h : b ∈ digitBytes n) : isDigit b = true := by
  obtain ⟨c, hc, rfl⟩ := List.mem_map.mp h
  obtain ⟨hlow, hhigh⟩ := mem_toDigits hc
  simp only [isDigit, UInt8.le_iff_toNat_le, toNat_ofNat8 (show c.toNat < 256 by omega), UInt8.reduceToNat,
    decide_eq_true_eq]
  exact ⟨hlow, hhigh⟩

theorem digitBytes_ne_nil (n : Nat) : digitBytes n ≠ [] := by
  simp [digitBytes, Nat.toDigits_ne_nil]

theorem digitBytes_head (h : 0 < n) : (digitBytes n).head? ≠ some 48 := by
  intro hhead
  rw [digitBytes, List.head?_map, Option.map_eq_some_iff] at hhead
  obtain ⟨c, hc, hbyte⟩ := hhead
  have hrange := mem_toDigits (List.mem_of_head? hc)
  have hcode := congrArg UInt8.toNat hbyte
  rw [toNat_ofNat8 (by omega)] at hcode
  apply toDigits_head h
  rw [hc, ← Char.toNat_inj.mp (show c.toNat = '0'.toNat from hcode)]

/-- What may follow a value: a comma, a closing bracket or brace, or nothing. -/
def Ends (rest : Bytes) : Prop := ∀ b ∈ rest.head?, b = 44 ∨ b = 93 ∨ b = 125

variable {rest : Bytes}

theorem takeWhile_digits (h : Ends rest) : (digitBytes n ++ rest).takeWhile isDigit = digitBytes n := by
  rw [List.takeWhile_append_of_pos fun b hb => mem_digitBytes hb]
  cases rest with
  | nil => simp
  | cons b rest =>
    have hb : isDigit b = false := by
      rcases h b rfl with rfl | rfl | rfl <;> rfl
    simp [hb]

theorem parseDigits_digitBytes (n : Nat) (h : Ends rest) :
    parseDigits (digitBytes n ++ rest) = .ok (digitBytes n, rest) := by
  have hzero : ¬ ((digitBytes n).head? = some 48 ∧ 1 < (digitBytes n).length) := by
    rintro ⟨hhead, hlength⟩
    rcases Nat.eq_zero_or_pos n with rfl | hpos
    · simp [digitBytes, Nat.toDigits_zero] at hlength
    · exact digitBytes_head hpos hhead
  unfold parseDigits
  simp only [takeWhile_digits h, digitBytes_ne_nil, if_false, hzero, List.drop_left]

theorem checkIntegerEnd_ends (h : Ends rest) : checkIntegerEnd rest = .ok () := by
  rw [checkIntegerEnd, reject_eq_ok]
  cases rest with
  | nil => simp
  | cons b rest => rcases h b rfl with rfl | rfl | rfl <;> simp

theorem parseInteger_formatInt {value : Int} (hlow : -9223372036854775808 ≤ value) (hhigh : value < 18446744073709551616) (h : Ends rest) : parseInteger (formatInt value ++ rest) = .ok (.int value, rest) := by
  cases value with
  | ofNat n =>
    have hsmall : ¬ n ≥ 2 ^ 64 := by
      simp only [Int.ofNat_eq_natCast] at hhigh
      omega
    rw [Int.ofNat_eq_natCast, formatInt_ofNat]
    unfold parseInteger
    split
    · rename_i digits heq
      have hminus : (45 : UInt8) ∈ digitBytes n := by
        cases hbytes : digitBytes n with
        | nil => exact absurd hbytes (digitBytes_ne_nil n)
        | cons d ds =>
          rw [hbytes, List.cons_append, List.cons.injEq] at heq
          rw [heq.1]
          exact List.mem_cons_self
      exact absurd (mem_digitBytes hminus) (by decide)
    · simp only [bind_eq_ok, pure_eq_ok, reject_eq_ok]
      exact ⟨_, parseDigits_digitBytes n h, (), checkIntegerEnd_ends h, (), by rw [decimal_digitBytes]; exact hsmall,
        by rw [decimal_digitBytes]⟩
  | negSucc n =>
    have hsmall : ¬ n + 1 > 2 ^ 63 := by omega
    rw [formatInt_negSucc, List.cons_append]
    simp only [parseInteger, bind_eq_ok, pure_eq_ok, reject_eq_ok]
    refine ⟨(), by simp [digitBytes_ne_nil], _, parseDigits_digitBytes (n + 1) h, (), checkIntegerEnd_ends h, (), ?_, (), ?_, ?_⟩
    · rw [decimal_digitBytes]
      omega
    · rw [decimal_digitBytes]
      exact hsmall
    · rw [decimal_digitBytes]
      rfl

/-! ## Strings -/

theorem parseHexDigit_digit : ∀ i < 16, parseHexDigit (UInt8.ofNat (Nat.digitChar i).toNat) = some i := by decide

theorem foldlM_hexBytes {value : Nat} (h : value < 65536) :
    (hexBytes [UInt8.ofNat (value / 256), UInt8.ofNat value]).foldlM
      (fun acc b => (parseHexDigit b).map fun digit => acc * 16 + digit) 0 = some value := by
  have hhigh : (UInt8.ofNat (value / 256)).toNat = value / 256 := toNat_ofNat8 (by omega)
  have hlow : (UInt8.ofNat value).toNat = value % 256 := UInt8.toNat_ofNat'
  have hbytes : hexBytes [UInt8.ofNat (value / 256), UInt8.ofNat value] =
      [UInt8.ofNat (Nat.digitChar (value / 256 / 16)).toNat, UInt8.ofNat (Nat.digitChar (value / 256 % 16)).toNat,
        UInt8.ofNat (Nat.digitChar (value % 256 / 16)).toNat, UInt8.ofNat (Nat.digitChar (value % 256 % 16)).toNat] := by
    simp [hexBytes, hexByte, hhigh, hlow]
  rw [hbytes]
  simp only [List.foldlM_cons, List.foldlM_nil,
    parseHexDigit_digit _ (show value / 256 / 16 < 16 by omega), parseHexDigit_digit _ (show value / 256 % 16 < 16 by omega),
    parseHexDigit_digit _ (show value % 256 / 16 < 16 by omega), parseHexDigit_digit _ (show value % 256 % 16 < 16 by omega),
    Option.map_some, Option.bind_eq_bind, Option.bind_some, Option.pure_def, Option.some.injEq]
  omega

theorem length_hexBytes_pair (a b : UInt8) : (hexBytes [a, b]).length = 4 := rfl

theorem parseHex4_hexBytes {value : Nat} (h : value < 65536) (rest : Bytes) :
    parseHex4 (hexBytes [UInt8.ofNat (value / 256), UInt8.ofNat value] ++ rest) = .ok (value, rest) := by
  rw [parseHex4, List.take_left' (length_hexBytes_pair _ _), List.drop_left' (length_hexBytes_pair _ _), foldlM_hexBytes h]
  exact bind_eq_ok.mpr ⟨(), reject_eq_ok.mpr (by simp [length_hexBytes_pair]), rfl⟩

theorem unicodeEscape_eq (value : Nat) :
    unicodeEscape value = 92 :: 117 :: hexBytes [UInt8.ofNat (value / 256), UInt8.ofNat value] := rfl

variable {r : Nat}

theorem parseUnicodeEscape_unit (h : IsScalar r) (hr : r < 65536) (rest : Bytes) :
    parseUnicodeEscape (hexBytes [UInt8.ofNat (r / 256), UInt8.ofNat r] ++ rest) = .ok (writeRune r, rest) := by
  unfold IsScalar at h
  rw [parseUnicodeEscape, parseHex4_hexBytes hr]
  simp only [bind_eq_ok]
  refine ⟨_, rfl, ?_⟩
  dsimp only
  rw [if_neg (by omega)]
  exact bind_eq_ok.mpr ⟨(), reject_eq_ok.mpr (by omega), rfl⟩

theorem parseUnicodeEscape_pair (hlow : 65536 ≤ r) (hhigh : r < 0x110000) (rest : Bytes) :
    parseUnicodeEscape (hexBytes [UInt8.ofNat ((0xD800 + (r - 0x10000) / 1024) / 256), UInt8.ofNat (0xD800 + (r - 0x10000) / 1024)] ++
      (unicodeEscape (0xDC00 + (r - 0x10000) % 1024) ++ rest)) = .ok (writeRune r, rest) := by
  rw [parseUnicodeEscape, parseHex4_hexBytes (by omega)]
  simp only [bind_eq_ok]
  refine ⟨_, rfl, ?_⟩
  dsimp only
  rw [if_pos (by omega)]
  simp only [bind_eq_ok, pure_eq_ok, reject_eq_ok, mapError_eq_ok]
  refine ⟨(), ?_, (0xDC00 + (r - 0x10000) % 1024, rest), ?_, (), by dsimp only; omega, ?_⟩
  · simp [unicodeEscape_eq, hexBytes, hexByte]
    decide
  · exact parseHex4_hexBytes (by omega) rest
  · dsimp only
    rw [show 0x10000 + (0xD800 + (r - 0x10000) / 1024 - 0xD800) * 1024 + (0xDC00 + (r - 0x10000) % 1024 - 0xDC00) = r by omega]

/-- One round of the string parser takes the escape of one rune. -/
theorem parseStringBody_escapeRune (h : IsScalar r) (n : Nat) (out rest : Bytes) :
    parseStringBody (n + 1) out (escapeRune r ++ rest) = parseStringBody n (out ++ writeRune r) rest := by
  have hescape : ∀ (tail : Bytes) (text : Bytes) (rest' : Bytes), parseEscape tail = .ok (text, rest') →
      parseStringBody (n + 1) out (92 :: tail) = parseStringBody n (out ++ text) rest' := by
    intro tail text rest' hparse
    simp only [parseStringBody, hparse]
    rfl
  by_cases hshort : r = 34 ∨ r = 92 ∨ r = 8 ∨ r = 12 ∨ r = 10 ∨ r = 13 ∨ r = 9
  · rcases hshort with rfl | rfl | rfl | rfl | rfl | rfl | rfl <;> exact hescape _ _ _ rfl
  simp only [not_or] at hshort
  obtain ⟨h34, h92, h8, h12, h10, h13, h9⟩ := hshort
  have hscalar := h
  unfold IsScalar at h
  simp only [escapeRune, h34, h92, h8, h12, h10, h13, h9, if_false]
  split
  · rw [unicodeEscape_eq]
    exact hescape _ _ _ (parseUnicodeEscape_unit hscalar (by omega) rest)
  split
  · have hbyte : ∀ m : UInt8, r ≠ m.toNat → UInt8.ofNat r ≠ m := by
      intro m hne heq
      have hcode := congrArg UInt8.toNat heq
      rw [toNat_ofNat8 (by omega)] at hcode
      exact hne hcode
    have hcontrol : isForbiddenControl (UInt8.ofNat r) = false := by
      simp only [isForbiddenControl, UInt8.lt_iff_toNat_lt, toNat_ofNat8 (show r < 256 by omega), UInt8.reduceToNat]
      simp
      omega
    have hascii : UInt8.ofNat r < 0x80 := by
      rw [UInt8.lt_iff_toNat_lt, toNat_ofNat8 (by omega)]
      simp
      omega
    have hrune : writeRune r = [UInt8.ofNat r] := by
      rw [writeRune, if_pos (by omega)]
    rw [hrune, List.singleton_append, parseStringBody, if_neg (hbyte 34 h34), if_neg (hbyte 92 h92),
      hcontrol, if_neg (by decide), if_pos hascii]
  split
  · rw [unicodeEscape_eq]
    exact hescape _ _ _ (parseUnicodeEscape_unit hscalar (by omega) rest)
  · rw [List.append_assoc, unicodeEscape_eq]
    exact hescape _ _ _ (parseUnicodeEscape_pair (by omega) (by omega) rest)

def escapeAll (runes : List Nat) : Bytes := runes.flatMap escapeRune

variable {runes : List Nat}

theorem escapeRunes_writeRunes (h : ∀ r ∈ runes, IsScalar r)
    (hn : (writeRunes runes).length ≤ n) : escapeRunes n (writeRunes runes) = escapeAll runes := by
  induction runes generalizing n with
  | nil =>
    cases n with
    | zero => rfl
    | succ n => rfl
  | cons r runes ih =>
    rw [List.forall_mem_cons] at h
    have hpos := length_writeRune_pos r
    rw [writeRunes_cons, List.length_append] at hn
    cases n with
    | zero => omega
    | succ n =>
      rw [writeRunes_cons, escapeRunes, decodeRune_writeRune h.1]
      dsimp only
      rw [List.drop_left, ih h.2 (by omega)]
      rfl

theorem encodeCanonicalJSONString_writeRunes (h : ∀ r ∈ runes, IsScalar r) :
    encodeCanonicalJSONString (writeRunes runes) = .ok ([34] ++ escapeAll runes ++ [34]) := by
  rw [encodeCanonicalJSONString, escapeRunes_writeRunes h (Nat.le_refl _)]
  exact bind_eq_ok.mpr ⟨(), reject_eq_ok.mpr (by simp [utf8Valid_writeRunes h]), rfl⟩

theorem escapeRune_cases (r : Nat) : (∃ b : UInt8, b < 0x7F ∧ escapeRune r = [92, b]) ∨ escapeRune r = unicodeEscape r ∨
      (r ≤ 0x7F ∧ escapeRune r = [UInt8.ofNat r]) ∨ ∃ high low, escapeRune r = unicodeEscape high ++ unicodeEscape low := by
  by_cases hshort : r = 34 ∨ r = 92 ∨ r = 8 ∨ r = 12 ∨ r = 10 ∨ r = 13 ∨ r = 9
  · rcases hshort with rfl | rfl | rfl | rfl | rfl | rfl | rfl <;> exact .inl ⟨_, by decide, rfl⟩
  simp only [not_or] at hshort
  obtain ⟨h34, h92, h8, h12, h10, h13, h9⟩ := hshort
  rw [escapeRune, if_neg h34, if_neg h92, if_neg h8, if_neg h12, if_neg h10, if_neg h13, if_neg h9]
  right
  split
  · exact .inl rfl
  split
  · rename_i hascii
    exact .inr (.inl ⟨hascii, rfl⟩)
  split
  · exact .inl rfl
  · exact .inr (.inr ⟨_, _, rfl⟩)

theorem escapeRune_ne_nil (r : Nat) : escapeRune r ≠ [] := by
  obtain ⟨b, -, h⟩ | h | ⟨-, h⟩ | ⟨high, low, h⟩ := escapeRune_cases r
  all_goals
    rw [h]
    simp [unicodeEscape_eq]

theorem parseStringBody_escapeAll (h : ∀ r ∈ runes, IsScalar r) (hn : (escapeAll runes).length < n) (out rest : Bytes) :
    parseStringBody n out (escapeAll runes ++ 34 :: rest) = .ok (out ++ writeRunes runes, rest) := by
  induction runes generalizing n out with
  | nil =>
    cases n with
    | zero => cases hn
    | succ n => simp [escapeAll, parseStringBody]
  | cons r runes ih =>
    rw [List.forall_mem_cons] at h
    have hpos := List.length_pos_of_ne_nil (escapeRune_ne_nil r)
    have hsplit : escapeAll (r :: runes) = escapeRune r ++ escapeAll runes := rfl
    rw [hsplit, List.length_append] at hn
    cases n with
    | zero => cases hn
    | succ n =>
      rw [hsplit, List.append_assoc, parseStringBody_escapeRune h.1, ih h.2 (by omega), writeRunes_cons, List.append_assoc]

/-- **A string decodes.** -/
theorem parseString_encode {value text : Bytes} (h : encodeCanonicalJSONString value = .ok text) (rest : Bytes) :
    parseString (text ++ rest) = .ok (value, rest) := by
  have hvalid : utf8Valid value = true := by
    simp only [encodeCanonicalJSONString, bind_eq_ok, reject_eq_ok] at h
    obtain ⟨_, hvalid, -⟩ := h
    simpa using hvalid
  obtain ⟨runes, hrunes, rfl⟩ := exists_runes hvalid
  rw [encodeCanonicalJSONString_writeRunes hrunes] at h
  cases h
  simp only [List.append_assoc, List.cons_append, List.nil_append, parseString]
  rw [parseStringBody_escapeAll hrunes (by simp)]
  rfl

end TickPlatform.Protocol
