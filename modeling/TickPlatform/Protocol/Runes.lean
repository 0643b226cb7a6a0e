import TickPlatform.Protocol.Decode

/-!
# UTF-8

The valid byte strings are the encodings of lists of Unicode scalar values.
-/

namespace TickPlatform.Protocol

open Bytes

/-- A Unicode scalar value: a code point that is no surrogate. -/
def IsScalar (r : Nat) : Prop := r < 0xD800 ∨ (0xE000 ≤ r ∧ r < 0x110000)

instance : DecidablePred IsScalar := fun r => inferInstanceAs (Decidable (r < 0xD800 ∨ (0xE000 ≤ r ∧ r < 0x110000)))

def writeRunes (runes : List Nat) : Bytes := runes.flatMap writeRune

@[simp] theorem writeRunes_nil : writeRunes [] = [] := rfl

@[simp] theorem writeRunes_cons (r : Nat) (runes : List Nat) : writeRunes (r :: runes) = writeRune r ++ writeRunes runes := rfl

theorem writeRune_cases (r : Nat) : (r < 0x80 ∧ writeRune r = [UInt8.ofNat r]) ∨
      (0x80 ≤ r ∧ r < 0x800 ∧ writeRune r = [UInt8.ofNat (0xC0 + r / 64), UInt8.ofNat (0x80 + r % 64)]) ∨
      (0x800 ≤ r ∧ r < 0x10000 ∧
        writeRune r = [UInt8.ofNat (0xE0 + r / 4096), UInt8.ofNat (0x80 + r / 64 % 64), UInt8.ofNat (0x80 + r % 64)]) ∨
      (0x10000 ≤ r ∧ writeRune r = [UInt8.ofNat (0xF0 + r / 262144), UInt8.ofNat (0x80 + r / 4096 % 64),
        UInt8.ofNat (0x80 + r / 64 % 64), UInt8.ofNat (0x80 + r % 64)]) := by
  unfold writeRune
  by_cases h1 : r < 0x80
  · exact .inl ⟨h1, if_pos h1⟩
  by_cases h2 : r < 0x800
  · exact .inr (.inl ⟨by omega, h2, by rw [if_neg h1, if_pos h2]⟩)
  by_cases h3 : r < 0x10000
  · exact .inr (.inr (.inl ⟨by omega, h3, by rw [if_neg h1, if_neg h2, if_pos h3]⟩))
  · exact .inr (.inr (.inr ⟨by omega, by rw [if_neg h1, if_neg h2, if_neg h3]⟩))

variable {n : Nat}

theorem toNat_ofNat8 (h : n < 256) : (UInt8.ofNat n).toNat = n := by
  rw [UInt8.toNat_ofNat']
  exact Nat.mod_eq_of_lt h

theorem isContinuation_iff (b : UInt8) : isContinuation b = true ↔ 0x80 ≤ b.toNat ∧ b.toNat ≤ 0xBF := by
  simp [isContinuation, UInt8.le_iff_toNat_le]

theorem isSecond_iff (b0 b1 : UInt8) : isSecond b0 b1 = true ↔
    0x80 ≤ b1.toNat ∧ b1.toNat ≤ 0xBF ∧ (b0.toNat = 0xE0 → 0xA0 ≤ b1.toNat) ∧ (b0.toNat = 0xED → b1.toNat ≤ 0x9F) ∧
      (b0.toNat = 0xF0 → 0x90 ≤ b1.toNat) ∧ (b0.toNat = 0xF4 → b1.toNat ≤ 0x8F) := by
  unfold isSecond
  simp only [← UInt8.toNat_inj, UInt8.reduceToNat]
  split
  · simp [UInt8.le_iff_toNat_le]
    omega
  split
  · simp [UInt8.le_iff_toNat_le]
    omega
  split
  · simp [UInt8.le_iff_toNat_le]
    omega
  split
  · simp [UInt8.le_iff_toNat_le]
    omega
  · rw [isContinuation_iff]
    omega

/-! ## One rune -/

variable {b : Bytes}

/-- The rune in front of a string is the encoding of a scalar value. -/
theorem exists_rune {width : Nat} (h : runeWidth b = some width) :
    ∃ r, IsScalar r ∧ (writeRune r).length = width ∧ b = writeRune r ++ b.drop width := by
  cases b with
  | nil => cases h
  | cons b0 rest =>
    have hb0 := b0.toNat_lt
    have hofNat : ∀ (x : UInt8) {n : Nat}, n = x.toNat → UInt8.ofNat n = x := by
      rintro x n rfl
      exact UInt8.ofNat_toNat
    unfold runeWidth at h
    simp only [UInt8.lt_iff_toNat_lt, UInt8.le_iff_toNat_le, UInt8.reduceToNat] at h
    split at h
    · rename_i h1
      cases h
      refine ⟨b0.toNat, .inl (by omega), ?_⟩
      simp [writeRune, h1]
    split at h
    · rename_i h1 h2
      split at h
      · rename_i b1 tail
        split at h
        · rename_i hsecond
          cases h
          rw [isSecond_iff] at hsecond
          refine ⟨(b0.toNat - 0xC0) * 64 + (b1.toNat - 0x80), .inl (by omega), ?_⟩
          have hbytes : writeRune ((b0.toNat - 0xC0) * 64 + (b1.toNat - 0x80)) = [b0, b1] := by
            unfold writeRune
            rw [if_neg (by omega), if_pos (by omega), hofNat b0 (by omega), hofNat b1 (by omega)]
          simp [hbytes]
        · cases h
      · cases h
    split at h
    · rename_i h1 h2 h3
      split at h
      · rename_i b1 b2 tail
        split at h
        · rename_i hsecond
          cases h
          rw [Bool.and_eq_true, isSecond_iff, isContinuation_iff] at hsecond
          obtain ⟨hsecond, hthird⟩ := hsecond
          refine ⟨(b0.toNat - 0xE0) * 4096 + (b1.toNat - 0x80) * 64 + (b2.toNat - 0x80), ?_, ?_⟩
          · unfold IsScalar
            omega
          have hbytes : writeRune ((b0.toNat - 0xE0) * 4096 + (b1.toNat - 0x80) * 64 + (b2.toNat - 0x80)) = [b0, b1, b2] := by
            unfold writeRune
            rw [if_neg (by omega), if_neg (by omega), if_pos (by omega), hofNat b0 (by omega), hofNat b1 (by omega),
              hofNat b2 (by omega)]
          simp [hbytes]
        · cases h
      · cases h
    split at h
    · rename_i h1 h2 h3 h4
      split at h
      · rename_i b1 b2 b3 tail
        split at h
        · rename_i hsecond
          cases h
          rw [Bool.and_eq_true, Bool.and_eq_true, isSecond_iff, isContinuation_iff, isContinuation_iff] at hsecond
          obtain ⟨⟨hsecond, hthird⟩, hfourth⟩ := hsecond
          refine ⟨(b0.toNat - 0xF0) * 262144 + (b1.toNat - 0x80) * 4096 + (b2.toNat - 0x80) * 64 + (b3.toNat - 0x80), ?_, ?_⟩
          · unfold IsScalar
            omega
          have hbytes : writeRune ((b0.toNat - 0xF0) * 262144 + (b1.toNat - 0x80) * 4096 + (b2.toNat - 0x80) * 64 +
              (b3.toNat - 0x80)) = [b0, b1, b2, b3] := by
            unfold writeRune
            rw [if_neg (by omega), if_neg (by omega), if_neg (by omega), hofNat b0 (by omega), hofNat b1 (by omega),
              hofNat b2 (by omega), hofNat b3 (by omega)]
          simp [hbytes]
        · cases h
      · cases h
    · cases h

theorem runeWidth_writeRune {r : Nat} (h : IsScalar r) (rest : Bytes) :
    runeWidth (writeRune r ++ rest) = some (writeRune r).length := by
  unfold IsScalar at h
  rcases writeRune_cases r with ⟨h1, heq⟩ | ⟨h1, h2, heq⟩ | ⟨h1, h2, heq⟩ | ⟨h1, heq⟩
  · simp only [heq, List.cons_append, List.nil_append, runeWidth, UInt8.lt_iff_toNat_lt, UInt8.reduceToNat]
    rw [toNat_ofNat8 (by omega), if_pos (by omega)]
    rfl
  · have hsecond : isSecond (UInt8.ofNat (0xC0 + r / 64)) (UInt8.ofNat (0x80 + r % 64)) = true := by
      rw [isSecond_iff, toNat_ofNat8 (by omega), toNat_ofNat8 (by omega)]
      omega
    simp only [heq, List.cons_append, List.nil_append, runeWidth, UInt8.lt_iff_toNat_lt, UInt8.le_iff_toNat_le,
      UInt8.reduceToNat, hsecond, if_true]
    rw [toNat_ofNat8 (by omega), if_neg (by omega), if_pos (by omega)]
    rfl
  · have hsecond : isSecond (UInt8.ofNat (0xE0 + r / 4096)) (UInt8.ofNat (0x80 + r / 64 % 64)) = true := by
      rw [isSecond_iff, toNat_ofNat8 (by omega), toNat_ofNat8 (by omega)]
      omega
    have hthird : isContinuation (UInt8.ofNat (0x80 + r % 64)) = true := by
      rw [isContinuation_iff, toNat_ofNat8 (by omega)]
      omega
    simp only [heq, List.cons_append, List.nil_append, runeWidth, UInt8.lt_iff_toNat_lt, UInt8.le_iff_toNat_le,
      UInt8.reduceToNat, hsecond, hthird, Bool.and_self, if_true]
    rw [toNat_ofNat8 (by omega), if_neg (by omega), if_neg (by omega), if_pos (by omega)]
    rfl
  · have hsecond : isSecond (UInt8.ofNat (0xF0 + r / 262144)) (UInt8.ofNat (0x80 + r / 4096 % 64)) = true := by
      rw [isSecond_iff, toNat_ofNat8 (by omega), toNat_ofNat8 (by omega)]
      omega
    have hthird : isContinuation (UInt8.ofNat (0x80 + r / 64 % 64)) = true := by
      rw [isContinuation_iff, toNat_ofNat8 (by omega)]
      omega
    have hfourth : isContinuation (UInt8.ofNat (0x80 + r % 64)) = true := by
      rw [isContinuation_iff, toNat_ofNat8 (by omega)]
      omega
    simp only [heq, List.cons_append, List.nil_append, runeWidth, UInt8.lt_iff_toNat_lt, UInt8.le_iff_toNat_le,
      UInt8.reduceToNat, hsecond, hthird, hfourth, Bool.and_self, if_true]
    rw [toNat_ofNat8 (by omega), if_neg (by omega), if_neg (by omega), if_neg (by omega), if_pos (by omega)]
    rfl

/-- **A rune decodes** to the value it was written from. -/
theorem decodeRune_writeRune {r : Nat} (h : IsScalar r) (rest : Bytes) :
    decodeRune (writeRune r ++ rest) = some (r, (writeRune r).length) := by
  rw [decodeRune, runeWidth_writeRune h, Option.map_some]
  unfold IsScalar at h
  have htake : (writeRune r ++ rest).take (writeRune r).length = writeRune r := List.take_left
  simp only [htake, Option.some.injEq, Prod.mk.injEq, and_true]
  rcases writeRune_cases r with ⟨h1, heq⟩ | ⟨h1, h2, heq⟩ | ⟨h1, h2, heq⟩ | ⟨h1, heq⟩
  · simp [heq]
    omega
  · simp [heq]
    omega
  · simp [heq]
    omega
  · simp [heq]
    omega

/-! ## Strings of runes -/

theorem writeRune_ne_nil (r : Nat) : writeRune r ≠ [] := by
  rcases writeRune_cases r with ⟨-, heq⟩ | ⟨-, -, heq⟩ | ⟨-, -, heq⟩ | ⟨-, heq⟩ <;> simp [heq]

theorem length_writeRune_pos (r : Nat) : 0 < (writeRune r).length := List.length_pos_of_ne_nil (writeRune_ne_nil r)

theorem utf8Runes_succ {width : Nat} (h : runeWidth b = some width) :
    utf8Runes (n + 1) b = utf8Runes n (b.drop width) := by
  cases b with
  | nil => cases h
  | cons b0 b => simp only [utf8Runes, h]

variable {runes : List Nat}

theorem utf8Runes_writeRunes (h : ∀ r ∈ runes, IsScalar r)
    (hn : (writeRunes runes).length ≤ n) : utf8Runes n (writeRunes runes) = true := by
  induction runes generalizing n with
  | nil => cases n <;> rfl
  | cons r runes ih =>
    rw [List.forall_mem_cons] at h
    have hpos := length_writeRune_pos r
    rw [writeRunes_cons, List.length_append] at hn
    cases n with
    | zero => omega
    | succ n =>
      rw [writeRunes_cons, utf8Runes_succ (runeWidth_writeRune h.1 _), List.drop_left]
      exact ih h.2 (by omega)

theorem utf8Valid_writeRunes (h : ∀ r ∈ runes, IsScalar r) : utf8Valid (writeRunes runes) = true :=
  utf8Runes_writeRunes h (Nat.le_refl _)

theorem exists_runes_of_fuel (h : utf8Runes n b = true) :
    ∃ runes, (∀ r ∈ runes, IsScalar r) ∧ b = writeRunes runes := by
  induction n generalizing b with
  | zero =>
    cases b with
    | nil => exact ⟨[], by simp, rfl⟩
    | cons b0 b => cases h
  | succ n ih =>
    cases b with
    | nil => exact ⟨[], by simp, rfl⟩
    | cons b0 b =>
      simp only [utf8Runes] at h
      split at h
      · rename_i width hwidth
        obtain ⟨r, hr, hlength, hfront⟩ := exists_rune hwidth
        obtain ⟨runes, hrunes, hrest⟩ := ih h
        refine ⟨r :: runes, ?_, ?_⟩
        · rw [List.forall_mem_cons]
          exact ⟨hr, hrunes⟩
        · rw [writeRunes_cons, ← hrest]
          exact hfront
      · cases h

theorem exists_runes (h : utf8Valid b = true) : ∃ runes, (∀ r ∈ runes, IsScalar r) ∧ b = writeRunes runes :=
  exists_runes_of_fuel h

theorem writeRunes_inj {other : List Nat} (h : ∀ r ∈ runes, IsScalar r) (h' : ∀ r ∈ other, IsScalar r)
    (heq : writeRunes runes = writeRunes other) : runes = other := by
  induction runes generalizing other with
  | nil =>
    cases other with
    | nil => rfl
    | cons r other => exact absurd (List.append_eq_nil_iff.mp heq.symm).1 (writeRune_ne_nil r)
  | cons r runes ih =>
    cases other with
    | nil => exact absurd (List.append_eq_nil_iff.mp heq).1 (writeRune_ne_nil r)
    | cons r' other =>
      rw [List.forall_mem_cons] at h h'
      -- The rune in front of both is the same, so the rest is.
      have hfirst := decodeRune_writeRune h.1 (writeRunes runes)
      have hfirst' := decodeRune_writeRune h'.1 (writeRunes other)
      rw [writeRunes_cons, writeRunes_cons] at heq
      rw [heq, hfirst'] at hfirst
      obtain rfl : r' = r := congrArg Prod.fst (Option.some.inj hfirst)
      rw [ih h.2 h'.2 (List.append_cancel_left heq)]

/-! ## Texts -/

theorem isScalar_toNat (c : Char) : IsScalar c.toNat := by
  rcases c.valid with h | ⟨hlow, hhigh⟩
  · exact .inl h
  · exact .inr ⟨Nat.succ_le_of_lt hlow, hhigh⟩

theorem utf8EncodeChar_eq (c : Char) : String.utf8EncodeChar c = writeRune c.toNat := by
  have hlt : c.toNat < 0x110000 := by
    rcases isScalar_toNat c with h | ⟨-, h⟩ <;> omega
  simp only [String.utf8EncodeChar, writeRune, show c.val.toNat = c.toNat from rfl]
  grind

theorem utf8_eq_writeRunes (s : String) : utf8 s = writeRunes (s.toList.map Char.toNat) := by
  have hchar : (fun c : Char => writeRune c.toNat) = String.utf8EncodeChar := by
    funext c
    exact (utf8EncodeChar_eq c).symm
  rw [utf8, ← String.utf8Encode_toList, List.utf8Encode, writeRunes, List.flatMap_map, hchar]
  simp

theorem utf8Valid_utf8 (s : String) : utf8Valid (utf8 s) = true := by
  rw [utf8_eq_writeRunes]
  exact utf8Valid_writeRunes (List.forall_mem_map.mpr fun c _ => isScalar_toNat c)

@[simp] theorem encodes_text (s : String) : Encodes (.string (utf8 s)) := encodes_string.mpr (utf8Valid_utf8 s)

theorem encodes_jsonObject {fields : List (String × Json)} :
    Encodes (jsonObject fields) ↔ ∀ field ∈ fields, Encodes field.2 := by
  have hobject : Encodes (jsonObject fields) ↔
      ∃ members, encodeFields (fields.map fun field => (utf8 field.1, field.2)) = .ok members := by
    simp only [Encodes, jsonObject, canonicalJSON, bind_eq_ok, pure_eq_ok]
    constructor
    · rintro ⟨_, members, hmembers, -⟩
      exact ⟨members, hmembers⟩
    · rintro ⟨members, hmembers⟩
      exact ⟨_, members, hmembers, rfl⟩
  rw [hobject, encodeFields_ok, List.forall_mem_map]
  constructor
  · intro h field hfield
    exact (h field hfield).2
  · intro h field hfield
    exact ⟨utf8Valid_utf8 field.1, h field hfield⟩

end TickPlatform.Protocol
