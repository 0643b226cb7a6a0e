import Mathlib.Algebra.Ring.Nat
import Mathlib.Data.List.Basic
import Mathlib.Tactic.Common

/-!
# Byte strings

Little-endian fields, slices and UTF-8, as the formats of this project use them.
-/

namespace TickPlatform

abbrev Bytes := List UInt8

namespace Bytes

/-- The bytes of an ASCII text. -/
def ascii (s : String) : Bytes := s.toList.map fun c => UInt8.ofNat c.toNat

/-- Go's `[]byte(s)`. -/
def utf8 (s : String) : Bytes := s.toByteArray.data.toList

theorem utf8_append (s t : String) : utf8 (s ++ t) = utf8 s ++ utf8 t := by
  simp [utf8]

theorem utf8_inj {s t : String} (h : utf8 s = utf8 t) : s = t := by
  rw [utf8, utf8, Array.toList_inj] at h
  exact String.toByteArray_inj.mp (ByteArray.ext h)

theorem utf8_ne_nil {s : String} (h : s ≠ "") : utf8 s ≠ [] := fun hnil => h (utf8_inj (t := "") hnil)

/-! ## Slices -/

/-- The half-open range `b[lo:hi]`. -/
def slice (b : Bytes) (lo hi : Nat) : Bytes := (b.drop lo).take (hi - lo)

theorem slice_skip (a b : Bytes) (lo hi : Nat) (h : a.length ≤ lo) :
    slice (a ++ b) lo hi = slice b (lo - a.length) (hi - a.length) := by
  unfold slice
  rw [List.drop_append, List.drop_eq_nil_of_le h, List.nil_append]
  congr 1
  omega

theorem slice_here (a b : Bytes) (hi : Nat) (h : a.length = hi) : slice (a ++ b) 0 hi = a := by
  subst h
  simp [slice]

theorem slice_all (a : Bytes) (hi : Nat) (h : a.length = hi) : slice a 0 hi = a := by
  subst h
  simp [slice]

theorem slice_at (pre mid post : Bytes) (lo hi : Nat) (hlo : pre.length = lo) (hhi : lo + mid.length = hi) :
    slice (pre ++ (mid ++ post)) lo hi = mid := by
  rw [slice_skip pre _ lo hi (Nat.le_of_eq hlo), hlo, Nat.sub_self]
  exact slice_here mid post _ (by omega)

theorem slice_last (a b : Bytes) (lo hi : Nat) (hlo : a.length = lo) (hhi : lo + b.length = hi) :
    slice (a ++ b) lo hi = b := by
  rw [slice_skip a b lo hi (Nat.le_of_eq hlo), hlo, Nat.sub_self]
  exact slice_all b _ (by omega)

theorem length_slice (b : Bytes) (lo hi : Nat) (h : hi ≤ b.length) : (slice b lo hi).length = hi - lo := by
  simp only [slice, List.length_take, List.length_drop]
  omega

theorem slice_split (b : Bytes) {lo mid hi : Nat} (hlo : lo ≤ mid) (hhi : mid ≤ hi) :
    slice b lo hi = slice b lo mid ++ slice b mid hi := by
  unfold slice
  rw [show hi - lo = (mid - lo) + (hi - mid) by omega, List.take_add, List.drop_drop,
    show lo + (mid - lo) = mid by omega]

theorem getElem?_outside (a x y b : Bytes) (i : Nat) (hlen : x.length = y.length)
    (hi : i < a.length ∨ a.length + x.length ≤ i) : (a ++ (x ++ b))[i]? = (a ++ (y ++ b))[i]? := by
  rcases hi with hi | hi
  · rw [List.getElem?_append_left hi, List.getElem?_append_left hi]
  · rw [List.getElem?_append_right (by omega), List.getElem?_append_right (by omega),
      List.getElem?_append_right (by omega), List.getElem?_append_right (by omega), hlen]

/-! ## Little-endian numbers -/

/-- The low `w` bytes of `n`, least significant first. -/
def putLE : Nat → Nat → Bytes
  | 0, _ => []
  | w + 1, n => UInt8.ofNat n :: putLE w (n / 256)

def getLE : Bytes → Nat
  | [] => 0
  | b :: bs => b.toNat + 256 * getLE bs

@[simp] theorem length_putLE (w n : Nat) : (putLE w n).length = w := by
  induction w generalizing n with
  | zero => rfl
  | succ w ih => simp [putLE, ih]

theorem getLE_putLE (w n : Nat) : getLE (putLE w n) = n % 256 ^ w := by
  induction w generalizing n with
  | zero => simp [putLE, getLE, Nat.mod_one]
  | succ w ih =>
    simp only [putLE, getLE, ih, UInt8.toNat_ofNat', Nat.reducePow]
    rw [Nat.pow_succ, Nat.mul_comm (256 ^ w), Nat.mod_mul]

theorem getLE_lt (b : Bytes) : getLE b < 256 ^ b.length := by
  induction b with
  | nil => simp [getLE]
  | cons x b ih =>
    have hx := x.toNat_lt
    simp only [getLE, List.length_cons, Nat.pow_succ]
    omega

theorem putLE_getLE (b : Bytes) : putLE b.length (getLE b) = b := by
  induction b with
  | nil => rfl
  | cons x b ih =>
    have hx := x.toNat_lt
    have hhead : UInt8.ofNat (x.toNat + 256 * getLE b) = x := by
      apply UInt8.toNat_inj.mp
      rw [UInt8.toNat_ofNat']
      omega
    have htail : (x.toNat + 256 * getLE b) / 256 = getLE b := by omega
    simp only [List.length_cons, getLE, putLE, hhead, htail, ih]

def putUint16 (v : UInt16) : Bytes := putLE 2 v.toNat
def putUint32 (v : UInt32) : Bytes := putLE 4 v.toNat
def putUint64 (v : UInt64) : Bytes := putLE 8 v.toNat
def uint16 (b : Bytes) : UInt16 := UInt16.ofNat (getLE b)
def uint32 (b : Bytes) : UInt32 := UInt32.ofNat (getLE b)
def uint64 (b : Bytes) : UInt64 := UInt64.ofNat (getLE b)

@[simp] theorem length_putUint16 (v : UInt16) : (putUint16 v).length = 2 := length_putLE 2 _
@[simp] theorem length_putUint32 (v : UInt32) : (putUint32 v).length = 4 := length_putLE 4 _
@[simp] theorem length_putUint64 (v : UInt64) : (putUint64 v).length = 8 := length_putLE 8 _

@[simp] theorem uint16_putUint16 (v : UInt16) : uint16 (putUint16 v) = v := by
  unfold uint16 putUint16
  have hlt : v.toNat < 256 ^ 2 := v.toNat_lt
  rw [getLE_putLE, Nat.mod_eq_of_lt hlt]
  exact UInt16.ofNat_toNat

@[simp] theorem uint32_putUint32 (v : UInt32) : uint32 (putUint32 v) = v := by
  unfold uint32 putUint32
  have hlt : v.toNat < 256 ^ 4 := v.toNat_lt
  rw [getLE_putLE, Nat.mod_eq_of_lt hlt]
  exact UInt32.ofNat_toNat

@[simp] theorem uint64_putUint64 (v : UInt64) : uint64 (putUint64 v) = v := by
  unfold uint64 putUint64
  have hlt : v.toNat < 256 ^ 8 := v.toNat_lt
  rw [getLE_putLE, Nat.mod_eq_of_lt hlt]
  exact UInt64.ofNat_toNat

variable {b : Bytes}

theorem putUint16_uint16 (h : b.length = 2) : putUint16 (uint16 b) = b := by
  have hlt : getLE b < 65536 := by simpa [h] using getLE_lt b
  rw [putUint16, uint16, UInt16.toNat_ofNat', Nat.mod_eq_of_lt hlt, ← h, putLE_getLE]

theorem putUint32_uint32 (h : b.length = 4) : putUint32 (uint32 b) = b := by
  have hlt : getLE b < 4294967296 := by simpa [h] using getLE_lt b
  rw [putUint32, uint32, UInt32.toNat_ofNat', Nat.mod_eq_of_lt hlt, ← h, putLE_getLE]

theorem putUint64_uint64 (h : b.length = 8) : putUint64 (uint64 b) = b := by
  have hlt : getLE b < 18446744073709551616 := by simpa [h] using getLE_lt b
  rw [putUint64, uint64, UInt64.toNat_ofNat', Nat.mod_eq_of_lt hlt, ← h, putLE_getLE]

/-! ## UTF-8 -/

def isContinuation (b : UInt8) : Bool := 0x80 ≤ b && b ≤ 0xBF

/-- The second byte of a rune that starts with `b0`: three lead bytes narrow the range. -/
def isSecond (b0 b1 : UInt8) : Bool :=
  if b0 = 0xE0 then 0xA0 ≤ b1 && b1 ≤ 0xBF
  else if b0 = 0xED then 0x80 ≤ b1 && b1 ≤ 0x9F
  else if b0 = 0xF0 then 0x90 ≤ b1 && b1 ≤ 0xBF
  else if b0 = 0xF4 then 0x80 ≤ b1 && b1 ≤ 0x8F
  else isContinuation b1

/-- The width of the rune in front, `none` where no valid rune starts. -/
def runeWidth : Bytes → Option Nat
  | [] => none
  | b0 :: rest =>
    if b0 < 0x80 then some 1
    else if 0xC2 ≤ b0 ∧ b0 ≤ 0xDF then
      match rest with
      | b1 :: _ => if isSecond b0 b1 then some 2 else none
      | _ => none
    else if 0xE0 ≤ b0 ∧ b0 ≤ 0xEF then
      match rest with
      | b1 :: b2 :: _ => if isSecond b0 b1 && isContinuation b2 then some 3 else none
      | _ => none
    else if 0xF0 ≤ b0 ∧ b0 ≤ 0xF4 then
      match rest with
      | b1 :: b2 :: b3 :: _ =>
        if isSecond b0 b1 && isContinuation b2 && isContinuation b3 then some 4 else none
      | _ => none
    else none

def utf8Runes : Nat → Bytes → Bool
  | _, [] => true
  | 0, _ :: _ => false
  | n + 1, b :: bs =>
    match runeWidth (b :: bs) with
    | some width => utf8Runes n ((b :: bs).drop width)
    | none => false

/-- Go's `utf8.Valid`. A rune has at least one byte, so the length is fuel enough. -/
def utf8Valid (b : Bytes) : Bool := utf8Runes b.length b

example : utf8Valid [0xE3, 0x81, 0x82] = true ∧ utf8Valid [0xED, 0xA0, 0x80] = false := by decide

def isASCII (b : Bytes) : Bool := b.all fun x => x < 0x80

theorem utf8Valid_of_isASCII (h : isASCII b = true) : utf8Valid b = true := by
  unfold utf8Valid
  induction b with
  | nil => rfl
  | cons x b ih =>
    rw [isASCII, List.all_cons, Bool.and_eq_true, decide_eq_true_eq] at h
    have hwidth : runeWidth (x :: b) = some 1 := if_pos h.1
    rw [List.length_cons, utf8Runes, hwidth]
    exact ih h.2

end Bytes

/-- A `[32]byte`. -/
structure Digest where
  bytes : Bytes
  length_bytes : bytes.length = 32
deriving DecidableEq

namespace Digest

attribute [simp] Digest.length_bytes

def zero : Digest := ⟨List.replicate 32 0, rfl⟩

/-- `copy` into a `[32]byte`: what is missing stays zero. -/
def ofBytes (b : Bytes) : Digest := ⟨(b ++ List.replicate 32 0).take 32, by simp⟩

@[simp] theorem ofBytes_bytes (d : Digest) : ofBytes d.bytes = d := by
  cases d with
  | mk b h => simp [ofBytes, List.take_append_of_le_length (Nat.le_of_eq h.symm), List.take_of_length_le, h]

theorem bytes_ofBytes {b : Bytes} (h : b.length = 32) : (ofBytes b).bytes = b := by
  show (b ++ List.replicate 32 0).take 32 = b
  rw [List.take_append_of_le_length (Nat.le_of_eq h.symm), List.take_of_length_le (Nat.le_of_eq h)]

instance : Inhabited Digest := ⟨zero⟩

end Digest

/-- SHA-256 and CRC-32C (Castagnoli). The proofs use no property of either. -/
structure Hashes where
  sha256 : Bytes → Digest
  crc32c : Bytes → UInt32

/-- Hash functions to run the model with: the end of the input and its length. -/
def Hashes.sample : Hashes where
  sha256 data := Digest.ofBytes data.reverse
  crc32c data := UInt32.ofNat data.length

/-- Hashes to run the model with: a polynomial, and never zero. -/
def sampleHashes : Hashes where
  sha256 data := Digest.ofBytes (1 :: Bytes.putLE 8 (data.foldl (fun acc b => (acc * 257 + b.toNat + 1) % 2 ^ 61) 0))
  crc32c data := UInt32.ofNat data.length

theorem sampleHashes_ne_zero (data : Bytes) : sampleHashes.sha256 data ≠ Digest.zero := by
  intro h
  have hhead := congrArg (fun digest : Digest => digest.bytes.head?) h
  simp [sampleHashes, Digest.ofBytes, Digest.zero] at hhead

end TickPlatform
