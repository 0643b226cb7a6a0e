import TickPlatform.Protocol.Python

/-!
# Python reads back what it writes

`json.loads` inverts `json.dumps` on the shared value set, and what it scans is a value of the set once it passes the
checks of `canonical_json`.
-/

namespace TickPlatform.Protocol.Python

open Bytes

/-! ## Integers -/

def digitCodes (n : Nat) : Str := (digitBytes n).map UInt8.toNat

theorem codes_ofNat (n : Nat) : codes (toString (n : Int)) = digitCodes n := by
  rw [codes, digitCodes, ← formatInt_ofNat]
  rfl

theorem codes_negSucc (n : Nat) : codes (toString (Int.negSucc n)) = 45 :: digitCodes (n + 1) := by
  have hbytes := formatInt_negSucc n
  rw [formatInt] at hbytes
  rw [codes, hbytes]
  rfl

theorem isDigitCode_toNat (b : UInt8) : isDigitCode b.toNat = isDigit b := by
  simp [isDigitCode, isDigit, UInt8.le_iff_toNat_le]

variable {c n : Nat}

theorem mem_digitCodes (h : c ∈ digitCodes n) : isDigitCode c = true := by
  obtain ⟨b, hb, rfl⟩ := List.mem_map.mp h
  rw [isDigitCode_toNat]
  exact mem_digitBytes hb

theorem digitCodes_ne_nil (n : Nat) : digitCodes n ≠ [] := by
  simp [digitCodes, digitBytes_ne_nil]

theorem digitCodes_head (h : 0 < n) : (digitCodes n).head? ≠ some 48 := by
  intro hhead
  rw [digitCodes, List.head?_map, Option.map_eq_some_iff] at hhead
  obtain ⟨b, hb, hcode⟩ := hhead
  apply digitBytes_head h
  rw [hb, UInt8.toNat_inj.mp (show b.toNat = (48 : UInt8).toNat from hcode)]

theorem intValue_digitCodes (n : Nat) : intValue (digitCodes n) = n := by
  have h := decimal_digitBytes n
  rw [decimal] at h
  rw [intValue, digitCodes, List.foldl_map, h]

/-- What may follow a value. -/
def Follows (rest : Str) : Prop := ∀ c ∈ rest.head?, c = 44 ∨ c = 93 ∨ c = 125

variable {rest : Str}

theorem integerPart_digitCodes (n : Nat) (h : Follows rest) : integerPart (digitCodes n ++ rest) = digitCodes n := by
  rcases Nat.eq_zero_or_pos n with rfl | hpos
  · rfl
  · have hhead : (digitCodes n ++ rest).head? ≠ some 48 := by
      rw [List.head?_append_of_ne_nil _ (digitCodes_ne_nil n)]
      exact digitCodes_head hpos
    rw [integerPart, if_neg hhead, List.takeWhile_append_of_pos fun c hc => mem_digitCodes hc]
    cases rest with
    | nil => simp
    | cons c rest =>
      have hc : isDigitCode c = false := by
        rcases h c rfl with rfl | rfl | rfl <;> rfl
      simp [hc]

theorem hasFraction_follows (h : Follows rest) : hasFraction rest = false := by
  cases rest with
  | nil => rfl
  | cons c rest => rcases h c rfl with rfl | rfl | rfl <;> rfl

theorem hasExponent_follows (h : Follows rest) : hasExponent rest = false := by
  unfold hasExponent
  split <;> simp [Follows] at h ⊢ <;> omega

theorem parseInt_digitCodes {value : Int} (hlow : -9223372036854775808 ≤ value) (hhigh : value < 18446744073709551616) :
    parseInt (value < 0) (digitCodes value.natAbs) = .ok value := by
  have hsign : (if (decide (value < 0)) = true then -((intValue (digitCodes value.natAbs) : Nat) : Int)
      else intValue (digitCodes value.natAbs)) = value := by
    rw [intValue_digitCodes]
    split
    · rename_i hneg
      rw [decide_eq_true_eq] at hneg
      omega
    · rename_i hneg
      rw [decide_eq_true_eq] at hneg
      omega
  simp only [parseInt, bind_eq_ok, pure_eq_ok, reject_eq_ok, hsign]
  refine ⟨(), ?_, (), ?_, (), by omega, trivial⟩
  · rintro ⟨hneg, hzero⟩
    rw [decide_eq_true_eq] at hneg
    have hhead := digitCodes_head (n := value.natAbs) (by omega)
    rw [hzero] at hhead
    exact hhead rfl
  · rintro ⟨hlength, hhead⟩
    rcases Nat.eq_zero_or_pos value.natAbs with hzero | hpos
    · rw [hzero] at hlength
      exact absurd hlength (by decide)
    · exact digitCodes_head hpos hhead

theorem codes_head (value : Int) : ∃ c rest, codes (toString value) = c :: rest ∧ (c = 45 ∨ isDigitCode c = true) := by
  cases value with
  | ofNat n =>
    rw [Int.ofNat_eq_natCast, codes_ofNat]
    obtain ⟨c, rest, hcodes⟩ := List.exists_cons_of_ne_nil (digitCodes_ne_nil n)
    exact ⟨c, rest, hcodes, .inr (mem_digitCodes (hcodes ▸ List.mem_cons_self))⟩
  | negSucc n => exact ⟨45, _, codes_negSucc n, .inl rfl⟩

theorem scanNumber_codes {value : Int} (hlow : -9223372036854775808 ≤ value) (hhigh : value < 18446744073709551616) (h : Follows rest) : scanNumber (codes (toString value) ++ rest) = .ok (.int value, rest) := by
  have hparse := parseInt_digitCodes hlow hhigh
  cases value with
  | ofNat n =>
    have hpositive : decide ((digitCodes n ++ rest).head? = some 45) = false := by
      rw [decide_eq_false_iff_not, List.head?_append_of_ne_nil _ (digitCodes_ne_nil n)]
      intro hhead
      exact absurd (mem_digitCodes (List.mem_of_head? hhead)) (by decide)
    have hsign : decide ((n : Int) < 0) = false := by simp
    rw [Int.ofNat_eq_natCast] at hparse ⊢
    rw [Int.natAbs_natCast, hsign] at hparse
    rw [codes_ofNat, scanNumber]
    simp only [hpositive, Bool.false_eq_true, if_false, integerPart_digitCodes n h, digitCodes_ne_nil, List.drop_left,
      hasFraction_follows h, hasExponent_follows h, or_self, hparse]
    rfl
  | negSucc n =>
    have hsign : decide (Int.negSucc n < 0) = true := by simp
    rw [hsign, Int.natAbs_negSucc] at hparse
    rw [codes_negSucc, scanNumber]
    simp only [List.cons_append, List.head?_cons, decide_true, if_true, List.drop_succ_cons, List.drop_zero,
      integerPart_digitCodes (n + 1) h, digitCodes_ne_nil, if_false, List.drop_left, hasFraction_follows h, hasExponent_follows h,
      Bool.false_eq_true, or_self, hparse]
    rfl

/-! ## Strings -/

theorem hexDigit_toNat (b : UInt8) : hexDigit b.toNat = parseHexDigit b := by
  simp [hexDigit, parseHexDigit, UInt8.le_iff_toNat_le]

theorem decodeUXXXX_hexBytes {value : Nat} (h : value < 65536) (rest : Str) :
    decodeUXXXX ((hexBytes [UInt8.ofNat (value / 256), UInt8.ofNat value]).map UInt8.toNat ++ rest) = .ok (value, rest) := by
  have hlength : ((hexBytes [UInt8.ofNat (value / 256), UInt8.ofNat value]).map UInt8.toNat).length = 4 := by
    rw [List.length_map, length_hexBytes_pair]
  rw [decodeUXXXX, List.take_left' hlength, List.drop_left' hlength, List.foldlM_map]
  simp only [hexDigit_toNat, foldlM_hexBytes h]
  exact bind_eq_ok.mpr ⟨(), reject_eq_ok.mpr (by simp [hlength]), rfl⟩

theorem unicodeEscapeText_eq (value : Nat) :
    unicodeEscapeText value = 92 :: 117 :: (hexBytes [UInt8.ofNat (value / 256), UInt8.ofNat value]).map UInt8.toNat := rfl

variable {r : Nat}

theorem scanUnicode_unit (h : IsScalar r) (hr : r < 65536) (rest : Str) :
    scanUnicode ((hexBytes [UInt8.ofNat (r / 256), UInt8.ofNat r]).map UInt8.toNat ++ rest) = .ok (r, rest) := by
  unfold IsScalar at h
  rw [scanUnicode, decodeUXXXX_hexBytes hr]
  simp only [bind_eq_ok]
  refine ⟨_, rfl, ?_⟩
  dsimp only
  rw [if_neg (by omega)]
  rfl

theorem scanUnicode_pair (hlow : 65536 ≤ r) (hhigh : r < 0x110000) (rest : Str) :
    scanUnicode ((hexBytes [UInt8.ofNat ((0xD800 + (r - 0x10000) / 1024) / 256),
      UInt8.ofNat (0xD800 + (r - 0x10000) / 1024)]).map UInt8.toNat ++
        (unicodeEscapeText (0xDC00 + (r - 0x10000) % 1024) ++ rest)) = .ok (r, rest) := by
  rw [scanUnicode, decodeUXXXX_hexBytes (by omega)]
  simp only [bind_eq_ok]
  refine ⟨_, rfl, ?_⟩
  dsimp only
  rw [if_pos ⟨by omega, rfl⟩]
  simp only [bind_eq_ok]
  refine ⟨(0xDC00 + (r - 0x10000) % 1024, rest), decodeUXXXX_hexBytes (by omega) rest, ?_⟩
  dsimp only
  rw [if_pos (by omega), pure_eq_ok]
  rw [show 0x10000 + (0xD800 + (r - 0x10000) / 1024 - 0xD800) * 1024 + (0xDC00 + (r - 0x10000) % 1024 - 0xDC00) = r by omega]

/-- One round of the scanner takes the escape of one character. -/
theorem scanString_escapeASCII (h : IsScalar r) (n : Nat) (out rest : Str) :
    scanString (n + 1) out (escapeASCII r ++ rest) = scanString n (out ++ [r]) rest := by
  have hescape : ∀ (tail : Str) (c : Nat) (after : Str), scanEscape tail = .ok (c, after) →
      scanString (n + 1) out (92 :: tail) = scanString n (out ++ [c]) after := by
    intro tail c after hscan
    simp only [scanString, hscan]
    rfl
  by_cases hshort : r = 34 ∨ r = 92 ∨ r = 8 ∨ r = 12 ∨ r = 10 ∨ r = 13 ∨ r = 9
  · rcases hshort with rfl | rfl | rfl | rfl | rfl | rfl | rfl <;> exact hescape _ _ _ rfl
  simp only [not_or] at hshort
  obtain ⟨h34, h92, h8, h12, h10, h13, h9⟩ := hshort
  have hscalar := h
  unfold IsScalar at h
  rw [escapeASCII, if_neg h34, if_neg h92, if_neg h8, if_neg h12, if_neg h10, if_neg h13, if_neg h9]
  split
  · rw [List.singleton_append, scanString, if_neg h34, if_neg h92, if_neg (by omega)]
  split
  · rw [unicodeEscapeText_eq]
    exact hescape _ _ _ (scanUnicode_unit hscalar (by omega) rest)
  · rw [List.append_assoc, unicodeEscapeText_eq]
    exact hescape _ _ _ (scanUnicode_pair (by omega) (by omega) rest)

theorem escapeASCII_eq (h : r ≠ 127) : escapeASCII r = (escapeRune r).map UInt8.toNat := by
  by_cases hshort : r = 34 ∨ r = 92 ∨ r = 8 ∨ r = 12 ∨ r = 10 ∨ r = 13 ∨ r = 9
  · rcases hshort with rfl | rfl | rfl | rfl | rfl | rfl | rfl <;> rfl
  simp only [not_or] at hshort
  obtain ⟨h34, h92, h8, h12, h10, h13, h9⟩ := hshort
  rw [escapeASCII, if_neg h34, if_neg h92, if_neg h8, if_neg h12, if_neg h10, if_neg h13, if_neg h9]
  rw [escapeRune, if_neg h34, if_neg h92, if_neg h8, if_neg h12, if_neg h10, if_neg h13, if_neg h9]
  by_cases hcontrol : r < 0x20
  · rw [if_neg (by omega), if_pos (by omega), if_pos hcontrol]
    rfl
  by_cases hascii : r ≤ 0x7F
  · rw [if_pos (by omega), if_neg hcontrol, if_pos hascii, List.map_singleton, toNat_ofNat8 (by omega)]
  by_cases hbmp : r ≤ 0xFFFF
  · rw [if_neg (by omega), if_pos (by omega), if_neg hcontrol, if_neg hascii, if_pos hbmp]
    rfl
  · rw [if_neg (by omega), if_neg (by omega), if_neg hcontrol, if_neg hascii, if_neg hbmp, List.map_append]
    rfl

theorem escapeASCII_ne_nil (r : Nat) : escapeASCII r ≠ [] := by
  by_cases h : r = 127
  · rw [h]
    decide
  · rw [escapeASCII_eq h]
    simp [escapeRune_ne_nil]

theorem scanString_flatMap {value : Str} (h : ∀ r ∈ value, IsScalar r)
    (hn : (value.flatMap escapeASCII).length < n) (out rest : Str) :
    scanString n out (value.flatMap escapeASCII ++ 34 :: rest) = .ok (out ++ value, rest) := by
  induction value generalizing n out with
  | nil =>
    cases n with
    | zero => cases hn
    | succ n => simp [scanString]
  | cons r value ih =>
    rw [List.forall_mem_cons] at h
    have hpos := List.length_pos_of_ne_nil (escapeASCII_ne_nil r)
    rw [List.flatMap_cons, List.length_append] at hn
    cases n with
    | zero => cases hn
    | succ n =>
      rw [List.flatMap_cons, List.append_assoc, scanString_escapeASCII h.1, ih h.2 (by omega), List.append_assoc]
      rfl

/-- **A string is read back.** -/
theorem scanString_dumpString {value : Str} (h : ∀ r ∈ value, IsScalar r) (rest : Str) :
    ∃ tail, dumpString value ++ rest = 34 :: tail ∧ scanString tail.length [] tail = .ok (value, rest) := by
  refine ⟨value.flatMap escapeASCII ++ 34 :: rest, by simp [dumpString], ?_⟩
  rw [scanString_flatMap h (by simp)]
  rfl

/-! ## The shared values -/

/-- The shared value set, as Python holds it. -/
inductive PyValue.Shared : PyValue → Prop
  | none : Shared .none
  | bool (value : Bool) : Shared (.bool value)
  | int {value : Int} (hlow : -9223372036854775808 ≤ value) (hhigh : value < 18446744073709551616) : Shared (.int value)
  | str {value : Str} (hscalar : ∀ r ∈ value, IsScalar r) : Shared (.str value)
  | list {items : List PyValue} (hitems : ∀ item ∈ items, Shared item) : Shared (.list items)
  | dict {pairs : List (Str × PyValue)} (hkeys : (pairs.map (·.1)).Nodup)
      (hscalar : ∀ pair ∈ pairs, ∀ r ∈ pair.1, IsScalar r) (hpairs : ∀ pair ∈ pairs, Shared pair.2) : Shared (.dict pairs)

mutual

/-- The value as Go holds it. -/
def PyValue.toGo : PyValue → Json
  | .none => .null
  | .bool value => .bool value
  | .int value => .int value
  | .str value => .string (writeRunes value)
  | .list items => .array (toGoItems items)
  | .dict pairs => .object (toGoPairs pairs)

def toGoItems : List PyValue → List Json
  | [] => []
  | item :: items => item.toGo :: toGoItems items

def toGoPairs : List (Str × PyValue) → List (Bytes × Json)
  | [] => []
  | (key, value) :: pairs => (writeRunes key, value.toGo) :: toGoPairs pairs

end

theorem toGoItems_eq (items : List PyValue) : toGoItems items = items.map PyValue.toGo := by
  induction items with
  | nil => simp [toGoItems]
  | cons item items ih => simp [toGoItems, ih]

theorem toGoPairs_eq (pairs : List (Str × PyValue)) :
    toGoPairs pairs = pairs.map fun pair => (writeRunes pair.1, pair.2.toGo) := by
  induction pairs with
  | nil => simp [toGoPairs]
  | cons pair pairs ih =>
    obtain ⟨key, value⟩ := pair
    simp [toGoPairs, ih]

mutual

/-- The value with its dicts in key order. -/
def PyValue.sorted : PyValue → PyValue
  | .list items => .list (sortedItems items)
  | .dict pairs => .dict ((sortedPairs pairs).insertionSort pairLE)
  | value => value

def sortedItems : List PyValue → List PyValue
  | [] => []
  | item :: items => item.sorted :: sortedItems items

def sortedPairs : List (Str × PyValue) → List (Str × PyValue)
  | [] => []
  | (key, value) :: pairs => (key, value.sorted) :: sortedPairs pairs

end

theorem sortedItems_eq (items : List PyValue) : sortedItems items = items.map PyValue.sorted := by
  induction items with
  | nil => simp [sortedItems]
  | cons item items ih => simp [sortedItems, ih]

theorem sortedPairs_eq (pairs : List (Str × PyValue)) :
    sortedPairs pairs = pairs.map fun pair => (pair.1, pair.2.sorted) := by
  induction pairs with
  | nil => simp [sortedPairs]
  | cons pair pairs ih =>
    obtain ⟨key, value⟩ := pair
    simp [sortedPairs, ih]

theorem sorted_dict_eq (pairs : List (Str × PyValue)) :
    (PyValue.dict pairs).sorted = .dict ((pairs.insertionSort pairLE).map fun pair => (pair.1, pair.2.sorted)) := by
  rw [PyValue.sorted, sortedPairs_eq, List.map_insertionSort pairLE pairLE]
  intro a _ b _
  rfl

theorem toGo_dict_eq (pairs : List (Str × PyValue)) :
    (PyValue.dict pairs).toGo = .object (pairs.map fun pair => (writeRunes pair.1, pair.2.toGo)) := by
  rw [PyValue.toGo, toGoPairs_eq]

variable {value : PyValue}

theorem toGo_sorted (h : value.Shared) : value.sorted.toGo = value.toGo.sorted := by
  induction h with
  | none => rfl
  | bool value => rfl
  | int hlow hhigh => rfl
  | str hscalar => rfl
  | @list items hitems ih =>
    simp only [PyValue.sorted, PyValue.toGo, Json.sorted, toGoItems_eq, sortedItems_eq, Protocol.sortedItems_eq,
      List.map_map]
    exact congrArg Json.array (List.map_congr_left ih)
  | @dict pairs hkeys hscalar hpairs ih =>
    have hsort : (pairs.map fun pair => (writeRunes pair.1, pair.2.toGo)).insertionSort fieldLE =
        (pairs.insertionSort pairLE).map fun pair => (writeRunes pair.1, pair.2.toGo) :=
      (List.map_insertionSort pairLE fieldLE _ _ fun a _ b _ => Iff.rfl).symm
    rw [sorted_dict_eq, toGo_dict_eq, toGo_dict_eq, sorted_object_eq, hsort, List.map_map, List.map_map]
    apply congrArg Json.object
    apply List.map_congr_left
    intro pair hpair
    rw [Function.comp_apply, Function.comp_apply]
    dsimp only
    rw [ih pair ((List.mem_insertionSort _).mp hpair)]

theorem PyValue.Shared.wellFormed (h : value.Shared) : value.toGo.WellFormed := by
  induction h with
  | none => exact .null
  | bool value => exact .bool value
  | int hlow hhigh => exact .int hlow hhigh
  | str hscalar => exact .string (utf8Valid_writeRunes hscalar)
  | @list items hitems ih =>
    rw [PyValue.toGo, toGoItems_eq]
    exact .array (List.forall_mem_map.mpr ih)
  | @dict pairs hkeys hscalar hpairs ih =>
    rw [toGo_dict_eq]
    refine .object ?_ (List.forall_mem_map.mpr fun pair hpair => utf8Valid_writeRunes (hscalar pair hpair))
      (List.forall_mem_map.mpr ih)
    rw [List.map_map]
    have hbytes : pairs.map ((fun x => x.1) ∘ fun pair => (writeRunes pair.1, pair.2.toGo)) =
        (pairs.map (·.1)).map writeRunes := by
      rw [List.map_map]
      rfl
    rw [hbytes]
    apply List.Nodup.map_on _ hkeys
    intro key hkey other hother heq
    obtain ⟨pair, hpair, rfl⟩ := List.mem_map.mp hkey
    obtain ⟨pair', hpair', rfl⟩ := List.mem_map.mp hother
    exact writeRunes_inj (hscalar pair hpair) (hscalar pair' hpair') heq

/-- Every value of the set is one that Python holds. -/
theorem exists_shared {value : Json} (h : value.WellFormed) : ∃ shared : PyValue, shared.Shared ∧ shared.toGo = value := by
  induction h with
  | null => exact ⟨.none, .none, by rw [PyValue.toGo]⟩
  | bool value => exact ⟨.bool value, .bool value, by rw [PyValue.toGo]⟩
  | @int value hlow hhigh => exact ⟨.int value, .int hlow hhigh, by rw [PyValue.toGo]⟩
  | string hvalid =>
    obtain ⟨runes, hrunes, rfl⟩ := exists_runes hvalid
    exact ⟨.str runes, .str hrunes, by rw [PyValue.toGo]⟩
  | @array items hitems ih =>
    obtain ⟨shared, hshared⟩ := exists_forall₂ ih
    refine ⟨.list shared, .list ?_, ?_⟩
    · intro item hitem
      obtain ⟨_, -, h⟩ := exists_left_of_mem hshared hitem
      exact h.1
    · have hgo : shared.map PyValue.toGo = items := by
        rw [← List.forall₂_eq_eq_eq, List.forall₂_map_left_iff]
        exact (hshared.imp fun _ _ h => h.2).flip
      rw [PyValue.toGo, toGoItems_eq, hgo]
  | @object fields hkeys hvalid hfields ih =>
    have hpair : ∀ field ∈ fields, ∃ pair : Str × PyValue, (∀ r ∈ pair.1, IsScalar r) ∧ pair.2.Shared ∧
        (writeRunes pair.1, pair.2.toGo) = field := by
      intro field hfield
      obtain ⟨runes, hrunes, hkey⟩ := exists_runes (hvalid field hfield)
      obtain ⟨shared, hshared, hvalue⟩ := ih field hfield
      exact ⟨(runes, shared), hrunes, hshared, Prod.ext hkey.symm hvalue⟩
    obtain ⟨pairs, hpairs⟩ := exists_forall₂ hpair
    have hgo : (pairs.map fun pair => (writeRunes pair.1, pair.2.toGo)) = fields := by
      rw [← List.forall₂_eq_eq_eq, List.forall₂_map_left_iff]
      exact (hpairs.imp fun _ _ h => h.2.2).flip
    refine ⟨.dict pairs, .dict ?_ ?_ ?_, by rw [toGo_dict_eq, hgo]⟩
    · apply List.Nodup.of_map writeRunes
      rw [← hgo, List.map_map] at hkeys
      rw [List.map_map]
      exact hkeys
    · intro pair hmem
      obtain ⟨_, -, h⟩ := exists_left_of_mem hpairs hmem
      exact h.1
    · intro pair hmem
      obtain ⟨_, -, h⟩ := exists_left_of_mem hpairs hmem
      exact h.2.1

/-! ## What the checks pass -/

variable {items : List PyValue}

theorem checkItems_eq_ok {checked : List PyValue} :
    checkItems items = .ok checked ↔ List.Forall₂ (fun item value => check item = .ok value) items checked := by
  induction items generalizing checked with
  | nil => simp [checkItems, eq_comm]
  | cons item items ih =>
    rw [checkItems, List.forall₂_cons_left_iff]
    simp only [bind_eq_ok, pure_eq_ok, ih, exists_and_left, eq_comm (a := checked)]

variable {pairs : List (Str × PyValue)}

theorem checkPairs_eq_ok {checked : List (Str × PyValue)} : checkPairs pairs = .ok checked ↔
      List.Forall₂ (fun pair value => value.1 = pair.1 ∧ check pair.2 = .ok value.2) pairs checked := by
  induction pairs generalizing checked with
  | nil => simp [checkPairs, eq_comm]
  | cons pair pairs ih =>
    obtain ⟨key, value⟩ := pair
    rw [checkPairs, List.forall₂_cons_left_iff]
    simp only [bind_eq_ok, pure_eq_ok, ih]
    constructor
    · rintro ⟨value', hvalue, rest, hrest, rfl⟩
      exact ⟨(key, value'), rest, ⟨rfl, hvalue⟩, hrest, rfl⟩
    · rintro ⟨⟨key', value'⟩, rest, ⟨rfl, hvalue⟩, hrest, rfl⟩
      exact ⟨value', hvalue, rest, hrest, rfl⟩

theorem check_of_shared (h : value.Shared) : check value = .ok value.sorted := by
  induction h with
  | none => simp only [check, PyValue.sorted]
  | bool value => simp only [check, PyValue.sorted]
  | int hlow hhigh =>
    simp only [check, PyValue.sorted, bind_eq_ok, pure_eq_ok, reject_eq_ok]
    exact ⟨(), by omega, trivial⟩
  | str hscalar =>
    simp only [check, encode, PyValue.sorted, bind_eq_ok, pure_eq_ok, reject_eq_ok]
    refine ⟨_, ⟨(), ?_, rfl⟩, trivial⟩
    rintro ⟨r, hr, hnot⟩
    exact hnot (hscalar r hr)
  | @list items hitems ih =>
    simp only [check, PyValue.sorted, sortedItems_eq, bind_eq_ok, pure_eq_ok]
    refine ⟨_, checkItems_eq_ok.mpr ?_, rfl⟩
    rw [List.forall₂_map_right_iff, List.forall₂_same]
    exact ih
  | @dict pairs hkeys hscalar hpairs ih =>
    simp only [check, PyValue.sorted, sortedPairs_eq, bind_eq_ok, pure_eq_ok, reject_eq_ok]
    refine ⟨(), ?_, _, checkPairs_eq_ok.mpr ?_, rfl⟩
    · rintro ⟨pair, hpair, r, hr, hnot⟩
      exact hnot (hscalar pair hpair r hr)
    · rw [List.forall₂_map_right_iff, List.forall₂_same]
      exact fun pair hpair => ⟨rfl, ih pair hpair⟩

theorem canonicalJson_of_shared (h : value.Shared) : canonicalJson value = .ok (dumps value.sorted) :=
  bind_eq_ok.mpr ⟨_, check_of_shared h, rfl⟩

theorem PyValue.Shared.sorted (h : value.Shared) : value.sorted.Shared := by
  induction h with
  | none => exact .none
  | bool value => exact .bool value
  | int hlow hhigh => exact .int hlow hhigh
  | str hscalar => exact .str hscalar
  | list hitems ih =>
    rw [PyValue.sorted, sortedItems_eq]
    exact .list (List.forall_mem_map.mpr ih)
  | @dict pairs hkeys hscalar hpairs ih =>
    have hmem : ∀ {pair}, pair ∈ pairs.insertionSort pairLE → pair ∈ pairs := (List.mem_insertionSort _).mp
    rw [sorted_dict_eq]
    refine .dict ?_ (List.forall_mem_map.mpr fun pair hpair => hscalar pair (hmem hpair))
      (List.forall_mem_map.mpr fun pair hpair => ih pair (hmem hpair))
    rw [List.map_map]
    exact ((List.perm_insertionSort pairLE pairs).map _).nodup_iff.mpr hkeys

instance : Std.Total pairLE := ⟨fun a b => keyLE_total (writeRunes a.1) (writeRunes b.1)⟩

instance : IsTrans (Str × PyValue) pairLE := ⟨fun _ _ _ => keyLE_trans⟩

theorem sorted_sorted (h : value.Shared) : value.sorted.sorted = value.sorted := by
  induction h with
  | none => rfl
  | bool value => rfl
  | int hlow hhigh => rfl
  | str hscalar => rfl
  | list hitems ih =>
    simp only [PyValue.sorted, sortedItems_eq, List.map_map]
    exact congrArg PyValue.list (List.map_congr_left ih)
  | @dict pairs hkeys hscalar hpairs ih =>
    have hsorted : ((pairs.insertionSort pairLE).map fun pair => (pair.1, pair.2.sorted)).Pairwise pairLE :=
      List.pairwise_map.mpr (List.pairwise_insertionSort pairLE pairs)
    rw [sorted_dict_eq, sorted_dict_eq, hsorted.insertionSort_eq, List.map_map]
    apply congrArg PyValue.dict
    apply List.map_congr_left
    intro pair hpair
    rw [Function.comp_apply]
    dsimp only
    rw [ih pair ((List.mem_insertionSort _).mp hpair)]

/-! ## Reading back -/

theorem dumpItems_eq (items : List PyValue) : dumpItems items = items.map dumps := by
  induction items with
  | nil => simp [dumpItems]
  | cons item items ih => simp [dumpItems, ih]

theorem dumpPairs_eq (pairs : List (Str × PyValue)) :
    dumpPairs pairs = pairs.map fun pair => dumpString pair.1 ++ [58] ++ dumps pair.2 := by
  induction pairs with
  | nil => simp [dumpPairs]
  | cons pair pairs ih =>
    obtain ⟨key, value⟩ := pair
    simp [dumpPairs, ih]

/-- The first character of a dump: no white space and nothing that closes. -/
def startsDump (c : Nat) : Bool :=
  c = 110 ∨ c = 116 ∨ c = 102 ∨ c = 34 ∨ c = 91 ∨ c = 123 ∨ c = 45 ∨ isDigitCode c

theorem dumps_head (value : PyValue) : ∃ c rest, dumps value = c :: rest ∧ startsDump c = true := by
  cases value with
  | none => exact ⟨110, _, by rw [dumps]; rfl, rfl⟩
  | bool value =>
    cases value with
    | true => exact ⟨116, _, by rw [dumps]; rfl, rfl⟩
    | false => exact ⟨102, _, by rw [dumps]; rfl, rfl⟩
  | int value =>
    obtain ⟨c, rest, hcodes, hc⟩ := codes_head value
    refine ⟨c, rest, by rw [dumps, hcodes], ?_⟩
    rcases hc with rfl | hc
    · rfl
    · simp [startsDump, hc]
  | str value => exact ⟨34, _, by rw [dumps]; rfl, rfl⟩
  | list items => exact ⟨91, _, by rw [dumps]; rfl, rfl⟩
  | dict pairs => exact ⟨123, _, by rw [dumps]; rfl, rfl⟩

theorem skip_cons (h : ¬ (c = 32 ∨ c = 9 ∨ c = 13 ∨ c = 10)) (rest : Str) : skip (c :: rest) = c :: rest := by
  rw [skip, if_neg h]

theorem skip_startsDump (h : startsDump c = true) (rest : Str) : skip (c :: rest) = c :: rest := by
  apply skip_cons
  rintro (rfl | rfl | rfl | rfl) <;> exact absurd h (by decide)

/-- The scanner reads the dump as the value and stops behind it. -/
def Scans (value : PyValue) : Prop :=
  ∀ (n : Nat) (rest : Str), (dumps value).length ≤ n → Follows rest → scanOnce n (dumps value ++ rest) = .ok (value, rest)

theorem skip_dumps (value : PyValue) (rest : Str) : skip (dumps value ++ rest) = dumps value ++ rest := by
  obtain ⟨c, tail, htext, hc⟩ := dumps_head value
  rw [htext, List.cons_append, skip_startsDump hc]

theorem skip_intercalate (item : PyValue) (items : List PyValue) (rest : Str) :
    skip (List.intercalate [44] ((item :: items).map dumps) ++ rest) = List.intercalate [44] ((item :: items).map dumps) ++ rest := by
  obtain ⟨c, tail, htext, hc⟩ := dumps_head item
  obtain ⟨tail', htail⟩ := intercalate_head [44] c tail (items.map dumps)
  rw [List.map_cons, htext, htail, List.cons_append, skip_startsDump hc]

theorem scanItems_dumps (h : ∀ item ∈ items, Scans item) (hne : items ≠ [])
    (hn : (List.intercalate [44] (items.map dumps)).length < n) (acc : List PyValue) (rest : Str) :
    scanItems n acc (List.intercalate [44] (items.map dumps) ++ 93 :: rest) = .ok (acc ++ items, rest) := by
  induction items generalizing n acc with
  | nil => exact absurd rfl hne
  | cons item items ih =>
    rw [List.forall_mem_cons] at h
    cases n with
    | zero => cases hn
    | succ n =>
      cases items with
      | nil =>
        rw [List.map_singleton, List.intercalate_singleton] at hn ⊢
        have hscan := h.1 n (93 :: rest) (by omega) (by simp [Follows])
        simp [scanItems, hscan, bind_eq_ok, skip]
      | cons item' items =>
        rw [List.map_cons, List.map_cons, List.intercalate_cons_cons] at hn ⊢
        rw [List.length_append, List.length_append, List.length_singleton] at hn
        rw [List.append_assoc, List.append_assoc, List.singleton_append]
        have hscan := h.1 n (44 :: (List.intercalate [44] (dumps item' :: items.map dumps) ++ 93 :: rest)) (by omega)
          (by simp [Follows])
        have hnext : skip (List.intercalate [44] (dumps item' :: items.map dumps) ++ 93 :: rest) =
            List.intercalate [44] (dumps item' :: items.map dumps) ++ 93 :: rest := skip_intercalate item' items _
        have hlater := ih h.2 (by simp) (show _ < n by rw [List.map_cons]; omega) (acc ++ [item])
        rw [List.append_assoc] at hlater
        simp only [scanItems, hscan, bind_eq_ok]
        refine ⟨_, rfl, ?_⟩
        rw [skip_cons (by decide)]
        show scanItems n (acc ++ [item]) (skip _) = _
        rw [hnext]
        exact hlater

def dumpPair (pair : Str × PyValue) : Str := dumpString pair.1 ++ [58] ++ dumps pair.2

/-- One round of the scanner for dicts: the name, the colon, the value, and what ends the pair. -/
theorem scanPairs_round {key : Str} (hkey : ∀ r ∈ key, IsScalar r) (hvalue : Scans value)
    (hn : (dumps value).length ≤ n) (acc : List (Str × PyValue)) (rest : Str) :
    scanPairs (n + 1) acc (dumpPair (key, value) ++ 125 :: rest) = .ok (acc ++ [(key, value)], rest) ∧
      scanPairs (n + 1) acc (dumpPair (key, value) ++ 44 :: rest) = scanPairs n (acc ++ [(key, value)]) (skip rest) := by
  have hcolon := skip_cons (c := 58) (by decide)
  have hbrace := skip_cons (c := 125) (by decide)
  have hsep := skip_cons (c := 44) (by decide)
  have hsplit : ∀ after, dumpPair (key, value) ++ after = dumpString key ++ (58 :: (dumps value ++ after)) := by
    intro after
    simp [dumpPair]
  constructor
  · have hscan := hvalue n (125 :: rest) hn (by simp [Follows])
    obtain ⟨tail, htail, hstring⟩ := scanString_dumpString hkey (58 :: (dumps value ++ 125 :: rest))
    rw [hsplit, htail]
    simp only [scanPairs, hstring, bind, Except.bind, hcolon, skip_dumps, hscan, hbrace]
  · have hscan := hvalue n (44 :: rest) hn (by simp [Follows])
    obtain ⟨tail, htail, hstring⟩ := scanString_dumpString hkey (58 :: (dumps value ++ 44 :: rest))
    rw [hsplit, htail]
    simp only [scanPairs, hstring, bind, Except.bind, hcolon, skip_dumps, hscan, hsep]

theorem dumpPair_head (pair : Str × PyValue) : ∃ tail, dumpPair pair = 34 :: tail := ⟨_, rfl⟩

theorem intercalate_dumpPair_head (pair : Str × PyValue) (pairs : List (Str × PyValue)) :
    ∃ tail, List.intercalate [44] ((pair :: pairs).map dumpPair) = 34 :: tail := by
  rw [List.map_cons, (dumpPair_head pair).choose_spec]
  exact intercalate_head _ _ _ _

theorem scanPairs_dumps (hkeys : ∀ pair ∈ pairs, ∀ r ∈ pair.1, IsScalar r)
    (h : ∀ pair ∈ pairs, Scans pair.2) (hne : pairs ≠ [])
    (hn : (List.intercalate [44] (pairs.map dumpPair)).length < n) (acc : List (Str × PyValue)) (rest : Str) :
    scanPairs n acc (List.intercalate [44] (pairs.map dumpPair) ++ 125 :: rest) = .ok (acc ++ pairs, rest) := by
  induction pairs generalizing n acc with
  | nil => exact absurd rfl hne
  | cons pair pairs ih =>
    rw [List.forall_mem_cons] at h hkeys
    have hvalue : (dumps pair.2).length < (dumpPair pair).length := by
      rw [dumpPair, List.length_append, List.length_append, List.length_singleton]
      omega
    cases n with
    | zero => cases hn
    | succ n =>
      cases pairs with
      | nil =>
        rw [List.map_singleton, List.intercalate_singleton] at hn ⊢
        exact (scanPairs_round hkeys.1 h.1 (by omega) acc rest).1
      | cons pair' pairs =>
        rw [List.map_cons, List.map_cons, List.intercalate_cons_cons] at hn ⊢
        rw [List.length_append, List.length_append, List.length_singleton] at hn
        rw [List.append_assoc, List.append_assoc, List.singleton_append,
          (scanPairs_round hkeys.1 h.1 (by omega) acc _).2]
        have hnext : skip (List.intercalate [44] (dumpPair pair' :: pairs.map dumpPair) ++ 125 :: rest) =
            List.intercalate [44] (dumpPair pair' :: pairs.map dumpPair) ++ 125 :: rest := by
          obtain ⟨tail, htail⟩ := intercalate_dumpPair_head pair' pairs
          rw [List.map_cons] at htail
          rw [htail, List.cons_append, skip_cons (by decide)]
        have hlater := ih hkeys.2 h.2 (by simp) (show _ < n by rw [List.map_cons]; omega) (acc ++ [pair])
        rw [List.append_assoc] at hlater
        rw [hnext]
        exact hlater

/-- A dict keeps its pairs in order, under distinct keys. -/
theorem objectPairs_eq_ok {result : List (Str × PyValue)} :
    objectPairs pairs = .ok result ↔ result = pairs ∧ (pairs.map (·.1)).Nodup := by
  have hfold : ∀ (pairs acc : List (Str × PyValue)), (acc.map (·.1)).Nodup →
      (pairs.foldlM (fun result pair => do
        reject (result.any fun other => other.1 = pair.1) "duplicate JSON object key"
        return result ++ [pair]) acc = Except.ok result ↔
        result = acc ++ pairs ∧ ((acc ++ pairs).map (·.1)).Nodup) := by
    intro pairs
    induction pairs with
    | nil =>
      intro acc hacc
      rw [List.foldlM_nil, pure_eq_ok, List.append_nil, and_iff_left hacc, eq_comm]
    | cons pair pairs ih =>
      intro acc hacc
      simp only [foldlM_cons_eq_ok, bind_eq_ok, pure_eq_ok, reject_eq_ok]
      constructor
      · rintro ⟨_, ⟨_, hfresh, rfl⟩, hrest⟩
        rw [ih _ (nodup_keys_concat.mpr ⟨hacc, hfresh⟩), List.append_assoc] at hrest
        exact hrest
      · rintro ⟨rfl, hnodup⟩
        have hsplit : acc ++ pair :: pairs = (acc ++ [pair]) ++ pairs := by simp
        rw [hsplit] at hnodup
        have hfront : ((acc ++ [pair]).map (·.1)).Nodup := by
          rw [List.map_append] at hnodup
          exact (List.nodup_append.mp hnodup).1
        exact ⟨acc ++ [pair], ⟨(), (nodup_keys_concat.mp hfront).2, rfl⟩, (ih _ hfront).mpr ⟨hsplit, hnodup⟩⟩
  exact hfold pairs [] List.nodup_nil

theorem scans_of_succ (h : ∀ (n : Nat) (rest : Str), (dumps value).length ≤ n + 1 → Follows rest →
      scanOnce (n + 1) (dumps value ++ rest) = .ok (value, rest)) : Scans value := by
  intro n rest hn hrest
  cases n with
  | zero =>
    obtain ⟨c, tail, htext, -⟩ := dumps_head value
    rw [htext] at hn
    cases hn
  | succ n => exact h n rest hn hrest

theorem scanOnce_codes {value : Int} (hlow : -9223372036854775808 ≤ value) (hhigh : value < 18446744073709551616)
    (n : Nat) (h : Follows rest) : scanOnce (n + 1) (codes (toString value) ++ rest) = .ok (.int value, rest) := by
  have hscan := scanNumber_codes hlow hhigh h
  obtain ⟨c, tail, htext, hc⟩ := codes_head value
  have hother : c ≠ 34 ∧ c ≠ 123 ∧ c ≠ 91 ∧ c ≠ 110 ∧ c ≠ 116 ∧ c ≠ 102 := by
    refine ⟨?_, ?_, ?_, ?_, ?_, ?_⟩
    all_goals
      rintro rfl
      exact absurd hc (by decide)
  obtain ⟨h34, h123, h91, h110, h116, h102⟩ := hother
  have hliteral : ∀ (first : Nat) (literal : Str), c ≠ first → ¬ (first :: literal).isPrefixOf (c :: (tail ++ rest)) = true := by
    intro first literal hne
    simp [List.isPrefixOf, Ne.symm hne]
  have hnull : ¬ (codes "null").isPrefixOf (c :: (tail ++ rest)) = true := hliteral 110 _ h110
  have htrue : ¬ (codes "true").isPrefixOf (c :: (tail ++ rest)) = true := hliteral 116 _ h116
  have hfalse : ¬ (codes "false").isPrefixOf (c :: (tail ++ rest)) = true := hliteral 102 _ h102
  rw [htext, List.cons_append] at hscan ⊢
  rw [scanOnce, if_neg h34, if_neg h123, if_neg h91, if_neg hnull, if_neg htrue, if_neg hfalse, hscan]

theorem scanOnce_list (h : ∀ item ∈ items, Scans item)
    (hn : (List.intercalate [44] (items.map dumps)).length < n) (rest : Str) :
    scanOnce (n + 1) (91 :: (List.intercalate [44] (items.map dumps) ++ 93 :: rest)) = .ok (.list items, rest) := by
  rw [scanOnce, if_neg (by decide), if_neg (by decide), if_pos rfl]
  cases items with
  | nil => rfl
  | cons item items =>
    have hscan := scanItems_dumps h (by simp) hn [] rest
    rw [skip_intercalate]
    obtain ⟨c, tail, htext, hc⟩ := dumps_head item
    obtain ⟨tail', htail⟩ := intercalate_head [44] c tail (items.map dumps)
    rw [← htext, ← List.map_cons] at htail
    rw [htail, List.cons_append] at hscan ⊢
    split
    · rename_i heq
      cases heq
      exact absurd hc (by decide)
    · rw [hscan]
      rfl

theorem scanOnce_dict (hkeys : (pairs.map (·.1)).Nodup)
    (hscalar : ∀ pair ∈ pairs, ∀ r ∈ pair.1, IsScalar r) (h : ∀ pair ∈ pairs, Scans pair.2)
    (hn : (List.intercalate [44] (pairs.map dumpPair)).length < n) (rest : Str) :
    scanOnce (n + 1) (123 :: (List.intercalate [44] (pairs.map dumpPair) ++ 125 :: rest)) = .ok (.dict pairs, rest) := by
  rw [scanOnce, if_neg (by decide), if_pos rfl]
  cases pairs with
  | nil => rfl
  | cons pair pairs =>
    have hscan := scanPairs_dumps hscalar h (by simp) hn [] rest
    obtain ⟨tail, htail⟩ := intercalate_dumpPair_head pair pairs
    rw [htail, List.cons_append] at hscan ⊢
    rw [skip_cons (by decide)]
    split
    · rename_i heq
      cases heq
    · rw [hscan]
      exact bind_eq_ok.mpr ⟨_, rfl, bind_eq_ok.mpr ⟨_, objectPairs_eq_ok.mpr ⟨rfl, hkeys⟩, rfl⟩⟩

/-- **`json.loads` reads back what `json.dumps` writes.** -/
theorem PyValue.Shared.scans (h : value.Shared) : Scans value := by
  apply scans_of_succ
  induction h with
  | none =>
    intro n rest _ _
    rw [dumps]
    rfl
  | bool value =>
    intro n rest _ _
    cases value with
    | true =>
      rw [dumps]
      rfl
    | false =>
      rw [dumps]
      rfl
  | @int value hlow hhigh =>
    intro n rest _ hrest
    rw [dumps]
    exact scanOnce_codes hlow hhigh n hrest
  | @str value hscalar =>
    intro n rest _ _
    obtain ⟨tail, htail, hstring⟩ := scanString_dumpString hscalar rest
    rw [dumps, htail, scanOnce, if_pos rfl, hstring]
    rfl
  | @list items hitems ih =>
    intro n rest hn _
    rw [dumps, dumpItems_eq] at hn ⊢
    rw [List.length_append, List.length_append, List.length_singleton, List.length_singleton] at hn
    rw [List.append_assoc, List.append_assoc, List.singleton_append]
    exact scanOnce_list (fun item hitem => scans_of_succ (ih item hitem)) (by omega) rest
  | @dict pairs hkeys hscalar hpairs ih =>
    intro n rest hn _
    have hdump : dumps (.dict pairs) = [123] ++ List.intercalate [44] (pairs.map dumpPair) ++ [125] := by
      rw [dumps, dumpPairs_eq]
      rfl
    rw [hdump] at hn ⊢
    rw [List.length_append, List.length_append, List.length_singleton, List.length_singleton] at hn
    rw [List.append_assoc, List.append_assoc, List.singleton_append]
    exact scanOnce_dict hkeys hscalar (fun pair hpair => scans_of_succ (ih pair hpair)) (by omega) rest

/-! ## What is scanned -/

/-- What the scanner returns is a shared value as soon as it passes the checks: the keys are distinct. -/
def Sound (value : PyValue) : Prop := ∀ checked, check value = .ok checked → value.Shared

theorem sound_str (value : Str) : Sound (.str value) := by
  intro checked h
  simp only [check, encode, bind_eq_ok, reject_eq_ok, not_exists, not_and, not_not] at h
  obtain ⟨_, ⟨_, hscalar, -⟩, -⟩ := h
  exact .str hscalar

theorem sound_int (value : Int) : Sound (.int value) := by
  intro checked h
  simp only [check, bind_eq_ok, reject_eq_ok] at h
  obtain ⟨_, hrange, -⟩ := h
  exact .int (by omega) (by omega)

theorem sound_list (hitems : ∀ item ∈ items, Sound item) : Sound (.list items) := by
  intro checked h
  simp only [check, bind_eq_ok, checkItems_eq_ok] at h
  obtain ⟨values, hvalues, -⟩ := h
  refine .list fun item hitem => ?_
  obtain ⟨value, -, hvalue⟩ := exists_right_of_mem hvalues hitem
  exact hitems item hitem value hvalue

theorem sound_dict (hkeys : (pairs.map (·.1)).Nodup) (hpairs : ∀ pair ∈ pairs, Sound pair.2) : Sound (.dict pairs) := by
  intro checked h
  simp only [check, bind_eq_ok, reject_eq_ok, checkPairs_eq_ok, not_exists, not_and, not_not] at h
  obtain ⟨_, hscalar, values, hvalues, -⟩ := h
  refine .dict hkeys hscalar fun pair hpair => ?_
  obtain ⟨value, -, -, hvalue⟩ := exists_right_of_mem hvalues hpair
  exact hpairs pair hpair value.2 hvalue

theorem sound_of_scanNumber {text : Str} (h : scanNumber text = .ok (value, rest)) : Sound value := by
  unfold scanNumber at h
  extract_lets negative body digits after at h
  split at h
  · split at h <;> cases h
  obtain ⟨-, h⟩ := ite_error_eq_ok.mp h
  obtain ⟨number, -, h⟩ := bind_eq_ok.mp h
  rw [pure_eq_ok, Prod.mk.injEq] at h
  rw [← h.1]
  exact sound_int number

/-- One statement for the three scanners, by induction on their fuel. -/
theorem sound_of_scan (n : Nat) :
    (∀ {text : Str} {value : PyValue} {rest : Str}, scanOnce n text = .ok (value, rest) → Sound value) ∧
    (∀ {acc items : List PyValue} {text rest : Str}, scanItems n acc text = .ok (items, rest) →
      (∀ item ∈ acc, Sound item) → ∀ item ∈ items, Sound item) ∧
    (∀ {acc pairs : List (Str × PyValue)} {text rest : Str}, scanPairs n acc text = .ok (pairs, rest) →
      (∀ pair ∈ acc, Sound pair.2) → ∀ pair ∈ pairs, Sound pair.2) := by
  induction n with
  | zero => simp [scanOnce, scanItems, scanPairs]
  | succ n ih =>
    obtain ⟨hvalue, hitems, hpairs⟩ := ih
    refine ⟨?_, ?_, ?_⟩
    · intro text value rest h
      cases text with
      | nil =>
        rw [scanOnce] at h
        cases h
      | cons c text =>
        rw [scanOnce] at h
        split at h
        · obtain ⟨⟨string, after⟩, -, h⟩ := bind_eq_ok.mp h
          cases h
          exact sound_str string
        split at h
        · split at h
          · obtain ⟨pairs, hpairs', h⟩ := bind_eq_ok.mp h
            cases h
            obtain ⟨rfl, hkeys⟩ := objectPairs_eq_ok.mp hpairs'
            exact sound_dict hkeys (by simp)
          · obtain ⟨⟨scanned, after⟩, hscan, h⟩ := bind_eq_ok.mp h
            obtain ⟨pairs, hpairs', h⟩ := bind_eq_ok.mp h
            cases h
            obtain ⟨rfl, hkeys⟩ := objectPairs_eq_ok.mp hpairs'
            exact sound_dict hkeys (hpairs hscan (by simp))
        split at h
        · split at h
          · cases h
            exact sound_list (by simp)
          · obtain ⟨⟨scanned, after⟩, hscan, h⟩ := bind_eq_ok.mp h
            cases h
            exact sound_list (hitems hscan (by simp))
        split at h
        · cases h
          exact fun _ _ => .none
        split at h
        · cases h
          exact fun _ _ => .bool true
        split at h
        · cases h
          exact fun _ _ => .bool false
        · exact sound_of_scanNumber h
    · intro acc items text rest h hacc
      rw [scanItems] at h
      obtain ⟨⟨item, after⟩, hitem, h⟩ := bind_eq_ok.mp h
      have hnew : ∀ other ∈ acc ++ [item], Sound other :=
        List.forall_mem_append.mpr ⟨hacc, List.forall_mem_singleton.mpr (hvalue hitem)⟩
      dsimp only at h
      split at h
      · cases h
        exact hnew
      · exact hitems h hnew
      · cases h
    · intro acc pairs text rest h hacc
      unfold scanPairs at h
      split at h
      · obtain ⟨⟨key, after⟩, -, h⟩ := bind_eq_ok.mp h
        dsimp only at h
        split at h
        · obtain ⟨⟨value, after⟩, hscan, h⟩ := bind_eq_ok.mp h
          have hnew : ∀ other ∈ acc ++ [(key, value)], Sound other.2 :=
            List.forall_mem_append.mpr ⟨hacc, List.forall_mem_singleton.mpr (hvalue hscan)⟩
          dsimp only at h
          split at h
          · cases h
            exact hnew
          · exact hpairs h hnew
          · cases h
        · cases h
      · cases h

end TickPlatform.Protocol.Python
