import TickPlatform.Protocol.PythonRoundTrip

/-!
# Go and Python on canonical JSON

Both decoders accept exactly the encodings of their own side, so they agree where the encoders do. The encoders differ
in one character: `json.dumps` escapes DEL, the Go encoder writes it as it is.
-/

namespace TickPlatform.Protocol.Python

open Bytes

/-! ## The two encoders -/

theorem mem_writeRune_del {r : Nat} (h : IsScalar r) : (127 : UInt8) ∈ writeRune r ↔ r = 127 := by
  have hhigh : ∀ {n : Nat}, 0x80 ≤ n → n < 256 → ¬ (127 : UInt8) = UInt8.ofNat n := by
    intro n hlow hlt heq
    have hcode := congrArg UInt8.toNat heq
    rw [toNat_ofNat8 hlt] at hcode
    exact absurd hcode (by simp; omega)
  unfold IsScalar at h
  rcases writeRune_cases r with ⟨hr, heq⟩ | ⟨hlow, hlt, heq⟩ | ⟨hlow, hlt, heq⟩ | ⟨hlow, heq⟩
  · rw [heq, List.mem_singleton, ← UInt8.toNat_inj, toNat_ofNat8 (by omega), eq_comm]
    rfl
  · simp only [heq, List.mem_cons, List.not_mem_nil, or_false]
    rw [eq_false (hhigh (by omega) (by omega)), eq_false (hhigh (by omega) (by omega)), or_self, false_iff]
    omega
  · simp only [heq, List.mem_cons, List.not_mem_nil, or_false]
    rw [eq_false (hhigh (by omega) (by omega)), eq_false (hhigh (by omega) (by omega)),
      eq_false (hhigh (by omega) (by omega)), or_self, or_self, false_iff]
    omega
  · simp only [heq, List.mem_cons, List.not_mem_nil, or_false]
    rw [eq_false (hhigh (by omega) (by omega)), eq_false (hhigh (by omega) (by omega)),
      eq_false (hhigh (by omega) (by omega)), eq_false (hhigh (by omega) (by omega)), or_self, or_self, or_self,
      false_iff]
    omega

theorem mem_writeRunes_del {value : Str} (h : ∀ r ∈ value, IsScalar r) : (127 : UInt8) ∈ writeRunes value ↔ 127 ∈ value := by
  rw [writeRunes, List.mem_flatMap]
  constructor
  · rintro ⟨r, hr, hmem⟩
    rw [mem_writeRune_del (h r hr)] at hmem
    exact hmem ▸ hr
  · intro hmem
    exact ⟨127, hmem, (mem_writeRune_del (h 127 hmem)).mpr rfl⟩

theorem mem_escapeRune_del (r : Nat) : (127 : UInt8) ∈ escapeRune r ↔ r = 127 := by
  have hescape : ∀ value, (127 : UInt8) ∉ unicodeEscape value := by
    intro value hmem
    rw [unicodeEscape_eq, List.mem_cons, List.mem_cons] at hmem
    rcases hmem with hmem | hmem | hmem
    · exact absurd hmem (by decide)
    · exact absurd hmem (by decide)
    · exact absurd (hexBytes_digits _ _ hmem) (by decide)
  constructor
  · intro hmem
    obtain ⟨b, hb, h⟩ | h | ⟨hr, h⟩ | ⟨high, low, h⟩ := escapeRune_cases r
    · rw [h, List.mem_cons, List.mem_singleton] at hmem
      rcases hmem with hmem | rfl
      · exact absurd hmem (by decide)
      · exact absurd hb (by decide)
    · rw [h] at hmem
      exact absurd hmem (hescape r)
    · rw [h, List.mem_singleton] at hmem
      have hcode := congrArg UInt8.toNat hmem
      rw [toNat_ofNat8 (by omega)] at hcode
      exact hcode.symm
    · rw [h, List.mem_append] at hmem
      exact hmem.elim (fun h => absurd h (hescape high)) (fun h => absurd h (hescape low))
  · rintro rfl
    decide

mutual

/-- The value holds a DEL, in a string or in a key. -/
def holdsDel : Json → Bool
  | .string value => value.contains 127
  | .array items => holdsDelItems items
  | .object fields => holdsDelFields fields
  | _ => false

def holdsDelItems : List Json → Bool
  | [] => false
  | item :: items => holdsDel item || holdsDelItems items

def holdsDelFields : List (Bytes × Json) → Bool
  | [] => false
  | (key, value) :: fields => key.contains 127 || holdsDel value || holdsDelFields fields

end

theorem holdsDelItems_iff (items : List Json) : holdsDelItems items = true ↔ ∃ item ∈ items, holdsDel item = true := by
  induction items with
  | nil => simp [holdsDelItems]
  | cons item items ih => simp [holdsDelItems, ih]

theorem holdsDelFields_iff (fields : List (Bytes × Json)) :
    holdsDelFields fields = true ↔ ∃ field ∈ fields, 127 ∈ field.1 ∨ holdsDel field.2 = true := by
  induction fields with
  | nil => simp [holdsDelFields]
  | cons field fields ih =>
    obtain ⟨key, value⟩ := field
    simp [holdsDelFields, ih]

theorem mem_intercalate {α : Type} {c sep : α} (hc : c ≠ sep) {texts : List (List α)} :
    c ∈ List.intercalate [sep] texts ↔ ∃ text ∈ texts, c ∈ text := by
  induction texts with
  | nil => simp [List.intercalate]
  | cons text texts ih =>
    cases texts with
    | nil => simp [List.intercalate_singleton]
    | cons text' texts =>
      rw [List.intercalate_cons_cons, List.mem_append, List.mem_append, ih]
      simp [hc]

variable {text : Bytes}

theorem mem_encodeCanonicalJSONString_del {value : Bytes} (h : encodeCanonicalJSONString value = .ok text) :
    (127 : UInt8) ∈ text ↔ (127 : UInt8) ∈ value := by
  have hvalid : utf8Valid value = true := by
    simp only [encodeCanonicalJSONString, bind_eq_ok, reject_eq_ok] at h
    obtain ⟨_, hvalid, -⟩ := h
    simpa using hvalid
  obtain ⟨runes, hrunes, rfl⟩ := exists_runes hvalid
  rw [encodeCanonicalJSONString_writeRunes hrunes] at h
  cases h
  rw [mem_writeRunes_del hrunes, escapeAll]
  simp [mem_escapeRune_del]

theorem del_notMem_formatInt (value : Int) : (127 : UInt8) ∉ formatInt value := by
  have hdigits : ∀ n, (127 : UInt8) ∉ digitBytes n := fun n hmem => absurd (mem_digitBytes hmem) (by decide)
  cases value with
  | ofNat n =>
    rw [Int.ofNat_eq_natCast, formatInt_ofNat]
    exact hdigits n
  | negSucc n =>
    rw [formatInt_negSucc, List.mem_cons, not_or]
    exact ⟨by decide, hdigits (n + 1)⟩

theorem mem_canonicalJSON_del {value : Json} (h : value.WellFormed) (htext : canonicalJSON value = .ok text) :
    (127 : UInt8) ∈ text ↔ holdsDel value = true := by
  have hsep : (127 : UInt8) ≠ 44 := by decide
  refine canonicalJSON_induction ?null ?bool ?int ?string ?array ?object h htext
  case null => decide
  case bool => decide
  case int => simp [holdsDel, del_notMem_formatInt]
  case string =>
    intro value text htext
    rw [mem_encodeCanonicalJSONString_del htext, holdsDel, List.contains_iff_mem]
  case array =>
    intro items texts h
    simp only [holdsDel, holdsDelItems_iff, List.mem_append, List.mem_singleton, mem_intercalate hsep]
    constructor
    · rintro ((hmem | ⟨text, hmem, hdel⟩) | hmem)
      · exact absurd hmem (by decide)
      · obtain ⟨item, hitem, -, htext⟩ := exists_left_of_mem h hmem
        exact ⟨item, hitem, htext.mp hdel⟩
      · exact absurd hmem (by decide)
    · rintro ⟨item, hitem, hdel⟩
      obtain ⟨text, hmem, -, htext⟩ := exists_right_of_mem h hitem
      exact .inl (.inr ⟨text, hmem, htext.mpr hdel⟩)
  case object =>
    intro fields members _ _ h
    have hline := h.imp (S := fun field member => (127 : UInt8) ∈ member.2 ↔ 127 ∈ field.1 ∨ holdsDel field.2 = true) <| by
      rintro field member ⟨⟨-, name, text, hname, htext, hline⟩, hvalue⟩
      have hheld : (127 : UInt8) ∈ text ↔ holdsDel field.2 = true := hvalue text htext
      rw [hline, List.mem_append, List.mem_append, List.mem_singleton, mem_encodeCanonicalJSONString_del hname, hheld]
      simp
    simp only [holdsDel, holdsDelFields_iff, List.mem_append, List.mem_singleton, mem_intercalate hsep]
    constructor
    · rintro ((hmem | ⟨line, hmem, hdel⟩) | hmem)
      · exact absurd hmem (by decide)
      · obtain ⟨member, hmember, rfl⟩ := List.mem_map.mp hmem
        obtain ⟨field, hfield, hof⟩ := exists_left_of_mem hline hmember
        exact ⟨field, (List.mem_insertionSort _).mp hfield, hof.mp hdel⟩
      · exact absurd hmem (by decide)
    · rintro ⟨field, hfield, hdel⟩
      obtain ⟨member, hmember, hof⟩ := exists_right_of_mem hline ((List.mem_insertionSort _).mpr hfield)
      exact .inl (.inr ⟨member.2, List.mem_map_of_mem hmember, hof.mpr hdel⟩)

variable {c : Nat}

theorem dumpString_lt {value : Str} (h : c ∈ dumpString value) : c < 127 := by
  have hescape : ∀ r, ∀ c ∈ escapeASCII r, c < 127 := by
    intro r
    by_cases hr : r = 127
    · rw [hr]
      decide
    · intro c hc
      rw [escapeASCII_eq hr] at hc
      obtain ⟨b, hb, rfl⟩ := List.mem_map.mp hc
      have hascii := isASCII_escapeRune r
      rw [isASCII, List.all_eq_true] at hascii
      have hlt := UInt8.lt_iff_toNat_lt.mp (of_decide_eq_true (hascii b hb))
      have hne : b.toNat ≠ 127 := by
        intro hcode
        obtain rfl : b = 127 := UInt8.toNat_inj.mp hcode
        exact hr ((mem_escapeRune_del r).mp hb)
      simp at hlt
      omega
  rw [dumpString, List.mem_append, List.mem_append, List.mem_singleton, List.mem_flatMap] at h
  rcases h with (rfl | ⟨r, -, hc⟩) | rfl
  · decide
  · exact hescape r c hc
  · decide

theorem codes_toString_lt {value : Int} (h : c ∈ codes (toString value)) : c < 127 := by
  obtain ⟨b, hb, rfl⟩ := List.mem_map.mp h
  have hascii := isASCII_formatInt value
  rw [isASCII, List.all_eq_true] at hascii
  have hlt := UInt8.lt_iff_toNat_lt.mp (of_decide_eq_true (hascii b hb))
  have hne : b.toNat ≠ 127 := by
    intro hcode
    obtain rfl : b = 127 := UInt8.toNat_inj.mp hcode
    exact del_notMem_formatInt value hb
  simp at hlt
  omega

theorem brackets_lt {texts : List Str} (h : ∀ text ∈ texts, ∀ c ∈ text, c < 127) {first last : Nat}
    (hfirst : first < 127) (hlast : last < 127) (hc : c ∈ [first] ++ List.intercalate [44] texts ++ [last]) : c < 127 := by
  rw [List.mem_append, List.mem_append, List.mem_singleton, List.mem_singleton] at hc
  rcases hc with (rfl | hc) | rfl
  · exact hfirst
  · by_cases hsep : c = 44
    · omega
    · obtain ⟨text, htext, hmem⟩ := (mem_intercalate hsep).mp hc
      exact h text htext c hmem
  · exact hlast

variable {value : PyValue}

theorem dumps_lt (h : value.Shared) : ∀ c ∈ dumps value, c < 127 := by
  induction h with
  | none =>
    rw [dumps]
    decide
  | bool value =>
    cases value with
    | true =>
      rw [dumps]
      decide
    | false =>
      rw [dumps]
      decide
  | int hlow hhigh =>
    rw [dumps]
    exact fun c hc => codes_toString_lt hc
  | str hscalar =>
    rw [dumps]
    exact fun c hc => dumpString_lt hc
  | list hitems ih =>
    rw [dumps, dumpItems_eq]
    exact fun c hc => brackets_lt (List.forall_mem_map.mpr ih) (by decide) (by decide) hc
  | dict hkeys hscalar hpairs ih =>
    rw [dumps, dumpPairs_eq]
    refine fun c hc => brackets_lt (List.forall_mem_map.mpr ?_) (by decide) (by decide) hc
    intro pair hpair c hc
    rw [List.mem_append, List.mem_append, List.mem_singleton] at hc
    rcases hc with (hc | rfl) | hc
    · exact dumpString_lt hc
    · decide
    · exact ih pair hpair c hc

/-! ## Where the encoders agree -/

theorem map_intercalate (texts : List Bytes) :
    (List.intercalate [44] texts).map UInt8.toNat = List.intercalate [44] (texts.map (List.map UInt8.toNat)) := by
  induction texts with
  | nil => rfl
  | cons text texts ih =>
    cases texts with
    | nil => rw [List.intercalate_singleton, List.map_singleton, List.intercalate_singleton]
    | cons text' texts =>
      rw [List.intercalate_cons_cons, List.map_append, List.map_append, ih]
      simp only [List.map_cons, List.intercalate_cons_cons]
      rfl

theorem dumpString_eq {value : Str} (h : ∀ r ∈ value, IsScalar r) (hdel : 127 ∉ value)
    (htext : encodeCanonicalJSONString (writeRunes value) = .ok text) : dumpString value = text.map UInt8.toNat := by
  rw [encodeCanonicalJSONString_writeRunes h] at htext
  cases htext
  have hescape : value.flatMap escapeASCII = (escapeAll value).map UInt8.toNat := by
    rw [escapeAll, List.map_flatMap]
    apply List.flatMap_congr
    intro r hr
    apply escapeASCII_eq
    rintro rfl
    exact hdel hr
  rw [dumpString, hescape, List.map_append, List.map_append]
  rfl

/-- **Without a DEL the texts are the same.** -/
theorem dumps_eq (h : value.Shared) (hdel : holdsDel value.toGo = false)
    (htext : canonicalJSON value.toGo = .ok text) : dumps value.sorted = text.map UInt8.toNat := by
  induction h generalizing text with
  | none =>
    rw [PyValue.toGo, canonicalJSON] at htext
    cases htext
    simp only [PyValue.sorted, dumps]
    rfl
  | bool value =>
    cases value with
    | true =>
      rw [PyValue.toGo, canonicalJSON] at htext
      cases htext
      simp only [PyValue.sorted, dumps]
      rfl
    | false =>
      rw [PyValue.toGo, canonicalJSON] at htext
      cases htext
      simp only [PyValue.sorted, dumps]
      rfl
  | int hlow hhigh =>
    rw [PyValue.toGo, canonicalJSON] at htext
    cases htext
    simp only [PyValue.sorted, dumps]
    rfl
  | @str value hscalar =>
    rw [PyValue.toGo, canonicalJSON] at htext
    rw [PyValue.toGo, holdsDel, List.contains_eq_mem, decide_eq_false_iff_not, mem_writeRunes_del hscalar] at hdel
    simp only [PyValue.sorted, dumps]
    exact dumpString_eq hscalar hdel htext
  | @list items hitems ih =>
    rw [PyValue.toGo, toGoItems_eq] at htext hdel
    simp only [canonicalJSON, bind_eq_ok, pure_eq_ok, encodeItems_eq_ok, List.forall₂_map_left_iff] at htext
    obtain ⟨texts, htexts, rfl⟩ := htext
    have hitem : ∀ item ∈ items, ∀ text, canonicalJSON item.toGo = .ok text → dumps item.sorted = text.map UInt8.toNat := by
      intro item hitem text htext
      apply ih item hitem _ htext
      rw [Bool.eq_false_iff]
      intro hheld
      rw [holdsDel, Bool.eq_false_iff] at hdel
      exact hdel ((holdsDelItems_iff _).mpr ⟨item.toGo, List.mem_map_of_mem hitem, hheld⟩)
    have hboth := (List.forall₂_and_left ..).mpr ⟨hitem, htexts⟩
    have hdumps : items.map (fun item => dumps item.sorted) = texts.map (List.map UInt8.toNat) := by
      rw [← List.forall₂_eq_eq_eq, List.forall₂_map_left_iff, List.forall₂_map_right_iff]
      exact hboth.imp fun item text h => h.1 text h.2
    simp only [PyValue.sorted, dumps, dumpItems_eq, sortedItems_eq, List.map_map]
    rw [List.map_append, List.map_append, map_intercalate, ← hdumps]
    rfl
  | @dict pairs hkeys hscalar hpairs ih =>
    rw [toGo_dict_eq] at htext hdel
    simp only [canonicalJSON, bind_eq_ok, pure_eq_ok, encodeFields_eq_ok, List.forall₂_map_left_iff] at htext
    obtain ⟨members, hmembers, rfl⟩ := htext
    rw [holdsDel, Bool.eq_false_iff] at hdel
    have hpair : ∀ pair ∈ pairs, ∀ member, IsMember (writeRunes pair.1, pair.2.toGo) member →
        dumpPair (pair.1, pair.2.sorted) = member.2.map UInt8.toNat := by
      rintro pair hpair member ⟨-, name, text, hname, htext, hline⟩
      have hkey : 127 ∉ pair.1 := by
        intro hmem
        exact hdel ((holdsDelFields_iff _).mpr ⟨_, List.mem_map_of_mem hpair, .inl ((mem_writeRunes_del (hscalar pair hpair)).mpr hmem)⟩)
      have hheld : holdsDel pair.2.toGo = false := by
        rw [Bool.eq_false_iff]
        intro hheld
        exact hdel ((holdsDelFields_iff _).mpr ⟨_, List.mem_map_of_mem hpair, .inr hheld⟩)
      rw [dumpPair, dumpString_eq (hscalar pair hpair) hkey hname, ih pair hpair hheld htext, hline, List.map_append,
        List.map_append]
      rfl
    have hboth := (List.forall₂_and_left ..).mpr ⟨hpair, hmembers⟩
    have hsorted := forall₂_insertionSort (r := pairLE) (t := fun a b => keyLE a.1 b.1) (by
      rintro a member a' member' ⟨-, hkey, -⟩ ⟨-, hkey', -⟩
      rw [hkey, hkey']
      rfl) hboth
    have hdumps : (pairs.insertionSort pairLE).map (fun pair => dumpPair (pair.1, pair.2.sorted)) =
        ((sortMembers members).map (·.2)).map (List.map UInt8.toNat) := by
      rw [← List.forall₂_eq_eq_eq, List.forall₂_map_left_iff, List.forall₂_map_right_iff, List.forall₂_map_right_iff]
      exact hsorted.imp fun pair member h => h.1 member h.2
    rw [sorted_dict_eq, dumps, dumpPairs_eq, List.map_map, List.map_append, List.map_append, map_intercalate, ← hdumps]
    rfl

/-- `canonical_json(value).encode("utf-8")`. -/
def canonicalBytes (value : PyValue) : Except String Bytes := do
  let canonical ← canonicalJson value
  encode canonical "surrogates not allowed"

variable {data : Bytes}

theorem encode_eq_ok {text : Str} {err : String} :
    encode text err = .ok data ↔ (∀ r ∈ text, IsScalar r) ∧ data = writeRunes text := by
  simp only [encode, bind_eq_ok, pure_eq_ok, reject_eq_ok, not_exists, not_and, not_not, exists_unit,
    eq_comm (a := data)]

theorem dumps_scalar (h : value.Shared) : ∀ r ∈ dumps value, IsScalar r := by
  intro r hr
  have := dumps_lt h r hr
  exact .inl (by omega)

theorem canonicalBytes_of_shared (h : value.Shared) : canonicalBytes value = .ok (writeRunes (dumps value.sorted)) := by
  refine bind_eq_ok.mpr ⟨_, canonicalJson_of_shared h, encode_eq_ok.mpr ⟨dumps_scalar h.sorted, rfl⟩⟩

theorem writeRunes_toNat (h : isASCII text = true) : writeRunes (text.map UInt8.toNat) = text := by
  induction text with
  | nil => rfl
  | cons b text ih =>
    rw [isASCII, List.all_cons, Bool.and_eq_true, decide_eq_true_eq, UInt8.lt_iff_toNat_lt] at h
    have hsmall : b.toNat < 0x80 := h.1
    have hrune : writeRune b.toNat = [b] := by
      rw [writeRune, if_pos hsmall, UInt8.ofNat_toNat]
    rw [List.map_cons, writeRunes_cons, hrune, ih h.2]
    rfl

/-- **The encoders agree on a value exactly when it holds no DEL.** -/
theorem canonicalBytes_eq_iff (h : value.Shared) :
    canonicalBytes value = canonicalJSON value.toGo ↔ holdsDel value.toGo = false := by
  obtain ⟨text, htext⟩ := h.wellFormed.encodes
  rw [canonicalBytes_of_shared h, htext, Except.ok.injEq]
  constructor
  · rintro rfl
    rw [Bool.eq_false_iff]
    intro hdel
    rw [← mem_canonicalJSON_del h.wellFormed htext, mem_writeRunes_del (dumps_scalar h.sorted)] at hdel
    exact absurd (dumps_lt h.sorted _ hdel) (by decide)
  · intro hdel
    rw [dumps_eq h hdel htext, writeRunes_toNat (isASCII_canonicalJSON h.wellFormed htext)]

/-! ## The decoders -/

theorem runes_writeRunes {value : Str} (h : ∀ r ∈ value, IsScalar r) {n : Nat} (hn : (writeRunes value).length ≤ n) :
    runes n (writeRunes value) = value := by
  induction value generalizing n with
  | nil =>
    cases n with
    | zero => rfl
    | succ n => rfl
  | cons r value ih =>
    rw [List.forall_mem_cons] at h
    have hpos := length_writeRune_pos r
    rw [writeRunes_cons, List.length_append] at hn
    cases n with
    | zero => omega
    | succ n =>
      rw [writeRunes_cons, runes, decodeRune_writeRune h.1]
      dsimp only
      rw [List.drop_left, ih h.2 (by omega)]

theorem decode_writeRunes {value : Str} (h : ∀ r ∈ value, IsScalar r) : decode (writeRunes value) = .ok value := by
  rw [decode, runes_writeRunes h (Nat.le_refl _)]
  exact bind_eq_ok.mpr ⟨(), reject_eq_ok.mpr (by simp [utf8Valid_writeRunes h]), rfl⟩

theorem loads_dumps (h : value.Shared) : loads (dumps value) = .ok value := by
  have hscan := h.scans (2 * (dumps value).length + 1) [] (by omega) (by simp [Follows])
  have hskip := skip_dumps value []
  rw [List.append_nil] at hscan hskip
  have hbom : (dumps value).head? ≠ some 0xFEFF := by
    intro hhead
    exact absurd (dumps_lt h _ (List.mem_of_head? hhead)) (by decide)
  rw [loads, hskip, hscan]
  exact bind_eq_ok.mpr ⟨(), reject_eq_ok.mpr hbom, bind_eq_ok.mpr ⟨_, rfl, bind_eq_ok.mpr ⟨(), reject_eq_ok.mpr (by simp [skip]), rfl⟩⟩⟩

theorem decodeCanonicalJson_of_bytes (h : value.Shared)
    (hdata : canonicalBytes value = .ok data) : decodeCanonicalJson data = .ok value.sorted := by
  rw [canonicalBytes_of_shared h] at hdata
  cases hdata
  have hscalar := dumps_scalar h.sorted
  have hbom : ¬ ([0xEF, 0xBB, 0xBF].isPrefixOf (writeRunes (dumps value.sorted))) = true := by
    obtain ⟨c, tail, htext, hc⟩ := dumps_head value.sorted
    have hlt := dumps_lt h.sorted c (htext ▸ List.mem_cons_self)
    rw [htext, writeRunes_cons, writeRune, if_pos (by omega), List.singleton_append]
    intro hpre
    rw [List.isPrefixOf, Bool.and_eq_true, beq_iff_eq] at hpre
    have hcode := congrArg UInt8.toNat hpre.1
    rw [toNat_ofNat8 (by omega)] at hcode
    simp at hcode
    omega
  have hcanonical := canonicalJson_of_shared h.sorted
  rw [sorted_sorted h] at hcanonical
  simp only [decodeCanonicalJson, bind_eq_ok, pure_eq_ok, reject_eq_ok, mapError_eq_ok]
  exact ⟨(), hbom, _, decode_writeRunes hscalar, _, loads_dumps h.sorted, _, hcanonical, _,
    encode_eq_ok.mpr ⟨hscalar, rfl⟩, (), by simp, rfl⟩

theorem shared_of_decode (h : decodeCanonicalJson data = .ok value) :
    value.Shared ∧ canonicalBytes value = .ok data := by
  simp only [decodeCanonicalJson, bind_eq_ok, pure_eq_ok, reject_eq_ok, mapError_eq_ok, not_not] at h
  obtain ⟨_, -, text, -, parsed, hloads, canonical, hcanonical, encoded, hencoded, _, rfl, rfl⟩ := h
  refine ⟨?_, bind_eq_ok.mpr ⟨canonical, hcanonical, hencoded⟩⟩
  simp only [loads, bind_eq_ok, pure_eq_ok] at hloads
  obtain ⟨_, -, ⟨scanned, rest⟩, hscan, _, -, rfl⟩ := hloads
  obtain ⟨checked, hcheck, -⟩ := bind_eq_ok.mp hcanonical
  exact (sound_of_scan _).1 hscan checked hcheck

/-- Both decoders reject, or both accept with the same value. -/
def Agree (go : Except String Json) (python : Except String PyValue) : Prop :=
  (∃ value shared, go = .ok value ∧ python = .ok shared ∧ shared.toGo.sorted = value.sorted) ∨
    ((∃ err, go = .error err) ∧ ∃ err, python = .error err)

/-- One of the decoders accepts the bytes as a value that holds a DEL. -/
def AcceptsDel (data : Bytes) : Prop :=
  (∃ value, decodeCanonicalJSON data = .ok value ∧ holdsDel value = true) ∨
    ∃ value, decodeCanonicalJson data = .ok value ∧ holdsDel value.toGo = true

theorem del_notMem_bytes (h : value.Shared) (hdata : canonicalBytes value = .ok data) : (127 : UInt8) ∉ data := by
  rw [canonicalBytes_of_shared h] at hdata
  cases hdata
  rw [mem_writeRunes_del (dumps_scalar h.sorted)]
  exact fun hmem => absurd (dumps_lt h.sorted _ hmem) (by decide)

theorem not_acceptsDel_of_agree (h : Agree (decodeCanonicalJSON data) (decodeCanonicalJson data)) :
    ¬ AcceptsDel data := by
  -- where both accept, the bytes hold no DEL because Python wrote them, so the value of Go holds none
  have hboth : ∀ value shared, decodeCanonicalJSON data = .ok value → decodeCanonicalJson data = .ok shared →
      holdsDel value = false := by
    intro value shared hgo hpython
    obtain ⟨hshared, hbytes⟩ := shared_of_decode hpython
    rw [Bool.eq_false_iff]
    intro hdel
    rw [← mem_canonicalJSON_del (wellFormed_of_decode hgo) (canonicalJSON_of_decode hgo)] at hdel
    exact del_notMem_bytes hshared hbytes hdel
  rcases h with ⟨value, shared, hgo, hpython, hsame⟩ | ⟨⟨err, hgo⟩, err', hpython⟩
  · have hvalue := wellFormed_of_decode hgo
    obtain ⟨hshared, hbytes⟩ := shared_of_decode hpython
    rintro (⟨other, hother, hdel⟩ | ⟨other, hother, hdel⟩)
    · rw [hboth other shared hother hpython] at hdel
      cases hdel
    · obtain rfl : shared = other := Except.ok.inj (hpython.symm.trans hother)
      -- the two values are one map, so Go encodes the value of Python to the same bytes
      obtain ⟨text, htext⟩ := hshared.wellFormed.encodes
      have hsorted := canonicalJSON_sorted hshared.wellFormed htext
      rw [hsame, canonicalJSON_sorted hvalue (canonicalJSON_of_decode hgo)] at hsorted
      cases hsorted
      rw [← mem_canonicalJSON_del hshared.wellFormed htext] at hdel
      exact del_notMem_bytes hshared hbytes hdel
  · rintro (⟨other, hother, -⟩ | ⟨other, hother, -⟩)
    · rw [hgo] at hother
      cases hother
    · rw [hpython] at hother
      cases hother

theorem agree_of_not_acceptsDel (h : ¬ AcceptsDel data) :
    Agree (decodeCanonicalJSON data) (decodeCanonicalJson data) := by
  unfold AcceptsDel at h
  rw [not_or, not_exists, not_exists] at h
  cases hgo : decodeCanonicalJSON data with
  | ok value =>
    have hvalue := wellFormed_of_decode hgo
    obtain ⟨shared, hshared, rfl⟩ := exists_shared hvalue
    have hdel : holdsDel shared.toGo = false := by
      rw [Bool.eq_false_iff]
      exact fun hdel => h.1 _ ⟨hgo, hdel⟩
    have hbytes := (canonicalBytes_eq_iff hshared).mpr hdel
    rw [canonicalJSON_of_decode hgo] at hbytes
    have hsorted : shared.toGo = shared.toGo.sorted :=
      Except.ok.inj (hgo.symm.trans (decode_encode hvalue (canonicalJSON_of_decode hgo)))
    refine .inl ⟨_, shared.sorted, rfl, decodeCanonicalJson_of_bytes hshared hbytes, ?_⟩
    rw [toGo_sorted hshared]
    exact (congrArg Json.sorted hsorted).symm
  | error err =>
    cases hpython : decodeCanonicalJson data with
    | error err' => exact .inr ⟨⟨err, rfl⟩, err', rfl⟩
    | ok shared =>
      obtain ⟨hshared, hbytes⟩ := shared_of_decode hpython
      have hdel : holdsDel shared.toGo = false := by
        rw [Bool.eq_false_iff]
        exact fun hdel => h.2 _ ⟨hpython, hdel⟩
      rw [(canonicalBytes_eq_iff hshared).mpr hdel] at hbytes
      rw [decode_encode hshared.wellFormed hbytes] at hgo
      cases hgo

end TickPlatform.Protocol.Python
