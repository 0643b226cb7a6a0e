import TickPlatform.Protocol.Tokens

/-!
# Canonical JSON decodes

The parser reads back what the encoder writes, for every value of the set. A map has no order, so what comes back has
its fields in key order.
-/

namespace TickPlatform.Protocol

open Bytes

/-! ## Values -/

/-- The value set: 64-bit integers, valid UTF-8, and maps, whose keys are distinct. -/
inductive Json.WellFormed : Json → Prop
  | null : WellFormed .null
  | bool (value : Bool) : WellFormed (.bool value)
  | int {value : Int} (hlow : -9223372036854775808 ≤ value) (hhigh : value < 18446744073709551616) :
    WellFormed (.int value)
  | string {value : Bytes} (hvalid : utf8Valid value = true) : WellFormed (.string value)
  | array {items : List Json} (hitems : ∀ item ∈ items, WellFormed item) : WellFormed (.array items)
  | object {fields : List (Bytes × Json)} (hkeys : (fields.map (·.1)).Nodup)
      (hvalid : ∀ field ∈ fields, utf8Valid field.1 = true) (hfields : ∀ field ∈ fields, WellFormed field.2) :
    WellFormed (.object fields)

def fieldLE (a b : Bytes × Json) : Prop := keyLE a.1 b.1

instance : DecidableRel fieldLE := fun a b => inferInstanceAs (Decidable (keyLE a.1 b.1))

instance : Std.Total fieldLE := ⟨fun a b => keyLE_total a.1 b.1⟩

instance : IsTrans (Bytes × Json) fieldLE := ⟨fun _ _ _ => keyLE_trans⟩

mutual

/-- The value with the fields of its maps in key order. -/
def Json.sorted : Json → Json
  | .array items => .array (sortedItems items)
  | .object fields => .object ((sortedFields fields).insertionSort fieldLE)
  | value => value

def sortedItems : List Json → List Json
  | [] => []
  | item :: items => item.sorted :: sortedItems items

def sortedFields : List (Bytes × Json) → List (Bytes × Json)
  | [] => []
  | (key, value) :: fields => (key, value.sorted) :: sortedFields fields

end

theorem sortedItems_eq (items : List Json) : sortedItems items = items.map Json.sorted := by
  induction items with
  | nil => simp [sortedItems]
  | cons item items ih => simp [sortedItems, ih]

theorem sortedFields_eq (fields : List (Bytes × Json)) :
    sortedFields fields = fields.map fun field => (field.1, field.2.sorted) := by
  induction fields with
  | nil => simp [sortedFields]
  | cons field fields ih =>
    obtain ⟨key, value⟩ := field
    simp [sortedFields, ih]

theorem sorted_object_eq (fields : List (Bytes × Json)) : (Json.object fields).sorted =
      .object ((fields.insertionSort fieldLE).map fun field => (field.1, field.2.sorted)) := by
  rw [Json.sorted, sortedFields_eq, List.map_insertionSort fieldLE fieldLE]
  intro a _ b _
  rfl

variable {fields : List (Bytes × Json)}

/-! ## Encoding, member by member -/

variable {items : List Json} {texts : List Bytes}

theorem encodeItems_eq_ok :
    encodeItems items = .ok texts ↔ List.Forall₂ (fun item text => canonicalJSON item = .ok text) items texts := by
  induction items generalizing texts with
  | nil => simp [encodeItems, eq_comm]
  | cons item items ih =>
    rw [encodeItems, List.forall₂_cons_left_iff]
    simp only [bind_eq_ok, pure_eq_ok, ih, exists_and_left, eq_comm (a := texts)]

/-- A member of an object: its key, and the text of its name and value. -/
def IsMember (field : Bytes × Json) (member : Bytes × Bytes) : Prop :=
  member.1 = field.1 ∧ ∃ name text, encodeCanonicalJSONString field.1 = .ok name ∧ canonicalJSON field.2 = .ok text ∧
    member.2 = name ++ [58] ++ text

variable {members : List (Bytes × Bytes)}

theorem encodeFields_eq_ok : encodeFields fields = .ok members ↔ List.Forall₂ IsMember fields members := by
  induction fields generalizing members with
  | nil => simp [encodeFields, eq_comm]
  | cons field fields ih =>
    obtain ⟨key, value⟩ := field
    rw [encodeFields, List.forall₂_cons_left_iff]
    simp only [bind_eq_ok, pure_eq_ok, ih]
    constructor
    · rintro ⟨name, hname, text, htext, rest, hrest, rfl⟩
      exact ⟨_, rest, ⟨rfl, name, text, hname, htext, rfl⟩, hrest, rfl⟩
    · rintro ⟨⟨key', line⟩, rest, ⟨rfl, name, text, hname, htext, rfl⟩, hrest, rfl⟩
      exact ⟨name, hname, text, htext, rest, hrest, rfl⟩

theorem forall₂_insertionSort {α β : Type} {R : α → β → Prop} {r : α → α → Prop} {t : β → β → Prop} [DecidableRel r]
    [DecidableRel t] (hrel : ∀ a b a' b', R a b → R a' b' → (r a a' ↔ t b b')) {l : List α} {m : List β}
    (h : List.Forall₂ R l m) : List.Forall₂ R (l.insertionSort r) (m.insertionSort t) := by
  have hinsert : ∀ {a b} {l : List α} {m : List β}, R a b → List.Forall₂ R l m →
      List.Forall₂ R (l.orderedInsert r a) (m.orderedInsert t b) := by
    intro a b l m hab hlm
    induction hlm with
    | nil => exact .cons hab .nil
    | @cons a' b' l m hab' hrest ih =>
      simp only [List.orderedInsert_cons]
      by_cases hr : r a a'
      · rw [if_pos hr, if_pos ((hrel _ _ _ _ hab hab').mp hr)]
        exact .cons hab (.cons hab' hrest)
      · rw [if_neg hr, if_neg fun ht => hr ((hrel _ _ _ _ hab hab').mpr ht)]
        exact .cons hab' ih
  induction h with
  | nil => exact .nil
  | cons hab _ ih =>
    rw [List.insertionSort_cons, List.insertionSort_cons]
    exact hinsert hab ih

theorem nodup_keys_concat {α β : Type} [DecidableEq α] {acc : List (α × β)} {pair : α × β} :
    ((acc ++ [pair]).map (·.1)).Nodup ↔ (acc.map (·.1)).Nodup ∧ ¬ (acc.any fun other => other.1 = pair.1) = true := by
  rw [List.map_append, List.nodup_append_comm, List.map_singleton, List.singleton_append, List.nodup_cons, and_comm]
  simp only [List.mem_map, List.any_eq_true, decide_eq_true_eq]

theorem intercalate_head {α : Type} (sep : List α) (a : α) (l : List α) (rest : List (List α)) :
    ∃ tail, List.intercalate sep ((a :: l) :: rest) = a :: tail := by
  cases rest with
  | nil => exact ⟨l, List.intercalate_singleton⟩
  | cons l' rest => exact ⟨_, List.intercalate_cons_cons⟩

/-! ## The first byte of a value -/

def startsValue (b : UInt8) : Bool :=
  b = 110 ∨ b = 116 ∨ b = 102 ∨ b = 34 ∨ b = 91 ∨ b = 123 ∨ b = 45 ∨ isDigit b

variable {text : Bytes}

theorem encodeCanonicalJSONString_quoted {value : Bytes} (h : encodeCanonicalJSONString value = .ok text) :
    ∃ tail, text = 34 :: tail := by
  simp only [encodeCanonicalJSONString, bind_eq_ok, pure_eq_ok] at h
  obtain ⟨_, -, rfl⟩ := h
  exact ⟨_, rfl⟩

theorem formatInt_head (value : Int) : ∃ b tail, formatInt value = b :: tail ∧ (b = 45 ∨ isDigit b = true) := by
  cases value with
  | ofNat n =>
    rw [Int.ofNat_eq_natCast, formatInt_ofNat]
    obtain ⟨b, tail, hbytes⟩ := List.exists_cons_of_ne_nil (digitBytes_ne_nil n)
    exact ⟨b, tail, hbytes, .inr (mem_digitBytes (hbytes ▸ List.mem_cons_self))⟩
  | negSucc n =>
    exact ⟨45, _, formatInt_negSucc n, .inl rfl⟩

variable {value : Json}

theorem canonicalJSON_head (h : canonicalJSON value = .ok text) :
    ∃ b tail, text = b :: tail ∧ startsValue b = true := by
  cases value with
  | null =>
    rw [canonicalJSON] at h
    cases h
    exact ⟨110, _, rfl, rfl⟩
  | bool value =>
    cases value with
    | true =>
      rw [canonicalJSON] at h
      cases h
      exact ⟨116, _, rfl, rfl⟩
    | false =>
      rw [canonicalJSON] at h
      cases h
      exact ⟨102, _, rfl, rfl⟩
  | int value =>
    rw [canonicalJSON] at h
    cases h
    obtain ⟨b, tail, htext, hb⟩ := formatInt_head value
    refine ⟨b, tail, htext, ?_⟩
    rcases hb with rfl | hb
    · rfl
    · simp [startsValue, hb]
  | string value =>
    rw [canonicalJSON] at h
    obtain ⟨tail, rfl⟩ := encodeCanonicalJSONString_quoted h
    exact ⟨34, tail, rfl, rfl⟩
  | array items =>
    simp only [canonicalJSON, bind_eq_ok, pure_eq_ok] at h
    obtain ⟨texts, -, rfl⟩ := h
    exact ⟨91, _, rfl, rfl⟩
  | object fields =>
    simp only [canonicalJSON, bind_eq_ok, pure_eq_ok] at h
    obtain ⟨members, -, rfl⟩ := h
    exact ⟨123, _, rfl, rfl⟩

theorem skipWhitespace_cons {b : UInt8} (h : ¬ (b = 32 ∨ b = 9 ∨ b = 13 ∨ b = 10)) (rest : Bytes) :
    skipWhitespace (b :: rest) = b :: rest := by
  rw [skipWhitespace, if_neg h]

theorem skipWhitespace_startsValue {b : UInt8} (h : startsValue b = true) (rest : Bytes) :
    skipWhitespace (b :: rest) = b :: rest := by
  apply skipWhitespace_cons
  rintro (rfl | rfl | rfl | rfl) <;> exact absurd h (by decide)

/-! ## Reading back -/

theorem parseLiteral_append (literal : String) (value : Json) (rest : Bytes) :
    parseLiteral literal value (utf8 literal ++ rest) = .ok (value, rest) := by
  rw [parseLiteral, if_pos (by simp), List.drop_left]

/-- The parser reads the text as the value and stops behind it. -/
def Reads (value : Json) (text : Bytes) : Prop :=
  ∀ (n : Nat) (rest : Bytes), text.length ≤ n → Ends rest → parseValue n (text ++ rest) = .ok (value.sorted, rest)

variable {n : Nat}

theorem parseItems_texts (h : List.Forall₂ Reads items texts)
    (hne : items ≠ []) (hn : (List.intercalate [44] texts).length < n) (acc : List Json) (rest : Bytes) :
    parseItems n acc (List.intercalate [44] texts ++ 93 :: rest) = .ok (acc ++ items.map Json.sorted, rest) := by
  induction h generalizing n acc with
  | nil => exact absurd rfl hne
  | @cons item text items texts hitem hrest ih =>
    cases n with
    | zero => cases hn
    | succ n =>
      cases hrest with
      | nil =>
        rw [List.intercalate_singleton] at hn ⊢
        have hread := hitem n (93 :: rest) (by omega) (by simp [Ends])
        simp [parseItems, hread, bind_eq_ok, skipWhitespace]
      | @cons item' text' items' texts' hitem' hrest' =>
        rw [List.intercalate_cons_cons, List.length_append, List.length_append, List.length_singleton] at hn
        rw [List.intercalate_cons_cons, List.append_assoc, List.append_assoc, List.singleton_append]
        have hread := hitem n (44 :: (List.intercalate [44] (text' :: texts') ++ 93 :: rest)) (by omega)
          (by simp [Ends])
        simp only [parseItems, hread, bind_eq_ok]
        refine ⟨_, rfl, ?_⟩
        rw [skipWhitespace_cons (by decide)]
        have hlater := ih (by simp) (show _ < n by omega) (acc ++ [item.sorted])
        rw [List.append_assoc] at hlater
        exact hlater

/-- The name of a member and its value. -/
def ReadsField (field : Bytes × Json) (member : Bytes × Bytes) : Prop :=
  ∃ name text, encodeCanonicalJSONString field.1 = .ok name ∧ Reads field.2 text ∧ member.2 = name ++ 58 :: text

/-- One round of the object parser: the name, the colon, the value, and what ends the member. -/
theorem parseMembers_round {key : Bytes} {name : Bytes}
    (hname : encodeCanonicalJSONString key = .ok name) (hread : Reads value text) {acc : List (Bytes × Json)}
    (hfresh : key ∉ acc.map (·.1)) (hn : text.length ≤ n) (rest : Bytes) :
    parseMembers (n + 1) acc (name ++ 58 :: (text ++ 125 :: rest)) = .ok (acc ++ [(key, value.sorted)], rest) ∧
      parseMembers (n + 1) acc (name ++ 58 :: (text ++ 44 :: rest)) =
        parseMembers n (acc ++ [(key, value.sorted)]) rest := by
  obtain ⟨tail, rfl⟩ := encodeCanonicalJSONString_quoted hname
  have hkey : ∀ after, parseString (34 :: (tail ++ after)) = .ok (key, after) := fun after => parseString_encode hname after
  have hnew : reject (acc.any fun field => field.1 = key) "duplicate JSON object key" = .ok () := by
    rw [reject_eq_ok, List.any_eq_true]
    rintro ⟨field, hfield, heq⟩
    exact hfresh (of_decide_eq_true heq ▸ List.mem_map_of_mem hfield)
  have hquote := skipWhitespace_cons (b := 34) (by decide)
  have hcolon := skipWhitespace_cons (b := 58) (by decide)
  have hbrace := skipWhitespace_cons (b := 125) (by decide)
  have hsep := skipWhitespace_cons (b := 44) (by decide)
  have hclose := hread n (125 :: rest) hn (by simp [Ends])
  have hcomma := hread n (44 :: rest) hn (by simp [Ends])
  constructor
  · simp only [parseMembers, List.cons_append, hquote, hkey, bind, Except.bind, hnew, hcolon, hclose, hbrace]
  · simp only [parseMembers, List.cons_append, hquote, hkey, bind, Except.bind, hnew, hcolon, hcomma, hsep]

theorem parseMembers_members (h : List.Forall₂ ReadsField fields members) (hne : fields ≠ [])
    (hn : (List.intercalate [44] (members.map (·.2))).length < n) (acc : List (Bytes × Json))
    (hkeys : ((acc ++ fields).map (·.1)).Nodup) (rest : Bytes) :
    parseMembers n acc (List.intercalate [44] (members.map (·.2)) ++ 125 :: rest) =
      .ok (acc ++ fields.map fun field => (field.1, field.2.sorted), rest) := by
  induction h generalizing n acc with
  | nil => exact absurd rfl hne
  | @cons field member fields members hfield hrest ih =>
    obtain ⟨key, value⟩ := field
    obtain ⟨key', line⟩ := member
    obtain ⟨name, text, hname, hread, rfl⟩ := hfield
    have hfresh : key ∉ acc.map (·.1) := by
      intro hmem
      rw [List.map_append, List.nodup_append] at hkeys
      exact hkeys.2.2 key hmem key (by simp) rfl
    cases n with
    | zero => cases hn
    | succ n =>
      cases hrest with
      | nil =>
        rw [List.map_singleton, List.intercalate_singleton] at hn ⊢
        rw [List.length_append, List.length_cons] at hn
        rw [List.append_assoc, List.cons_append]
        exact (parseMembers_round hname hread hfresh (by omega) rest).1
      | @cons field' member' fields' members' hfield' hrest' =>
        rw [List.map_cons, List.map_cons, List.intercalate_cons_cons] at hn ⊢
        rw [List.length_append, List.length_append, List.length_append, List.length_cons, List.length_singleton] at hn
        simp only [List.append_assoc, List.cons_append, List.nil_append]
        rw [(parseMembers_round hname hread hfresh (by omega) _).2]
        have hlater := ih (by simp) (show _ < n by simp only [List.map_cons]; omega) (acc ++ [(key, value.sorted)]) (by simpa using hkeys)
        rw [List.append_assoc] at hlater
        exact hlater

/-! ## The round trip -/

variable {rest : Bytes}

theorem parseValue_formatInt {value : Int} (hlow : -9223372036854775808 ≤ value) (hhigh : value < 18446744073709551616)
    (n : Nat) (h : Ends rest) : parseValue (n + 1) (formatInt value ++ rest) = .ok (.int value, rest) := by
  have hparse := parseInteger_formatInt hlow hhigh h
  obtain ⟨b, tail, htext, hb⟩ := formatInt_head value
  have hother : b ≠ 110 ∧ b ≠ 116 ∧ b ≠ 102 ∧ b ≠ 34 ∧ b ≠ 91 ∧ b ≠ 123 ∧ ¬ (b = 32 ∨ b = 9 ∨ b = 13 ∨ b = 10) := by
    refine ⟨?_, ?_, ?_, ?_, ?_, ?_, ?_⟩
    any_goals
      rintro rfl
      exact absurd hb (by decide)
    rintro (rfl | rfl | rfl | rfl) <;> exact absurd hb (by decide)
  obtain ⟨h110, h116, h102, h34, h91, h123, hspace⟩ := hother
  rw [htext, List.cons_append] at hparse ⊢
  rw [parseValue, skipWhitespace_cons hspace]
  dsimp only
  rw [if_neg h110, if_neg h116, if_neg h102, if_neg h34, if_neg h91, if_neg h123, if_pos hb, hparse]

theorem parseValue_string {value : Bytes} (h : encodeCanonicalJSONString value = .ok text) (n : Nat) (rest : Bytes) :
    parseValue (n + 1) (text ++ rest) = .ok (.string value, rest) := by
  have hparse := parseString_encode h rest
  obtain ⟨tail, rfl⟩ := encodeCanonicalJSONString_quoted h
  rw [List.cons_append] at hparse ⊢
  rw [parseValue, skipWhitespace_cons (by decide)]
  dsimp only
  rw [if_neg (by decide), if_neg (by decide), if_neg (by decide), if_pos rfl, hparse]
  rfl

theorem parseValue_array (htexts : List.Forall₂ (fun item text => canonicalJSON item = .ok text) items texts)
    (h : List.Forall₂ Reads items texts) (hn : (List.intercalate [44] texts).length < n) (rest : Bytes) :
    parseValue (n + 1) (91 :: (List.intercalate [44] texts ++ 93 :: rest)) = .ok (.array (items.map Json.sorted), rest) := by
  rw [parseValue, skipWhitespace_cons (by decide)]
  dsimp only
  rw [if_neg (by decide), if_neg (by decide), if_neg (by decide), if_neg (by decide), if_pos rfl]
  cases htexts with
  | nil => rfl
  | @cons item text items texts hitem hrest =>
    have hparse := parseItems_texts h (by simp) hn [] rest
    obtain ⟨b, tail, rfl, hb⟩ := canonicalJSON_head hitem
    obtain ⟨tail', htail⟩ := intercalate_head [44] b tail texts
    rw [htail, List.cons_append] at hparse ⊢
    rw [skipWhitespace_startsValue hb]
    split
    · rename_i heq
      cases heq
      exact absurd hb (by decide)
    · rw [hparse]
      rfl

theorem parseValue_object (h : List.Forall₂ ReadsField fields members) (hkeys : (fields.map (·.1)).Nodup)
    (hn : (List.intercalate [44] (members.map (·.2))).length < n) (rest : Bytes) :
    parseValue (n + 1) (123 :: (List.intercalate [44] (members.map (·.2)) ++ 125 :: rest)) =
      .ok (.object (fields.map fun field => (field.1, field.2.sorted)), rest) := by
  rw [parseValue, skipWhitespace_cons (by decide)]
  dsimp only
  rw [if_neg (by decide), if_neg (by decide), if_neg (by decide), if_neg (by decide), if_neg (by decide), if_pos rfl]
  cases h with
  | nil => rfl
  | @cons field member fields members hfield hrest =>
    have hparse := parseMembers_members (.cons hfield hrest) (by simp) hn [] hkeys rest
    obtain ⟨key, line⟩ := member
    obtain ⟨name, text, hname, -, rfl⟩ := hfield
    obtain ⟨tail, rfl⟩ := encodeCanonicalJSONString_quoted hname
    obtain ⟨tail', htail⟩ := intercalate_head [44] 34 (tail ++ 58 :: text) (members.map (·.2))
    rw [List.map_cons, List.cons_append, htail, List.cons_append] at hparse ⊢
    rw [skipWhitespace_cons (by decide)]
    split
    · rename_i heq
      cases heq
    · rw [hparse]
      rfl

theorem forall₂_sortMembers (h : List.Forall₂ IsMember fields members) :
    List.Forall₂ IsMember (fields.insertionSort fieldLE) (sortMembers members) := by
  apply forall₂_insertionSort _ h
  rintro ⟨key, value⟩ ⟨_, line⟩ ⟨key', value'⟩ ⟨_, line'⟩ ⟨rfl, -⟩ ⟨rfl, -⟩
  rfl

theorem sortMembers_sortMembers (members : List (Bytes × Bytes)) : sortMembers (sortMembers members) = sortMembers members := by
  let memberLE : Bytes × Bytes → Bytes × Bytes → Prop := fun a b => keyLE a.1 b.1
  have : Std.Total memberLE := ⟨fun a b => keyLE_total a.1 b.1⟩
  have : IsTrans (Bytes × Bytes) memberLE := ⟨fun _ _ _ => keyLE_trans⟩
  exact (List.pairwise_insertionSort memberLE members).insertionSort_eq

/-- Induction on a value of the set with its text. The members of an object come in key order. -/
@[elab_as_elim] theorem canonicalJSON_induction {P : Json → Bytes → Prop} (null : P .null (utf8 "null"))
    (bool : ∀ value, P (.bool value) (utf8 (toString value)))
    (int : ∀ value, -9223372036854775808 ≤ value → value < 18446744073709551616 → P (.int value) (formatInt value))
    (string : ∀ value text, encodeCanonicalJSONString value = .ok text → P (.string value) text)
    (array : ∀ items texts, List.Forall₂ (fun item text => canonicalJSON item = .ok text ∧ P item text) items texts →
      P (.array items) ([91] ++ List.intercalate [44] texts ++ [93]))
    (object : ∀ fields members, (fields.map (·.1)).Nodup → sortMembers members = members →
      List.Forall₂ (fun field member => IsMember field member ∧ ∀ text, canonicalJSON field.2 = .ok text → P field.2 text)
        (fields.insertionSort fieldLE) members →
      P (.object fields) ([123] ++ List.intercalate [44] (members.map (·.2)) ++ [125]))
    (hvalue : value.WellFormed) (htext : canonicalJSON value = .ok text) : P value text := by
  induction hvalue generalizing text with
  | null =>
    rw [canonicalJSON] at htext
    cases htext
    exact null
  | bool value =>
    have hvalue := bool value
    cases value <;> (rw [canonicalJSON] at htext; cases htext; exact hvalue)
  | int hlow hhigh =>
    rw [canonicalJSON] at htext
    cases htext
    exact int _ hlow hhigh
  | string hvalid =>
    rw [canonicalJSON] at htext
    exact string _ _ htext
  | array hitems ih =>
    simp only [canonicalJSON, bind_eq_ok, pure_eq_ok, encodeItems_eq_ok] at htext
    obtain ⟨texts, htexts, rfl⟩ := htext
    have hboth := (List.forall₂_and_left ..).mpr ⟨fun item hitem text htext => @ih item hitem text htext, htexts⟩
    exact array _ texts (hboth.imp fun item text h => ⟨h.2, h.1 text h.2⟩)
  | object hkeys hvalid hfields ih =>
    simp only [canonicalJSON, bind_eq_ok, pure_eq_ok, encodeFields_eq_ok] at htext
    obtain ⟨members, hmembers, rfl⟩ := htext
    have hboth := (List.forall₂_and_left ..).mpr
      ⟨fun field hfield text htext => @ih field ((List.mem_insertionSort _).mp hfield) text htext,
        forall₂_sortMembers hmembers⟩
    exact object _ _ hkeys (sortMembers_sortMembers members) (hboth.imp fun field member h => ⟨h.2, h.1⟩)

theorem reads_of_succ (htext : canonicalJSON value = .ok text)
    (h : ∀ (n : Nat) (rest : Bytes), text.length ≤ n + 1 → Ends rest →
      parseValue (n + 1) (text ++ rest) = .ok (value.sorted, rest)) : Reads value text := by
  intro n rest hn hrest
  obtain ⟨b, tail, rfl, -⟩ := canonicalJSON_head htext
  cases n with
  | zero => cases hn
  | succ n => exact h n rest hn hrest

/-- **The parser reads back what the encoder writes.** -/
theorem reads_of_encodes (hvalue : value.WellFormed) (htext : canonicalJSON value = .ok text) : Reads value text := by
  apply reads_of_succ htext
  refine canonicalJSON_induction ?null ?bool ?int ?string ?array ?object hvalue htext
  case null => exact fun n rest _ _ => parseLiteral_append "null" .null rest
  case bool =>
    rintro (_ | _) n rest _ _
    · exact parseLiteral_append "false" (.bool false) rest
    · exact parseLiteral_append "true" (.bool true) rest
  case int =>
    intro value hlow hhigh n rest _ hrest
    simp only [Json.sorted]
    exact parseValue_formatInt hlow hhigh n hrest
  case string =>
    intro value text htext n rest _ _
    simp only [Json.sorted]
    exact parseValue_string htext n rest
  case array =>
    intro items texts h n rest hn _
    simp only [List.length_append, List.length_singleton] at hn
    simp only [Json.sorted, sortedItems_eq, List.append_assoc, List.singleton_append]
    exact parseValue_array (h.imp fun _ _ h => h.1) (h.imp fun _ _ h => reads_of_succ h.1 h.2) (by omega) rest
  case object =>
    intro fields members hkeys _ h n rest hn _
    simp only [List.length_append, List.length_singleton] at hn
    rw [sorted_object_eq]
    simp only [List.append_assoc, List.singleton_append]
    apply parseValue_object
    · apply h.imp
      rintro field member ⟨⟨-, name, text, hname, htext, hline⟩, hread⟩
      exact ⟨name, text, hname, reads_of_succ htext (hread text htext), by simpa using hline⟩
    · exact ((List.perm_insertionSort _ _).map _).nodup_iff.mpr hkeys
    · omega

/-- The order of the fields does not show in the text. -/
theorem canonicalJSON_sorted (hvalue : value.WellFormed)
    (htext : canonicalJSON value = .ok text) : canonicalJSON value.sorted = .ok text := by
  refine canonicalJSON_induction ?null ?bool ?int ?string ?array ?object hvalue htext
  case null => simp [Json.sorted, canonicalJSON]
  case bool => rintro (_ | _) <;> simp [Json.sorted, canonicalJSON] <;> rfl
  case int => simp [Json.sorted, canonicalJSON]
  case string =>
    intro value text htext
    rw [Json.sorted, canonicalJSON, htext]
    all_goals simp
  case array =>
    intro items texts h
    simp only [Json.sorted, sortedItems_eq, canonicalJSON, bind_eq_ok, pure_eq_ok, encodeItems_eq_ok,
      List.forall₂_map_left_iff]
    exact ⟨texts, h.imp fun _ _ h => h.2, rfl⟩
  case object =>
    intro fields members _ hsorted h
    rw [sorted_object_eq]
    simp only [canonicalJSON, bind_eq_ok, pure_eq_ok, encodeFields_eq_ok, List.forall₂_map_left_iff]
    refine ⟨members, h.imp ?_, by rw [hsorted]⟩
    rintro field member ⟨⟨hkey, name, text, hname, htext, hline⟩, hsame⟩
    exact ⟨hkey, name, text, hname, hsame text htext, hline⟩

theorem Json.WellFormed.encodes (h : value.WellFormed) : Encodes value := by
  induction h with
  | null => exact encodes_null
  | bool value => exact encodes_bool value
  | int hlow hhigh => exact ⟨_, by rw [canonicalJSON]⟩
  | string hvalid => exact encodes_string.mpr hvalid
  | array hitems ih => exact encodes_array ih
  | @object fields hkeys hvalid hfields ih =>
    obtain ⟨members, hmembers⟩ := encodeFields_ok.mpr fun field hfield => ⟨hvalid field hfield, ih field hfield⟩
    exact ⟨_, by rw [canonicalJSON, hmembers]; rfl⟩

/-! ## The text is ASCII -/

theorem isASCII_append (a b : Bytes) : isASCII (a ++ b) = (isASCII a && isASCII b) := List.all_append

theorem isASCII_escapeRune (r : Nat) : isASCII (escapeRune r) = true := by
  have hescape : ∀ value, isASCII (unicodeEscape value) = true := by
    intro value
    rw [unicodeEscape, isASCII_append, isASCII_hexBytes]
    rfl
  obtain ⟨b, hb, h⟩ | h | ⟨hr, h⟩ | ⟨high, low, h⟩ := escapeRune_cases r
  · have hsmall : b < 0x80 := UInt8.lt_trans hb (by decide)
    simp [h, isASCII, hsmall]
  · rw [h, hescape]
  · rw [h, isASCII, List.all_cons, List.all_nil, Bool.and_true, decide_eq_true_eq, UInt8.lt_iff_toNat_lt,
      toNat_ofNat8 (by omega)]
    simp
    omega
  · rw [h, isASCII_append, hescape, hescape]
    rfl

theorem isASCII_encodeCanonicalJSONString {value : Bytes} (h : encodeCanonicalJSONString value = .ok text) :
    isASCII text = true := by
  have hescape : ∀ n b, isASCII (escapeRunes n b) = true := by
    intro n
    induction n with
    | zero => intro b; rfl
    | succ n ih =>
      intro b
      rw [escapeRunes]
      split
      · rw [isASCII_append, isASCII_escapeRune, ih]
        rfl
      · rfl
  simp only [encodeCanonicalJSONString, bind_eq_ok, pure_eq_ok] at h
  obtain ⟨_, -, rfl⟩ := h
  rw [isASCII_append, isASCII_append, hescape]
  rfl

theorem isASCII_formatInt (value : Int) : isASCII (formatInt value) = true := by
  have hdigits : ∀ n, isASCII (digitBytes n) = true := by
    intro n
    rw [isASCII, List.all_eq_true]
    intro b hb
    have hdigit := mem_digitBytes hb
    simp only [isDigit, UInt8.le_iff_toNat_le, UInt8.reduceToNat, decide_eq_true_eq] at hdigit
    rw [decide_eq_true_eq, UInt8.lt_iff_toNat_lt]
    simp
    omega
  cases value with
  | ofNat n =>
    rw [Int.ofNat_eq_natCast, formatInt_ofNat, hdigits]
  | negSucc n =>
    rw [formatInt_negSucc]
    exact hdigits (n + 1)

theorem isASCII_intercalate (h : ∀ text ∈ texts, isASCII text = true) :
    isASCII (List.intercalate [44] texts) = true := by
  induction texts with
  | nil => rfl
  | cons text texts ih =>
    rw [List.forall_mem_cons] at h
    cases texts with
    | nil =>
      rw [List.intercalate_singleton]
      exact h.1
    | cons text' texts =>
      rw [List.intercalate_cons_cons, isASCII_append, isASCII_append, h.1, ih h.2]
      rfl

theorem isASCII_canonicalJSON (hvalue : value.WellFormed)
    (htext : canonicalJSON value = .ok text) : isASCII text = true := by
  refine canonicalJSON_induction ?null ?bool ?int ?string ?array ?object hvalue htext
  case null => rfl
  case bool => rintro (_ | _) <;> rfl
  case int => exact fun value _ _ => isASCII_formatInt value
  case string => exact fun _ _ => isASCII_encodeCanonicalJSONString
  case array =>
    intro items texts h
    rw [isASCII_append, isASCII_append, isASCII_intercalate]
    · rfl
    · intro text hmem
      obtain ⟨item, -, -, htext⟩ := exists_left_of_mem h hmem
      exact htext
  case object =>
    intro fields members _ _ h
    rw [isASCII_append, isASCII_append, isASCII_intercalate]
    · rfl
    · intro line hmem
      obtain ⟨member, hmember, rfl⟩ := List.mem_map.mp hmem
      obtain ⟨field, -, ⟨-, name, text, hname, htext, hline⟩, hvalue⟩ := exists_left_of_mem h hmember
      rw [hline, isASCII_append, isASCII_append, isASCII_encodeCanonicalJSONString hname, hvalue text htext]
      rfl

/-! ## The round trip -/

/-- **What is encoded is decoded to the same value.** -/
theorem decode_encode (hvalue : value.WellFormed)
    (htext : canonicalJSON value = .ok text) : decodeCanonicalJSON text = .ok value.sorted := by
  have hascii := isASCII_canonicalJSON hvalue htext
  have hbom : ¬ ([0xEF, 0xBB, 0xBF].isPrefixOf text) = true := by
    intro hpre
    obtain ⟨tail, rfl⟩ := List.isPrefixOf_iff_prefix.mp hpre
    rw [isASCII_append] at hascii
    exact absurd hascii (by simp [isASCII])
  have hparse := reads_of_encodes hvalue htext (2 * text.length + 1) [] (by omega) (by simp [Ends])
  rw [List.append_nil] at hparse
  simp only [decodeCanonicalJSON, bind_eq_ok, pure_eq_ok, reject_eq_ok]
  exact ⟨(), hbom, (), by simp [utf8Valid_of_isASCII hascii], _, hparse, (), by simp [skipWhitespace], text,
    canonicalJSON_sorted hvalue htext, (), by simp, rfl⟩

/-! ## What is decoded -/

/-- A parsed value that has an encoding is of the set: its integers are in range and its keys distinct. -/
def Settled (value : Json) : Prop := Encodes value → value.WellFormed

theorem settled_string (value : Bytes) : Settled (.string value) := fun h => .string (encodes_string.mp h)

theorem settled_array (hitems : ∀ item ∈ items, Settled item) : Settled (.array items) := by
  rintro ⟨text, htext⟩
  simp only [canonicalJSON, bind_eq_ok, encodeItems_eq_ok] at htext
  obtain ⟨texts, htexts, -⟩ := htext
  refine .array fun item hitem => ?_
  obtain ⟨text, -, htext⟩ := exists_right_of_mem htexts hitem
  exact hitems item hitem ⟨text, htext⟩

theorem settled_object (hkeys : (fields.map (·.1)).Nodup)
    (hfields : ∀ field ∈ fields, Settled field.2) : Settled (.object fields) := by
  rintro ⟨text, htext⟩
  simp only [canonicalJSON, bind_eq_ok] at htext
  obtain ⟨members, hmembers, -⟩ := htext
  have hencodes := encodeFields_ok.mp ⟨members, hmembers⟩
  exact .object hkeys (fun field hfield => (hencodes field hfield).1)
    fun field hfield => hfields field hfield (hencodes field hfield).2

variable {data : Bytes}

theorem settled_of_parseInteger (h : parseInteger data = .ok (value, rest)) : Settled value := by
  intro _
  unfold parseInteger at h
  split at h
  · simp only [bind_eq_ok, pure_eq_ok, reject_eq_ok] at h
    obtain ⟨_, -, ⟨digits, after⟩, -, _, -, _, hzero, _, hrange, h⟩ := h
    cases h
    exact .int (by omega) (by omega)
  · simp only [bind_eq_ok, pure_eq_ok, reject_eq_ok] at h
    obtain ⟨⟨digits, after⟩, -, _, -, _, hrange, h⟩ := h
    cases h
    exact .int (by omega) (by omega)

theorem settled_of_parseLiteral {literal : String} {parsed : Json}
    (h : parseLiteral literal value data = .ok (parsed, rest)) (hvalue : value.WellFormed) : Settled parsed := by
  unfold parseLiteral at h
  split at h
  · cases h
    exact fun _ => hvalue
  · cases h

/-- One statement for the three parsers, by induction on their fuel. -/
theorem settled_of_parse (n : Nat) :
    (∀ {data : Bytes} {value : Json} {rest : Bytes}, parseValue n data = .ok (value, rest) → Settled value) ∧
    (∀ {acc items : List Json} {data rest : Bytes}, parseItems n acc data = .ok (items, rest) →
      (∀ item ∈ acc, Settled item) → ∀ item ∈ items, Settled item) ∧
    (∀ {acc fields : List (Bytes × Json)} {data rest : Bytes}, parseMembers n acc data = .ok (fields, rest) →
      (acc.map (·.1)).Nodup ∧ (∀ field ∈ acc, Settled field.2) →
      (fields.map (·.1)).Nodup ∧ ∀ field ∈ fields, Settled field.2) := by
  induction n with
  | zero => simp [parseValue, parseItems, parseMembers]
  | succ n ih =>
    obtain ⟨hvalue, hitems, hmembers⟩ := ih
    refine ⟨?_, ?_, ?_⟩
    · intro data value rest h
      rw [parseValue] at h
      split at h
      · cases h
      split at h
      · exact settled_of_parseLiteral h .null
      split at h
      · exact settled_of_parseLiteral h (.bool true)
      split at h
      · exact settled_of_parseLiteral h (.bool false)
      split at h
      · obtain ⟨⟨text, after⟩, -, h⟩ := bind_eq_ok.mp h
        cases h
        exact settled_string text
      split at h
      · split at h
        · cases h
          exact settled_array (by simp)
        · obtain ⟨⟨items, after⟩, hparse, h⟩ := bind_eq_ok.mp h
          cases h
          exact settled_array (hitems hparse (by simp))
      split at h
      · split at h
        · cases h
          exact settled_object (by simp) (by simp)
        · obtain ⟨⟨fields, after⟩, hparse, h⟩ := bind_eq_ok.mp h
          cases h
          obtain ⟨hkeys, hfields⟩ := hmembers hparse (by simp)
          exact settled_object hkeys hfields
      split at h
      · exact settled_of_parseInteger h
      · cases h
    · intro acc items data rest h hacc
      rw [parseItems] at h
      obtain ⟨⟨item, after⟩, hitem, h⟩ := bind_eq_ok.mp h
      have hnew : ∀ other ∈ acc ++ [item], Settled other :=
        List.forall_mem_append.mpr ⟨hacc, List.forall_mem_singleton.mpr (hvalue hitem)⟩
      dsimp only at h
      split at h
      · cases h
        exact hnew
      · exact hitems h hnew
      · cases h
    · rintro acc fields data rest h ⟨hkeys, hacc⟩
      rw [parseMembers] at h
      split at h
      · obtain ⟨⟨key, after⟩, -, h⟩ := bind_eq_ok.mp h
        obtain ⟨_, hfresh, h⟩ := bind_eq_ok.mp h
        rw [reject_eq_ok] at hfresh
        dsimp only at h
        split at h
        · obtain ⟨⟨value, after⟩, hparse, h⟩ := bind_eq_ok.mp h
          have hnew : ((acc ++ [(key, value)]).map (·.1)).Nodup ∧ ∀ other ∈ acc ++ [(key, value)], Settled other.2 :=
            ⟨nodup_keys_concat.mpr ⟨hkeys, hfresh⟩,
              List.forall_mem_append.mpr ⟨hacc, List.forall_mem_singleton.mpr (hvalue hparse)⟩⟩
          dsimp only at h
          split at h
          · cases h
            exact hnew
          · exact hmembers h hnew
          · cases h
        · cases h
      · cases h

/-- **What is decoded is a value of the set.** -/
theorem wellFormed_of_decode (h : decodeCanonicalJSON data = .ok value) : value.WellFormed := by
  have hencodes : Encodes value := ⟨data, canonicalJSON_of_decode h⟩
  simp only [decodeCanonicalJSON, bind_eq_ok, pure_eq_ok] at h
  obtain ⟨_, -, _, -, ⟨parsed, rest⟩, hparse, _, -, _, -, _, -, rfl⟩ := h
  exact (settled_of_parse _).1 hparse hencodes

/-! ## Canonical JSON as a map between values and bytes -/

/-- **Canonical JSON round-trips and is injective.** A value encodes, its encoding decodes to the value with its
maps in key order, only the encoding of the value returned is accepted, and values with one encoding are the same. -/
theorem canonicalJSON_roundTrips :
    (∀ value : Json, value.WellFormed →
      ∃ text, canonicalJSON value = .ok text ∧ decodeCanonicalJSON text = .ok value.sorted) ∧
    (∀ (data : Bytes) (value : Json), decodeCanonicalJSON data = .ok value → canonicalJSON value = .ok data) ∧
    (∀ value other : Json, value.WellFormed → other.WellFormed → canonicalJSON value = canonicalJSON other →
      value.sorted = other.sorted) := by
  refine ⟨?_, fun data value => canonicalJSON_of_decode, ?_⟩
  · intro value hvalue
    obtain ⟨text, htext⟩ := hvalue.encodes
    exact ⟨text, htext, decode_encode hvalue htext⟩
  · intro value other hvalue hother heq
    obtain ⟨text, htext⟩ := hvalue.encodes
    have hdecode := decode_encode hvalue htext
    rw [decode_encode hother (heq ▸ htext)] at hdecode
    exact (Except.ok.inj hdecode).symm

/-- A map out of key order, with a rune that takes two escapes. -/
def sampleValue : Json :=
  .object [(utf8 "b", .array [.null, .int (-7)]), (utf8 "a", .string [0xF0, 0x9F, 0x98, 0x80])]

theorem canonicalJSON_roundTrips_sample :
    ∃ text, canonicalJSON sampleValue = .ok text ∧ decodeCanonicalJSON text = .ok sampleValue.sorted := by
  apply canonicalJSON_roundTrips.1
  apply Json.WellFormed.object
  · decide
  · decide
  · simp only [List.mem_cons, List.not_mem_nil, or_false, forall_eq_or_imp, forall_eq]
    refine ⟨.array ?_, .string (by decide)⟩
    simp only [List.mem_cons, List.not_mem_nil, or_false, forall_eq_or_imp, forall_eq]
    exact ⟨.null, .int (by decide) (by decide)⟩

end TickPlatform.Protocol
