import TickPlatform.Lists
import TickPlatform.Protocol.RoundTrip

/-!
# Reading the fields of a decoded object

What the strict accessors return for an object that was encoded from known fields.
-/

namespace TickPlatform.Protocol

open Bytes

/-! ## Objects -/

/-- The decoded members are these fields, in some order. -/
structure Holds (object : JsonFields) (fields : List (String × Json)) : Prop where
  lookup : ∀ field ∈ fields, object.lookup (utf8 field.1) = some field.2.sorted
  only : ∀ member ∈ object, ∃ field ∈ fields, utf8 field.1 = member.1

variable {fields : List (String × Json)}

theorem objectFields_sorted {value : Json} (hvalue : value = jsonObject fields)
    (keys : List String) (hkeys : fields.map (·.1) = keys) (hnodup : keys.Nodup) (err : String) :
    ∃ object, objectFields value.sorted err = .ok object ∧ Holds object fields := by
  rw [hvalue, jsonObject, sorted_object_eq]
  refine ⟨_, rfl, ?_⟩
  have hperm := List.perm_insertionSort fieldLE (fields.map fun field => (utf8 field.1, field.2))
  have hdistinct : (((fields.map fun field => (utf8 field.1, field.2)).insertionSort fieldLE).map
      fun field => (field.1, field.2.sorted)).map (·.1) |>.Nodup := by
    rw [List.map_map, ((hperm.map _).nodup_iff), List.map_map]
    have htexts := (hkeys ▸ hnodup).map fun _ _ => utf8_inj
    rw [List.map_map] at htexts
    exact htexts
  constructor
  · intro field hfield
    apply Lists.lookup_of_mem hdistinct
    rw [List.mem_map]
    exact ⟨(utf8 field.1, field.2), hperm.mem_iff.mpr (List.mem_map_of_mem hfield), rfl⟩
  · intro member hmember
    obtain ⟨field, hfield, rfl⟩ := List.mem_map.mp hmember
    obtain ⟨found, hfound, rfl⟩ := List.mem_map.mp (hperm.mem_iff.mp hfield)
    exact ⟨found, hfound, rfl⟩

theorem Holds.exactKeys {object : JsonFields} (h : Holds object fields)
    {expected : List String} (hkeys : (fields.map (·.1)).Perm expected) : requireExactKeys object expected = .ok () := by
  simp only [requireExactKeys, bind_eq_ok, reject_eq_ok, List.any_eq_true, not_exists, not_and, Bool.not_eq_true',
    Bool.not_eq_false, Option.isNone_iff_eq_none, decide_eq_true_eq]
  refine ⟨(), fun member hmember => ?_, fun key hkey => ?_⟩
  · obtain ⟨field, hfield, hname⟩ := h.only member hmember
    exact ⟨field.1, hkeys.mem_iff.mp (List.mem_map_of_mem hfield), hname⟩
  · obtain ⟨field, hfield, rfl⟩ := List.mem_map.mp (hkeys.mem_iff.mpr hkey)
    rw [h.lookup field hfield]
    exact Option.some_ne_none _

theorem settled_jsonObject (keys : List String) (hkeys : fields.map (·.1) = keys)
    (hnodup : keys.Nodup) (hfields : ∀ field ∈ fields, Settled field.2) : Settled (jsonObject fields) := by
  refine settled_object ?_ (List.forall_mem_map.mpr hfields)
  have htexts := (hkeys ▸ hnodup).map fun _ _ => utf8_inj
  rw [List.map_map] at htexts ⊢
  exact htexts

theorem settled_nat {n : Nat} (h : n < 18446744073709551616) : Settled (.int n) := fun _ => .int (by omega) (by omega)

@[simp] theorem settled_uint (value : UInt64) : Settled (jsonUint value) := settled_nat value.toNat_lt

@[simp] theorem settled_int64 (value : Int64) : Settled (.int value.toInt) := by
  have hlow := value.le_toInt
  have hhigh := value.toInt_lt
  exact fun _ => .int (by omega) (by omega)

@[simp] theorem settled_hash (value : Digest) : Settled (jsonHash value) := settled_string _

/-! ## Values -/

section
variable {object : JsonFields} {key : String}

theorem stringValue_eq_ok {value found : Bytes} (h : object.lookup (utf8 key) = some (.string value)) :
    stringValue object key = .ok found ↔ found = value ∧ utf8Valid value = true ∧ value ≠ [] := by
  rw [stringValue, h]
  simp only [bind_eq_ok, reject_eq_ok, pure_eq_ok, exists_unit, not_or, Bool.not_eq_true', Bool.not_eq_false]
  rw [and_comm, eq_comm]

theorem uint64Value_nat {n : Nat} (h : object.lookup (utf8 key) = some (.int n)) :
    uint64Value object key = .ok (UInt64.ofNat n) := by
  rw [uint64Value, h]
  exact bind_eq_ok.mpr ⟨(), reject_eq_ok.mpr (by simp), rfl⟩

theorem uint64Value_eq {value : UInt64} (h : object.lookup (utf8 key) = some (jsonUint value)) :
    uint64Value object key = .ok value := by
  rw [uint64Value_nat h, UInt64.ofNat_toNat]

theorem uint32Value_eq {value : UInt32} (h : object.lookup (utf8 key) = some (.int value.toNat)) :
    uint32Value object key = .ok value := by
  have hlt := value.toNat_lt
  have hsmall : (UInt64.ofNat value.toNat).toNat = value.toNat := by
    rw [UInt64.toNat_ofNat']
    omega
  simp only [uint32Value, uint64Value_nat h, bind_eq_ok, mapError_eq_ok, reject_eq_ok, pure_eq_ok]
  refine ⟨_, rfl, (), by omega, UInt32.toNat_inj.mp ?_⟩
  rw [UInt64.toNat_toUInt32, hsmall]
  omega

theorem uint16Value_eq {value : UInt16} (h : object.lookup (utf8 key) = some (.int value.toNat)) :
    uint16Value object key = .ok value := by
  have hlt := value.toNat_lt
  have hsmall : (UInt64.ofNat value.toNat).toNat = value.toNat := by
    rw [UInt64.toNat_ofNat']
    omega
  simp only [uint16Value, uint64Value_nat h, bind_eq_ok, mapError_eq_ok, reject_eq_ok, pure_eq_ok]
  refine ⟨_, rfl, (), by omega, UInt16.toNat_inj.mp ?_⟩
  rw [UInt64.toNat_toUInt16, hsmall]
  omega

theorem int64Value_eq {value : Int64} (h : object.lookup (utf8 key) = some (.int value.toInt)) :
    int64Value object key = .ok value := by
  have hlt := value.toInt_lt
  rw [int64Value, h]
  refine bind_eq_ok.mpr ⟨(), reject_eq_ok.mpr (by omega), ?_⟩
  simp [pure_eq_ok]

theorem hexPairs_hexBytes (b : Bytes) : hexPairs (hexBytes b) = b := by
  induction b with
  | nil => rfl
  | cons x b ih =>
    have hlt := x.toNat_lt
    have hcons : hexBytes (x :: b) = UInt8.ofNat (Nat.digitChar (x.toNat / 16)).toNat ::
        UInt8.ofNat (Nat.digitChar (x.toNat % 16)).toNat :: hexBytes b := by
      simp [hexBytes, hexByte]
    rw [hcons, hexPairs, ih, parseHexDigit_digit _ (by omega), parseHexDigit_digit _ (by omega)]
    simp only [Option.getD_some, List.cons.injEq, and_true]
    rw [Nat.div_add_mod']
    exact UInt8.ofNat_toNat

theorem parseHash_jsonHash (digest : Digest) : parseHash (some (jsonHash digest)) = .ok digest := by
  have hlength : (encodeHashHex digest).length = 64 := length_encodeHashHex digest
  have hdigits : (encodeHashHex digest).all isLowerHexDigit = true := by
    rw [List.all_eq_true]
    intro x hx
    simpa [isLowerHexDigit] using hexBytes_digits _ x hx
  rw [jsonHash, parseHash]
  simp only [bind_eq_ok, reject_eq_ok, pure_eq_ok]
  refine ⟨(), by simp [hlength], (), by simp [hdigits], ?_⟩
  rw [encodeHashHex, hexPairs_hexBytes, Digest.ofBytes_bytes]

theorem hashValue_eq {digest : Digest} (h : object.lookup (utf8 key) = some (jsonHash digest)) :
    hashValue object key = .ok digest := by
  rw [hashValue, h]
  exact bind_eq_ok.mpr ⟨(), reject_eq_ok.mpr (by simp), parseHash_jsonHash digest⟩

end

end TickPlatform.Protocol
