import TickPlatform.Archive.Valid
import TickPlatform.Protocol.Fields

/-!
# Manifests decode

A valid manifest comes back from its canonical JSON, and no other manifest is read from it.
-/

namespace TickPlatform.Archive

open Bytes Protocol Replay Wal

/-! ## Ranges and chain objects -/

def rangeKeys : List String :=
  ["bytes", "end_ingest_sequence", "first_record_ordinal", "key", "last_record_ordinal", "sha256", "start_ingest_sequence"]

def chainObjectKeys : List String := ["bytes", "end_ingest_sequence", "key", "sha256", "start_ingest_sequence"]

theorem settled_rangeValue (range : RawObjectRange) : Settled range.value := by
  have hfirst := range.firstRecordOrdinal.toNat_lt
  have hlast := range.lastRecordOrdinal.toNat_lt
  refine settled_jsonObject rangeKeys rfl (by decide) ?_
  simp only [List.forall_mem_cons, forall_mem_nil_iff, and_true, settled_uint, settled_hash,
    settled_string, true_and]
  exact ⟨settled_nat (by omega), settled_nat (by omega)⟩

theorem settled_chainObjectValue (object : RawChainObject) : Settled object.value := by
  refine settled_jsonObject chainObjectKeys rfl (by decide) ?_
  simp only [List.forall_mem_cons, forall_mem_nil_iff, and_true, settled_uint, settled_hash,
    settled_string]

theorem key_readable {key : Bytes} {sha256 : Digest} (h : key = rawWALObjectKey sha256) :
    utf8Valid key = true ∧ key ≠ [] :=
  h ▸ ⟨utf8Valid_of_isASCII (isASCII_rawWALObjectKey _), rawWALObjectKey_ne_nil _⟩

theorem objectRangeFromValue_eq_ok (range found : RawObjectRange) :
    objectRangeFromValue range.value.sorted = .ok found ↔ found = range ∧ utf8Valid range.key = true ∧ range.key ≠ [] := by
  obtain ⟨object, hobject, hholds⟩ := objectFields_sorted (show range.value = _ from rfl) rangeKeys rfl (by decide)
    "objects item must be an object"
  have hkeys := hholds.exactKeys (List.Perm.refl _)
  have hlookup := hholds.lookup
  simp only [List.forall_mem_cons, forall_mem_nil_iff, and_true] at hlookup
  obtain ⟨hbytes, hend, hfirst, hkey, hlast, hsha, hstart⟩ := hlookup
  simp only [objectRangeFromValue, hobject, stringValue_eq_ok hkey,
    hashValue_eq hsha, uint64Value_eq hbytes, uint64Value_eq hstart, uint64Value_eq hend, uint32Value_eq hfirst,
    uint32Value_eq hlast, bind_eq_ok, pure_eq_ok, Except.ok.injEq, exists_eq_left', and_assoc, exists_eq_left]
  exact ⟨fun ⟨_, _, hvalid, hne, h⟩ => ⟨h.symm, hvalid, hne⟩, fun ⟨h, hvalid, hne⟩ => ⟨(), hkeys, hvalid, hne, h.symm⟩⟩

theorem chainObjectFromValue_eq_ok (descriptor found : RawChainObject) :
    chainObjectFromValue descriptor.value.sorted = .ok found ↔
      found = descriptor ∧ utf8Valid descriptor.key = true ∧ descriptor.key ≠ [] := by
  obtain ⟨object, hobject, hholds⟩ := objectFields_sorted (show descriptor.value = _ from rfl) chainObjectKeys rfl
    (by decide) "chain_objects item must be an object"
  have hkeys := hholds.exactKeys (List.Perm.refl _)
  have hlookup := hholds.lookup
  simp only [List.forall_mem_cons, forall_mem_nil_iff, and_true] at hlookup
  obtain ⟨hbytes, hend, hkey, hsha, hstart⟩ := hlookup
  simp only [chainObjectFromValue, hobject, stringValue_eq_ok hkey,
    hashValue_eq hsha, uint64Value_eq hbytes, uint64Value_eq hstart, uint64Value_eq hend, bind_eq_ok, pure_eq_ok,
    Except.ok.injEq, exists_eq_left', and_assoc, exists_eq_left]
  exact ⟨fun ⟨_, _, hvalid, hne, h⟩ => ⟨h.symm, hvalid, hne⟩, fun ⟨h, hvalid, hne⟩ => ⟨(), hkeys, hvalid, hne, h.symm⟩⟩

theorem mapM_sorted_eq_ok {α : Type} {write : α → Json} {read : Json → Except String α} {P : α → Prop}
    (h : ∀ item found, read (write item).sorted = .ok found ↔ found = item ∧ P item) {items found : List α} :
    (sortedItems (items.map write)).mapM read = .ok found ↔ found = items ∧ ∀ item ∈ items, P item := by
  rw [sortedItems_eq, List.map_map, mapM_eq_ok, List.forall₂_map_left_iff]
  simp only [Function.comp_apply, h]
  constructor
  · intro hall
    have hsame : List.Forall₂ (fun item value => item = value) items found := hall.imp fun _ _ h => h.1.symm
    obtain rfl : items = found := List.forall₂_eq_eq_eq ▸ hsame
    exact ⟨rfl, fun item hitem => (List.forall₂_same.mp hall item hitem).2⟩
  · rintro ⟨rfl, hall⟩
    exact List.forall₂_same.mpr fun item hitem => ⟨rfl, hall item hitem⟩

/-! ## Manifests -/

/-- The keys as `RawDayManifest.value` lists them. -/
def manifestKeys : List String :=
  ["accepted_record_count", "chain_slice_end_root", "chain_slice_end_sequence", "chain_slice_start_root",
    "chain_slice_start_sequence", "completeness_status", "chain_objects", "config_hash", "dataset_id", "date",
    "day_definition_id", "error_count", "logical_close_time_s", "manifest_id", "manifest_version", "objects",
    "observed_through_capture_sequence", "observed_through_source_msc", "previous_manifest_sha256", "protocol_version",
    "publisher_epoch", "publisher_id", "raw_set_root", "revision", "settle_policy", "source_schema_id",
    "terminal_sync_status", "wal_schema_id"]

theorem manifestKeys_nodup : manifestKeys.Nodup := by decide

theorem manifestKeys_perm : manifestKeys.Perm rawDayManifestKeys := by
  refine List.Perm.append_left (manifestKeys.take 6) ?_
  exact List.Perm.swap _ _ _

theorem settled_manifestValue (m : RawDayManifest) : Settled m.value := by
  have hprotocol := m.protocolVersion.toNat_lt
  refine settled_jsonObject manifestKeys rfl manifestKeys_nodup ?_
  simp only [List.forall_mem_cons, forall_mem_nil_iff, and_true, settled_uint, settled_hash,
    settled_string, settled_int64, true_and]
  refine ⟨?_, ?_, ?_, settled_nat (by omega)⟩
  · exact settled_array (List.forall_mem_map.mpr fun object _ => settled_chainObjectValue object)
  · exact settled_array (List.forall_mem_map.mpr fun range _ => settled_rangeValue range)
  · cases m.previousManifestSHA256 with
    | none => exact fun _ => .null
    | some digest => exact settled_hash digest

theorem previousFromValue_sorted (previous : Option Digest) :
    previousFromValue (some (previous.elim .null jsonHash).sorted) = .ok previous := by
  cases previous with
  | none => rfl
  | some digest =>
    show (parseHash (some (jsonHash digest)) >>= fun digest => .ok (some digest)) = _
    rw [parseHash_jsonHash]
    rfl

variable {m : RawDayManifest}

theorem utf8Valid_of_encodes (h : Encodes m.value) :
    utf8Valid m.manifestID = true ∧ utf8Valid m.datasetID = true ∧ utf8Valid m.dayDefinitionID = true ∧
      utf8Valid m.date = true ∧ utf8Valid m.publisherID = true ∧ utf8Valid m.settlePolicy = true ∧
      utf8Valid m.completenessStatus = true ∧ utf8Valid m.terminalSyncStatus = true := by
  rw [RawDayManifest.value, encodes_jsonObject] at h
  simp only [List.forall_mem_cons, forall_mem_nil_iff, and_true, encodes_string] at h
  obtain ⟨-, -, -, -, -, hcompleteness, -, -, hdataset, hdate, hday, -, -, hid, -, -, -, -, -, -, -, hpublisher, -, -,
    hsettle, -, hsync, -⟩ := h
  exact ⟨hid, hdataset, hday, hdate, hpublisher, hsettle, hcompleteness, hsync⟩

variable {H : Hashes}

theorem ValidManifest.withDigest (h : ValidManifest H m) (digest : Digest) :
    ValidManifest H { m with manifestSHA256 := digest } := by
  refine ⟨h.version, h.id, h.revision, h.dataset, h.dayDefinition, h.publisher, h.settlePolicy, h.date, h.protocol,
    h.sourceSchema, h.walSchema, h.sync, h.completeness, h.ranges, h.ascending, h.count, h.root, ?_, h.previous⟩
  rcases h.chain with hempty | ⟨hne, hchain⟩
  · exact .inl hempty
  · refine .inr ⟨hne, hchain.ranges, hchain.start, hchain.order, fun object hobject => ?_, hchain.keys, hchain.adjacent,
      hchain.first, hchain.last, hchain.within⟩
    have hvalid := hchain.valid object hobject
    exact ⟨hvalid.key, hvalid.bytes, hvalid.start, hvalid.order, hvalid.begins, hvalid.ends⟩

/-- A manifest that has an encoding is read from it, and no other, if it is valid. -/
theorem rawDayManifestFromValue_eq_ok {found : RawDayManifest} (hversion : m.manifestVersion ≠ [])
    (hencodes : Encodes m.value) : rawDayManifestFromValue H m.value.sorted = .ok found ↔
      found = { m with manifestSHA256 := Digest.zero } ∧ ValidManifest H m := by
  obtain ⟨object, hobject, hholds⟩ := objectFields_sorted (show m.value = _ from rfl) manifestKeys rfl manifestKeys_nodup
    "raw-day manifest must be a JSON object"
  have hkeys := hholds.exactKeys manifestKeys_perm
  have hlookup := hholds.lookup
  simp only [List.forall_mem_cons, forall_mem_nil_iff, and_true] at hlookup
  obtain ⟨haccepted, hendRoot, hend, hstartRoot, hstart, hcompleteness, hchainObjects, hconfig, hdataset, hdate, hday,
    herrors, hclose, hid, hversionText, hobjects, hcapture, hsource, hprevious, hprotocol, hepoch, hpublisher, hroot,
    hrevision, hsettle, hschema, hsync, hwal⟩ := hlookup
  obtain ⟨hidText, hdatasetText, hdayText, hdateText, hpublisherText, hsettleText, hcompletenessText, hsyncText⟩ :=
    utf8Valid_of_encodes hencodes
  rw [if_neg hversion] at hversionText
  have hchainItems : ∀ err, arrayItems (object.lookup (utf8 "chain_objects")) err =
      .ok (sortedItems (m.chainObjects.map (·.value))) := fun err => by rw [hchainObjects]; rfl
  have hitems : ∀ err, arrayItems (object.lookup (utf8 "objects")) err = .ok (sortedItems (m.objects.map (·.value))) :=
    fun err => by rw [hobjects]; rfl
  simp only [rawDayManifestFromValue, hobject, hkeys, stringValue_eq_ok hversionText, stringValue_eq_ok hid,
    stringValue_eq_ok hdataset, stringValue_eq_ok hday, stringValue_eq_ok hdate, stringValue_eq_ok hpublisher,
    stringValue_eq_ok hsettle, stringValue_eq_ok hcompleteness, stringValue_eq_ok hsync, stringValue_eq_ok hschema,
    stringValue_eq_ok hwal, uint16Value_eq hprotocol, uint64Value_eq hrevision, uint64Value_eq hepoch,
    uint64Value_eq haccepted, uint64Value_eq herrors, uint64Value_eq hcapture, int64Value_eq hsource,
    uint64Value_eq hstart, uint64Value_eq hend, int64Value_eq hclose, hashValue_eq hconfig, hashValue_eq hstartRoot,
    hashValue_eq hendRoot, hashValue_eq hroot, hprevious, hchainItems, hitems, previousFromValue_sorted,
    mapM_sorted_eq_ok chainObjectFromValue_eq_ok, mapM_sorted_eq_ok objectRangeFromValue_eq_ok,
    validateOrderedRanges_eq_ok, rawSetRoot_eq_ok, validateRawDayManifest_eq_ok, bind_eq_ok, pure_eq_ok, mapError_eq_ok,
    reject_eq_ok, Except.ok.injEq, exists_eq_left', exists_eq_left, exists_unit, and_assoc, eq_comm (a := found)]
  constructor
  · rintro ⟨-, -, -, -, -, -, -, -, -, -, -, -, -, -, -, -, -, -, -, -, -, -, -, -, -, -, -, -, -, -, -, -, -, -, -, _, -, -,
      -, -, hvalid, rfl⟩
    exact ⟨rfl, hvalid.withDigest m.manifestSHA256⟩
  · rintro ⟨rfl, hvalid⟩
    have hsyncNonempty : m.terminalSyncStatus ≠ [] := by simpa [validSyncStatus] using hvalid.sync
    have hcompletenessNonempty : m.completenessStatus ≠ [] := by
      intro hnil
      have hstatus := hvalid.completeness
      rw [hnil] at hstatus
      revert hstatus
      decide
    have hdateOk : parseUTCDate m.date = .ok () := by
      rw [parseUTCDate, reject_eq_ok]
      simp [Option.isNone_iff_eq_none, ← Option.not_isSome_iff_eq_none, hvalid.date.2]
    have hrevisionOk : ¬ m.revision < 1 := by
      have hnonzero : m.revision.toNat ≠ 0 := fun hzero => hvalid.revision (UInt64.toNat_inj.mp hzero)
      rw [UInt64.lt_iff_toNat_lt]
      show ¬ m.revision.toNat < 1
      omega
    have hchainOk : ∀ object ∈ m.chainObjects, utf8Valid object.key = true ∧ object.key ≠ [] := by
      intro object hobject
      rcases hvalid.chain with ⟨hempty, -⟩ | ⟨-, hchain⟩
      · rw [hempty] at hobject
        cases hobject
      · exact key_readable (hchain.valid object hobject).key
    refine ⟨trivial, by rw [hvalid.version]; exact utf8Valid_utf8 _, hversion, not_not.mpr hvalid.version, hidText,
      hvalid.id, hdatasetText, hvalid.dataset, hdayText, hvalid.dayDefinition, hdateText, hvalid.date.1, hdateOk,
      hpublisherText, hvalid.publisher, hsettleText, hvalid.settlePolicy, hcompletenessText, hcompletenessNonempty,
      by simp [hvalid.completeness], hsyncText, hsyncNonempty, by simp [hvalid.sync], ?_, ?_,
      not_not.mpr hvalid.sourceSchema, ?_, ?_, not_not.mpr hvalid.walSchema, not_not.mpr hvalid.protocol, hrevisionOk,
      hchainOk, fun range hrange => key_readable (hvalid.ranges range hrange).key, hvalid.ranges, hvalid.ascending, _,
      hvalid.count, hvalid.ranges, rfl, not_not.mpr hvalid.root, hvalid.withDigest Digest.zero, rfl⟩
    · rw [hvalid.sourceSchema]
      decide
    · rw [hvalid.sourceSchema]
      decide
    · rw [hvalid.walSchema]
      exact utf8Valid_utf8 _
    · rw [hvalid.walSchema]
      exact utf8_ne_nil (by decide)

theorem manifestDigest_eq_ok {digest : Digest} :
    manifestDigest H m = .ok digest ↔ ∃ text, manifestCanonicalJSON m = .ok text ∧ digest = rawDayManifestDigest H text := by
  simp only [manifestDigest, bind_eq_ok, pure_eq_ok]
  exact exists_congr fun text => and_congr_right fun _ => eq_comm

theorem verifyRawDayManifest_eq_ok {found : RawDayManifest} {text : Bytes} (hversion : m.manifestVersion ≠ [])
    (htext : manifestCanonicalJSON m = .ok text) : verifyRawDayManifest H text = .ok found ↔
      found = { m with manifestSHA256 := rawDayManifestDigest H text } ∧ ValidManifest H m := by
  have hencodes : Encodes m.value := ⟨text, htext⟩
  have hdecode := decode_encode (settled_manifestValue m hencodes) htext
  have hdigest : manifestDigest H { m with manifestSHA256 := Digest.zero } = .ok (rawDayManifestDigest H text) :=
    manifestDigest_eq_ok.mpr ⟨text, htext, rfl⟩
  simp only [verifyRawDayManifest, hdecode, rawDayManifestFromValue_eq_ok hversion hencodes, bind_eq_ok, pure_eq_ok,
    Except.ok.injEq, exists_eq_left', and_assoc, exists_eq_left, hdigest]
  rw [and_comm, eq_comm]

theorem verifyRawDayManifest_canonical (hvalid : ValidManifest H m) {text : Bytes}
    (htext : manifestCanonicalJSON m = .ok text) :
    verifyRawDayManifest H text = .ok { m with manifestSHA256 := rawDayManifestDigest H text } := by
  refine (verifyRawDayManifest_eq_ok ?_ htext).mpr ⟨rfl, hvalid⟩
  rw [hvalid.version]
  decide

end TickPlatform.Archive
