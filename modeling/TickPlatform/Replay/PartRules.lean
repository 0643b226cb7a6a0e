import TickPlatform.Archive.Succeeds
import TickPlatform.Replay.Parts

/-!
# Rules of part manifests

What the keys of a part look like, when a part manifest is valid, and that a valid one has a canonical form which no
part with another sequence shares.
-/

namespace TickPlatform.Replay

open Bytes Protocol Archive

variable {H : Hashes}

/-! ## Keys -/

theorem decimalText_eq (n : Nat) : decimalText n = digitBytes n := digitBytes_eq n

theorem isASCII_decimalText (n : Nat) : isASCII (decimalText n) = true := by
  rw [decimalText_eq, ← formatInt_ofNat]
  exact isASCII_formatInt _

variable {n : Nat}

theorem length_decimalText_le (h : n < 18446744073709551616) : (decimalText n).length ≤ 20 := by
  rw [decimalText_eq, digitBytes, List.length_map, Nat.length_toDigits_le_iff (by omega) (by omega)]
  omega

theorem length_of_parseDate {date : Bytes} (h : parseDate date ≠ none) : date.length = 10 := by
  obtain ⟨_, hparsed⟩ := Option.ne_none_iff_exists'.mp h
  simp only [parseDate, Option.bind_eq_bind, Option.bind_eq_some_iff, Option.guard_eq_some'] at hparsed
  exact hparsed.choose_spec.1.1

/-- A path of bounded length without bytes outside ASCII. -/
structure Path (bound : Nat) (key : Bytes) : Prop where
  ascii : isASCII key = true
  length : key.length ≤ bound

variable {m : Nat}

theorem Path.append {a b : Bytes} (ha : Path m a) (hb : Path n b) : Path (m + n) (a ++ b) where
  ascii := by rw [isASCII_append, ha.ascii, hb.ascii, Bool.and_self]
  length := by
    rw [List.length_append]
    exact Nat.add_le_add ha.length hb.length

variable {key : Bytes}

theorem Path.mono (h : Path m key) (hmn : m ≤ n) : Path n key := ⟨h.ascii, h.length.trans hmn⟩

theorem path_hash (digest : Digest) : Path 64 (encodeHashHex digest) :=
  ⟨isASCII_encodeHashHex digest, (length_encodeHashHex digest).le⟩

theorem path_decimal (h : n < 18446744073709551616) : Path 20 (decimalText n) :=
  ⟨isASCII_decimalText _, length_decimalText_le h⟩

variable {scope : ReplayScope} {u : Unit}

theorem validDate_of_validate (h : scope.validate = .ok u) : Path 10 scope.date := by
  simp only [ReplayScope.validate, bind_eq_ok, reject_eq_ok] at h
  obtain ⟨_, -, _, hdate, -⟩ := h
  exact ⟨isASCII_of_parseDate (Option.isSome_iff_ne_none.mpr hdate), (length_of_parseDate hdate).le⟩

theorem replayDerivativeBaseKey_path {base : Bytes}
    (h : replayDerivativeBaseKey H scope = .ok base) : Path 512 base := by
  simp only [replayDerivativeBaseKey, bind_eq_ok, pure_eq_ok] at h
  obtain ⟨_, hscope, rfl⟩ := h
  have hstream : Path 19 (ascii "derivatives/stream=") := ⟨by decide, by decide⟩
  have hformat : Path 24 (ascii "/format=" ++ replayFormatID) := ⟨by decide, by decide⟩
  have hconversion : Path 12 (ascii "/conversion=") := ⟨by decide, by decide⟩
  have hday : Path 16 (ascii "/day-definition=") := ⟨by decide, by decide⟩
  have hdate : Path 6 (ascii "/date=") := ⟨by decide, by decide⟩
  have hpath := (hstream.append (path_hash (H.sha256 scope.replayContractID))).append (hformat.append (hconversion.append
    ((path_hash (H.sha256 scope.conversionID)).append (hday.append ((path_hash (H.sha256 scope.dayDefinitionID)).append
      (hdate.append (validDate_of_validate hscope)))))))
  simp only [List.append_assoc, identityPathKey] at hpath ⊢
  exact hpath.mono (by omega)

variable {first last : UInt64}

theorem replayPartObjectKey_eq_ok {digest : Digest} : replayPartObjectKey H scope first last digest = .ok key ↔
      ∃ base, replayDerivativeBaseKey H scope = .ok base ∧ digest ≠ Digest.zero ∧ first ≤ last ∧
        key = base ++ (ascii "/parquet/" ++ (decimalText first.toNat ++ (ascii "-" ++ (decimalText last.toNat ++
          (ascii "-" ++ (encodeHashHex digest ++ ascii ".parquet")))))) := by
  simp only [replayPartObjectKey, bind_eq_ok, reject_eq_ok, pure_eq_ok, not_or, UInt64.not_lt, List.append_assoc,
    exists_unit, and_assoc, eq_comm (a := key)]

theorem replayPartObjectKey_path {digest : Digest}
    (h : replayPartObjectKey H scope first last digest = .ok key) : Path maxPathBytes key := by
  obtain ⟨base, hbase, -, -, rfl⟩ := replayPartObjectKey_eq_ok.mp h
  have hparquet : Path 9 (ascii "/parquet/") := ⟨by decide, by decide⟩
  have hhyphen : Path 1 (ascii "-") := ⟨by decide, by decide⟩
  have hend : Path 8 (ascii ".parquet") := ⟨by decide, by decide⟩
  have hpath := (replayDerivativeBaseKey_path hbase).append (hparquet.append ((path_decimal first.toNat_lt).append (hhyphen.append
    ((path_decimal last.toNat_lt).append (hhyphen.append ((path_hash digest).append hend))))))
  exact hpath.mono (by decide)

theorem decimalText_inj {x y : Bytes} (h : decimalText m ++ (ascii "-" ++ x) = decimalText n ++ (ascii "-" ++ y)) :
    m = n := by
  have htake : ∀ (n : Nat) (x : Bytes), (decimalText n ++ (ascii "-" ++ x)).takeWhile isDigit = digitBytes n := by
    intro n x
    rw [decimalText_eq, List.takeWhile_append_of_pos fun b hb => mem_digitBytes hb]
    have hhyphen : (ascii "-" ++ x).takeWhile isDigit = [] := rfl
    rw [hhyphen, List.append_nil]
  have hdigits : digitBytes m = digitBytes n := by rw [← htake m x, h, htake]
  rw [← decimal_digitBytes m, hdigits, decimal_digitBytes]

theorem replayPartObjectKey_first {first' last' : UInt64} {digest digest' : Digest} (h : replayPartObjectKey H scope first last digest = .ok key)
    (h' : replayPartObjectKey H scope first' last' digest' = .ok key) : first = first' := by
  obtain ⟨base, hbase, -, -, rfl⟩ := replayPartObjectKey_eq_ok.mp h
  obtain ⟨base', hbase', -, -, hkey⟩ := replayPartObjectKey_eq_ok.mp h'
  rw [hbase, Except.ok.injEq] at hbase'
  rw [hbase', List.append_cancel_left_eq, List.append_cancel_left_eq] at hkey
  exact UInt64.toNat_inj.mp (decimalText_inj hkey)

theorem partManifestKeyFromDigest_path {part : PartManifest} {digest : Digest}
    (h : partManifestKeyFromDigest H part digest = .ok key) : Path maxPathBytes key := by
  simp only [partManifestKeyFromDigest, bind_eq_ok, pure_eq_ok] at h
  obtain ⟨base, hbase, rfl⟩ := h
  have hmanifests : Path 16 (ascii "/manifests/part-") := ⟨by decide, by decide⟩
  have hhyphen : Path 1 (ascii "-") := ⟨by decide, by decide⟩
  have hend : Path 5 (ascii ".json") := ⟨by decide, by decide⟩
  have hsequence : Path 28 (padded 8 part.partSequence.toNat) := by
    have hbound := part.partSequence.toNat_lt
    have hzeros : Path 8 (List.replicate (8 - (decimalText part.partSequence.toNat).length) 48) :=
      ⟨by simp [isASCII], by simp⟩
    exact hzeros.append (path_decimal (by omega))
  have hpath := (replayDerivativeBaseKey_path hbase).append (hmanifests.append (hsequence.append (hhyphen.append
    ((path_hash digest).append hend))))
  simp only [List.append_assoc] at hpath ⊢
  exact hpath.mono (by decide)

/-! ## Valid manifests -/

structure ValidPart (H : Hashes) (p : PartManifest) : Prop where
  version : p.manifestVersion = partManifestVersion
  bytes : p.partBytes ≠ 0
  rows : p.rowCount ≠ 0
  firstChain : p.firstRowChainHash ≠ Digest.zero
  lastChain : p.lastRowChainHash ≠ Digest.zero
  scope : p.scope.validate = .ok ()
  format : p.formatID = replayFormatID
  converterBuild : p.converterBuildID ≠ [] ∧ isProtocolString p.converterBuildID = true
  targetPlatform : p.targetPlatformContract ≠ [] ∧ isProtocolString p.targetPlatformContract = true
  dependencyLock : p.dependencyLockHash ≠ Digest.zero
  writerConfiguration : p.writerConfigurationHash ≠ Digest.zero
  canonical : p.canonicalRowBytes ≠ 0
  range : p.lastStreamSequence - p.firstStreamSequence = p.rowCount - 1
  key : replayPartObjectKey H p.scope p.firstStreamSequence p.lastStreamSequence p.partSHA256 = .ok p.partKey
  predecessor : p.checkPredecessor = .ok ()

variable {p : PartManifest}

theorem validate_eq_ok : p.validate H = .ok u ↔ ValidPart H p := by
  simp only [PartManifest.validate, bind_eq_ok, reject_eq_ok, mapError_eq_ok, each_eq_ok, checkProducerField,
    List.forall_mem_cons, forall_mem_nil_iff, and_true, not_or, not_not, Bool.not_eq_true',
    Bool.not_eq_false, UInt64.not_lt, not_lt]
  constructor
  · rintro ⟨_, ⟨hversion, -, -, hbytes, hrows, hfirst, hlast⟩, _, -, _, hscope, _, ⟨-, hbuild, hplatform⟩, _,
      ⟨hformat, hlock, hwriter⟩, _, ⟨-, hcanonical, hrange⟩, key, hkey, _, rfl, hpredecessor⟩
    exact ⟨hversion, hbytes, hrows, hfirst, hlast, hscope, hformat, hbuild, hplatform, hlock, hwriter, hcanonical, hrange,
      hkey, hpredecessor⟩
  · intro h
    have hpath := replayPartObjectKey_path h.key
    obtain ⟨base, hbase, hdigest, horder, hkey⟩ := replayPartObjectKey_eq_ok.mp h.key
    have hne : p.partKey ≠ [] := by
      rw [hkey]
      simp [ascii]
    have hformat : p.formatID ≠ [] ∧ isProtocolString p.formatID = true := by
      rw [h.format]
      decide
    exact ⟨(), ⟨h.version, hne, hdigest, h.bytes, h.rows, h.firstChain, h.lastChain⟩, (),
      ⟨utf8Valid_of_isASCII hpath.ascii, hpath.length⟩, (), h.scope, (), ⟨hformat, h.converterBuild, h.targetPlatform⟩, (),
      ⟨h.format, h.dependencyLock, h.writerConfiguration⟩, (), ⟨horder, h.canonical, h.range⟩, _, h.key, (), rfl,
      h.predecessor⟩

theorem ValidPart.withDigest {manifest : PartManifest} (h : ValidPart H manifest) (digest : Digest) :
    ValidPart H { manifest with manifestSHA256 := digest } :=
  ⟨h.version, h.bytes, h.rows, h.firstChain, h.lastChain, h.scope, h.format, h.converterBuild, h.targetPlatform,
    h.dependencyLock, h.writerConfiguration, h.canonical, h.range, h.key, h.predecessor⟩

/-! ## Canonical form -/

def partKeys : List String :=
  ["canonical_row_bytes", "conversion_id", "converter_build_id", "dataset_id", "date", "day_definition_id",
    "dependency_lock_hash", "first_row_chain_hash", "first_stream_sequence", "last_row_chain_hash", "last_stream_sequence",
    "manifest_version", "format_id", "part_bytes", "part_key", "part_sequence", "part_sha256", "previous_row_chain_hash",
    "raw_day_manifest_key", "raw_day_manifest_sha256", "replay_contract_id", "row_count", "target_platform_contract",
    "writer_configuration_hash", "previous_manifest_sha256"]

theorem utf8Valid_of_scope (h : scope.validate = .ok u) : ∀ field ∈ scope.fields, utf8Valid field.2 = true := by
  simp only [ReplayScope.validate, bind_eq_ok, each_eq_ok, checkScopeField, reject_eq_ok] at h
  obtain ⟨_, hfields, -⟩ := h
  intro field hfield
  obtain ⟨_, -, hstring⟩ := hfields field hfield
  rw [Bool.not_eq_true', Bool.not_eq_false, isProtocolString, Bool.and_eq_true] at hstring
  exact hstring.1

theorem ValidPart.encodes (h : ValidPart H p) : Encodes p.canonicalValue := by
  have hscope := utf8Valid_of_scope h.scope
  simp only [ReplayScope.fields, List.forall_mem_cons, forall_mem_nil_iff, and_true] at hscope
  obtain ⟨hdataset, hday, hdate, hcontract, hconversion, hraw⟩ := hscope
  have hbuild := h.converterBuild.2
  have hplatform := h.targetPlatform.2
  rw [isProtocolString, Bool.and_eq_true] at hbuild hplatform
  rw [PartManifest.canonicalValue, encodes_jsonObject]
  simp only [List.forall_mem_cons, forall_mem_nil_iff, and_true, encodes_string, encodes_uint,
    encodes_hash, encodes_int, true_and]
  refine ⟨hconversion, hbuild.1, hdataset, hdate, hday, ?_, ?_, utf8Valid_of_isASCII (replayPartObjectKey_path h.key).ascii,
    hraw, hcontract, hplatform.1, ?_⟩
  · rw [h.version]
    decide
  · rw [h.format]
    decide
  · cases p.previousManifestSHA256 with
    | none => exact encodes_null
    | some digest => exact encodes_hash digest

theorem settled_canonicalValue (p : PartManifest) : Settled p.canonicalValue := by
  have hsequence := p.partSequence.toNat_lt
  refine settled_jsonObject partKeys rfl (by decide) ?_
  simp only [List.forall_mem_cons, forall_mem_nil_iff, and_true, settled_uint, settled_hash,
    settled_string, true_and]
  refine ⟨settled_nat (by omega), ?_⟩
  cases p.previousManifestSHA256 with
  | none => exact fun _ => .null
  | some digest => exact settled_hash digest

theorem partSequence_of_canonicalJSON {q : PartManifest} {text : Bytes} (hp : canonicalJSON p.canonicalValue = .ok text)
    (hq : canonicalJSON q.canonicalValue = .ok text) : p.partSequence = q.partSequence := by
  have hdecode := decode_encode (settled_canonicalValue p ⟨text, hp⟩) hp
  rw [decode_encode (settled_canonicalValue q ⟨text, hq⟩) hq, Except.ok.injEq] at hdecode
  have hread : ∀ p : PartManifest, ∃ object, objectFields p.canonicalValue.sorted "" = .ok object ∧
      object.lookup (utf8 "part_sequence") = some (.int p.partSequence.toNat) := by
    intro p
    obtain ⟨object, hobject, hholds⟩ := objectFields_sorted (show p.canonicalValue = _ from rfl) partKeys rfl
      (by decide) ""
    exact ⟨object, hobject, hholds.lookup ("part_sequence", .int p.partSequence.toNat) (by simp)⟩
  obtain ⟨object, hobject, hlookup⟩ := hread p
  obtain ⟨object', hobject', hlookup'⟩ := hread q
  rw [hdecode, hobject, Except.ok.injEq] at hobject'
  rw [← hobject', hlookup] at hlookup'
  simp only [Option.some.injEq, Json.int.injEq, Int.natCast_inj] at hlookup'
  exact UInt32.toNat_inj.mp hlookup'

theorem ValidPart.digest (h : ValidPart H p) : ∃ text, canonicalJSON p.canonicalValue = .ok text ∧
      partManifestDigest H p = .ok (H.sha256 (partManifestDomain ++ text)) := by
  obtain ⟨text, htext⟩ := h.encodes
  refine ⟨text, htext, ?_⟩
  simp only [partManifestDigest, partManifestCanonicalJSON, bind_eq_ok, pure_eq_ok]
  exact ⟨text, ⟨(), validate_eq_ok.mpr h, htext⟩, rfl⟩

end TickPlatform.Replay
