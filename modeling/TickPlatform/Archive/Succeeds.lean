import TickPlatform.Archive.Build
import TickPlatform.Archive.Ranges
import TickPlatform.Replay.Chain

/-!
# When a manifest is built

The builder checks its own result. Here it is shown that the checks hold of what it puts together, so that it fails
only for what it is given.
-/

namespace TickPlatform.Archive

open Bytes Protocol Replay Wal

/-! ## Scopes -/

structure Normalized (scope : ScopeConfig) : Prop where
  version : scope.protocolVersion = Protocol.protocolVersion
  identities : ∀ field ∈ scope.identities, field.2 ≠ [] ∧ utf8Valid field.2 = true
  frameBytes : minFrameBytes ≤ scope.protocolLimits.maxFrameBytes ∧
    scope.protocolLimits.maxFrameBytes ≤ Protocol.maxFrameBytes
  records : scope.protocolLimits.maxRecords ≠ 0 ∧ scope.protocolLimits.maxRecords ≤ Protocol.maxRecords
  stringBytes : scope.protocolLimits.maxStringBytes ≠ 0 ∧ scope.protocolLimits.maxStringBytes ≤ Protocol.maxStringBytes

variable {scope : ScopeConfig}

theorem normalized_eq_ok {s : ScopeConfig} : s.normalized = .ok scope ↔ s.withDefaults = scope ∧ Normalized scope := by
  simp only [ScopeConfig.normalized, checkIdentity, bind_eq_ok, pure_eq_ok, reject_eq_ok, each_eq_ok, not_or, not_not,
    UInt32.not_lt, gt_iff_lt, UInt16.not_lt, Bool.not_eq_true', Bool.not_eq_false]
  constructor
  · rintro ⟨_, hversion, _, hidentities, _, hframe, _, hrecords, _, hstrings, rfl⟩
    refine ⟨rfl, hversion, fun field hfield => ?_, hframe, hrecords, hstrings⟩
    obtain ⟨_, hne, hvalid⟩ := hidentities field hfield
    exact ⟨hne, hvalid⟩
  · rintro ⟨rfl, h⟩
    exact ⟨(), h.version, (), fun field hfield => ⟨(), h.identities field hfield⟩, (), h.frameBytes, (), h.records, (),
      h.stringBytes, rfl⟩

theorem Normalized.normalized (h : Normalized scope) : scope.normalized = .ok scope := by
  refine normalized_eq_ok.mpr ⟨?_, h⟩
  have hversion : scope.protocolVersion ≠ 0 := by
    rw [h.version]
    decide
  have hframe : scope.protocolLimits.maxFrameBytes ≠ 0 := by
    intro hzero
    have hlow := h.frameBytes.1
    rw [hzero] at hlow
    revert hlow
    decide
  simp [ScopeConfig.withDefaults, hversion, hframe, h.records.1, h.stringBytes.1]

theorem encodes_int (value : Int) : Encodes (.int value) := by
  unfold Encodes canonicalJSON
  exact ⟨_, rfl⟩

/-! ## Texts -/

theorem isASCII_of_number {b : Bytes} {n : Nat} (h : number b = some n) : isASCII b = true := by
  have hdigits : ∀ (b : Bytes) (acc n : Nat), b.foldlM (fun acc x => (digit x).map fun d => acc * 10 + d) acc = some n →
      ∀ x ∈ b, x < 0x80 := by
    intro b
    induction b with
    | nil => simp
    | cons x b ih =>
      intro acc n hfold
      rw [List.foldlM_cons] at hfold
      obtain ⟨mid, hfirst, hrest⟩ := Option.bind_eq_some_iff.mp hfold
      obtain ⟨d, hd, -⟩ := Option.map_eq_some_iff.mp hfirst
      refine List.forall_mem_cons.mpr ⟨?_, ih mid n hrest⟩
      unfold digit at hd
      split at hd
      · rename_i hrange
        exact UInt8.lt_of_le_of_lt hrange.2 (by decide)
      · cases hd
  rw [isASCII, List.all_eq_true]
  intro x hx
  simpa using hdigits b 0 n h x hx

theorem isASCII_of_parseDate {date : Bytes} (h : (parseDate date).isSome = true) : isASCII date = true := by
  obtain ⟨parsed, hparsed⟩ := Option.isSome_iff_exists.mp h
  simp only [parseDate, Option.bind_eq_bind, Option.bind_eq_some_iff, Option.guard_eq_some'] at hparsed
  obtain ⟨_, ⟨hlength, hfirst, hsecond⟩, year, hyear, month, hmonth, day, hday, -⟩ := hparsed
  have hhyphen : isASCII (ascii "-") = true := by decide
  have hsplit : date = slice date 0 4 ++ slice date 4 5 ++ slice date 5 7 ++ slice date 7 8 ++ slice date 8 10 := by
    rw [← slice_split date (by omega) (by omega), ← slice_split date (by omega) (by omega),
      ← slice_split date (by omega) (by omega), ← slice_split date (by omega) (by omega), slice, List.drop_zero,
      Nat.sub_zero, ← hlength, List.take_length]
  rw [hsplit, hfirst, hsecond]
  simp only [isASCII_append, isASCII_of_number hyear, isASCII_of_number hmonth, isASCII_of_number hday, hhyphen,
    Bool.and_self]

variable {H : Hashes}

theorem isASCII_rawManifestID (hscope : Normalized scope) {date : Bytes}
    (hdate : isASCII date = true) (revision : UInt64) : isASCII (rawManifestID H scope date revision) = true := by
  have hkey : isASCII (((scopePathKey H scope).toOption.getD []).take 16) = true := by
    have hpath : scopePathKey H scope = .ok (encodeHashHex (H.sha256 (sourceSymbolScopeDomain ++
        writeIdentity scope.providerID ++ writeIdentity scope.exactSourceSymbol))) := by
      rw [scopePathKey, hscope.normalized]
      rfl
    rw [hpath]
    have hhex := isASCII_encodeHashHex (H.sha256 (sourceSymbolScopeDomain ++ writeIdentity scope.providerID ++
      writeIdentity scope.exactSourceSymbol))
    simp only [isASCII, List.all_eq_true] at hhex ⊢
    exact fun x hx => hhex x (List.mem_of_mem_take hx)
  have hdigits : isASCII (utf8 (toString revision.toNat)) = true := isASCII_formatInt revision.toNat
  have htexts : isASCII (utf8 "raw-") = true ∧ isASCII (utf8 "-") = true ∧ isASCII (utf8 "-r") = true := by
    decide
  simp only [rawManifestID, isASCII_append, htexts, hkey, hdate, hdigits, Bool.and_self]

theorem rawManifestID_ne_nil (H : Hashes) (scope : ScopeConfig) (date : Bytes) (revision : UInt64) :
    rawManifestID H scope date revision ≠ [] := by
  have hfront : utf8 "raw-" ≠ [] := utf8_ne_nil (by decide)
  simp [rawManifestID, hfront]

/-! ## The manifest -/

theorem encodes_of_valid {m : RawDayManifest} (h : ValidManifest H m) (hid : isASCII m.manifestID = true)
    (hdataset : utf8Valid m.datasetID = true) (hday : utf8Valid m.dayDefinitionID = true)
    (hpublisher : utf8Valid m.publisherID = true) (hsettle : utf8Valid m.settlePolicy = true)
    (hsync : utf8Valid m.terminalSyncStatus = true) : Encodes m.value := by
  have hcompleteness : utf8Valid m.completenessStatus = true := by
    obtain ⟨status, -, heq⟩ := List.any_eq_true.mp h.completeness
    rw [← of_decide_eq_true heq]
    exact utf8Valid_utf8 status
  rw [RawDayManifest.value, encodes_jsonObject]
  simp only [List.forall_mem_cons, forall_mem_nil_iff, and_true, encodes_string, encodes_uint,
    encodes_hash, encodes_int, true_and]
  refine ⟨hcompleteness, ?_, hdataset, utf8Valid_of_isASCII (isASCII_of_parseDate h.date.2), hday,
    utf8Valid_of_isASCII hid, ?_, ?_, ?_, hpublisher, hsettle, ?_, hsync, ?_⟩
  · refine encodes_array (List.forall_mem_map.mpr fun object hobject => ?_)
    have hkey : object.key = rawWALObjectKey object.sha256 := by
      rcases h.chain with ⟨hempty, -⟩ | ⟨-, hchain⟩
      · rw [hempty] at hobject
        cases hobject
      · exact (hchain.valid object hobject).key
    rw [RawChainObject.value, encodes_jsonObject]
    simp only [List.forall_mem_cons, forall_mem_nil_iff, and_true, encodes_string, encodes_uint,
      encodes_hash, true_and, hkey]
    exact utf8Valid_of_isASCII (isASCII_rawWALObjectKey _)
  · rw [h.version]
    exact utf8Valid_utf8 _
  · refine encodes_array (List.forall_mem_map.mpr fun range hrange => ?_)
    rw [RawObjectRange.value, encodes_jsonObject]
    simp only [List.forall_mem_cons, forall_mem_nil_iff, and_true, encodes_string, encodes_uint,
      encodes_hash, encodes_int, true_and, (h.ranges range hrange).key]
    exact utf8Valid_of_isASCII (isASCII_rawWALObjectKey _)
  · cases m.previousManifestSHA256 with
    | none => exact encodes_null
    | some digest => exact encodes_hash digest
  · rw [h.sourceSchema]
    decide
  · rw [h.walSchema]
    exact utf8Valid_utf8 _

/-- The selection fits the lists of a manifest: it can be counted, and no two of the objects have the same hash. -/
structure Listable (objects : List RawObject) (selection : DaySelection) : Prop where
  count : selection.objects.length < 2 ^ 32
  distinct : (objects.map (·.sha256)).Nodup

theorem rawWALObjectKey_injective {a b : Digest} (h : rawWALObjectKey a = rawWALObjectKey b) : a = b := by
  rw [rawWALObjectKey, rawWALObjectKey, List.append_cancel_right_eq, List.append_cancel_left_eq] at h
  exact digest_eq_of_bytes (hexBytes_injective h)

theorem keys_nodup {objects : List RawObject} (hnamed : ∀ object ∈ objects, Named object)
    (hdistinct : (objects.map (·.sha256)).Nodup) : (objects.map (·.key)).Nodup := by
  rw [List.Nodup, List.pairwise_map] at hdistinct ⊢
  refine hdistinct.imp_of_mem fun {a b} ha hb hne hkey => hne ?_
  rw [(hnamed a ha).key, (hnamed b hb).key] at hkey
  exact rawWALObjectKey_injective hkey

/-- What is put together is valid. -/
theorem validManifest_of_selection {input : RawDayManifestInput} {parts : BuildParts}
    (hscope : Normalized parts.scope) (hdate : (parseDate input.date).isSome = true)
    (hsync : validSyncStatus input.terminalSyncStatus = true)
    (hcompleteness : validCompletenessStatus input.completenessStatus = true) (hrevision : parts.revision ≠ 0)
    (hprevious : parts.revision = 1 ↔ parts.previous = none) (hcontiguous : Contiguous H parts.objects)
    (hnamed : ∀ object ∈ parts.objects, Named object)
    (hselection : deriveDaySelection H parts.objects input.date 0 0 parts.scope.protocolLimits.maxRecords =
      .ok parts.selection)
    (hlistable : Listable parts.objects parts.selection) : ValidManifest H (parts.manifest H input) := by
  obtain ⟨hfits, hselected⟩ := deriveDaySelection_eq_ok.mp hselection
  have hsummary : Summarises input.date (hitsIn H input.date 0 0 parts.objects) parts.selection := by
    rw [hselected]
    exact summarises_foldl fun hit hhit => hcontiguous.number (mem_hits hhit).1
  have hlimit : ∀ hit ∈ hitsIn H input.date 0 0 parts.objects, hit.batch.records.length < 4294967296 := by
    intro hit hhit
    obtain ⟨hplace, hdecode, -⟩ := mem_hits hhit
    obtain ⟨batch, hbatch, hcount⟩ := hfits _ hplace (by simp [inSlice])
    rw [hdecode] at hbatch
    cases hbatch
    have hmax := parts.scope.protocolLimits.maxRecords.toNat_lt
    omega
  have hidentities := hscope.identities
  simp only [ScopeConfig.identities, List.forall_mem_cons, forall_mem_nil_iff, and_true] at hidentities
  obtain ⟨hdataset, -, -, -, -, -, -, hday, hsettle, hpublisher⟩ := hidentities
  have hdateText : input.date ≠ [] := by
    intro hnil
    rw [hnil] at hdate
    revert hdate
    decide
  have hobjects : parts.selection.objects = (hitsIn H input.date 0 0 parts.objects).flatMap (hitRanges input.date) :=
    hsummary.objects
  refine ⟨rfl, rawManifestID_ne_nil _ _ _ _, hrevision, hdataset.1, hday.1, hpublisher.1, hsettle.1, ⟨hdateText, hdate⟩, rfl,
    rfl, rfl, hsync, hcompleteness, ?_, ?_, hlistable.count, rfl, ?_, hprevious⟩
  · show ∀ range ∈ parts.selection.objects, RangeValid range
    rw [hobjects]
    exact hitRanges_valid hcontiguous hnamed hlimit
  · show parts.selection.objects.IsChain Before
    rw [hobjects]
    exact (hitRanges_pairwise hcontiguous hlimit).isChain
  · cases hhits : hitsIn H input.date 0 0 parts.objects with
    | nil =>
      rw [hhits] at hsummary
      refine .inl ⟨?_, hsummary.objects, ?_⟩
      · exact if_pos (.inl hsummary.start)
      · simp only [zeroSlice, decide_eq_true_eq]
        exact ⟨hsummary.start, hsummary.finish, hsummary.startRoot, hsummary.finishRoot⟩
    | cons first rest =>
      obtain ⟨last, hlast⟩ : ∃ last, (hitsIn H input.date 0 0 parts.objects).getLast? = some last :=
        ⟨_, List.getLast?_eq_some_getLast (by simp [hhits])⟩
      have hfirst : (hitsIn H input.date 0 0 parts.objects).head? = some first := by simp [hhits]
      have hstart : parts.selection.chainSliceStartSequence = first.entry.sequence := by simp [hsummary.start, hfirst]
      have hend : parts.selection.chainSliceEndSequence = last.entry.sequence := by simp [hsummary.finish, hlast]
      have hfirstPlace := (mem_hits (List.mem_of_mem_head? hfirst)).1
      have hlastMem := List.mem_of_getLast? hlast
      have hle : first.entry.sequence ≤ last.entry.sequence := by
        rw [UInt64.le_iff_toNat_le]
        exact Lists.head_le (hits_pairwise hcontiguous input.date) hfirst last hlastMem
      have hchain : (parts.manifest H input).chainObjects = (parts.objects.filter
          (meets parts.selection.chainSliceStartSequence parts.selection.chainSliceEndSequence)).map chainObject := by
        refine chainObjectsForSlice_eq ?_ ?_
        · exact hstart ▸ hcontiguous.number hfirstPlace
        · exact hend ▸ hcontiguous.number (mem_hits hlastMem).1
      refine .inr ⟨?_, validChain_of_hits hcontiguous hnamed (keys_nodup hnamed hlistable.distinct) hfirst hlast hobjects
        hstart hend hchain⟩
      have hhead := head?_slice hcontiguous hfirstPlace hle
      rw [hchain, hstart, hend, ne_eq, List.map_eq_nil_iff]
      intro hnone
      rw [hnone] at hhead
      cases hhead

/-- The builder succeeds where its input can be read, selected and listed and the previous manifest allows it. -/
theorem build_succeeds {disk : Disk} {input : RawDayManifestInput} {revision : UInt64}
    {objects : List RawObject} {configHash : Digest} {selection : DaySelection} {previous : Option Digest}
    (hscope : input.scope.normalized = .ok scope) (hdate : (parseDate input.date).isSome = true)
    (hsync : validSyncStatus input.terminalSyncStatus = true) (hsyncText : utf8Valid input.terminalSyncStatus = true)
    (hcompleteness : validCompletenessStatus input.completenessStatus = true)
    (hrevision : nextRevision input.revision input.previous = .ok revision) (hnonzero : revision ≠ 0)
    (hobjects : orderedVerifiedObjects H disk input.rawObjects = .ok objects)
    (hconfig : scope.configHash H = .ok configHash)
    (hselection : deriveDaySelection H objects input.date 0 0 scope.protocolLimits.maxRecords = .ok selection)
    (hlistable : Listable objects selection)
    (hprevious : previousDigest H (rootedDraft H input scope revision objects configHash selection) input.previous =
      .ok previous)
    (hgenesis : revision = 1 ↔ previous = none) :
    ∃ text, Builds H disk input ⟨scope, revision, objects, configHash, selection, previous, text⟩ := by
  have hnormalized := (normalized_eq_ok.mp hscope).2
  obtain ⟨hcontiguous, hsources⟩ := contiguous_of_ordered hobjects
  have hnamed : ∀ object ∈ objects, Named object := by
    intro object hobject
    obtain ⟨source, -, hfile⟩ := hsources object hobject
    rw [hfile.object]
    exact ⟨by rw [objectOf, hfile.key, hfile.sha256], rfl⟩
  have hvalid : ∀ text, ValidManifest H
      ((⟨scope, revision, objects, configHash, selection, previous, text⟩ : BuildParts).manifest H input) := fun text =>
    validManifest_of_selection hnormalized hdate hsync hcompleteness hnonzero hgenesis hcontiguous hnamed hselection hlistable
  have hidentities := hnormalized.identities
  simp only [ScopeConfig.identities, List.forall_mem_cons, forall_mem_nil_iff, and_true] at hidentities
  obtain ⟨hdataset, -, -, -, -, -, -, hday, hsettle, hpublisher⟩ := hidentities
  obtain ⟨text, htext⟩ := encodes_of_valid (hvalid []) (isASCII_rawManifestID hnormalized (isASCII_of_parseDate hdate) revision)
    hdataset.2 hday.2 hpublisher.2 hsettle.2 hsyncText
  exact ⟨text, hscope, hrevision, hobjects, hconfig, hselection, hprevious, hvalid text, htext⟩

end TickPlatform.Archive
