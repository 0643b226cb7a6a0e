import TickPlatform.Parquet.Summaries
import TickPlatform.Remote.PartGraph

/-!
# The manifests of the parts

The parts of a conversion get their manifests one after the other, and the manifests are accepted as a graph of parts
whose row chain ends where that of the conversion does. The one thing that a conversion does not check and a manifest
does is that its texts are Protocol V1 strings.
-/

open TickPlatform.Bytes TickPlatform.Protocol TickPlatform.Replay TickPlatform.Archive TickPlatform.Remote TickPlatform.Cuts
  TickPlatform.Crash

namespace TickPlatform.Parquet

variable {H : Hashes} {spec : ConversionSpec} {scope : ReplayScope} {conversion : ConversionTuple}

/-! ## Conversions -/

/-- A conversion tuple of the scope, as a valid spec gives it. -/
structure TupleOf (H : Hashes) (spec : ConversionSpec) (scope : ReplayScope) (conversion : ConversionTuple) : Prop where
  contract : conversion.replayContractID = scope.replayContractID
  conversionID : conversion.conversionID = scope.conversionID
  format : conversion.formatID = replayFormatID
  converterBuild : conversion.converterBuildID = spec.converterBuildID ∧ conversion.converterBuildID ≠ []
  targetPlatform : conversion.targetPlatformContract = spec.targetPlatformContract ∧ conversion.targetPlatformContract ≠ []
  dependencyLock : ∃ input, conversion.dependencyLockHash = H.sha256 input
  writerConfiguration : ∃ input, conversion.writerConfigurationHash = H.sha256 input

theorem tupleOf_spec {g : Generator} (hstart : newGenerator H spec scope = .ok g)
    (hconversion : conversionTupleFromSpec H spec = .ok conversion) : TupleOf H spec scope conversion := by
  obtain ⟨hspec, -, hcontract, hid, -⟩ := newGenerator_eq_ok hstart
  simp only [conversionTupleFromSpec, bind_eq_ok, pure_eq_ok] at hconversion
  obtain ⟨_, -, rfl⟩ := hconversion
  simp only [ConversionSpec.validate, bind_eq_ok, reject_eq_ok, not_not, deriveDependencyLockHash,
    ConversionSpec.deriveWriterConfigurationHash, pure_eq_ok] at hspec
  obtain ⟨_, htuple, _, ⟨lock, -, rfl⟩, _, hlock, _, ⟨_, -, writer, -, rfl⟩, hwriter⟩ := hspec
  simp only [ConversionSpec.validateTuple, bind_eq_ok, each_eq_ok, checkRequired, reject_eq_ok, List.forall_mem_cons,
    not_not] at htuple
  obtain ⟨_, ⟨-, -, -, hbuild, hplatform, -⟩, _, hformat, -⟩ := htuple
  exact ⟨hcontract.symm, hid.symm, hformat, ⟨rfl, hbuild⟩, ⟨rfl, hplatform⟩, ⟨_, hlock⟩, ⟨_, hwriter⟩⟩

/-! ## One manifest -/

/-- What stands before a part: nothing before the first one, and else a manifest that ends where the part starts. -/
def Before (H : Hashes) (scope : ReplayScope) (conversion : ConversionTuple) (index start : Nat) (root : Digest) :
    Option PartManifest → Prop
  | none => index = 0 ∧ start = 0 ∧ root = Digest.zero
  | some prior => ValidPart H prior ∧ partManifestDigest H prior = .ok prior.manifestSHA256 ∧
      prior.partSequence.toNat + 1 = index ∧ replayPartMatchesScope prior scope conversion = true ∧
      prior.lastRowChainHash = root ∧ prior.lastStreamSequence.toNat + 1 = start

section
variable {index start : Nat} {previous root : Digest} {group : List ReplayRow} {artifact : PartArtifact}
  {before : Option PartManifest}

theorem Summarizes.range (h : Summarizes H scope index start previous root group artifact) :
    artifact.rowCount ≠ 0 ∧ artifact.firstStreamSequence ≤ artifact.lastStreamSequence ∧
      artifact.lastStreamSequence - artifact.firstStreamSequence = artifact.rowCount - 1 := by
  have hgroup := h.length_pos
  have hfirst := h.first
  have hlast := h.last
  have hcount := h.rowCount
  have horder : artifact.firstStreamSequence ≤ artifact.lastStreamSequence := by
    rw [UInt64.le_iff_toNat_le]
    omega
  have hone : (1 : UInt64) ≤ artifact.rowCount := by
    rw [UInt64.le_iff_toNat_le, hcount]
    exact hgroup
  refine ⟨?_, horder, ?_⟩
  · intro hzero
    rw [hzero] at hcount
    exact absurd hcount.symm hgroup.ne'
  · apply UInt64.toNat_inj.mp
    rw [UInt64.toNat_sub_of_le _ _ horder, UInt64.toNat_sub_of_le _ _ hone, UInt64.toNat_one]
    omega

theorem Summarizes.sequence_zero (h : Summarizes H scope index start previous root group artifact) :
    artifact.partSequence = 0 ↔ index = 0 := by
  rw [← h.sequence, ← UInt32.toNat_inj]
  rfl

/-- The manifest of a part is valid where its texts are strings of the protocol and it names its predecessor. -/
theorem validPart_of_summary (hnonzero : ∀ data, H.sha256 data ≠ Digest.zero) (hscope : scope.validate = .ok ())
    (htuple : TupleOf H spec scope conversion) (h : Summarizes H scope index start previous root group artifact)
    (hbuild : isProtocolString conversion.converterBuildID = true)
    (hplatform : isProtocolString conversion.targetPlatformContract = true) {predecessor : Option Digest}
    (hpredecessor : (partManifest ⟨scope, conversion, artifact⟩ predecessor).checkPredecessor = .ok ()) :
    ValidPart H (partManifest ⟨scope, conversion, artifact⟩ predecessor) := by
  have hown : (partManifest ⟨scope, conversion, artifact⟩ predecessor).scope = scope := by
    simp only [partManifest, PartManifest.scope, htuple.conversionID]
  obtain ⟨hrows, -, hrange⟩ := h.range
  obtain ⟨firstInput, hfirst⟩ := h.firstChain
  obtain ⟨hlast, lastInput, hroot⟩ := h.lastChain
  obtain ⟨lock, hlock⟩ := htuple.dependencyLock
  obtain ⟨writer, hwriter⟩ := htuple.writerConfiguration
  refine ⟨rfl, h.bytes, hrows, ?_, ?_, ?_, htuple.format, ⟨htuple.converterBuild.2, hbuild⟩, ⟨htuple.targetPlatform.2, hplatform⟩,
    ?_, ?_, ?_, hrange, ?_, hpredecessor⟩
  · show artifact.firstRowChainHash ≠ Digest.zero
    rw [hfirst]
    exact hnonzero _
  · show artifact.lastRowChainHash ≠ Digest.zero
    rw [hlast, hroot]
    exact hnonzero _
  · rw [hown]
    exact hscope
  · show conversion.dependencyLockHash ≠ Digest.zero
    rw [hlock]
    exact hnonzero _
  · show conversion.writerConfigurationHash ≠ Digest.zero
    rw [hwriter]
    exact hnonzero _
  · show artifact.canonicalRowBytes ≠ 0
    intro hzero
    have hpositive := h.nonempty
    rw [hzero] at hpositive
    cases hpositive
  · rw [hown]
    exact h.key

theorem strictPartDigest_of_valid {manifest : PartManifest} (h : ValidPart H manifest) {digest : Digest}
    (hdigest : partManifestDigest H manifest = .ok digest)
    (hnamed : manifest.manifestSHA256 = Digest.zero ∨ manifest.manifestSHA256 = digest) :
    strictPartDigest H manifest = .ok digest := by
  obtain ⟨_, -, -, horder, -⟩ := replayPartObjectKey_eq_ok.mp h.key
  simp only [strictPartDigest, bind_eq_ok, reject_eq_ok, pure_eq_ok, not_or, not_and, not_not, UInt64.not_lt]
  exact ⟨(), validate_eq_ok.mpr h, (), ⟨h.bytes, h.rows, h.canonical, h.firstChain, h.lastChain⟩, (),
    ⟨horder, h.rows, h.range⟩, digest, hdigest, (), fun hne => hnamed.resolve_left hne, rfl⟩

/-- A part that summarizes its rows passes the checks before a manifest is built of it. -/
theorem input_valid (hnonzero : ∀ data, H.sha256 data ≠ Digest.zero) (hscope : scope.validate = .ok ())
    (htuple : TupleOf H spec scope conversion) (h : Summarizes H scope index start previous root group artifact)
    (hbefore : Before H scope conversion index start previous before) :
    PartManifestInput.validate H ⟨scope, conversion, artifact⟩ = .ok () := by
  obtain ⟨hrows, horder, hrange⟩ := h.range
  obtain ⟨firstInput, hfirst⟩ := h.firstChain
  obtain ⟨hlast, lastInput, hroot⟩ := h.lastChain
  obtain ⟨lock, hlock⟩ := htuple.dependencyLock
  obtain ⟨writer, hwriter⟩ := htuple.writerConfiguration
  obtain ⟨_, -, hdigest, -, -⟩ := replayPartObjectKey_eq_ok.mp h.key
  have hcanonical : artifact.canonicalRowBytes ≠ 0 := by
    intro hzero
    have hpositive := h.nonempty
    rw [hzero] at hpositive
    cases hpositive
  simp only [PartManifestInput.validate, validateConversionTuple, validateArtifactSummary, bind_eq_ok, reject_eq_ok, not_or,
    not_and, not_not, UInt64.not_lt]
  refine ⟨(), hscope, (), ⟨(), ⟨htuple.contract, htuple.conversionID⟩, htuple.format, htuple.converterBuild.2,
    htuple.targetPlatform.2, hlock ▸ hnonzero _, hwriter ▸ hnonzero _⟩, (), ⟨toOption_eq_some.mpr h.key, hdigest⟩, (),
    ⟨h.bytes, hrows, hcanonical⟩, (), ⟨horder, hrange⟩, (), ⟨hfirst ▸ hnonzero _, hlast ▸ hroot ▸ hnonzero _⟩, (), ?_, ?_⟩
  · intro hzero
    cases before with
    | none => exact UInt64.toNat_inj.mp (h.first.trans hbefore.2.1)
    | some prior =>
      have hindex := h.sequence_zero.mp hzero
      exact absurd (hbefore.2.2.1.trans hindex) (Nat.succ_ne_zero _)
  · intro hpositive
    cases before with
    | none =>
      rw [h.sequence_zero.mpr hbefore.1] at hpositive
      exact absurd hpositive (by decide)
    | some prior =>
      rw [h.previousChain, ← hbefore.2.2.2.2.1]
      exact hbefore.1.lastChain

theorem samePartBinding_of_matches {part : PartManifest} (htuple : TupleOf H spec scope conversion)
    (h : replayPartMatchesScope part scope conversion = true) : Archive.samePartBinding part scope conversion = true := by
  simp only [replayPartMatchesScope, decide_eq_true_eq] at h
  simp only [Archive.samePartBinding, decide_eq_true_eq]
  obtain ⟨hdataset, hday, hdate, hkey, hsha, hcontract, hformat, hid, hbuild, hlock, hwriter, hplatform⟩ := h
  exact ⟨hdataset, hday, hdate, hcontract.trans htuple.contract, hformat, hid, hbuild, hlock, hwriter, hplatform, hkey, hsha⟩

/-- The predecessor is found, and the manifest that names it continues it. -/
theorem predecessor_of_before (hnonzero : ∀ data, H.sha256 data ≠ Digest.zero)
    (htuple : TupleOf H spec scope conversion) (h : Summarizes H scope index start previous root group artifact)
    (hbefore : Before H scope conversion index start previous before) :
    ∃ predecessor, partPredecessor H ⟨scope, conversion, artifact⟩ before = .ok predecessor ∧
      (partManifest ⟨scope, conversion, artifact⟩ predecessor).checkPredecessor = .ok () ∧
      ∀ digest, checkGraphPredecessor H before
        { partManifest ⟨scope, conversion, artifact⟩ predecessor with manifestSHA256 := digest } = .ok () := by
  cases before with
  | none =>
    obtain ⟨hindex, hstart, hroot⟩ := hbefore
    have hsequence := h.sequence_zero.mpr hindex
    have hchain : artifact.previousRowChainHash = Digest.zero := h.previousChain.trans hroot
    have hfirst : artifact.firstStreamSequence = 0 := UInt64.toNat_inj.mp (h.first.trans hstart)
    refine ⟨none, ?_, ?_, fun digest => ?_⟩
    · simp only [partPredecessor, hsequence, if_true, bind_eq_ok, reject_eq_ok, pure_eq_ok, hchain]
      simp
    · simp [PartManifest.checkPredecessor, partManifest, hsequence, hchain, reject]
    · simp [checkGraphPredecessor, partManifest, hchain, hfirst, reject]
  | some prior =>
    obtain ⟨hvalid, hdigest, hindex, hmatch, hroot, hstart⟩ := hbefore
    have hsequence : ¬ artifact.partSequence = 0 := fun hzero =>
      Nat.succ_ne_zero _ (hindex.trans (h.sequence_zero.mp hzero))
    have hchain : artifact.previousRowChainHash = prior.lastRowChainHash := h.previousChain.trans hroot.symm
    obtain ⟨text, -, hhash⟩ := hvalid.digest
    rw [hdigest, Except.ok.injEq] at hhash
    refine ⟨some prior.manifestSHA256, ?_, ?_, fun digest => ?_⟩
    · have hadjacent : ¬ (prior.partSequence = 4294967295 ∨ prior.partSequence + 1 ≠ artifact.partSequence) := by
        have hsucc := h.sequence
        have hbound := artifact.partSequence.toNat_lt
        rw [not_or, not_not]
        refine ⟨fun hmax => ?_, UInt32.toNat_inj.mp ?_⟩
        · have hnat : prior.partSequence.toNat = 4294967295 := congrArg UInt32.toNat hmax
          omega
        · rw [UInt32.toNat_add, UInt32.toNat_one, Nat.mod_eq_of_lt (by omega)]
          omega
      simp only [partPredecessor, if_neg hsequence, bind_eq_ok, reject_eq_ok, mapError_eq_ok, pure_eq_ok]
      exact ⟨(), hadjacent, (), validate_eq_ok.mpr hvalid, (), by simp [samePartBinding_of_matches htuple hmatch], (),
        not_not.mpr hchain, _, strictPartDigest_of_valid hvalid hdigest (.inr rfl), rfl⟩
    · have hne : artifact.previousRowChainHash ≠ Digest.zero := by
        rw [hchain]
        exact hvalid.lastChain
      simp [PartManifest.checkPredecessor, partManifest, hsequence, hne, hhash, hnonzero, reject]
    · have hfollows : prior.lastStreamSequence ≠ Wal.maxUint64 ∧
          artifact.firstStreamSequence = prior.lastStreamSequence + 1 := by
        have hfirst := h.first
        have hbound := artifact.firstStreamSequence.toNat_lt
        refine ⟨fun hmax => ?_, UInt64.toNat_inj.mp ?_⟩
        · have hnat : prior.lastStreamSequence.toNat = 18446744073709551615 := congrArg UInt64.toNat hmax
          omega
        · rw [UInt64.toNat_add, UInt64.toNat_one, Nat.mod_eq_of_lt (by omega)]
          omega
      simp only [checkGraphPredecessor, reject_eq_ok, not_or, not_not]
      exact ⟨Option.some_ne_none _, (toOption_eq_some.mpr hdigest).symm, hchain, hfollows.1, hfollows.2⟩

theorem replayPartMatchesScope_partManifest (htuple : TupleOf H spec scope conversion) (artifact : PartArtifact)
    (predecessor : Option Digest) (digest : Digest) :
    replayPartMatchesScope { partManifest ⟨scope, conversion, artifact⟩ predecessor with manifestSHA256 := digest } scope
      conversion = true := by
  simp [replayPartMatchesScope, partManifest, htuple.contract]

/-- The manifest of the next part is built, and the part after it can be built on it. -/
theorem build_of_summary (hnonzero : ∀ data, H.sha256 data ≠ Digest.zero) (hscope : scope.validate = .ok ())
    (htuple : TupleOf H spec scope conversion) (hbuild : isProtocolString conversion.converterBuildID = true)
    (hplatform : isProtocolString conversion.targetPlatformContract = true)
    (h : Summarizes H scope index start previous root group artifact)
    (hbefore : Before H scope conversion index start previous before) :
    ∃ manifest, buildPartManifest H ⟨scope, conversion, artifact⟩ before = .ok manifest ∧
      checkGraphPredecessor H before manifest = .ok () ∧
      Before H scope conversion (index + 1) (start + group.length) root (some manifest) := by
  obtain ⟨predecessor, hfound, hcheck, hgraph⟩ := predecessor_of_before hnonzero htuple h hbefore
  have hvalid := validPart_of_summary hnonzero hscope htuple h hbuild hplatform hcheck
  obtain ⟨text, htext, hdigest⟩ := hvalid.digest
  refine ⟨{ partManifest ⟨scope, conversion, artifact⟩ predecessor with
    manifestSHA256 := H.sha256 (partManifestDomain ++ text) }, ?_, hgraph _, hvalid.withDigest _, hdigest, ?_,
    replayPartMatchesScope_partManifest htuple _ _ _, h.lastChain.1, h.last⟩
  · simp only [buildPartManifest, bind_eq_ok, pure_eq_ok]
    exact ⟨(), input_valid hnonzero hscope htuple h hbefore, predecessor, hfound, (), validate_eq_ok.mpr hvalid, _,
      strictPartDigest_of_valid hvalid hdigest (.inl rfl), rfl⟩
  · show artifact.partSequence.toNat + 1 = index + 1
    rw [h.sequence]

end

/-! ## All manifests -/

section
variable {index start : Nat} {previous root : Digest} {groups : List (List ReplayRow)} {artifacts : List PartArtifact}
  {before : Option PartManifest}

theorem buildPartManifests_of_summarized (hnonzero : ∀ data, H.sha256 data ≠ Digest.zero)
    (hscope : scope.validate = .ok ()) (htuple : TupleOf H spec scope conversion)
    (hbuild : isProtocolString conversion.converterBuildID = true)
    (hplatform : isProtocolString conversion.targetPlatformContract = true)
    (h : Summarized H scope index start previous groups artifacts root)
    (hbefore : Before H scope conversion index start previous before) :
    ∃ manifests, buildPartManifests H scope conversion before artifacts = .ok manifests ∧
      Linked H scope conversion index before manifests ∧ manifests.length = artifacts.length ∧
      ((before.toList ++ manifests).getLast?.map (·.lastRowChainHash)).getD Digest.zero = root := by
  induction h generalizing before with
  | nil index start root =>
    refine ⟨[], rfl, .nil _ _, rfl, ?_⟩
    cases before with
    | none => exact hbefore.2.2.symm
    | some prior => exact hbefore.2.2.2.2.1
  | cons hpart _ ih =>
    obtain ⟨manifest, hmanifest, hgraph, hnext⟩ :=
      build_of_summary hnonzero hscope htuple hbuild hplatform hpart hbefore
    obtain ⟨manifests, hmanifests, hlinked, hlength, hlast⟩ := ih hnext
    obtain ⟨hvalid, hdigest, hsequence, hmatch, -, -⟩ := hnext
    refine ⟨manifest :: manifests, ?_, .cons hvalid hdigest (Nat.succ.inj hsequence) hmatch hgraph hlinked, ?_, ?_⟩
    · simp only [buildPartManifests, partManifestInputFromArtifact, bind_eq_ok, pure_eq_ok]
      exact ⟨_, ⟨(), input_valid hnonzero hscope htuple hpart hbefore, rfl⟩, manifest, hmanifest, manifests, hmanifests, rfl⟩
    · rw [List.length_cons, List.length_cons, hlength]
    · rw [List.getLast?_append_of_ne_nil _ (List.cons_ne_nil _ _)]
      exact hlast

end

/-- What is hashed of the manifests. -/
def manifestInputs (manifests : List PartManifest) : List Bytes :=
  manifests.map fun manifest => partManifestDomain ++ (canonicalJSON manifest.canonicalValue).toOption.getD []

variable {before : Option PartManifest} {index : Nat} {manifests : List PartManifest}

theorem sequences_of_linked (h : Linked H scope conversion index before manifests) :
    manifests.map (·.partSequence.toNat) = List.range' index manifests.length := by
  induction h with
  | nil => rfl
  | cons _ _ hsequence _ _ _ ih => rw [List.map_cons, ih, hsequence, List.length_cons, List.range'_succ]

theorem valid_of_linked (h : Linked H scope conversion index before manifests) :
    ∀ manifest ∈ manifests, ValidPart H manifest ∧ partManifestDigest H manifest = .ok manifest.manifestSHA256 := by
  induction h with
  | nil => simp
  | cons hvalid hdigest _ _ _ _ ih => exact List.forall_mem_cons.mpr ⟨⟨hvalid, hdigest⟩, ih⟩

theorem digests_nodup
    (h : Linked H scope conversion index before manifests) (hfree : CollisionFree H (manifestInputs manifests)) :
    (manifests.map (·.manifestSHA256)).Nodup := by
  have hsequences : (manifests.map (·.partSequence.toNat)).Nodup := by
    rw [sequences_of_linked h]
    exact List.nodup_range'
  refine List.Nodup.map_on (fun p hp q hq heq => ?_) hsequences.of_map
  obtain ⟨hvalid, hdigest⟩ := valid_of_linked h p hp
  obtain ⟨hvalid', hdigest'⟩ := valid_of_linked h q hq
  obtain ⟨text, htext, hhash⟩ := hvalid.digest
  obtain ⟨text', htext', hhash'⟩ := hvalid'.digest
  rw [hdigest, Except.ok.injEq] at hhash
  rw [hdigest', Except.ok.injEq] at hhash'
  have hinput : partManifestDomain ++ text ∈ manifestInputs manifests :=
    List.mem_map.mpr ⟨p, hp, by rw [htext]; rfl⟩
  have hinput' : partManifestDomain ++ text' ∈ manifestInputs manifests :=
    List.mem_map.mpr ⟨q, hq, by rw [htext']; rfl⟩
  have hsame := hfree.1 _ hinput _ hinput' (by rw [← hhash, ← hhash', heq])
  rw [List.append_cancel_left_eq] at hsame
  rw [hsame] at htext
  exact List.inj_on_of_nodup_map hsequences hp hq (congrArg UInt32.toNat (partSequence_of_canonicalJSON htext htext'))

theorem strings_of_build {artifact : PartArtifact} {manifest : PartManifest}
    (h : buildPartManifest H ⟨scope, conversion, artifact⟩ before = .ok manifest) :
    isProtocolString conversion.converterBuildID = true ∧ isProtocolString conversion.targetPlatformContract = true := by
  simp only [buildPartManifest, bind_eq_ok] at h
  obtain ⟨_, -, predecessor, -, _, hvalid, -⟩ := h
  have hvalid := validate_eq_ok.mp hvalid
  exact ⟨hvalid.converterBuild.2, hvalid.targetPlatform.2⟩

/-- **Every conversion that ends well cuts its rows into parts that follow each other, each as full as the limits allow,
and its chain root is that of the rows. The parts are then published — the manifests are built and accepted as one
graph — exactly where the texts of the spec are strings of the protocol.** -/
theorem generate_partitions {F : FileFormat} {rows : List ReplayRow} {d : OutputRoot} {ops : List OutputOp}
    {result : GenerationResult} {maxNodes : UInt64} (hrun : (generate F H spec scope rows).run d = (ops, .ok result))
    (hconversion : conversionTupleFromSpec H spec = .ok conversion) (hnonzero : ∀ data, H.sha256 data ≠ Digest.zero)
    (hfree : ∀ manifests, buildPartManifests H scope conversion none result.parts = .ok manifests →
      CollisionFree H (manifestInputs manifests))
    (hnodes : maxNodes ≠ 0 ∧ result.parts.length ≤ maxNodes.toNat) :
    (∃ groups, groups.flatten = rows ∧ Cut (Fits H spec) groups ∧
      Summarized H scope 0 0 Digest.zero groups result.parts result.rowChainRoot) ∧
    result.parts.flatMap streamRange = List.range rows.length ∧
    rowChainRoot H rows = .ok result.rowChainRoot ∧
    ((∃ manifests graph, buildPartManifests H scope conversion none result.parts = .ok manifests ∧
        verifyReplayPartGraph H manifests scope conversion maxNodes = .ok graph ∧
        graph.canonicalRowChainRoot = result.rowChainRoot) ↔
      result.parts = [] ∨
        isProtocolString spec.converterBuildID = true ∧ isProtocolString spec.targetPlatformContract = true) := by
  obtain ⟨parts, hconverts⟩ := converts_of_run hrun
  obtain ⟨groups, hrows, hcut, hsummarized, -, hroot⟩ := summarized_of_converts hconverts
  obtain ⟨start, _, _, _, _, hstart, -⟩ := hconverts
  have hscope := (newGenerator_eq_ok hstart).2.1
  have htuple := tupleOf_spec hstart hconversion
  refine ⟨⟨groups, hrows, hcut, hsummarized⟩, ?_, hroot, ?_⟩
  · rw [hsummarized.flatMap_streamRange, hrows, List.range_eq_range']
  rw [← htuple.converterBuild.1, ← htuple.targetPlatform.1]
  constructor
  · rintro ⟨manifests, graph, hmanifests, -, -⟩
    cases hparts : result.parts with
    | nil => exact .inl rfl
    | cons artifact artifacts =>
      rw [hparts] at hmanifests
      simp only [buildPartManifests, partManifestInputFromArtifact, bind_eq_ok, pure_eq_ok] at hmanifests
      obtain ⟨_, ⟨_, -, rfl⟩, manifest, hmanifest, -⟩ := hmanifests
      exact .inr (strings_of_build hmanifest)
  · intro hcase
    have hbuilt : ∃ manifests, buildPartManifests H scope conversion none result.parts = .ok manifests ∧
        Linked H scope conversion 0 none manifests ∧ manifests.length = result.parts.length ∧
        (manifests.getLast?.map (·.lastRowChainHash)).getD Digest.zero = result.rowChainRoot := by
      rcases hcase with hempty | ⟨hbuild, hplatform⟩
      · rw [hempty] at hsummarized ⊢
        generalize result.rowChainRoot = root at hsummarized ⊢
        cases hsummarized
        exact ⟨[], rfl, .nil _ _, rfl, rfl⟩
      · exact buildPartManifests_of_summarized hnonzero hscope htuple hbuild hplatform hsummarized ⟨rfl, rfl, rfl⟩
    obtain ⟨manifests, hmanifests, hlinked, hlength, hlast⟩ := hbuilt
    obtain ⟨graph, hgraph, -, hchain⟩ := verifyReplayPartGraph_of_linked hlinked
      (digests_nodup hlinked (hfree manifests hmanifests)) hscope (hlength ▸ hnodes)
    exact ⟨manifests, graph, hmanifests, hgraph, hchain.trans hlast⟩

def buildSample (converterBuildID : Bytes) (result : GenerationResult) : Option (List PartManifest) :=
  (conversionTupleFromSpec sampleHashes (sampleSpec converterBuildID)).toOption.bind fun conversion =>
    (buildPartManifests sampleHashes sampleScope conversion none result.parts).toOption

instance oneRow_generates : Fact (((sampleConversion (ascii "build-1")).run .empty).2.toOption.any (fun result =>
      decide (result.parts.length = 1) && (buildSample (ascii "build-1") result).all fun manifests =>
        decide (CollisionFree sampleHashes (manifestInputs manifests))) = true) := ⟨by decide +kernel⟩

instance oneRow_tuple : Fact ((conversionTupleFromSpec sampleHashes (sampleSpec (ascii "build-1"))).toOption.any (fun _ => true) = true) := ⟨by decide +kernel⟩

theorem generate_partitions_one_row :
    ∃ ops result conversion, (sampleConversion (ascii "build-1")).run .empty = (ops, .ok result) ∧
      conversionTupleFromSpec sampleHashes (sampleSpec (ascii "build-1")) = .ok conversion ∧ result.parts.length = 1 ∧
      result.parts.flatMap streamRange = [0] ∧
      ∃ manifests graph, buildPartManifests sampleHashes sampleScope conversion none result.parts = .ok manifests ∧
        verifyReplayPartGraph sampleHashes manifests sampleScope conversion 1 = .ok graph ∧
        graph.canonicalRowChainRoot = result.rowChainRoot := by
  obtain ⟨result, hok, hcheck⟩ := exists_ok_of_any oneRow_generates.out
  have hresult := toOption_eq_some.mpr hok
  obtain ⟨conversion, hconversion, -⟩ := exists_ok_of_any oneRow_tuple.out
  rw [Bool.and_eq_true, decide_eq_true_eq] at hcheck
  obtain ⟨hone, hfree⟩ := hcheck
  have hbuilt : ∀ manifests, buildPartManifests sampleHashes sampleScope conversion none result.parts = .ok manifests →
      CollisionFree sampleHashes (manifestInputs manifests) := by
    intro manifests hmanifests
    rw [buildSample, hconversion] at hfree
    simp only [Except.toOption, Option.bind_some, hmanifests, Option.all_some, decide_eq_true_eq] at hfree
    exact hfree
  unfold sampleConversion at hresult ⊢
  have hgenerate := Prog.run_eq_ok hresult
  have hnodes : (1 : UInt64) ≠ 0 ∧ result.parts.length ≤ (1 : UInt64).toNat := ⟨by decide, hone.le⟩
  obtain ⟨-, hcover, -, hiff⟩ := generate_partitions hgenerate hconversion sampleHashes_ne_zero hbuilt hnodes
  exact ⟨_, result, conversion, hgenerate, hconversion, hone, hcover, hiff.mpr (.inr ⟨by decide, by decide⟩)⟩

instance longName_generates : Fact (((sampleConversion (List.replicate 256 97)).run .empty).2.toOption.any (fun result =>
      decide (result.parts.length = 1) && (buildSample (List.replicate 256 97) result).isNone) = true) := ⟨by decide +kernel⟩

instance longName_tuple : Fact ((conversionTupleFromSpec sampleHashes (sampleSpec (List.replicate 256 97))).toOption.any (fun _ => true) =
      true) := ⟨by decide +kernel⟩

/-- A converter build named by 256 bytes: the spec is valid and the part is written, but it gets no manifest. -/
theorem long_build_name_has_no_manifest :
    ∃ ops result conversion, (sampleConversion (List.replicate 256 97)).run .empty = (ops, .ok result) ∧
      conversionTupleFromSpec sampleHashes (sampleSpec (List.replicate 256 97)) = .ok conversion ∧
      result.parts.length = 1 ∧
      (buildPartManifests sampleHashes sampleScope conversion none result.parts).toOption = none := by
  obtain ⟨result, hok, hcheck⟩ := exists_ok_of_any longName_generates.out
  have hresult := toOption_eq_some.mpr hok
  obtain ⟨conversion, hconversion, -⟩ := exists_ok_of_any longName_tuple.out
  rw [Bool.and_eq_true, decide_eq_true_eq, Option.isNone_iff_eq_none, buildSample, hconversion] at hcheck
  exact ⟨_, result, conversion, Prog.run_eq_ok hresult, hconversion, hcheck.1, hcheck.2⟩

end TickPlatform.Parquet
