import TickPlatform.Archive.Parts
import TickPlatform.Replay.PartRules

/-!
# The graph of parts

What `VerifyReplayPartGraph` checks of an ordered list of part manifests, and that it accepts every list in which each
part is valid and continues the one before it.
-/

namespace TickPlatform.Remote

open Bytes Protocol Replay Archive

variable {H : Hashes}

structure ReplayPartGraph where
  parts : List PartManifest
  partManifestKeys : List Bytes
  partSetRoot : Digest
  canonicalRowChainRoot : Digest
deriving DecidableEq

def replayPartMatchesScope (part : PartManifest) (scope : ReplayScope) (conversion : ConversionTuple) : Bool :=
  part.datasetID = scope.datasetID ∧ part.dayDefinitionID = scope.dayDefinitionID ∧ part.date = scope.date ∧
    part.rawDayManifestKey = scope.rawDayManifestKey ∧ part.rawDayManifestSHA256 = scope.rawDayManifestSHA256 ∧
    part.replayContractID = conversion.replayContractID ∧ part.formatID = conversion.formatID ∧
    part.conversionID = conversion.conversionID ∧ part.converterBuildID = conversion.converterBuildID ∧
    part.dependencyLockHash = conversion.dependencyLockHash ∧
    part.writerConfigurationHash = conversion.writerConfigurationHash ∧
    part.targetPlatformContract = conversion.targetPlatformContract

/-- What a part must say about the part before it in the list. -/
def checkGraphPredecessor (H : Hashes) (previous : Option PartManifest) (part : PartManifest) : Except String Unit :=
  match previous with
  | none =>
    reject (part.firstStreamSequence ≠ 0 ∨ part.previousManifestSHA256 ≠ none ∨ part.previousRowChainHash ≠ Digest.zero)
      "part graph genesis is invalid"
  | some prior =>
    reject (part.previousManifestSHA256 = none ∨ part.previousManifestSHA256 ≠ (partManifestDigest H prior).toOption ∨
        part.previousRowChainHash ≠ prior.lastRowChainHash ∨ prior.lastStreamSequence = Wal.maxUint64 ∨
        part.firstStreamSequence ≠ prior.lastStreamSequence + 1)
      "part graph predecessor is missing or conflicting"

/-- One round of the loop: the digest and the key of the part. -/
def verifyGraphPart (H : Hashes) (scope : ReplayScope) (conversion : ConversionTuple) (index : Nat)
    (previous : Option PartManifest) (seenDigest : List Digest) (part : PartManifest) : Except String (Digest × Bytes) := do
  (part.validate H).mapError fun err => s!"part {index}: {err}"
  let digest ← (partManifestDigest H part).mapError fun _ => s!"part {index} manifest digest mismatch"
  reject (part.manifestSHA256 ≠ Digest.zero ∧ part.manifestSHA256 ≠ digest) s!"part {index} manifest digest mismatch"
  reject (digest ∈ seenDigest) "part graph contains a duplicate or branch"
  reject (part.partSequence.toNat ≠ index ∨ !replayPartMatchesScope part scope conversion)
    "part graph has a gap, branch, or scope contradiction"
  checkGraphPredecessor H previous part
  let key ← partManifestKey H part
  return (digest, key)

/-- The loop from an index on: the parts with their digests, and their keys. -/
def verifyGraphParts (H : Hashes) (scope : ReplayScope) (conversion : ConversionTuple) :
    Nat → Option PartManifest → List Digest → List PartManifest → Except String (List (PartManifest × Bytes))
  | _, _, _, [] => .ok []
  | index, previous, seenDigest, part :: parts => do
    let (digest, key) ← verifyGraphPart H scope conversion index previous seenDigest part
    let named := { part with manifestSHA256 := digest }
    let later ← verifyGraphParts H scope conversion (index + 1) (some named) (digest :: seenDigest) parts
    return (named, key) :: later

def verifyReplayPartGraph (H : Hashes) (parts : List PartManifest) (scope : ReplayScope) (conversion : ConversionTuple)
    (maxNodes : UInt64) : Except String ReplayPartGraph := do
  reject (maxNodes = 0 ∨ parts.length > maxNodes.toNat)
    "remote resource exceeds configured limit: part graph node limit"
  scope.validate
  let nodes ← verifyGraphParts H scope conversion 0 none [] parts
  let copyParts := nodes.map (·.1)
  let root ← partSetRoot H copyParts
  return ⟨copyParts, nodes.map (·.2), root, (copyParts.getLast?.map (·.lastRowChainHash)).getD Digest.zero⟩

/-! ## Lists of parts that are accepted -/

/-- Each part is valid, bears its digest and its number, and continues the part before it. -/
inductive Linked (H : Hashes) (scope : ReplayScope) (conversion : ConversionTuple) :
    Nat → Option PartManifest → List PartManifest → Prop
  | nil (index : Nat) (previous : Option PartManifest) : Linked H scope conversion index previous []
  | cons {index : Nat} {previous : Option PartManifest} {part : PartManifest} {parts : List PartManifest} :
      ValidPart H part → partManifestDigest H part = .ok part.manifestSHA256 → part.partSequence.toNat = index →
      replayPartMatchesScope part scope conversion = true → checkGraphPredecessor H previous part = .ok () →
      Linked H scope conversion (index + 1) (some part) parts →
      Linked H scope conversion index previous (part :: parts)

variable {scope : ReplayScope} {conversion : ConversionTuple} {index : Nat} {previous : Option PartManifest}
  {parts : List PartManifest}

variable {part : PartManifest}

theorem partManifestKey_of_valid (h : ValidPart H part) {digest : Digest}
    (hdigest : partManifestDigest H part = .ok digest) :
    ∃ key, partManifestKey H part = .ok key ∧ partManifestKeyFromDigest H part digest = .ok key := by
  obtain ⟨base, hbase, -⟩ := replayPartObjectKey_eq_ok.mp h.key
  have hkey : ∃ key, partManifestKeyFromDigest H part digest = .ok key := by
    rw [partManifestKeyFromDigest, hbase]
    exact ⟨_, rfl⟩
  obtain ⟨key, hkey⟩ := hkey
  refine ⟨key, ?_, hkey⟩
  simp only [partManifestKey, bind_eq_ok]
  exact ⟨(), validate_eq_ok.mpr h, digest, hdigest, hkey⟩

/-- The loop passes such a list and leaves it as it is. -/
theorem verifyGraphParts_of_linked (h : Linked H scope conversion index previous parts) {seen : List Digest}
    (hdistinct : (parts.map (·.manifestSHA256)).Nodup) (hseen : ∀ part ∈ parts, part.manifestSHA256 ∉ seen) :
    ∃ nodes, verifyGraphParts H scope conversion index previous seen parts = .ok nodes ∧ nodes.map (·.1) = parts := by
  induction h generalizing seen with
  | nil index previous => exact ⟨[], rfl, rfl⟩
  | @cons index previous part parts hvalid hdigest hsequence hscope hprevious _ ih =>
    rw [List.map_cons, List.nodup_cons] at hdistinct
    rw [List.forall_mem_cons] at hseen
    obtain ⟨key, hkey, -⟩ := partManifestKey_of_valid hvalid hdigest
    have hnode : verifyGraphPart H scope conversion index previous seen part = .ok (part.manifestSHA256, key) := by
      simp only [verifyGraphPart, bind_eq_ok, mapError_eq_ok, reject_eq_ok, pure_eq_ok]
      exact ⟨(), validate_eq_ok.mpr hvalid, _, hdigest, (), by simp, (), hseen.1, (), by simp [hsequence, hscope], (),
        hprevious, key, hkey, rfl⟩
    have hlater : ∀ later ∈ parts, later.manifestSHA256 ∉ part.manifestSHA256 :: seen := by
      intro later hmem hin
      rcases List.mem_cons.mp hin with heq | hold
      · exact hdistinct.1 (heq ▸ List.mem_map_of_mem hmem)
      · exact hseen.2 later hmem hold
    obtain ⟨nodes, hnodes, hmap⟩ := ih hdistinct.2 hlater
    refine ⟨(part, key) :: nodes, ?_, by rw [List.map_cons, hmap]⟩
    simp only [verifyGraphParts, bind_eq_ok, pure_eq_ok]
    exact ⟨_, hnode, _, hnodes, rfl⟩

theorem samePartBinding_of_scope {first : PartManifest} (hfirst : replayPartMatchesScope first scope conversion = true)
    (hpart : replayPartMatchesScope part scope conversion = true) : Replay.samePartBinding first part = true := by
  simp only [replayPartMatchesScope, decide_eq_true_eq] at hfirst hpart
  simp only [Replay.samePartBinding, decide_eq_true_eq]
  obtain ⟨h₁, h₂, h₃, h₄, h₅, h₆, h₇, h₈, h₉, h₁₀, h₁₁, h₁₂⟩ := hpart
  rw [h₁, h₂, h₃, h₄, h₅, h₆, h₇, h₈, h₉, h₁₀, h₁₁, h₁₂]
  obtain ⟨h₁, h₂, h₃, h₄, h₅, h₆, h₇, h₈, h₉, h₁₀, h₁₁, h₁₂⟩ := hfirst
  exact ⟨h₁, h₂, h₃, h₆, h₇, h₈, h₉, h₁₀, h₁₁, h₁₂, h₄, h₅⟩

theorem checkSetPredecessor_of_graph (h : checkGraphPredecessor H previous part = .ok ()) :
    checkSetPredecessor H previous part = .ok () := by
  cases previous with
  | none =>
    simp only [checkGraphPredecessor, reject_eq_ok, not_or, not_not] at h
    simp only [checkSetPredecessor, reject_eq_ok, not_or, not_not]
    exact ⟨h.1, h.2.2⟩
  | some prior =>
    simp only [checkGraphPredecessor, reject_eq_ok, not_or, not_not] at h
    obtain ⟨hsome, hdigest, hchain, hlast, hfirst⟩ := h
    simp only [checkSetPredecessor, bind_eq_ok, reject_eq_ok, not_or, not_not]
    exact ⟨(), ⟨hsome, hdigest⟩, (), hchain, hlast, hfirst⟩

theorem partSetItems_of_linked (h : Linked H scope conversion index previous parts) {first : PartManifest}
    (hfirst : replayPartMatchesScope first scope conversion = true) :
    ∃ items, partSetItems H first index previous parts = .ok items := by
  induction h with
  | nil index previous => exact ⟨[], rfl⟩
  | @cons index previous part parts hvalid hdigest hsequence hscope hprevious _ ih =>
    obtain ⟨later, hlater⟩ := ih
    obtain ⟨key, -, hkey⟩ := partManifestKey_of_valid hvalid hdigest
    have hpath := partManifestKeyFromDigest_path hkey
    have hbinding : ¬ (index > 0 ∧ (!Replay.samePartBinding first part) = true) := by
      rw [samePartBinding_of_scope hfirst hscope]
      simp
    simp only [partSetItems, bind_eq_ok, reject_eq_ok, pure_eq_ok, writePath, not_not]
    exact ⟨_, (), validate_eq_ok.mpr hvalid, (), hsequence, (), hbinding, _, hdigest, (), checkSetPredecessor_of_graph hprevious,
      key, hkey, _, ⟨(), by simp [utf8Valid_of_isASCII hpath.ascii], (), not_lt.mpr hpath.length, rfl⟩, later, hlater, rfl⟩

/-- A linked list of parts with distinct digests is accepted as it is. -/
theorem verifyReplayPartGraph_of_linked (h : Linked H scope conversion 0 none parts)
    (hdistinct : (parts.map (·.manifestSHA256)).Nodup) (hscope : scope.validate = .ok ()) {maxNodes : UInt64}
    (hnodes : maxNodes ≠ 0 ∧ parts.length ≤ maxNodes.toNat) :
    ∃ graph, verifyReplayPartGraph H parts scope conversion maxNodes = .ok graph ∧ graph.parts = parts ∧
      graph.canonicalRowChainRoot = (parts.getLast?.map (·.lastRowChainHash)).getD Digest.zero := by
  obtain ⟨nodes, hloop, hmap⟩ := verifyGraphParts_of_linked h hdistinct fun _ _ => List.not_mem_nil
  have hroot : ∃ root, partSetRoot H parts = .ok root := by
    cases h with
    | nil => exact ⟨_, rfl⟩
    | @cons _ _ part parts hvalid hdigest hsequence hmatch hprevious hrest =>
      obtain ⟨items, hitems⟩ := partSetItems_of_linked (.cons hvalid hdigest hsequence hmatch hprevious hrest) hmatch
      simp only [partSetRoot, bind_eq_ok, pure_eq_ok]
      exact ⟨_, items, hitems, rfl⟩
  obtain ⟨root, hroot⟩ := hroot
  refine ⟨⟨parts, nodes.map (·.2), root, _⟩, ?_, rfl, rfl⟩
  simp only [verifyReplayPartGraph, bind_eq_ok, reject_eq_ok, pure_eq_ok]
  refine ⟨(), not_or.mpr ⟨hnodes.1, not_lt.mpr hnodes.2⟩, (), hscope, nodes, hloop, root, ?_, ?_⟩
  · rw [hmap]
    exact hroot
  · rw [hmap]
    rfl

end TickPlatform.Remote
