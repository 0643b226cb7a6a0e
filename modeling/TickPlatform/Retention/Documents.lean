import TickPlatform.Protocol.Runes
import TickPlatform.Replay.Chain
import TickPlatform.Retention.Interrupted
import TickPlatform.Retention.Planned

/-!
# Documents that the executor can write

Whatever candidate a plan was made from, its checkpoint or completion passes its own checks and has a canonical
encoding. The digests of all documents are taken to be nonzero: the code uses zero for a digest that is missing.
-/

namespace TickPlatform.Retention

open Bytes Protocol Replay Wal Files Crash

variable {H : Hashes} {artifact : LocalArtifact} {proof : RetentionProof} {action : PruneAction} {range : WALRange}

/-! ## Identities -/

variable {id : Bytes}

theorem stableID_eq_ok :
    artifact.stableID H = .ok id ↔ validateRelativePath artifact.trustedPath = .ok () ∧ artifact.bytes ≠ 0 ∧
      artifact.contentSHA256 ≠ Digest.zero ∧ ∃ canonical, canonicalJSON artifact.value = .ok canonical ∧
        id = artifactPrefixText ++ encodeHashHex (H.sha256 (retentionArtifactDomain ++ canonical)) := by
  simp only [LocalArtifact.stableID, bind_eq_ok, pure_eq_ok, reject_eq_ok, not_or, exists_unit, and_assoc,
    eq_comm (a := id)]

theorem stableID_utf8 (h : artifact.stableID H = .ok id) : utf8Valid artifact.trustedPath = true := by
  obtain ⟨-, -, -, canonical, hcanonical, -⟩ := stableID_eq_ok.mp h
  have hencodes : Encodes artifact.value := ⟨canonical, hcanonical⟩
  rw [LocalArtifact.value, encodes_jsonObject] at hencodes
  exact encodes_string.mp (hencodes ("path", .string artifact.trustedPath) (by simp))

theorem isArtifactID_of_stableID (h : artifact.stableID H = .ok id) : isArtifactID id = true := by
  obtain ⟨-, -, -, canonical, -, rfl⟩ := stableID_eq_ok.mp h
  have hstart : artifactPrefixText.length = 9 := by decide
  have hdigits := hexBytes_digits (H.sha256 (retentionArtifactDomain ++ canonical)).bytes
  simp only [isArtifactID, Bool.and_eq_true, decide_eq_true_eq, List.length_append, hstart, length_encodeHashHex,
    List.all_eq_true, and_true]
  rw [← hstart]
  refine ⟨List.take_left, fun x hx => ?_⟩
  rw [List.drop_left] at hx
  rcases hdigits x hx with ⟨hlow, hhigh⟩ | ⟨hlow, hhigh⟩
  · simp [isHexDigit, hlow, hhigh]
  · simp [isHexDigit, hlow, hhigh]

theorem isASCII_artifactID (h : artifact.stableID H = .ok id) : isASCII id = true := by
  obtain ⟨-, -, -, canonical, -, rfl⟩ := stableID_eq_ok.mp h
  have hstart : isASCII artifactPrefixText = true := by decide
  have hdigits := isASCII_encodeHashHex (H.sha256 (retentionArtifactDomain ++ canonical))
  unfold isASCII at hstart hdigits ⊢
  rw [List.all_append, hstart, hdigits]
  rfl

theorem checkCompletionName_ok (h : artifact.stableID H = .ok id) : checkCompletionName id = .ok () := by
  obtain ⟨-, -, -, canonical, -, rfl⟩ := stableID_eq_ok.mp h
  have hstart : artifactPrefixText ≠ [] ∧ (artifactPrefixText.all fun x => x ≠ 47 ∧ x ≠ 92) = true := by decide
  rw [checkCompletionName, reject_eq_ok, not_or]
  refine ⟨fun hnil => hstart.1 (List.append_eq_nil_iff.mp hnil).1, ?_⟩
  rw [List.any_eq_true]
  rintro ⟨x, hx, hbad⟩
  rw [decide_eq_true_eq] at hbad
  rcases List.mem_append.mp hx with hx | hx
  · have hgood := of_decide_eq_true (List.all_eq_true.mp hstart.2 x hx)
    rcases hbad with h | h
    · exact hgood.1 h
    · exact hgood.2 h
  · rcases hbad with rfl | rfl
    · rcases hexBytes_digits _ _ hx with h | h <;> exact absurd h (by decide)
    · rcases hexBytes_digits _ _ hx with h | h <;> exact absurd h (by decide)

/-! ## Proofs -/

theorem digest_eq_ok {digest : Digest} :
    proof.digest H = .ok digest ↔ proof.validate = .ok () ∧ ∃ canonical, canonicalJSON proof.value = .ok canonical ∧
      digest = H.sha256 (retentionProofDomain ++ canonical) := by
  simp only [RetentionProof.digest, RetentionProof.canonicalJSON, bind_eq_ok, pure_eq_ok, exists_unit, exists_and_left,
    and_assoc, eq_comm (a := digest)]

/-! ## Checkpoints -/

variable (hnonzero : ∀ data, H.sha256 data ≠ Digest.zero)
include hnonzero

/-- The checkpoint of a candidate that an action was made from can be written. -/
theorem nextCheckpoint_canonical (hmade : makePruneAction H artifact proof = .ok action)
    (hbound : proofMatchesArtifact proof artifact = true) (hkind : artifact.kind = .walSegment)
    (hrange : artifact.walRange = some range) (previous : Digest) :
    ∃ canonical, (nextCheckpoint H action artifact range proof previous).canonicalJSON H = .ok canonical := by
  obtain ⟨id, digest, hid, hdigest, haction⟩ := makePruneAction_eq_ok.mp hmade
  have hwalEnd : action.walEndSequence = range.endSequence := by simp [haction, hrange]
  obtain ⟨-, -, hsha, -⟩ := stableID_eq_ok.mp hid
  obtain ⟨hvalid, canonical, hcanonical, hvalue⟩ := digest_eq_ok.mp hdigest
  obtain ⟨hproofKind, -, -, hproofSHA, hproofRange, -⟩ := proofMatchesArtifact_iff.mp hbound
  rw [hrange] at hproofRange
  obtain ⟨hstart, hle, hroot⟩ := range_facts (range_validate hvalid hproofRange)
  have hend : range.endSequence ≠ 0 := by
    rintro hzero
    rw [hzero, UInt64.le_iff_toNat_le] at hle
    exact hstart (UInt64.toNat_inj.mp (Nat.le_zero.mp hle))
  have hdigestZero : digest ≠ Digest.zero := hvalue ▸ hnonzero _
  have hvalidate : (nextCheckpoint H action artifact range proof previous).validate H = .ok () := by
    simp only [PruneCheckpoint.validate, PruneCheckpoint.bindsProof, nextCheckpoint, hwalEnd, hdigest, validateHash,
      bind_eq_ok, reject_eq_ok, mapError_eq_ok, hvalid, hproofRange, hproofKind, hproofSHA, hkind]
    simp [hend, hroot, hsha, hdigestZero, Except.toOption]
  have hencodes : Encodes (nextCheckpoint H action artifact range proof previous).value := by
    rw [PruneCheckpoint.value, encodes_jsonObject]
    simp only [nextCheckpoint, List.forall_mem_cons, forall_mem_nil_iff, and_true, encodes_uint,
      encodes_hash, true_and]
    exact ⟨encodes_text _, canonical, hcanonical⟩
  obtain ⟨text, htext⟩ := hencodes
  exact ⟨text, bind_eq_ok.mpr ⟨(), hvalidate, htext⟩⟩

variable {canonical : Bytes}

omit hnonzero in
theorem sealCheckpoint_ok {checkpoint : PruneCheckpoint} (h : checkpoint.canonicalJSON H = .ok canonical) :
    ∃ document, sealCheckpoint H checkpoint = .ok document := by
  unfold sealCheckpoint
  split
  · exact ⟨_, rfl⟩
  · next err herr =>
    rw [h] at herr
    cases herr

/-! ## Completions -/

/-- The completion of a candidate of the raw outbox can be written. -/
theorem completionOf_canonical {plan : PrunePlan} {digest : Digest}
    (hmade : makePruneAction H artifact proof = .ok action) (hbound : proofMatchesArtifact proof artifact = true)
    (hkind : artifact.kind = .rawOutbox) (hrange : artifact.walRange ≠ none)
    (hpath : artifact.trustedPath = rawWALObjectKey artifact.contentSHA256) (hdigest : proof.digest H = .ok digest)
    (hplan : plan.planDigest = prunePlanDigest H canonical) :
    ∃ canonical, (completionOf plan action artifact proof digest).canonicalJSON H = .ok canonical := by
  obtain ⟨id, _, hid, -, haction⟩ := makePruneAction_eq_ok.mp hmade
  obtain ⟨hrelative, hbytes, hsha, -⟩ := stableID_eq_ok.mp hid
  obtain ⟨hvalid, text, htext, hvalue⟩ := digest_eq_ok.mp hdigest
  obtain ⟨hproofKind, hproofPath, hproofBytes, hproofSHA, hproofRange, -⟩ := proofMatchesArtifact_iff.mp hbound
  have hdigestZero : digest ≠ Digest.zero := hvalue ▸ hnonzero _
  have hplanZero : plan.planDigest ≠ Digest.zero := hplan ▸ hnonzero _
  have hartifactID := isArtifactID_of_stableID hid
  have hidNe : id ≠ [] := by
    rintro rfl
    exact absurd hartifactID (by decide)
  have hvalidate : (completionOf plan action artifact proof digest).validate H = .ok () := by
    simp only [PruneCompletion.validate, PruneCompletion.bindsProof, completionOf, haction, bind_eq_ok, reject_eq_ok,
      mapError_eq_ok, hvalid, hproofRange, hproofKind, hproofPath, hproofBytes, hproofSHA, hkind, hartifactID, hdigest,
      hrelative]
    simp [hbytes, hsha, hdigestZero, hplanZero, hidNe, hrange, hpath, Except.toOption]
  have hencodes : Encodes (completionOf plan action artifact proof digest).value := by
    rw [PruneCompletion.value, encodes_jsonObject]
    simp only [completionOf, haction, hkind]
    simp only [List.forall_mem_cons, forall_mem_nil_iff, and_true, encodes_uint, encodes_hash,
      true_and]
    exact ⟨encodes_string.mpr (utf8Valid_of_isASCII (isASCII_artifactID hid)),
      encodes_text _,
      encodes_text _, ⟨text, htext⟩,
      encodes_string.mpr (stableID_utf8 hid)⟩
  obtain ⟨result, hresult⟩ := hencodes
  exact ⟨result, bind_eq_ok.mpr ⟨(), hvalidate, hresult⟩⟩

omit hnonzero in
theorem sealCompletion_ok {completion : PruneCompletion} (h : completion.canonicalJSON H = .ok canonical) :
    ∃ document, sealCompletion H completion = .ok document := by
  unfold sealCompletion
  split
  · exact ⟨_, rfl⟩
  · next err herr =>
    rw [h] at herr
    cases herr

omit hnonzero in
theorem sealCompletion_value {completion : PruneCompletion} {document : CompletionDocument H}
    (h : sealCompletion H completion = .ok document) : document.value = completion := by
  unfold sealCompletion at h
  split at h
  · cases h
    rfl
  · cases h

end TickPlatform.Retention
