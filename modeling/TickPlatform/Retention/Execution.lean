import TickPlatform.Retention.Documents

/-!
# Executing a plan

Actions on the raw outbox succeed on whatever files the candidates were made from, and leave every other file
alone. WAL actions succeed only at the expected start of the plan.
-/

namespace TickPlatform.Retention

open Bytes Protocol Replay Wal Files Crash

variable {H : Hashes} {disk : PruneDisk H} {chain : List CheckpointRecord} {segments : List VerifiedSegment}
  {roots : PruneRoots} {plan : PrunePlan} {known : List Identified} {action : PruneAction} {artifact : LocalArtifact}
  {proof : RetentionProof}

/-! ## Actions of a plan -/

/-- What `validateAction` checks apart from the file. -/
structure Authorised (H : Hashes) (roots : PruneRoots) (plan : PrunePlan) (known : List Identified) (action : PruneAction)
    (artifact : LocalArtifact) (proof : RetentionProof) : Prop where
  candidate : ∃ candidate, known.lookup action.artifactID = some candidate ∧ candidate.artifact = artifact ∧
    deletionProof plan candidate = .ok proof
  made : makePruneAction H artifact proof = .ok action
  valid : proof.validate = .ok ()
  bound : proofMatchesArtifact proof artifact = true
  root : roots.rootFor action.artifactKind = true

variable {content : Content H}

/-- An action takes its kind and its path from the artifact. -/
theorem Authorised.action_fields (h : Authorised H roots plan known action artifact proof) :
    action.artifactKind = artifact.kind ∧ action.trustedPath = artifact.trustedPath := by
  obtain ⟨_, _, -, -, rfl⟩ := makePruneAction_eq_ok.mp h.made
  exact ⟨rfl, rfl⟩

theorem Authorised.validated (h : Authorised H roots plan known action artifact proof) {name : PruneName}
    (hfile : trustedArtifactPath disk artifact.kind artifact.trustedPath = .ok (name, content))
    (hverify : verifyLocalArtifact content artifact = .ok ()) :
    validateAction roots plan known disk action = .ok (artifact, proof) :=
  validateAction_eq_ok.mpr ⟨h.candidate, h.made, h.valid, h.bound, h.root, name, content, hfile, hverify⟩

variable {input : PlannerInput}

theorem deletionProof_ok {candidate : CandidateFact} (h : Eligible input candidate proof)
    (hplan : plan.requireRemoteVerified = input.requireRemoteVerified) : deletionProof plan candidate = .ok proof := by
  simp only [deletionProof, bind_eq_ok, pure_eq_ok, reject_eq_ok, h.given]
  refine ⟨proof, rfl, (), by simp [h.recovered, h.fresh, h.covered], (), ?_, rfl⟩
  rw [hplan]
  rintro ⟨hrequire, hmissing⟩
  simp [h.verified hrequire] at hmissing

theorem Planned.authorised {entries : List Identified} {candidates : List CandidateFact}
    (h : Planned H input plan entries) (hlisted : Listed H entries candidates) (hmem : action ∈ plan.actions) :
    ∃ candidate ∈ candidates, ∃ proof, Eligible input candidate proof ∧
      Authorised H ⟨true, true⟩ plan entries action candidate.artifact proof := by
  obtain ⟨entry, hentry, proof, heligible, hmade⟩ := h.made action hmem
  have hfacts := candidateEligibility_ok heligible
  have hid := hlisted.ids entry hentry
  rw [makePruneAction_id hmade, Except.ok.injEq] at hid
  have hcandidate : entry.2 ∈ candidates := hlisted.facts ▸ List.mem_map_of_mem hentry
  refine ⟨entry.2, hcandidate, proof, hfacts, ⟨entry.2, ?_, rfl, deletionProof_ok hfacts h.verified⟩, hmade, hfacts.valid,
    hfacts.bound, ?_⟩
  · rw [hid]
    exact hlisted.lookup hentry
  · obtain ⟨_, _, -, -, rfl⟩ := makePruneAction_eq_ok.mp hmade
    rcases hfacts.kind with hkind | hkind <;> simp [hkind, PruneRoots.rootFor]

/-! ## Injected faults -/

theorem meets_noFault_bind {C : PruneDisk H → Prop} {Q : Unit → PruneDisk H → Prop} {E : PruneError → PruneDisk H → Prop}
    {call : Nat} {point : FaultPoint} {id : Bytes} {f : Unit → PruneProg H Unit} (h : Meets (f ()) disk C Q E) :
    Meets (inject noFault call point id >>= f) disk C Q E :=
  meets_ok_bind rfl h

theorem meets_noFault {C : PruneDisk H → Prop} {Q : Unit → PruneDisk H → Prop} {E : PruneError → PruneDisk H → Prop}
    {call : Nat} {point : FaultPoint} {id : Bytes} (hC : C disk) (hQ : Q () disk) :
    Meets (inject noFault call point id) disk C Q E :=
  meets_of_ok rfl (crashAt_nil_of hC) hQ

/-! ## One file of the raw outbox -/

variable {path : Bytes}

theorem trustedArtifactPath_missing {kind : ArtifactKind} {name : PruneName}
    (hpath : validateRelativePath path = .ok ()) (hname : artifactName kind path = some name)
    (hlookup : disk.lookup name = none) : trustedArtifactPath disk kind path = .error .notExist := by
  unfold trustedArtifactPath
  rw [hpath, hname]
  simp [hlookup, bind, Except.bind, Except.mapError]

/-- A completion file for the action, with its artifact and its proof. -/
def Completes (content : Content H) (action : PruneAction) (artifact : LocalArtifact) (proof : RetentionProof) : Prop :=
  ∃ document, content = .completion document ∧ document.value.artifactID = action.artifactID ∧
    completionArtifact H document.value = .ok artifact ∧ document.value.retentionProof = proof

/-- An action on the outbox that is not finished, or finished with its file gone. -/
structure Outstanding (disk : PruneDisk H) (action : PruneAction) (artifact : LocalArtifact) (proof : RetentionProof) :
    Prop where
  file : ∀ content, disk.lookup (.outbox artifact.trustedPath) = some content →
    verifyLocalArtifact content artifact = .ok ()
  completion : ∀ content, disk.lookup (.completion action.artifactID) = some content → Completes content action artifact proof
  either : disk.lookup (.outbox artifact.trustedPath) ≠ none ∨ disk.lookup (.completion action.artifactID) ≠ none

/-- A candidate of the raw outbox that an action was made from. -/
structure Prunable (H : Hashes) (roots : PruneRoots) (plan : PrunePlan) (known : List Identified) (action : PruneAction)
    (artifact : LocalArtifact) (proof : RetentionProof) : Prop where
  authorised : Authorised H roots plan known action artifact proof
  kind : artifact.kind = .rawOutbox
  idle : artifact.active = false
  range : artifact.walRange ≠ none
  path : artifact.trustedPath = rawWALObjectKey artifact.contentSHA256

section
variable (h : Prunable H roots plan known action artifact proof)
include h

theorem Prunable.action_path : action.trustedPath = artifact.trustedPath := h.authorised.action_fields.2

theorem Prunable.action_kind : action.artifactKind = .rawOutbox := h.authorised.action_fields.1.trans h.kind

theorem Prunable.id : artifact.stableID H = .ok action.artifactID := makePruneAction_id h.authorised.made

theorem Prunable.resolved {content : Content H} (hfile : disk.lookup (.outbox artifact.trustedPath) = some content) :
    trustedArtifactPath disk artifact.kind artifact.trustedPath = .ok (.outbox artifact.trustedPath, content) := by
  refine trustedArtifactPath_eq_ok.mpr ⟨(stableID_eq_ok.mp h.id).1, ?_, hfile⟩
  rw [h.kind]
  rfl

theorem Prunable.missing (hfile : disk.lookup (.outbox artifact.trustedPath) = none) :
    trustedArtifactPath disk artifact.kind artifact.trustedPath = .error .notExist := by
  refine trustedArtifactPath_missing (stableID_eq_ok.mp h.id).1 ?_ hfile
  rw [h.kind]
  rfl

theorem Prunable.completes {digest : Digest} {document : CompletionDocument H}
    (hdocument : document.value = completionOf plan action artifact proof digest) :
    Completes (.completion document) action artifact proof := by
  obtain ⟨_, hvalid, -⟩ := bind_eq_ok.mp document.valid
  obtain ⟨-, -, -, -, hproofRange, hproofReplay⟩ := proofMatchesArtifact_iff.mp h.authorised.bound
  obtain ⟨_, _, -, -, haction⟩ := makePruneAction_eq_ok.mp h.authorised.made
  have hsame : (⟨action.artifactKind, action.trustedPath, action.bytes, artifact.contentSHA256, proof.walRange,
      proof.replay, false⟩ : LocalArtifact) = artifact := by
    rw [hproofRange, hproofReplay, haction, ← h.idle]
  have hbound := h.authorised.bound
  have hid := h.id
  refine ⟨document, rfl, by rw [hdocument]; rfl, ?_, by rw [hdocument]; rfl⟩
  rw [hdocument] at hvalid ⊢
  rw [← hsame] at hbound hid
  simp only [completionArtifact, bind_eq_ok, pure_eq_ok, reject_eq_ok, not_not, toOption_eq_some]
  exact ⟨(), hvalid, (), hid, (), by rw [Bool.not_eq_true', Bool.not_eq_false]; exact hbound, hsame⟩

theorem Prunable.sameExecution {digest : Digest} (hdigest : proof.digest H = .ok digest) {document : CompletionDocument H}
    (hcompletes : Completes (.completion document) action artifact proof) :
    samePruneCompletionExecution document.value (completionOf plan action artifact proof digest) = true := by
  obtain ⟨_, hcontent, hid, hartifact, hproof⟩ := hcompletes
  cases hcontent
  simp only [completionArtifact, bind_eq_ok, pure_eq_ok] at hartifact
  obtain ⟨_, hvalid, _, -, _, -, rfl⟩ := hartifact
  obtain ⟨_, _, -, -, haction⟩ := makePruneAction_eq_ok.mp h.authorised.made
  simp only [PruneCompletion.validate, bind_eq_ok, reject_eq_ok, not_or, not_not] at hvalid
  obtain ⟨_, ⟨hversion, -⟩, _, -, _, -, _, -, _, -, _, -, _, -, _, hbound, -⟩ := hvalid
  rw [toOption_eq_some, hproof, hdigest, Except.ok.injEq] at hbound
  simp only [samePruneCompletionExecution, decide_eq_true_eq]
  exact ⟨hversion, hid, by rw [completionOf, haction], by rw [completionOf, haction], by rw [completionOf, haction], rfl,
    hbound.symm⟩

/-- An action is skipped where its file is gone. -/
theorem Prunable.completed (hout : Outstanding disk action artifact proof) :
    completedOtherAction roots disk action = .ok (disk.lookup (.outbox artifact.trustedPath)).isNone := by
  have hroot : checkRoot roots action.artifactKind = .ok () := by
    rw [checkRoot, reject_eq_ok, h.authorised.root]
    simp
  unfold completedOtherAction loadPruneCompletion
  rw [hroot, checkCompletionName_ok h.id]
  cases hcompletion : disk.lookup (.completion action.artifactID) with
  | none =>
    have hfile : (disk.lookup (.outbox artifact.trustedPath)).isNone = false := by
      rcases hout.either with hpresent | hpresent
      · rw [Option.isNone_eq_false_iff, Option.isSome_iff_ne_none]
        exact hpresent
      · exact absurd hcompletion hpresent
    rw [hfile]
    rfl
  | some content =>
    obtain ⟨document, rfl, hid, hartifact, hproof⟩ := hout.completion content hcompletion
    have hmatches : completionMatchesAction H document.value action = .ok () := by
      simp only [completionMatchesAction, bind_eq_ok, reject_eq_ok, not_not, toOption_eq_some]
      exact ⟨artifact, hartifact, hproof ▸ h.authorised.made⟩
    simp only [decodeCompletion, hid, ne_eq, not_true_eq_false, h.action_path, h.action_kind, ← h.kind]
    cases hfile : disk.lookup (.outbox artifact.trustedPath) with
    | none =>
      rw [h.missing hfile]
      simp [reject, hmatches, bind, Except.bind, pure, Except.pure, Except.mapError]
    | some file =>
      rw [h.resolved hfile]
      simp [reject, hmatches, hartifact, hout.file file hfile, bind, Except.bind, pure, Except.pure, Except.mapError]

end

theorem freshNonce_free (disk : PruneDisk H) : disk.lookup (.completionTemporary (freshNonce disk)) = none := by
  rw [AList.lookup_eq_none]
  intro hmem
  have hle := List.single_le_sum (l := disk.keys.map PruneName.nonce) (fun _ _ => Nat.zero_le _) _
    (List.mem_map_of_mem hmem)
  simp only [PruneName.nonce, freshNonce] at hle
  omega

def PruneName.isCompletionTemporary : PruneName → Bool
  | .completionTemporary _ => true
  | _ => false

/-- Nothing but the files of the actions and their completions has changed, temporary files apart: files only go and
completions only come. -/
structure SameOthers (actions : List PruneAction) (disk t : PruneDisk H) : Prop where
  others : ∀ name, PruneName.isCompletionTemporary name = false →
    (∀ action ∈ actions, name ≠ .outbox action.trustedPath ∧ name ≠ .completion action.artifactID) →
    t.lookup name = disk.lookup name
  files : ∀ path content, t.lookup (.outbox path) = some content → disk.lookup (.outbox path) = some content
  completions : ∀ id content, disk.lookup (.completion id) = some content → t.lookup (.completion id) = some content

theorem SameOthers.refl (actions : List PruneAction) (disk : PruneDisk H) : SameOthers actions disk disk :=
  ⟨fun _ _ _ => rfl, fun _ _ => id, fun _ _ => id⟩

/-- The file is gone and a completion says why. -/
def Pruned (disk : PruneDisk H) (action : PruneAction) (artifact : LocalArtifact) (proof : RetentionProof) : Prop :=
  disk.lookup (.outbox artifact.trustedPath) = none ∧
    ∃ content, disk.lookup (.completion action.artifactID) = some content ∧ Completes content action artifact proof

def SameTemporaries (disk t : PruneDisk H) : Prop :=
  ∀ nonce, t.lookup (.completionTemporary nonce) = disk.lookup (.completionTemporary nonce)

variable {t : PruneDisk H}

theorem Outstanding.congr (h : Outstanding disk action artifact proof)
    (hfile : t.lookup (.outbox artifact.trustedPath) = disk.lookup (.outbox artifact.trustedPath))
    (hcompletion : t.lookup (.completion action.artifactID) = disk.lookup (.completion action.artifactID)) :
    Outstanding t action artifact proof where
  file content hcontent := h.file content (hfile ▸ hcontent)
  completion content hcontent := h.completion content (hcompletion ▸ hcontent)
  either := by
    rw [hfile, hcompletion]
    exact h.either

theorem Pruned.outstanding (h : Pruned disk action artifact proof) : Outstanding disk action artifact proof := by
  obtain ⟨hgone, content, hcontent, hcompletes⟩ := h
  exact ⟨by simp [hgone], by simpa [hcontent] using hcompletes, by simp [hcontent]⟩

/-- The completion is in place and the file goes. -/
theorem removeFile_meets (h : Prunable H roots plan known action artifact proof) {file : Content H}
    (hothers : SameOthers [action] disk t) (htemporaries : SameTemporaries disk t)
    (hpresent : t.lookup (.outbox artifact.trustedPath) = some file) (hverify : verifyLocalArtifact file artifact = .ok ())
    (hcontent : t.lookup (.completion action.artifactID) = some content) (hcompletes : Completes content action artifact proof) :
    Meets (do
      inject noFault 0 .beforeUnlink action.artifactID
      .emit (.remove (.outbox artifact.trustedPath))
      inject noFault 1 .afterUnlink action.artifactID
      inject noFault 2 .outboxDirectorySync action.artifactID : PruneProg H Unit) t
      (fun t => SameOthers [action] disk t ∧ Outstanding t action artifact proof)
      (fun _ t => SameOthers [action] disk t ∧ SameTemporaries disk t ∧ Pruned t action artifact proof) (fun _ _ => False) := by
  have houtstanding : Outstanding t action artifact proof :=
    ⟨by simpa [hpresent] using hverify, by simpa [hcontent] using hcompletes, by simp [hpresent]⟩
  have hgone : (t.erase (.outbox artifact.trustedPath)).lookup (.outbox artifact.trustedPath) = none :=
    AList.lookup_erase _ _
  have hkept : (t.erase (.outbox artifact.trustedPath)).lookup (.completion action.artifactID) = some content := by
    rw [lookup_erase_of, if_neg (by simp), hcontent]
  have hothers' : SameOthers [action] disk (t.erase (.outbox artifact.trustedPath)) := by
    refine ⟨fun name hname hne => ?_, fun path content' h' => ?_, fun id content' h' => ?_⟩
    · rw [lookup_erase_of, if_neg (by rw [← h.action_path]; exact (hne action List.mem_cons_self).1)]
      exact hothers.others name hname hne
    · rw [lookup_erase_of] at h'
      split at h'
      · cases h'
      · exact hothers.files path content' h'
    · rw [lookup_erase_of, if_neg (by simp)]
      exact hothers.completions id content' h'
  have htemporaries' : SameTemporaries disk (t.erase (.outbox artifact.trustedPath)) := by
    intro nonce
    rw [lookup_erase_of, if_neg (by simp)]
    exact htemporaries nonce
  have hpruned : Pruned (t.erase (.outbox artifact.trustedPath)) action artifact proof :=
    ⟨hgone, content, hkept, hcompletes⟩
  refine meets_noFault_bind (meets_bind ?_)
  refine meets_emit ⟨hothers, houtstanding⟩ (fun _ ht => absurd ht torn_remove) ⟨hothers', hpruned.outstanding⟩ ?_
  exact meets_noFault_bind (meets_noFault ⟨hothers', hpruned.outstanding⟩ ⟨hothers', htemporaries', hpruned⟩)

/-- Publishing a completion changes its own file only. -/
theorem publishCompletion_meets {Q : Unit → PruneDisk H → Prop} (hout : Outstanding disk action artifact proof)
    (hfree : disk.lookup (.completion action.artifactID) = none) {document : CompletionDocument H}
    (hcompletes : Completes (.completion document) action artifact proof)
    (hQ : ∀ t, SameOthers [action] disk t → SameTemporaries disk t →
      t.lookup (.outbox artifact.trustedPath) = disk.lookup (.outbox artifact.trustedPath) →
      t.lookup (.completion action.artifactID) = some (.completion document) → Q () t) :
    Meets (publishFile (.completionTemporary (freshNonce disk)) (.completion action.artifactID) (.completion document)) disk
      (fun t => SameOthers [action] disk t ∧ Outstanding t action artifact proof) Q (fun _ _ => False) := by
  have hwritten : ∀ part, SameOthers [action] disk (disk.insert (.completionTemporary (freshNonce disk)) part) ∧
      Outstanding (disk.insert (.completionTemporary (freshNonce disk)) part) action artifact proof := by
    intro part
    have hlookup : ∀ name, PruneName.isCompletionTemporary name = false →
        (disk.insert (.completionTemporary (freshNonce disk)) part).lookup name = disk.lookup name := by
      intro name hname
      rw [lookup_insert_of, if_neg (by rintro rfl; cases hname)]
    exact ⟨⟨fun name hname _ => hlookup name hname, fun path content => (hlookup _ rfl).symm.trans,
      fun id content => (hlookup _ rfl).trans⟩, hout.congr (hlookup _ rfl) (hlookup _ rfl)⟩
  -- the disk once the completion is linked, with or without the temporary name
  have hpublished : ∀ t : PruneDisk H, (∀ name, PruneName.isCompletionTemporary name = false →
      t.lookup name = if name = .completion action.artifactID then some (.completion document) else disk.lookup name) →
      SameOthers [action] disk t ∧ Outstanding t action artifact proof := by
    intro t ht
    have hcompletion : t.lookup (.completion action.artifactID) = some (.completion document) := by
      rw [ht _ rfl, if_pos rfl]
    refine ⟨⟨fun name hname hne => ?_, fun path content h' => ?_, fun id content h' => ?_⟩, fun content h' => ?_,
      fun content h' => ?_, .inr (by rw [hcompletion]; simp)⟩
    · rw [ht name hname, if_neg (hne action List.mem_cons_self).2]
    · rw [ht _ rfl, if_neg (by simp)] at h'
      exact h'
    · rw [ht _ rfl, if_neg, h']
      intro heq
      rw [heq, hfree] at h'
      cases h'
    · rw [ht _ rfl, if_neg (by simp)] at h'
      exact hout.file content h'
    · rw [hcompletion, Option.some.injEq] at h'
      exact h' ▸ hcompletes
  have hlinked : ∀ name, PruneName.isCompletionTemporary name = false →
      ((disk.insert (.completionTemporary (freshNonce disk)) (.completion document)).insert (.completion action.artifactID)
        (.completion document)).lookup name =
      if name = .completion action.artifactID then some (.completion document) else disk.lookup name := by
    intro name hname
    rw [lookup_insert_of, lookup_insert_of, if_neg (fun heq : name = .completionTemporary _ => ?_)]
    rw [heq] at hname
    cases hname
  have hdone : ∀ name, PruneName.isCompletionTemporary name = false →
      (((disk.insert (.completionTemporary (freshNonce disk)) (.completion document)).insert (.completion action.artifactID)
        (.completion document)).erase (.completionTemporary (freshNonce disk))).lookup name =
      if name = .completion action.artifactID then some (.completion document) else disk.lookup name := by
    intro name hname
    rw [lookup_erase_of, if_neg (by rintro rfl; cases hname)]
    exact hlinked name hname
  have hfresh := freshNonce_free disk
  refine meets_publishFile ⟨SameOthers.refl _ disk, hout⟩ hwritten (hpublished _ hlinked) (hpublished _ hdone)
    (hQ _ (hpublished _ hdone).1 (fun nonce => ?_) ?_ ?_)
  · rw [lookup_erase_of, lookup_insert_of, lookup_insert_of]
    split
    · next heq => rw [heq, hfresh]
    · simp
  · rw [hdone _ rfl, if_neg (by simp)]
  · rw [hdone _ rfl, if_pos rfl]

section
variable (hnonzero : ∀ data, H.sha256 data ≠ Digest.zero) {canonical : Bytes}
  (hplan : plan.planDigest = prunePlanDigest H canonical)
  (h : Prunable H roots plan known action artifact proof)
include hnonzero hplan h

/-- **One action on the raw outbox**: wherever it is cut off it is still outstanding, and it ends with the file gone
and its completion in place. -/
theorem executeOtherAction_meets (hout : Outstanding disk action artifact proof) :
    Meets (executeOtherAction noFault roots plan known action) disk
      (fun t => SameOthers [action] disk t ∧ Outstanding t action artifact proof)
      (fun _ t => SameOthers [action] disk t ∧ SameTemporaries disk t ∧ Pruned t action artifact proof) (fun _ _ => False) := by
  have hsame := SameOthers.refl [action] disk
  refine meets_read_bind (meets_ok_bind (h.completed hout) ?_)
  cases hfile : disk.lookup (.outbox artifact.trustedPath) with
  | none =>
    rcases hout.either with hpresent | hpresent
    · exact absurd hfile hpresent
    obtain ⟨content, hcontent⟩ := Option.ne_none_iff_exists'.mp hpresent
    exact meets_pure ⟨hsame, hout⟩ ⟨hsame, fun _ => rfl, hfile, content, hcontent, hout.completion content hcontent⟩
  | some file =>
    have hresolved := h.resolved hfile
    have hverify := hout.file file hfile
    refine meets_read_bind (meets_ok_bind (h.authorised.validated hresolved hverify) ?_)
    have hroot : checkRoot roots action.artifactKind = .ok () := by
      rw [checkRoot, reject_eq_ok, h.authorised.root]
      simp
    refine meets_ok_bind hroot (meets_read_bind (meets_ok_bind (resolveArtifact_eq_ok.mpr hresolved) ?_))
    obtain ⟨_, digest, -, hdigest, -⟩ := makePruneAction_eq_ok.mp h.authorised.made
    refine meets_ok_bind (mapError_eq_ok.mpr hdigest) (meets_bind ?_)
    obtain ⟨text, htext⟩ := completionOf_canonical hnonzero h.authorised.made h.authorised.bound h.kind h.range h.path
      hdigest hplan
    obtain ⟨document, hdocument⟩ := sealCompletion_ok htext
    refine meets_ok_bind (mapError_eq_ok.mpr hdocument)
      (meets_ok_bind (checkCompletionName_ok h.id) (meets_read_bind ?_))
    rw [show (completionOf plan action artifact proof digest).artifactID = action.artifactID from rfl]
    cases hcompletion : disk.lookup (.completion action.artifactID) with
    | some content =>
      have hcompletes := hout.completion content hcompletion
      obtain ⟨prior, rfl, -⟩ := id hcompletes
      have haccept : reject (Content.bytes (H := H) (.completion prior) ≠ document.canonical ∧
          !((decodeCompletion (.completion prior)).any fun prior => samePruneCompletionExecution prior.value
            (completionOf plan action artifact proof digest))) (integrity "completion differs for artifact") = .ok () := by
        rw [reject_eq_ok]
        simp [decodeCompletion, h.sameExecution hdigest hcompletes]
      refine meets_lift ⟨hsame, hout⟩ (fun err herr => ?_) fun _ _ => ?_
      · rw [haccept] at herr
        cases herr
      · exact removeFile_meets h hsame (fun _ => rfl) hfile hverify hcompletion hcompletes
    | none =>
      have hcompletes := h.completes (sealCompletion_value hdocument)
      refine meets_read_bind (publishCompletion_meets hout hcompletion hcompletes ?_)
      intro t hothers htemporaries hkept hpublished
      exact removeFile_meets h hothers htemporaries (hkept.trans hfile) hverify hpublished hcompletes

end

/-! ## The files of the raw outbox -/

/-- An action on the outbox that can be carried out from the disk. -/
def Pending (roots : PruneRoots) (plan : PrunePlan) (known : List Identified) (disk : PruneDisk H) (action : PruneAction) :
    Prop :=
  ∃ artifact proof, Prunable H roots plan known action artifact proof ∧ Outstanding disk action artifact proof

/-- An action on the outbox that has been carried out. -/
def Done (roots : PruneRoots) (plan : PrunePlan) (known : List Identified) (disk : PruneDisk H) (action : PruneAction) :
    Prop :=
  ∃ artifact proof, Prunable H roots plan known action artifact proof ∧ Pruned disk action artifact proof

theorem Pending.congr (h : Pending roots plan known disk action)
    (hfile : t.lookup (.outbox action.trustedPath) = disk.lookup (.outbox action.trustedPath))
    (hcompletion : t.lookup (.completion action.artifactID) = disk.lookup (.completion action.artifactID)) :
    Pending roots plan known t action := by
  obtain ⟨artifact, proof, hprunable, hout⟩ := h
  rw [hprunable.action_path] at hfile
  exact ⟨artifact, proof, hprunable, hout.congr hfile hcompletion⟩

theorem Done.congr (h : Done roots plan known disk action)
    (hfile : t.lookup (.outbox action.trustedPath) = disk.lookup (.outbox action.trustedPath))
    (hcompletion : t.lookup (.completion action.artifactID) = disk.lookup (.completion action.artifactID)) :
    Done roots plan known t action := by
  obtain ⟨artifact, proof, hprunable, hgone, content, hcontent, hcompletes⟩ := h
  rw [hprunable.action_path] at hfile
  exact ⟨artifact, proof, hprunable, hfile.trans hgone, content, hcompletion.trans hcontent, hcompletes⟩

theorem Done.pending (h : Done roots plan known disk action) : Pending roots plan known disk action := by
  obtain ⟨artifact, proof, hprunable, hpruned⟩ := h
  exact ⟨artifact, proof, hprunable, hpruned.outstanding⟩

variable {actions : List PruneAction}

theorem SameOthers.file (h : SameOthers actions disk t) (hnew : action.trustedPath ∉ actions.map (·.trustedPath)) :
    t.lookup (.outbox action.trustedPath) = disk.lookup (.outbox action.trustedPath) := by
  refine h.others _ rfl fun other hother => ⟨fun heq => hnew ?_, by simp⟩
  rw [PruneName.outbox.injEq] at heq
  exact heq ▸ List.mem_map_of_mem hother

theorem SameOthers.completion (h : SameOthers actions disk t) (hnew : action.artifactID ∉ actions.map (·.artifactID)) :
    t.lookup (.completion action.artifactID) = disk.lookup (.completion action.artifactID) := by
  refine h.others _ rfl fun other hother => ⟨by simp, fun heq => hnew ?_⟩
  rw [PruneName.completion.injEq] at heq
  exact heq ▸ List.mem_map_of_mem hother

theorem SameOthers.cons {u : PruneDisk H} (h : SameOthers [action] disk t)
    (h' : SameOthers actions t u) : SameOthers (action :: actions) disk u := by
  refine ⟨fun name hname hne => ?_, fun path content hfile => h.files path content (h'.files path content hfile),
    fun id content hcompletion => h'.completions id content (h.completions id content hcompletion)⟩
  rw [List.forall_mem_cons] at hne
  rw [h'.others name hname hne.2]
  refine h.others name hname fun other hother => ?_
  rw [List.mem_singleton.mp hother]
  exact hne.1

/-- **All actions on the raw outbox**: each is pending wherever the execution is cut off, and done at its end. -/
theorem executeOtherActions_succeeds (hnonzero : ∀ data, H.sha256 data ≠ Digest.zero) {canonical : Bytes}
    (hplan : plan.planDigest = prunePlanDigest H canonical)
    (hids : (actions.map (·.artifactID)).Nodup) (hpaths : (actions.map (·.trustedPath)).Nodup)
    (hpending : ∀ action ∈ actions, Pending roots plan known disk action) :
    Meets (executeOtherActions noFault roots plan known actions) disk
      (fun t => SameOthers actions disk t ∧ ∀ action ∈ actions, Pending roots plan known t action)
      (fun completed t => completed = actions.map (·.artifactID) ∧ SameOthers actions disk t ∧ SameTemporaries disk t ∧
        ∀ action ∈ actions, Done roots plan known t action)
      (fun _ _ => False) := by
  induction actions generalizing disk with
  | nil => exact meets_pure ⟨SameOthers.refl _ disk, by simp⟩ ⟨rfl, SameOthers.refl _ disk, fun _ => rfl, by simp⟩
  | cons action later ih =>
    rw [List.map_cons, List.nodup_cons] at hids hpaths
    rw [List.forall_mem_cons] at hpending
    obtain ⟨⟨artifact, proof, hprunable, hout⟩, hlater⟩ := hpending
    -- the action leaves the later ones pending
    have hframe : ∀ t, SameOthers [action] disk t → ∀ other ∈ later, Pending roots plan known t other := by
      intro t hsame other hother
      refine (hlater other hother).congr (hsame.file ?_) (hsame.completion ?_)
      · intro hmem
        rw [List.map_singleton, List.mem_singleton] at hmem
        exact hpaths.1 (hmem ▸ List.mem_map_of_mem hother)
      · intro hmem
        rw [List.map_singleton, List.mem_singleton] at hmem
        exact hids.1 (hmem ▸ List.mem_map_of_mem hother)
    refine meets_bind ((executeOtherAction_meets hnonzero hplan hprunable hout).mono ?_ ?_ fun _ _ => id)
    · rintro t ⟨hsame, hout'⟩
      refine ⟨hsame.cons (SameOthers.refl _ t), List.forall_mem_cons.mpr ⟨⟨artifact, proof, hprunable, hout'⟩, hframe t hsame⟩⟩
    · rintro _ t ⟨hsame, htemporaries, hpruned⟩
      have hdone : Done roots plan known t action := ⟨artifact, proof, hprunable, hpruned⟩
      refine meets_bind ((ih hids.2 hpaths.2 (hframe t hsame)).mono ?_ ?_ fun _ _ => id)
      · rintro u ⟨hsame', hpending'⟩
        refine ⟨hsame.cons hsame', List.forall_mem_cons.mpr ⟨?_, hpending'⟩⟩
        exact hdone.pending.congr (hsame'.file hpaths.1) (hsame'.completion hids.1)
      · rintro completed u ⟨rfl, hsame', htemporaries', hdone'⟩
        have hdone'' := hdone.congr (hsame'.file hpaths.1) (hsame'.completion hids.1)
        refine meets_pure ⟨hsame.cons hsame', List.forall_mem_cons.mpr ⟨hdone''.pending, fun other hother => ?_⟩⟩
          ⟨rfl, hsame.cons hsame', fun nonce => (htemporaries' nonce).trans (htemporaries nonce),
            List.forall_mem_cons.mpr ⟨hdone'', hdone'⟩⟩
        exact (hdone' other hother).pending

/-! ## A WAL segment -/

theorem publishCheckpoint_succeeds {checkpoint : PruneCheckpoint} {document : CheckpointDocument H}
    (hseal : sealCheckpoint H checkpoint = .ok document) (hfree : disk.lookup (.checkpoint checkpoint.endSequence) = none)
    (hload : loadCheckpointChain disk = .ok chain)
    (hpredecessor : ∀ genesis broken, checkPredecessor chain checkpoint genesis broken = .ok ()) :
    Meets (publishCheckpoint checkpoint) disk (fun _ => True)
      (fun _ t => ∀ name, PruneName.inCheckpoints name = false → t.lookup name = disk.lookup name) (fun _ _ => False) := by
  refine meets_ok_bind (mapError_eq_ok.mpr hseal) (meets_read_bind ?_)
  rw [hfree]
  rw [← sealCheckpoint_value hseal] at hpredecessor
  refine meets_read_bind (meets_ok_bind hload (meets_ok_bind (hpredecessor _ _) (meets_read_bind ?_)))
  refine meets_publishFile trivial (fun _ => trivial) trivial trivial fun name hname => ?_
  rw [lookup_erase_of, if_neg (by rintro rfl; cases hname), lookup_insert_of, if_neg (by rintro rfl; cases hname),
    lookup_insert_of, if_neg (by rintro rfl; cases hname)]

theorem unlinkSegment_succeeds {id name : Bytes} (hsealed : disk.lookup (.sealed name) = some content)
    (htrash : disk.lookup (.trash name) = none) :
    Meets (unlinkSegment noFault artifact id name) disk (fun _ => True)
      (fun _ t => ∀ file, file ≠ .sealed name → file ≠ .trash name → t.lookup file = disk.lookup file)
      (fun _ _ => False) := by
  refine meets_bind (meets_read_bind ?_)
  rw [htrash]
  refine meets_noFault_bind (meets_bind (meets_emit trivial (fun _ ht => absurd ht torn_rename) trivial ?_))
  rw [run_rename hsealed]
  refine meets_noFault_bind (meets_noFault trivial (meets_noFault_bind (meets_bind ?_)))
  refine meets_emit trivial (fun _ ht => absurd ht torn_remove) trivial ?_
  refine meets_noFault_bind (meets_noFault trivial fun file hsource htarget => ?_)
  rw [run_remove, lookup_erase_of, if_neg htarget, lookup_insert_of, if_neg htarget, lookup_erase_of, if_neg hsource]

theorem checkpointAnchor_ok (hne : lastEnd chain + 1 ≠ 0) :
    ∃ digest, checkpointAnchor chain = .ok (digest, boundaryOf chain) ∧
      ∀ checkpoint : PruneCheckpoint, checkpoint.previousCheckpointDigest = digest →
        lastEnd chain < checkpoint.endSequence → ∀ genesis broken,
          checkPredecessor chain checkpoint genesis broken = .ok () := by
  unfold checkpointAnchor checkPredecessor boundaryOf lastRoot
  unfold lastEnd at hne ⊢
  cases hlast : chain.getLast? with
  | none =>
    refine ⟨Digest.zero, rfl, fun checkpoint hprevious _ genesis broken => ?_⟩
    rw [reject_eq_ok, not_not]
    exact hprevious
  | some previous =>
    simp only [hlast, Option.map_some, Option.getD_some] at hne ⊢
    refine ⟨previous.digest, ?_, fun checkpoint hprevious hlt genesis broken => ?_⟩
    · rw [bind_eq_ok]
      refine ⟨(), reject_eq_ok.mpr fun hterminal => hne ?_, rfl⟩
      rw [hterminal]
      rfl
    · rw [reject_eq_ok, not_or, not_not, UInt64.not_le]
      exact ⟨hlt, hprevious⟩

variable {segment : VerifiedSegment}

theorem verifyLocalArtifact_ok {kind : ArtifactKind} (hverified : verifySealedSegment H content.bytes = .ok segment)
    (hpath : kind = .rawOutbox → path = rawWALObjectKey segment.objectSHA256) :
    verifyLocalArtifact content (segmentArtifact kind path segment) = .ok () := by
  obtain ⟨-, -, hsha, hlength, -⟩ := verifySealedBytes_facts hverified
  have hsegment : verifySegmentOf (H := H) (segmentArtifact kind path segment) content.bytes
      "local WAL metadata changed" = .ok () :=
    verifySegmentOf_eq_ok.mpr ⟨segment, hverified, rfl, rfl, rfl⟩
  simp only [verifyLocalArtifact, bind_eq_ok, reject_eq_ok]
  refine ⟨(), by simp [segmentArtifact, hlength], (), by simp [segmentArtifact, hsha], (), ?_, ?_⟩
  · rintro ⟨hkind, hne⟩
    exact hne (hpath hkind)
  · rw [hsegment, ite_self]

theorem Retained.first (h : Retained disk chain segments) (hmem : segment ∈ segments)
    (hstart : segment.startSequence = lastEnd chain + 1) : segment.chainStart = lastRoot chain := by
  cases segments with
  | nil => cases hmem
  | cons first rest =>
    rcases List.mem_cons.mp hmem with rfl | hlater
    · exact h.follows.2.1
    · have hlt := (List.pairwise_cons.mp h.sorted).1 segment hlater
      rw [h.follows.1, hstart] at hlt
      exact absurd hlt (UInt64.lt_irrefl _)

theorem Retained.checkpoint_free (h : Retained disk chain segments) (hmem : segment ∈ segments) :
    lastEnd chain < segment.lastSequence ∧ disk.lookup (.checkpoint segment.lastSequence) = none := by
  have hrange := h.recoverable.rangeOk hmem
  have hlt : lastEnd chain < segment.lastSequence := UInt64.lt_of_lt_of_le
    ((follows_starts h.follows fun _ hmem => h.recoverable.rangeOk hmem).1 segment hmem) hrange.2
  refine ⟨hlt, ?_⟩
  by_contra hne
  rw [← ne_eq, ← (chain_ends h.checkpoints).2] at hne
  obtain ⟨record, hrecord, heq⟩ := List.mem_map.mp hne
  exact UInt64.not_le.mpr hlt (heq ▸ le_lastEnd (chain_ends h.checkpoints).1 hrecord)

/-- A segment of the WAL that an action was made from. -/
structure Prunes (H : Hashes) (roots : PruneRoots) (plan : PrunePlan) (known : List Identified) (action : PruneAction)
    (segment : VerifiedSegment) (proof : RetentionProof) : Prop where
  authorised : Authorised H roots plan known action
    (segmentArtifact .walSegment (sealedPath (nameOf segment)) segment) proof

theorem Prunes.range (h : Prunes H roots plan known action segment proof) :
    action.walStartSequence = segment.startSequence ∧ action.walEndSequence = segment.lastSequence := by
  obtain ⟨_, _, -, -, rfl⟩ := makePruneAction_eq_ok.mp h.authorised.made
  exact ⟨rfl, rfl⟩

/-- **The first segment**: an action at the expected start succeeds. -/
theorem executeWALAction_succeeds (hnonzero : ∀ data, H.sha256 data ≠ Digest.zero) (h : Retained disk chain segments)
    (hload : loadCheckpointChain disk = .ok chain) (hstart : plan.walExpectedStart = lastEnd chain + 1)
    (hne : plan.walExpectedStart ≠ 0) (hmem : segment ∈ segments)
    (hprunes : Prunes H roots plan known action segment proof) (hfirst : action.walStartSequence = plan.walExpectedStart) :
    Meets (executeWALActions noFault roots plan known [action]) disk (fun _ => True)
      (fun completed t => completed = [action.artifactID] ∧ ∀ name, PruneName.inWAL name = false →
        PruneName.inCheckpoints name = false → t.lookup name = disk.lookup name)
      (fun _ _ => False) := by
  obtain ⟨content, hlookup, hverified⟩ := h.held segment hmem
  obtain ⟨hwalStart, hwalEnd⟩ := hprunes.range
  have hmade := hprunes.authorised.made
  have hname : artifactName .walSegment (sealedPath (nameOf segment)) = some (.sealed (nameOf segment)) := by
    unfold artifactName
    rw [if_pos (by rw [List.isPrefixOf_iff_prefix]; exact ⟨nameOf segment, by simp [sealedPath]⟩)]
    rfl
  have hresolved : ∀ t : PruneDisk H, t.lookup (.sealed (nameOf segment)) = some content →
      trustedArtifactPath t .walSegment (sealedPath (nameOf segment)) = .ok (.sealed (nameOf segment), content) :=
    fun t ht => trustedArtifactPath_eq_ok.mpr ⟨(stableID_eq_ok.mp (makePruneAction_id hmade)).1, hname, ht⟩
  have hverify : verifyLocalArtifact content (segmentArtifact .walSegment (sealedPath (nameOf segment)) segment) = .ok () :=
    verifyLocalArtifact_ok hverified (by simp)
  have hsegmentStart : segment.startSequence = lastEnd chain + 1 := by rw [← hwalStart, hfirst, hstart]
  obtain ⟨digest, hanchor, hpredecessor⟩ := @checkpointAnchor_ok chain (hstart ▸ hne)
  have hrange : checkAnchor plan action (segmentArtifact .walSegment (sealedPath (nameOf segment)) segment)
      (boundaryOf chain) = .ok (rangeOf segment) := by
    refine checkAnchor_eq_ok.mpr ⟨rfl, hstart, hfirst.trans hstart, h.first hmem hsegmentStart, ?_, ?_⟩
    · rw [hwalStart, hwalEnd]
      rfl
    · rw [hwalEnd]
      exact (h.recoverable.rangeOk hmem).2
  obtain ⟨text, htext⟩ := nextCheckpoint_canonical hnonzero hmade hprunes.authorised.bound rfl rfl digest
  obtain ⟨document, hdocument⟩ := sealCheckpoint_ok htext
  obtain ⟨hlt, hfree⟩ := h.checkpoint_free hmem
  refine meets_read_bind (meets_ok_bind (hprunes.authorised.validated (hresolved disk hlookup) hverify) (meets_bind ?_))
  refine meets_read_bind (meets_ok_bind hload (meets_ok_bind hanchor (meets_ok_bind hrange (meets_noFault_bind
    (meets_bind ?_)))))
  refine (publishCheckpoint_succeeds hdocument (by rw [nextCheckpoint, hwalEnd]; exact hfree) hload
    (hpredecessor _ rfl (by rw [nextCheckpoint, hwalEnd]; exact hlt))).mono (fun _ => id) ?_ fun _ _ => id
  intro _ t ht
  have hsealed : t.lookup (.sealed (nameOf segment)) = some content := (ht _ rfl).trans hlookup
  have htrash : t.lookup (.trash (nameOf segment)) = none := (ht _ rfl).trans (h.trash _)
  refine meets_noFault_bind (meets_noFault_bind (meets_read_bind (meets_ok_bind
    (resolveArtifact_eq_ok.mpr (hresolved t hsealed)) ?_)))
  rw [hwalStart, hwalEnd]
  refine (unlinkSegment_succeeds hsealed htrash).mono (fun _ => id) ?_ fun _ _ => id
  intro _ u hu
  refine meets_bind (meets_pure trivial (meets_pure trivial ⟨rfl, fun name hwal hcheckpoint => ?_⟩))
  rw [hu name (by rintro rfl; cases hwal) (by rintro rfl; cases hwal), ht name hcheckpoint]

/-- A successful WAL action proves that the plan starts behind the last checkpoint, and moves that checkpoint. -/
theorem executeWALActions_step {fault : FaultInjector} (h : Retained disk chain segments) {later : List PruneAction}
    (hkind : action.artifactKind = .walSegment) {ops : List (PruneOp H)} {completed : List Bytes}
    (hrun : (executeWALActions fault roots plan known (action :: later)).run disk = (ops, .ok completed)) :
    plan.walExpectedStart = lastEnd chain + 1 ∧ action.walStartSequence = lastEnd chain + 1 ∧
      ∃ (t : PruneDisk H) (chain' : List CheckpointRecord) (segments' : List VerifiedSegment) (ops' : List (PruneOp H))
        (completed' : List Bytes), Retained t chain' segments' ∧ lastEnd chain < lastEnd chain' ∧
        (executeWALActions fault roots plan known later).run t = (ops', .ok completed') := by
  rw [executeWALActions, Prog.read_bind] at hrun
  obtain ⟨_, ⟨artifact, proof⟩, _, hvalidated, hrun, -⟩ := Prog.bind_eq_ok hrun
  rw [Prog.lift_run, Prod.mk.injEq] at hvalidated
  obtain ⟨rfl, hvalidated⟩ := hvalidated
  rw [validateAction_eq_ok] at hvalidated
  obtain ⟨ops', _, _, hexecute, hrun, -⟩ := Prog.bind_eq_ok hrun
  simp only [runAll_nil] at hexecute
  obtain ⟨hplan, hstart, chain', segments', hretained, -, hlt⟩ :=
    (executeWAL_meets h hvalidated hkind).ok ops' _ hexecute
  obtain ⟨ops'', completed', _, hlater, -, -⟩ := Prog.bind_eq_ok hrun
  exact ⟨hplan, hstart, _, chain', segments', ops'', completed', hretained, hlt, hlater⟩

/-- WAL actions that all succeed are one action at the expected start, or none: the plan is compared with the
checkpoint that the first of them has moved. -/
theorem executeWALActions_starts {fault : FaultInjector} (h : Retained disk chain segments)
    (hkind : ∀ action ∈ actions, action.artifactKind = .walSegment) {ops : List (PruneOp H)} {completed : List Bytes}
    (hrun : (executeWALActions fault roots plan known actions).run disk = (ops, .ok completed)) :
    ∀ action ∈ actions, action.walStartSequence = plan.walExpectedStart := by
  cases actions with
  | nil => simp
  | cons action later =>
    obtain ⟨hplan, hstart, t, chain', segments', ops', completed', hretained, hlt, hlater⟩ :=
      executeWALActions_step h (hkind action List.mem_cons_self) hrun
    cases later with
    | nil => simp [hplan, hstart]
    | cons next later =>
      obtain ⟨hplan', -⟩ := executeWALActions_step hretained (hkind next (by simp)) hlater
      have heq := lastEnd_succ_inj (hplan.symm.trans hplan')
      exact absurd (heq ▸ hlt) (UInt64.lt_irrefl _)

/-! ## Candidates that match the files -/

/-- A candidate made from what is on the disk: a retained segment, a file of the raw outbox that has no completion,
or a completion with the proof it carries. -/
inductive MatchesFiles (disk : PruneDisk H) (segments : List VerifiedSegment) (candidate : CandidateFact) : Prop
  | segment (segment : VerifiedSegment) (hmem : segment ∈ segments)
      (hartifact : candidate.artifact = segmentArtifact .walSegment (sealedPath (nameOf segment)) segment)
  | object (path : Bytes) (content : Content H) (segment : VerifiedSegment)
      (hfile : disk.lookup (.outbox path) = some content)
      (hinventory : inventoryObject (path, content) = .ok (candidate.artifact, segment))
      (hnew : ∀ id, candidate.artifact.stableID H = .ok id → disk.lookup (.completion id) = none)
  | completed (id : Bytes) (content : Content H) (recovered : CandidateFact)
      (hfile : disk.lookup (.completion id) = some content)
      (hinventory : inventoryCompletion disk (id, content) = .ok recovered)
      (hartifact : candidate.artifact = recovered.artifact) (hproof : candidate.proof = recovered.proof)
  | other (hwal : candidate.artifact.kind ≠ .walSegment) (hraw : candidate.artifact.kind ≠ .rawOutbox)

theorem inventoryObject_eq_ok {found : Inventoried} :
    inventoryObject (path, content) = .ok found ↔ path = rawWALObjectKey (H.sha256 content.bytes) ∧
      ∃ segment, verifySealedSegment H content.bytes = .ok segment ∧
        found = (segmentArtifact .rawOutbox path segment, segment) := by
  simp only [inventoryObject, bind_eq_ok, pure_eq_ok, reject_eq_ok, mapError_eq_ok, not_not, exists_unit,
    eq_comm (a := found)]

theorem inventoryCompletion_eq_ok {id : Bytes} {recovered : CandidateFact} :
    inventoryCompletion disk (id, content) = .ok recovered ↔
      ∃ document artifact, content = .completion document ∧ document.value.artifactID = id ∧
        document.value.artifactKind = .rawOutbox ∧ completionArtifact H document.value = .ok artifact ∧
        checkSource disk artifact = .ok () ∧ recovered = recoveredCandidate artifact document.value := by
  simp only [inventoryCompletion, bind_eq_ok, pure_eq_ok, reject_eq_ok, mapError_eq_ok, elim_eq_ok, not_not]
  constructor
  · rintro ⟨document, hdecode, _, hid, _, hkind, artifact, hartifact, _, hsource, rfl⟩
    cases content with
    | data bytes => cases hdecode
    | checkpoint other => cases hdecode
    | completion other =>
      cases hdecode
      exact ⟨document, artifact, rfl, hid, hkind, hartifact, hsource, rfl⟩
  · rintro ⟨document, artifact, rfl, hid, hkind, hartifact, hsource, rfl⟩
    exact ⟨document, rfl, (), hid, (), hkind, artifact, hartifact, (), hsource, rfl⟩

theorem checkSource_eq_ok : checkSource disk artifact = .ok () ↔
      (∀ name content, trustedArtifactPath disk artifact.kind artifact.trustedPath = .ok (name, content) →
        verifyLocalArtifact content artifact = .ok ()) ∧
      ∀ text, trustedArtifactPath disk artifact.kind artifact.trustedPath ≠ .error (.untrusted text) := by
  unfold checkSource
  rcases trustedArtifactPath disk artifact.kind artifact.trustedPath with (_ | text) | ⟨name, content⟩
  · simp
  · simp
  · simp [mapError_eq_ok]

theorem completionArtifact_eq_ok {completion : PruneCompletion} (h : completionArtifact H completion = .ok artifact) :
    artifact = ⟨completion.artifactKind, completion.trustedPath, completion.bytes, completion.contentSHA256,
      completion.retentionProof.walRange, completion.retentionProof.replay, false⟩ ∧
      artifact.stableID H = .ok completion.artifactID ∧
      proofMatchesArtifact completion.retentionProof artifact = true ∧
      (completion.artifactKind = .rawOutbox → artifact.walRange ≠ none ∧
        artifact.trustedPath = rawWALObjectKey artifact.contentSHA256) := by
  simp only [completionArtifact, bind_eq_ok, pure_eq_ok, reject_eq_ok, not_not, toOption_eq_some] at h
  obtain ⟨_, hvalid, _, hid, _, hbound, rfl⟩ := h
  refine ⟨rfl, hid, by simpa using hbound, fun hkind => ?_⟩
  simp only [PruneCompletion.validate, bind_eq_ok, reject_eq_ok] at hvalid
  obtain ⟨_, -, _, -, _, -, _, -, _, -, _, -, _, -, _, -, hraw⟩ := hvalid
  rw [not_and, not_or, not_not] at hraw
  exact hraw hkind

/-- A candidate of the raw outbox that matches the files makes a pending action. -/
theorem MatchesFiles.pending {candidate : CandidateFact} (h : MatchesFiles disk segments candidate)
    (heligible : Eligible input candidate proof)
    (hauthorised : Authorised H roots plan known action candidate.artifact proof)
    (hraw : action.artifactKind = .rawOutbox) : Pending roots plan known disk action := by
  have hkind : candidate.artifact.kind = .rawOutbox := hauthorised.action_fields.1.symm.trans hraw
  have hid := makePruneAction_id hauthorised.made
  cases h with
  | segment segment hmem hartifact =>
    rw [hartifact] at hkind
    cases hkind
  | object path content segment hfile hinventory hnew =>
    obtain ⟨hpath, segment', hverified, hfound⟩ := inventoryObject_eq_ok.mp hinventory
    rw [Prod.mk.injEq] at hfound
    obtain ⟨hartifact, rfl⟩ := hfound
    have hkey : path = rawWALObjectKey segment.objectSHA256 := by
      rw [(verifySealedBytes_facts hverified).2.2.1]
      exact hpath
    have hnone := hnew _ hid
    rw [hartifact] at hauthorised
    have hverify : verifyLocalArtifact content (segmentArtifact .rawOutbox path segment) = .ok () :=
      verifyLocalArtifact_ok hverified fun _ => hkey
    refine ⟨_, proof, ⟨hauthorised, rfl, rfl, by simp [segmentArtifact], hkey⟩, ⟨?_, by simp [hnone], .inl ?_⟩⟩
    · simpa [segmentArtifact, hfile] using hverify
    · simp [segmentArtifact, hfile]
  | completed id content recovered hfile hinventory hartifact hproof =>
    obtain ⟨document, artifact, rfl, hdocumentID, hdocumentKind, hcompletion, hsource, rfl⟩ :=
      inventoryCompletion_eq_ok.mp hinventory
    rw [show (recoveredCandidate artifact document.value).artifact = artifact from rfl] at hartifact
    rw [hartifact] at hauthorised hkind hid
    obtain ⟨hfields, hstable, -, hbinding⟩ := completionArtifact_eq_ok hcompletion
    rw [hid, Except.ok.injEq] at hstable
    have hgiven : document.value.retentionProof = proof := by
      rw [heligible.given] at hproof
      exact (Option.some.inj hproof).symm
    obtain ⟨hrange, hpath⟩ := hbinding hdocumentKind
    refine ⟨artifact, proof, ⟨hauthorised, hkind, by rw [hfields], hrange, hpath⟩, ⟨?_, ?_, .inr ?_⟩⟩
    · intro content' hcontent'
      refine (checkSource_eq_ok.mp hsource).1 (.outbox artifact.trustedPath) content' ?_
      refine trustedArtifactPath_eq_ok.mpr ⟨(stableID_eq_ok.mp hid).1, ?_, hcontent'⟩
      rw [hkind]
      rfl
    · intro content' hcontent'
      rw [hstable, hdocumentID, hfile, Option.some.injEq] at hcontent'
      exact ⟨document, hcontent'.symm, hstable.symm, hcompletion, hgiven⟩
    · rw [hstable, hdocumentID, hfile]
      simp
  | other hwal hraw' => exact absurd hkind hraw'

/-! ## Plans that can be executed -/

theorem addKnown_ok (known : List Identified) (candidate : CandidateFact) (next : List Identified)
    (h : addCandidate H known candidate = .ok next) : addKnown H known candidate = .ok next := by
  obtain ⟨id, hid, hnew, -, rfl⟩ := addCandidate_eq_ok.mp h
  simp only [addKnown, bind_eq_ok, pure_eq_ok, mapError_eq_ok, reject_eq_ok]
  refine ⟨id, hid, (), fun hknown => hnew ?_, rfl⟩
  simpa using hknown

theorem checkPlan_ok {entries : List Identified} {candidates : List CandidateFact}
    (hlisted : Listed H entries candidates) (hplanned : Planned H input plan entries) :
    checkPlan H plan candidates = .ok entries := by
  obtain ⟨canonical, hcanonical, hdigest⟩ := hplanned.sealed
  have hkinds : ¬ (plan.actions.any fun action => action.artifactKind ≠ .walSegment ∧ action.artifactKind ≠ .rawOutbox) := by
    rw [List.any_eq_true]
    rintro ⟨action, hmem, hkind⟩
    obtain ⟨candidate, -, proof, heligible, hauthorised⟩ := hplanned.authorised hlisted hmem
    rw [decide_eq_true_eq, hauthorised.action_fields.1] at hkind
    rcases heligible.kind with h | h
    · exact hkind.1 h
    · exact hkind.2 h
  have hknown : candidates.foldlM (addKnown H) [] = .ok entries :=
    foldlM_of_step addKnown_ok (identify_eq_ok.mpr hlisted)
  simp only [checkPlan, bind_eq_ok, mapError_eq_ok, reject_eq_ok, not_not]
  exact ⟨canonical, hcanonical, (), hdigest.symm, (), hkinds, hknown⟩

theorem actions_perm (plan : PrunePlan) : (walActions plan ++ otherActions plan).Perm plan.actions := by
  have hsplit := List.filter_append_perm (fun action : PruneAction => decide (action.artifactKind = .walSegment)) plan.actions
  refine (List.Perm.append_right _ (List.perm_insertionSort _ _)).trans ?_
  have hothers : otherActions plan = plan.actions.filter fun action => !decide (action.artifactKind = .walSegment) := by
    simp [otherActions]
  rw [hothers]
  exact hsplit

section
variable {input : PlannerInput} {entries : List Identified}

/-- A WAL action of a plan is about a retained segment. -/
theorem Planned.prunes (hplanned : Planned H input plan entries) (hlisted : Listed H entries input.candidates)
    (hmatches : ∀ candidate ∈ input.candidates, MatchesFiles disk segments candidate) (hmem : action ∈ plan.actions)
    (hkind : action.artifactKind = .walSegment) :
    ∃ segment ∈ segments, ∃ proof, Prunes H ⟨true, true⟩ plan entries action segment proof := by
  obtain ⟨candidate, hcandidate, proof, heligible, hauthorised⟩ := hplanned.authorised hlisted hmem
  have hartifactKind : candidate.artifact.kind = .walSegment := hauthorised.action_fields.1.symm.trans hkind
  cases hmatches candidate hcandidate with
  | segment segment hsegment hartifact => exact ⟨segment, hsegment, proof, ⟨hartifact ▸ hauthorised⟩⟩
  | object path content segment hfile hinventory hnew =>
    obtain ⟨-, segment', -, hfound⟩ := inventoryObject_eq_ok.mp hinventory
    rw [(Prod.mk.inj hfound).1] at hartifactKind
    cases hartifactKind
  | completed id content recovered hfile hinventory hartifact hproof =>
    obtain ⟨document, artifact, -, -, hdocumentKind, hcompletion, -, rfl⟩ := inventoryCompletion_eq_ok.mp hinventory
    rw [hartifact, show (recoveredCandidate artifact document.value).artifact = artifact from rfl,
      (completionArtifact_eq_ok hcompletion).1] at hartifactKind
    exact absurd (hdocumentKind.symm.trans hartifactKind) (by simp)
  | other hwal hraw => exact absurd hartifactKind hwal

theorem Planned.pending (hplanned : Planned H input plan entries) (hlisted : Listed H entries input.candidates)
    (hmatches : ∀ candidate ∈ input.candidates, MatchesFiles disk segments candidate) (hmem : action ∈ plan.actions)
    (hkind : action.artifactKind ≠ .walSegment) : Pending ⟨true, true⟩ plan entries disk action := by
  obtain ⟨candidate, hcandidate, proof, heligible, hauthorised⟩ := hplanned.authorised hlisted hmem
  refine (hmatches candidate hcandidate).pending heligible hauthorised ?_
  rw [hauthorised.action_fields.1] at hkind ⊢
  exact heligible.kind.resolve_left hkind

theorem Planned.paths {candidates : List CandidateFact} (hplanned : Planned H input plan entries)
    (hlisted : Listed H entries candidates) : (plan.actions.map (·.trustedPath)).Nodup := by
  have hpath : ∀ {action : PruneAction} {entry : Identified} {proof : RetentionProof},
      makePruneAction H entry.2.artifact proof = .ok action → action.trustedPath = entry.2.artifact.trustedPath := by
    intro action entry proof hmade
    obtain ⟨_, _, -, -, rfl⟩ := makePruneAction_eq_ok.mp hmade
    rfl
  refine List.Nodup.map_on ?_ hplanned.nodup.of_map
  intro a ha b hb heq
  obtain ⟨entry, hentry, proof, -, hmade⟩ := hplanned.made a ha
  obtain ⟨other, hother, proof', -, hmade'⟩ := hplanned.made b hb
  rw [hpath hmade, hpath hmade'] at heq
  obtain rfl := List.inj_on_of_nodup_map hlisted.paths hentry hother heq
  refine List.inj_on_of_nodup_map hplanned.nodup ha hb ?_
  have hid := makePruneAction_id hmade
  rw [makePruneAction_id hmade', Except.ok.injEq] at hid
  exact hid.symm

/-- Two actions at the expected start are one. -/
theorem Planned.walActions_le (hplanned : Planned H input plan entries) (hlisted : Listed H entries input.candidates)
    (hretained : Retained disk chain segments)
    (hmatches : ∀ candidate ∈ input.candidates, MatchesFiles disk segments candidate)
    (hstarts : ∀ action ∈ walActions plan, action.walStartSequence = plan.walExpectedStart) :
    walActions plan = [] ∨ ∃ action, walActions plan = [action] := by
  rcases hactions : walActions plan with _ | ⟨first, _ | ⟨second, later⟩⟩
  · exact .inl rfl
  · exact .inr ⟨first, rfl⟩
  · rw [hactions] at hstarts
    have hfirst : first ∈ walActions plan := by rw [hactions]; simp
    have hsecond : second ∈ walActions plan := by rw [hactions]; simp
    obtain ⟨segment, hsegment, proof, hprunes⟩ :=
      hplanned.prunes hlisted hmatches (mem_walActions.mp hfirst).1 (mem_walActions.mp hfirst).2
    obtain ⟨segment', hsegment', proof', hprunes'⟩ :=
      hplanned.prunes hlisted hmatches (mem_walActions.mp hsecond).1 (mem_walActions.mp hsecond).2
    have hstart : segment.startSequence = segment'.startSequence := by
      rw [← hprunes.range.1, ← hprunes'.range.1, hstarts first (by simp), hstarts second (by simp)]
    have hsame : segment = segment' := by
      have hnodup : (segments.map (·.startSequence)).Nodup := by
        rw [List.Nodup, List.pairwise_map]
        exact hretained.sorted.imp fun hlt => UInt64.ne_of_lt hlt
      exact List.inj_on_of_nodup_map hnodup hsegment hsegment' hstart
    subst hsame
    have hids : first.artifactID = second.artifactID := by
      have hid := makePruneAction_id hprunes.authorised.made
      rw [makePruneAction_id hprunes'.authorised.made, Except.ok.injEq] at hid
      exact hid.symm
    have hnodup := ((actions_perm plan).map (·.artifactID)).nodup_iff.mpr hplanned.nodup
    rw [hactions, List.map_append, List.map_cons, List.map_cons, hids] at hnodup
    simp at hnodup

end

/-- **Which plans can be executed.** On the disk it was planned for, and without faults, a plan runs to its end with
every action completed just if its WAL actions all start at the expected start. There is then at most one. -/
theorem planned_executes_iff (input : PlannerInput) (hnonzero : ∀ data, H.sha256 data ≠ Digest.zero)
    (hretained : Retained disk chain segments) (hload : loadCheckpointChain disk = .ok chain)
    (hmatches : ∀ candidate ∈ input.candidates, MatchesFiles disk segments candidate)
    (hstart : input.walExpectedStart = lastEnd chain + 1) (hplan : buildPrunePlan H input = .ok plan) :
    (∃ ops completed, (execute noFault ⟨true, true⟩ plan input.candidates).run disk = (ops, .ok completed) ∧
        completed.Perm (plan.actions.map (·.artifactID))) ↔
      ∀ action ∈ plan.actions, action.artifactKind = .walSegment → action.walStartSequence = plan.walExpectedStart := by
  obtain ⟨entries, hlisted, hplanned⟩ := buildPrunePlan_ok hplan
  have hcheck := checkPlan_ok hlisted hplanned
  constructor
  · rintro ⟨ops, completed, hrun, -⟩ action hmem hkind
    rw [execute, hcheck, Prog.lift_bind_ok] at hrun
    obtain ⟨ops', completed', _, hwal, -, -⟩ := Prog.bind_eq_ok hrun
    exact executeWALActions_starts hretained (fun _ h => (mem_walActions.mp h).2) hwal action
      (mem_walActions.mpr ⟨hmem, hkind⟩)
  · intro hstarts
    obtain ⟨canonical, -, hdigest⟩ := hplanned.sealed
    have hothers : ∀ action ∈ otherActions plan, Pending ⟨true, true⟩ plan entries disk action := fun action hmem =>
      hplanned.pending hlisted hmatches (mem_otherActions.mp hmem).1 (mem_otherActions.mp hmem).2
    have hids : ((otherActions plan).map (·.artifactID)).Nodup :=
      hplanned.nodup.sublist (List.filter_sublist.map _)
    have hpaths : ((otherActions plan).map (·.trustedPath)).Nodup :=
      (hplanned.paths hlisted).sublist (List.filter_sublist.map _)
    -- once the WAL actions are through, the outbox is as it was
    have hnext : ∀ (t : PruneDisk H) (segments : List Bytes), (∀ name, PruneName.inWAL name = false →
        PruneName.inCheckpoints name = false → t.lookup name = disk.lookup name) →
        Meets (do
          let others ← executeOtherActions noFault ⟨true, true⟩ plan entries (otherActions plan)
          return segments ++ others : PruneProg H (List Bytes)) t (fun _ => True)
          (fun completed _ => completed = segments ++ (otherActions plan).map (·.artifactID)) (fun _ _ => False) := by
      intro t segments hsame
      have hpending := fun action hmem => (hothers action hmem).congr (hsame (.outbox action.trustedPath) rfl rfl)
        (hsame (.completion action.artifactID) rfl rfl)
      refine meets_bind ((executeOtherActions_succeeds hnonzero hdigest hids hpaths hpending).mono (fun _ _ => trivial) ?_
        fun _ _ => id)
      rintro _ u ⟨rfl, -⟩
      exact meets_pure trivial rfl
    have hexecute : Meets (execute noFault ⟨true, true⟩ plan input.candidates) disk (fun _ => True)
        (fun completed _ => completed = (walActions plan ++ otherActions plan).map (·.artifactID)) (fun _ _ => False) := by
      rw [List.map_append]
      have hwalStarts : ∀ action ∈ walActions plan, action.walStartSequence = plan.walExpectedStart := fun action hmem =>
        hstarts action (mem_walActions.mp hmem).1 (mem_walActions.mp hmem).2
      refine meets_ok_bind hcheck (meets_bind ?_)
      rcases hplanned.walActions_le hlisted hretained hmatches hwalStarts with hnone | ⟨action, hone⟩
      · rw [hnone]
        exact meets_pure trivial (hnext disk [] fun _ _ _ => rfl)
      · have hmem : action ∈ walActions plan := by rw [hone]; simp
        obtain ⟨segment, hsegment, proof, hprunes⟩ :=
          hplanned.prunes hlisted hmatches (mem_walActions.mp hmem).1 (mem_walActions.mp hmem).2
        rw [hone]
        refine (executeWALAction_succeeds hnonzero hretained hload (hplanned.start.trans hstart)
          (hplanned.start ▸ hplanned.start_ne) hsegment hprunes (hwalStarts action hmem)).mono (fun _ => id) ?_ fun _ _ => id
        rintro _ t ⟨rfl, hsame⟩
        exact hnext t _ hsame
    obtain ⟨ops, completed, hrun, rfl⟩ := hexecute.run_ok
    exact ⟨ops, _, hrun, (actions_perm plan).map _⟩

/-! ## A plan for one segment, and one for two -/

theorem sampleCandidates_match (h : Retained disk chain segments) (maxObjects maxBytes : UInt64) :
    ∀ candidate ∈ (((inventoryWALSegments disk maxObjects maxBytes).toOption).getD []).map sampleCandidate,
      MatchesFiles disk segments candidate := by
  intro candidate hmem
  obtain ⟨artifact, hartifact, rfl⟩ := List.mem_map.mp hmem
  cases hinventory : inventoryWALSegments disk maxObjects maxBytes with
  | error err => simp [hinventory, Except.toOption] at hartifact
  | ok artifacts =>
    simp only [hinventory, Except.toOption, Option.getD_some] at hartifact
    obtain ⟨found, hfound, hmade⟩ := bind_eq_ok.mp hinventory
    rw [pure_eq_ok] at hmade
    subst hmade
    obtain ⟨entry, hentry, rfl⟩ := List.mem_map.mp hartifact
    obtain ⟨-, -, -, -, hall, -⟩ := inventorySegments_eq_ok.mp hfound
    obtain ⟨file, hfile, hmade⟩ := exists_left_of_mem hall hentry
    obtain ⟨segment, hverified, hname, rfl⟩ := inventorySegment_eq_ok.mp hmade
    obtain ⟨segment', hsegment', hverified', -⟩ := h.file hfile
    rw [hverified, Except.ok.injEq] at hverified'
    subst hverified'
    exact .segment segment hsegment' (by rw [hname]; rfl)

instance oneCandidate_plans : Fact ((buildPrunePlan sampleHashes (sampleInput oneCandidate)).toOption.any (fun plan =>
      plan.actions.all (fun action => action.walStartSequence = plan.walExpectedStart) ∧ plan.actions.length = 1) = true) := ⟨by decide +kernel⟩

/-- The one segment is pruned. -/
theorem planned_executes_one : ∃ ops completed,
    (execute noFault ⟨true, true⟩ (samplePlan oneCandidate) oneCandidate).run oneSegment = (ops, .ok completed) ∧
      completed.length = 1 := by
  obtain ⟨segment, hretained, -⟩ := oneSegment_retained
  obtain ⟨plan, hplan, hactions⟩ := exists_ok_of_any oneCandidate_plans.out
  rw [decide_eq_true_eq, List.all_eq_true] at hactions
  have hsample : samplePlan oneCandidate = plan := by
    rw [samplePlan, hplan]
    rfl
  rw [hsample]
  have hmatches : ∀ candidate ∈ (sampleInput oneCandidate).candidates, MatchesFiles oneSegment [segment] candidate := by
    unfold sampleInput oneCandidate
    exact sampleCandidates_match hretained 8 65536
  have hiff := planned_executes_iff (sampleInput oneCandidate) sampleHashes_ne_zero hretained oneSegment_loads.out hmatches rfl
    hplan
  obtain ⟨ops, completed, hexecute, hperm⟩ := hiff.mpr fun action hmem _ => by simpa using hactions.1 action hmem
  refine ⟨ops, completed, hexecute, ?_⟩
  rw [hperm.length_eq, List.length_map]
  exact hactions.2

def firstRoot : Digest :=
  (((verifySealedSegment sampleHashes (sampleSegment 1 Digest.zero)).toOption).map (·.chainRoot)).getD Digest.zero

def twoSegments : PruneDisk sampleHashes :=
  AList.insert (.sealed (segmentNameFromRange 2 2)) (.data (sampleSegment 2 firstRoot)) oneSegment

def twoCandidates : List CandidateFact :=
  (((inventoryWALSegments twoSegments 8 65536).toOption).getD []).map sampleCandidate

instance twoSegments_loads : Fact (chainOf twoSegments = .ok []) := ⟨by decide +kernel⟩

instance secondSegment_verifies : Fact ((verifySealedSegment sampleHashes (sampleSegment 2 firstRoot)).toOption.any (fun segment =>
      segment.startSequence = 2 ∧ segment.lastSequence = 2 ∧ segment.chainStart = firstRoot) = true) := ⟨by decide +kernel⟩

instance firstSegment_verifies : Fact ((verifySealedSegment sampleHashes (sampleSegment 1 Digest.zero)).toOption.any (fun segment =>
      segment.startSequence = 1 ∧ segment.lastSequence = 1 ∧ segment.chainStart = Digest.zero ∧
        segment.chainRoot = firstRoot) = true) := ⟨by decide +kernel⟩

theorem twoSegments_retained : ∃ first second, Retained twoSegments [] [first, second] := by
  obtain ⟨first, hfirst, hfields⟩ := exists_ok_of_any firstSegment_verifies.out
  obtain ⟨second, hsecond, hfields'⟩ := exists_ok_of_any secondSegment_verifies.out
  rw [decide_eq_true_eq] at hfields hfields'
  obtain ⟨hstart, hlast, hroot, hnext⟩ := hfields
  obtain ⟨hstart', hlast', hroot'⟩ := hfields'
  have hname : nameOf first = segmentNameFromRange 1 1 := by rw [nameOf, hstart, hlast]
  have hname' : nameOf second = segmentNameFromRange 2 2 := by rw [nameOf, hstart', hlast']
  have hne : segmentNameFromRange 1 1 ≠ segmentNameFromRange 2 2 := fun heq =>
    absurd (segmentNameFromRange_inj heq) (by decide)
  have hlookup : ∀ name, twoSegments.lookup name =
      if name = .sealed (segmentNameFromRange 2 2) then some (.data (sampleSegment 2 firstRoot))
      else if name = .sealed (segmentNameFromRange 1 1) then some (.data (sampleSegment 1 Digest.zero)) else none := by
    intro name
    rw [twoSegments, lookup_insert_of, oneSegment, lookup_insert_of, AList.lookup_empty]
  refine ⟨first, second, ⟨?_, twoSegments_loads.out, ⟨hstart, hroot, ?_, ?_, trivial⟩, ?_, ?_, ?_⟩⟩
  · intro name
    simp [hlookup]
  · rw [hstart', hlast]
    rfl
  · rw [hroot', hnext]
  · intro segment hmem
    rcases List.mem_pair.mp hmem with rfl | rfl
    · refine ⟨.data (sampleSegment 1 Digest.zero), ?_, hfirst⟩
      rw [hname]
      exact (hlookup _).trans ((if_neg (by simpa using hne)).trans (if_pos rfl))
    · refine ⟨.data (sampleSegment 2 firstRoot), ?_, hsecond⟩
      rw [hname']
      exact (hlookup _).trans (if_pos rfl)
  · intro name content hsealed _
    rw [hlookup] at hsealed
    split at hsealed
    · next heq => exact ⟨second, by simp, by rw [hname']; simpa using heq⟩
    · split at hsealed
      · next heq => exact ⟨first, by simp, by rw [hname]; simpa using heq⟩
      · cases hsealed
  · intro name
    simp [hlookup]

instance twoCandidates_run : Fact ((buildPrunePlan sampleHashes (sampleInput twoCandidates)).toOption.isSome ∧
      (samplePlan twoCandidates).actions.length = 2 ∧
      ((execute noFault ⟨true, true⟩ (samplePlan twoCandidates) twoCandidates).run twoSegments).2 =
        .error (integrity "prune plan WAL prefix does not match checkpoint anchor")) := ⟨by decide +kernel⟩

/-- Two segments are planned; the execution prunes the first and fails at the second. -/
theorem planned_two_fails : ∃ first second, Retained twoSegments [] [first, second] ∧
    (∀ candidate ∈ twoCandidates, MatchesFiles twoSegments [first, second] candidate) ∧
    buildPrunePlan sampleHashes (sampleInput twoCandidates) = .ok (samplePlan twoCandidates) ∧
    (samplePlan twoCandidates).actions.length = 2 ∧
    ((execute noFault ⟨true, true⟩ (samplePlan twoCandidates) twoCandidates).run twoSegments).2 =
      .error (integrity "prune plan WAL prefix does not match checkpoint anchor") := by
  obtain ⟨first, second, hretained⟩ := twoSegments_retained
  obtain ⟨plan, hplan⟩ := Option.isSome_iff_exists.mp twoCandidates_run.out.1
  have hsample : samplePlan twoCandidates = plan := by
    rw [samplePlan, hplan]
    rfl
  exact ⟨first, second, hretained, sampleCandidates_match hretained 8 65536,
    hsample ▸ toOption_eq_some.mp hplan, twoCandidates_run.out.2⟩

end TickPlatform.Retention
