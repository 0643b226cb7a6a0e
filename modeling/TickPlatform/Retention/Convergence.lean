import TickPlatform.Retention.Outbox

/-!
# Pruning the outbox after a crash

A crash of a promotion or of an execution can leave a temporary file, and every later inventory refuses it.
Without one, a rerun finds the same candidates, builds the same plan and completes it.
-/

namespace TickPlatform.Retention

open Bytes Protocol Replay Wal Files Crash

variable {H : Hashes} {disk : PruneDisk H} {maxObjects maxBytes : UInt64} {observe : LocalArtifact → CandidateFact}
  {verified : LocalArtifact → Bool}

/-! ## A plan can be built -/

variable {action : PruneAction} {artifact : LocalArtifact} {proof : RetentionProof}

theorem encodes_action (h : makePruneAction H artifact proof = .ok action) : Encodes action.value := by
  obtain ⟨id, digest, hid, hdigest, rfl⟩ := makePruneAction_eq_ok.mp h
  rw [PruneAction.value, encodes_jsonObject]
  simp only [List.forall_mem_cons, forall_mem_nil_iff, and_true, encodes_uint, true_and]
  exact ⟨encodes_string.mpr (utf8Valid_of_isASCII (isASCII_artifactID hid)), encodes_text _, encodes_hash _, encodes_hash _, encodes_string.mpr (stableID_utf8 hid)⟩

theorem encodes_blocked {id : Bytes} (h : artifact.stableID H = .ok id) (reason : BlockReason) :
    Encodes (BlockedCandidate.value ⟨id, reason⟩) := by
  rw [BlockedCandidate.value, encodes_jsonObject]
  simp only [List.forall_mem_cons, forall_mem_nil_iff, and_true]
  exact ⟨encodes_string.mpr (utf8Valid_of_isASCII (isASCII_artifactID h)), encodes_text _⟩

/-- What a draft of a plan holds can be encoded. -/
def Encodable (draft : List PruneAction × List BlockedCandidate) : Prop :=
  (∀ action ∈ draft.1, Encodes action.value) ∧ ∀ blocked ∈ draft.2, Encodes blocked.value

theorem sealPlan_succeeds {draft : PrunePlan} (hversion : draft.planVersion = prunePlanVersion)
    (h : Encodable (draft.actions, draft.blocked)) : ∃ plan, sealPlan H draft = .ok plan := by
  have hencodes : Encodes draft.value := by
    rw [PrunePlan.value, encodes_jsonObject]
    simp only [hversion, List.forall_mem_cons, forall_mem_nil_iff, and_true, encodes_uint,
      encodes_bool, true_and]
    exact ⟨encodes_array (List.forall_mem_map.mpr h.1), encodes_array (List.forall_mem_map.mpr h.2), encodes_text _,
      encodes_text _⟩
  obtain ⟨canonical, hcanonical⟩ := hencodes
  exact ⟨_, sealPlan_eq_ok.mpr ⟨canonical, hcanonical, rfl⟩⟩

variable {candidates : List CandidateFact}

theorem planCandidate_succeeds {input : PlannerInput} {start : Option UInt64} {entries : List Identified} (hlisted : Listed H entries candidates)
    (hproofs : ∀ candidate ∈ candidates, ∀ proof, candidate.proof = some proof → Encodes proof.value) {entry : Identified}
    (hmem : entry ∈ entries) {draft : List PruneAction × List BlockedCandidate} (hdraft : Encodable draft) :
    ∃ next, planCandidate H input (walPrefix input start (walCandidates entries)) draft entry = .ok next ∧ Encodable next := by
  have hid := hlisted.ids entry hmem
  have hblock : ∀ reason, Encodable (draft.1, draft.2 ++ [⟨entry.1, reason⟩]) := by
    intro reason
    refine ⟨hdraft.1, fun blocked hblocked => ?_⟩
    rcases List.mem_append.mp hblocked with hold | hnew
    · exact hdraft.2 blocked hold
    · rw [List.mem_singleton.mp hnew]
      exact encodes_blocked hid reason
  unfold planCandidate
  cases hverdict : verdict input (walPrefix input start (walCandidates entries)) entry with
  | error reason => exact ⟨_, rfl, hblock reason⟩
  | ok proof =>
    simp only
    split
    · exact ⟨_, rfl, hblock .maxPruneCandidates⟩
    · have heligible := candidateEligibility_ok (verdict_ok hlisted.nodup hmem hverdict)
      have hcandidate : entry.2 ∈ candidates := hlisted.facts ▸ List.mem_map_of_mem hmem
      obtain ⟨canonical, hcanonical⟩ := hproofs entry.2 hcandidate proof heligible.given
      have hdigest : proof.digest H = .ok (H.sha256 (retentionProofDomain ++ canonical)) :=
        digest_eq_ok.mpr ⟨heligible.valid, canonical, hcanonical, rfl⟩
      have hmade := makePruneAction_eq_ok.mpr ⟨entry.1, _, hid, hdigest, rfl⟩
      refine ⟨_, bind_eq_ok.mpr ⟨_, hmade, rfl⟩, fun action haction => ?_, hdraft.2⟩
      rcases List.mem_append.mp haction with hold | hnew
      · exact hdraft.1 action hold
      · rw [List.mem_singleton.mp hnew]
        exact encodes_action hmade

/-- Other candidates can be planned with the same settings. -/
theorem buildPrunePlan_succeeds {input : PlannerInput} {plan : PrunePlan} (h : buildPrunePlan H input = .ok plan)
    {entries : List Identified} (hlisted : Listed H entries candidates)
    (hproofs : ∀ candidate ∈ candidates, ∀ proof, candidate.proof = some proof → Encodes proof.value) :
    ∃ plan', buildPrunePlan H { input with candidates := candidates } = .ok plan' := by
  simp only [buildPrunePlan, bind_eq_ok] at h
  obtain ⟨_, hinput, -⟩ := h
  have hperm := byID_perm entries
  have hsorted : Listed H (byID entries) ((byID entries).map (·.2)) :=
    ⟨rfl, fun entry hmem => hlisted.ids entry (hperm.mem_iff.mp hmem), (hperm.map _).nodup_iff.mpr hlisted.nodup,
      (hperm.map _).nodup_iff.mpr hlisted.paths⟩
  have hmember : ∀ candidate ∈ (byID entries).map (·.2), candidate ∈ candidates := by
    intro candidate hmem
    rw [← hlisted.facts]
    exact (hperm.map _).mem_iff.mp hmem
  have hplan : ∃ plan', planEntries H { input with candidates := candidates } (byID entries) = .ok plan' := by
    unfold planEntries
    split
    · refine sealPlan_succeeds rfl ⟨by simp [emptyPlan], List.forall_mem_map.mpr fun entry hmem => ?_⟩
      exact encodes_blocked (hsorted.ids entry hmem) .clockRegression
    · have hempty : Encodable ([], []) := ⟨by simp, by simp⟩
      obtain ⟨draft, hdraft, hencodable⟩ := foldlM_succeeds hempty
        fun entry hmem draft hdraft => planCandidate_succeeds hsorted
          (fun candidate hcandidate => hproofs candidate (hmember candidate hcandidate)) hmem hdraft
      have hsealed : ∃ plan', sealPlan H { emptyPlan { input with candidates := candidates } with
          actions := draft.1, blocked := draft.2 } = .ok plan' := sealPlan_succeeds rfl hencodable
      obtain ⟨plan', hplan'⟩ := hsealed
      exact ⟨plan', bind_eq_ok.mpr ⟨draft, hdraft, hplan'⟩⟩
  obtain ⟨plan', hplan'⟩ := hplan
  exact ⟨plan', bind_eq_ok.mpr ⟨(), hinput, bind_eq_ok.mpr ⟨entries, identify_eq_ok.mpr hlisted, hplan'⟩⟩⟩

/-! ## A crash while the outbox is pruned -/

variable {candidate : CandidateFact}

theorem OutboxCandidate.matchesFiles (hobserve : ∀ artifact, (observe artifact).artifact = artifact) (h : OutboxCandidate observe verified disk candidate) : MatchesFiles disk [] candidate := by
  cases h with
  | completed id content recovered hfile hinventory => exact .completed id content recovered hfile hinventory rfl rfl
  | observed path content found id hfile hinventory hid hnew =>
    have hartifact : (bindRemoteVerification verified (observe found.1)).artifact = found.1 := hobserve found.1
    refine .object path content found.2 hfile ?_ fun id' hid' => ?_
    · rw [hartifact]
      exact hinventory
    · rw [hartifact, hid, Except.ok.injEq] at hid'
      rw [← hid']
      exact hnew

theorem OutboxCandidate.kind (hobserve : ∀ artifact, (observe artifact).artifact = artifact) (h : OutboxCandidate observe verified disk candidate) :
    candidate.artifact.kind = .rawOutbox := by
  cases h with
  | completed id content recovered hfile hinventory =>
    obtain ⟨document, artifact, -, -, hkind, hartifact, -, rfl⟩ := inventoryCompletion_eq_ok.mp hinventory
    show artifact.kind = .rawOutbox
    rw [(completionArtifact_eq_ok hartifact).1]
    exact hkind
  | observed path content found id hfile hinventory hid hnew =>
    obtain ⟨-, segment, -, rfl⟩ := inventoryObject_eq_ok.mp hinventory
    show (observe _).artifact.kind = .rawOutbox
    rw [hobserve]
    rfl

variable {input : PlannerInput} {plan : PrunePlan} {entries : List Identified} {t : PruneDisk H}

/-- **A prune of the outbox**: what holds wherever it is cut off, and at its end. -/
theorem executeOutbox_meets (hnonzero : ∀ data, H.sha256 data ≠ Digest.zero)
    (hobserve : ∀ artifact, (observe artifact).artifact = artifact)
    (hcandidates : ∀ candidate ∈ input.candidates, OutboxCandidate observe verified disk candidate)
    (hlisted : Listed H entries input.candidates) (hplanned : Planned H input plan entries) :
    Meets (execute noFault ⟨true, true⟩ plan input.candidates) disk
      (fun t => SameOthers plan.actions disk t ∧ ∀ action ∈ plan.actions, Pending ⟨true, true⟩ plan entries t action)
      (fun completed t => completed = plan.actions.map (·.artifactID) ∧ SameOthers plan.actions disk t ∧
        SameTemporaries disk t ∧ ∀ action ∈ plan.actions, Done ⟨true, true⟩ plan entries t action)
      (fun _ _ => False) := by
  have hkind : ∀ action ∈ plan.actions, action.artifactKind ≠ .walSegment := by
    intro action hmem
    obtain ⟨candidate, hcandidate, proof, -, hauthorised⟩ := hplanned.authorised hlisted hmem
    obtain ⟨_, _, -, -, rfl⟩ := makePruneAction_eq_ok.mp hauthorised.made
    show candidate.artifact.kind ≠ .walSegment
    rw [(hcandidates candidate hcandidate).kind hobserve]
    simp
  have hwal : walActions plan = [] := by
    rw [List.eq_nil_iff_forall_not_mem]
    intro action hmem
    exact hkind action (mem_walActions.mp hmem).1 (mem_walActions.mp hmem).2
  have hothers : otherActions plan = plan.actions := by
    rw [otherActions, List.filter_eq_self]
    intro action hmem
    simpa using hkind action hmem
  have hmatches := fun candidate hmem => (hcandidates candidate hmem).matchesFiles hobserve
  have hpending := fun action hmem => hplanned.pending hlisted hmatches hmem (hkind action hmem)
  obtain ⟨canonical, -, hdigest⟩ := hplanned.sealed
  refine meets_ok_bind (checkPlan_ok hlisted hplanned) ?_
  rw [hwal, hothers]
  refine meets_bind (meets_pure ⟨SameOthers.refl _ disk, hpending⟩ ?_)
  refine meets_bind ((executeOtherActions_succeeds hnonzero hdigest hplanned.nodup (hplanned.paths hlisted)
    hpending).mono (fun _ => id) ?_ fun _ _ => id)
  rintro _ t ⟨rfl, hsame, htemporaries, hdone⟩
  exact meets_pure ⟨hsame, fun action hmem => (hdone action hmem).pending⟩ ⟨rfl, hsame, htemporaries, hdone⟩

theorem trustedArtifactPath_untrusted {kind : ArtifactKind} {path : Bytes} {text : String}
    (h : trustedArtifactPath disk kind path = .error (.untrusted text)) : validateRelativePath path ≠ .ok () := by
  intro hvalid
  unfold trustedArtifactPath at h
  rw [hvalid] at h
  simp only [Except.mapError, bind, Except.bind] at h
  cases hname : artifactName kind path with
  | none => simp [hname] at h
  | some name =>
    cases hlookup : disk.lookup name with
    | none => simp [hname, hlookup] at h
    | some content => simp [hname, hlookup, pure, Except.pure] at h

theorem checkSource_mono (hkind : artifact.kind = .rawOutbox)
    (hvalid : validateRelativePath artifact.trustedPath = .ok ())
    (hfiles : ∀ content, t.lookup (.outbox artifact.trustedPath) = some content →
      verifyLocalArtifact content artifact = .ok ()) : checkSource t artifact = .ok () := by
  refine checkSource_eq_ok.mpr ⟨fun name content hfile => ?_, fun text herror => ?_⟩
  · obtain ⟨-, hname, hlookup⟩ := trustedArtifactPath_eq_ok.mp hfile
    rw [hkind] at hname
    rw [← Option.some.inj hname] at hlookup
    exact hfiles content hlookup
  · exact trustedArtifactPath_untrusted herror hvalid

variable {content : Content H}

theorem inventoryCompletion_mono {id : Bytes} {recovered : CandidateFact}
    (h : inventoryCompletion disk (id, content) = .ok recovered)
    (hfile : ∀ file, t.lookup (.outbox recovered.artifact.trustedPath) = some file →
      disk.lookup (.outbox recovered.artifact.trustedPath) = some file ∨
        verifyLocalArtifact file recovered.artifact = .ok ()) :
    inventoryCompletion t (id, content) = .ok recovered := by
  obtain ⟨document, artifact, hcontent, hid, hkind, hartifact, hsource, rfl⟩ := inventoryCompletion_eq_ok.mp h
  refine inventoryCompletion_eq_ok.mpr ⟨document, artifact, hcontent, hid, hkind, hartifact, ?_, rfl⟩
  obtain ⟨hfields, hstable, -⟩ := completionArtifact_eq_ok hartifact
  have hvalid := (stableID_eq_ok.mp hstable).1
  have hraw : artifact.kind = .rawOutbox := by
    rw [hfields]
    exact hkind
  refine checkSource_mono hraw hvalid fun file hlookup => ?_
  rcases hfile file hlookup with hold | hverified
  · refine (checkSource_eq_ok.mp hsource).1 (.outbox artifact.trustedPath) file ?_
    refine trustedArtifactPath_eq_ok.mpr ⟨hvalid, ?_, hold⟩
    rw [hraw]
    rfl
  · exact hverified

theorem deletionProof_eq_ok (h : deletionProof plan candidate = .ok proof) :
    candidate.proof = some proof ∧ candidate.recoveryRequired = false ∧ candidate.freshRemote = true ∧
      candidate.coverageVerified = true := by
  simp only [deletionProof, bind_eq_ok, pure_eq_ok, reject_eq_ok, elim_eq_ok, not_or] at h
  obtain ⟨found, hproof, _, ⟨hrecovery, hfresh, hcoverage⟩, _, -, rfl⟩ := h
  exact ⟨hproof, by simpa using hrecovery, by simpa using hfresh, by simpa using hcoverage⟩

theorem OutboxCandidate.remoteVerified (h : OutboxCandidate observe verified disk candidate) :
    candidate.remoteVerified = verified candidate.artifact := by
  cases h <;> rfl

/-- A pending action that has its completion is recovered as the candidate it was made from. -/
theorem Pending.recovered (hlisted : Listed H entries input.candidates) (h : Pending ⟨true, true⟩ plan entries t action)
    (hfile : t.lookup (.completion action.artifactID) = some content) :
    ∃ candidate ∈ input.candidates, candidate.artifact.stableID H = .ok action.artifactID ∧
      ∃ recovered, inventoryCompletion t (action.artifactID, content) = .ok recovered ∧
        ∀ verified : LocalArtifact → Bool, candidate.remoteVerified = verified candidate.artifact →
          bindRemoteVerification verified recovered = candidate := by
  obtain ⟨artifact, proof, hprunable, hout⟩ := h
  obtain ⟨candidate, hlookup, rfl, hdeletion⟩ := hprunable.authorised.candidate
  obtain ⟨hproof, hrecovery, hfresh, hcoverage⟩ := deletionProof_eq_ok hdeletion
  obtain ⟨document, rfl, hid, hartifact, hgiven⟩ := hout.completion content hfile
  have hmem := hlisted.mem_of_lookup hlookup
  have hkind : document.value.artifactKind = .rawOutbox := by
    have hfields := (completionArtifact_eq_ok hartifact).1
    rw [← hprunable.kind, hfields]
  have hsource := checkSource_mono hprunable.kind (stableID_eq_ok.mp hprunable.id).1 hout.file
  refine ⟨candidate, hmem, hprunable.id, recoveredCandidate candidate.artifact document.value,
    inventoryCompletion_eq_ok.mpr ⟨document, candidate.artifact, rfl, hid, hkind, hartifact, hsource, rfl⟩, fun verified hverified => ?_⟩
  cases candidate
  simp_all [bindRemoteVerification, recoveredCandidate]

section
variable (hobserve : ∀ artifact, (observe artifact).artifact = artifact) (hkept : Kept disk)
  (hlisted : Listed H entries input.candidates)
  (hcandidates : ∀ candidate, candidate ∈ input.candidates ↔ OutboxCandidate observe verified disk candidate)
  (hsame : SameOthers plan.actions disk t)
  (hpending : ∀ action ∈ plan.actions, Pending ⟨true, true⟩ plan entries t action)
include hsame

theorem completion_cases {id : Bytes} {content : Content H} (h : t.lookup (.completion id) = some content) :
    disk.lookup (.completion id) = some content ∨ ∃ action ∈ plan.actions, action.artifactID = id := by
  by_cases haction : ∃ action ∈ plan.actions, action.artifactID = id
  · exact .inr haction
  · refine .inl (h ▸ (hsame.others (.completion id) rfl fun action hmem => ⟨by simp, fun heq => haction ?_⟩).symm)
    rw [PruneName.completion.injEq] at heq
    exact ⟨action, hmem, heq.symm⟩

include hobserve hkept hlisted hcandidates hpending

/-- **A crash leaves the candidates as they were**: what was observed before is recovered from its completion. -/
theorem outboxCandidate_iff (candidate : CandidateFact) :
    OutboxCandidate observe verified t candidate ↔ OutboxCandidate observe verified disk candidate := by
  constructor
  · intro h
    cases h with
    | completed id content recovered hfile hinventory =>
      rcases completion_cases hsame hfile with hold | ⟨action, hmem, rfl⟩
      · obtain ⟨recovered', hrecovered⟩ := hkept.completions id content hold
        have hmono := inventoryCompletion_mono hrecovered fun file hfile => .inl (hsame.files _ file hfile)
        rw [hinventory, Except.ok.injEq] at hmono
        exact .completed id content recovered hold (hmono ▸ hrecovered)
      · obtain ⟨candidate, hcandidate, -, recovered', hrecovered, hbind⟩ := (hpending action hmem).recovered hlisted hfile
        rw [hinventory, Except.ok.injEq] at hrecovered
        subst hrecovered
        rw [hbind _ ((hcandidates candidate).mp hcandidate).remoteVerified]
        exact (hcandidates candidate).mp hcandidate
    | observed path content found id hfile hinventory hid hnew =>
      refine .observed path content found id (hsame.files path content hfile) hinventory hid ?_
      by_contra hne
      obtain ⟨content', hcontent⟩ := Option.ne_none_iff_exists'.mp hne
      rw [hsame.completions id content' hcontent] at hnew
      cases hnew
  · intro h
    cases h with
    | completed id content recovered hfile hinventory =>
      exact .completed id content recovered (hsame.completions id content hfile)
        (inventoryCompletion_mono hinventory fun file hfile => .inl (hsame.files _ file hfile))
    | observed path content found id hfile hinventory hid hnew =>
      have hcandidate := (hcandidates _).mpr (.observed path content found id hfile hinventory hid hnew)
      have hartifact : (bindRemoteVerification verified (observe found.1)).artifact = found.1 := hobserve found.1
      have hpath : found.1.trustedPath = path := by
        obtain ⟨-, segment, -, rfl⟩ := inventoryObject_eq_ok.mp hinventory
        rfl
      cases hcompletion : t.lookup (.completion id) with
      | some content' =>
        rcases completion_cases hsame hcompletion with hold | ⟨action, hmem, rfl⟩
        · rw [hnew] at hold
          cases hold
        · obtain ⟨candidate, hmember, hstable, recovered, hrecovered, hbind⟩ :=
            (hpending action hmem).recovered hlisted hcompletion
          have heq := hlisted.unique hmember hcandidate hstable (by rw [hartifact]; exact hid)
          rw [← heq, ← hbind _ ((hcandidates candidate).mp hmember).remoteVerified]
          exact .completed _ content' recovered hcompletion hrecovered
      | none =>
        refine .observed path content found id ?_ hinventory hid hcompletion
        by_cases haction : ∃ action ∈ plan.actions, action.trustedPath = path
        · obtain ⟨action, hmem, rfl⟩ := haction
          obtain ⟨artifact, proof, hprunable, hout⟩ := hpending action hmem
          obtain ⟨other, hlookup, rfl, -⟩ := hprunable.authorised.candidate
          have hmember := hlisted.mem_of_lookup hlookup
          -- the action is the one of this artifact, and without its completion the file must be there
          have heq : other = bindRemoteVerification verified (observe found.1) := by
            rw [← hlisted.facts] at hmember hcandidate
            obtain ⟨entry, hentry, rfl⟩ := List.mem_map.mp hmember
            obtain ⟨entry', hentry', heq'⟩ := List.mem_map.mp hcandidate
            have hsamePath : entry.2.artifact.trustedPath = entry'.2.artifact.trustedPath := by
              rw [heq', hartifact, hpath, hprunable.action_path]
            rw [List.inj_on_of_nodup_map hlisted.paths hentry hentry' hsamePath, heq']
          have hstable := hprunable.id
          rw [heq, hartifact, hid, Except.ok.injEq] at hstable
          rcases hout.either with hpresent | hpresent
          · rw [← hprunable.action_path] at hpresent
            obtain ⟨content', hcontent⟩ := Option.ne_none_iff_exists'.mp hpresent
            have hdisk := hsame.files _ _ hcontent
            rw [hfile, Option.some.injEq] at hdisk
            rw [hcontent, hdisk]
          · rw [← hstable] at hpresent
            exact absurd hcompletion hpresent
        · rw [← hfile]
          refine hsame.others (.outbox path) rfl fun action hmem => ⟨fun heq => haction ?_, by simp⟩
          rw [PruneName.outbox.injEq] at heq
          exact ⟨action, hmem, heq.symm⟩

omit hcandidates hobserve in
theorem kept_after_crash (htemporaries : ∀ nonce, t.lookup (.completionTemporary nonce) = none) : Kept t where
  objects path content hfile := hkept.objects path content (hsame.files path content hfile)
  completions id content hfile := by
    rcases completion_cases hsame hfile with hold | ⟨action, hmem, rfl⟩
    · obtain ⟨recovered, hrecovered⟩ := hkept.completions id content hold
      exact ⟨recovered, inventoryCompletion_mono hrecovered fun file hfile => .inl (hsame.files _ file hfile)⟩
    · obtain ⟨-, -, -, recovered, hrecovered, -⟩ := (hpending action hmem).recovered hlisted hfile
      exact ⟨recovered, hrecovered⟩
  temporaries := htemporaries
  others name := (hsame.others (.completionOther name) rfl fun _ _ => ⟨by simp, by simp⟩).trans (hkept.others name)

end

/-! ## A crash while a segment is promoted -/

/-- The outbox with one more segment under its key. -/
structure Promoted (disk t : PruneDisk H) (data : Bytes) : Prop where
  sealed : ∃ segment, verifySealedSegment H data = .ok segment
  new : disk.lookup (.outbox (rawWALObjectKey (H.sha256 data))) = none
  linked : t.lookup (.outbox (rawWALObjectKey (H.sha256 data))) = some (.data data)
  others : ∀ name, name ≠ .outbox (rawWALObjectKey (H.sha256 data)) → t.lookup name = disk.lookup name

variable {data : Bytes}

theorem verifyExistingObject_quiet {key : Bytes} {source : VerifiedSegment} {C : PruneDisk H → Prop} (hC : C t) :
    Meets (verifyExistingObject key source data) t C (fun _ _ => True) fun _ _ => True :=
  meets_read_bind (meets_lift_bind hC (fun _ _ => trivial) fun _ _ => meets_pure hC trivial)

theorem publishObject_meets {nonce : Bytes} {source segment : VerifiedSegment}
    (hsealed : verifySealedSegment H data = .ok segment)
    (hfresh : disk.lookup (.outbox (promoteTemporary nonce)) = none)
    (hnew : disk.lookup (.outbox (rawWALObjectKey (H.sha256 data))) = none) :
    Meets (publishObject (rawWALObjectKey (H.sha256 data)) nonce source data) disk
      (fun t => t = disk ∨ t.lookup (.outbox (promoteTemporary nonce)) ≠ none ∨ Promoted disk t data)
      (fun _ _ => True) fun _ _ => True := by
  have hne := promoteTemporary_ne nonce (H.sha256 data)
  have hpresent : ∀ content, (disk.insert (.outbox (promoteTemporary nonce)) content).lookup
      (.outbox (promoteTemporary nonce)) ≠ none := by simp
  have hlink : Device.run (.link (.outbox (promoteTemporary nonce)) (.outbox (rawWALObjectKey (H.sha256 data))) : PruneOp H)
      (disk.insert (.outbox (promoteTemporary nonce)) (.data data)) =
        (disk.insert (.outbox (promoteTemporary nonce)) (.data data)).insert (.outbox (rawWALObjectKey (H.sha256 data)))
          (.data data) :=
    run_link (AList.lookup_insert disk)
  have hboth : ((disk.insert (.outbox (promoteTemporary nonce)) (.data data)).insert
      (.outbox (rawWALObjectKey (H.sha256 data))) (.data data)).lookup (.outbox (promoteTemporary nonce)) ≠ none := by
    rw [lookup_insert_of, if_neg (by simpa using hne)]
    exact hpresent _
  have hpromoted : Promoted disk (((disk.insert (.outbox (promoteTemporary nonce)) (.data data)).insert
      (.outbox (rawWALObjectKey (H.sha256 data))) (.data data)).erase (.outbox (promoteTemporary nonce))) data := by
    refine ⟨⟨segment, hsealed⟩, hnew, ?_, fun name hname => ?_⟩
    · rw [lookup_erase_of, if_neg (by simpa using hne.symm), lookup_insert_of, if_pos rfl]
    · rw [lookup_erase_of, lookup_insert_of, if_neg hname, lookup_insert_of]
      split
      · next heq => rw [heq, hfresh]
      · rfl
  unfold publishObject
  refine meets_bind (meets_emit (.inl rfl) ?_ (.inr (.inl (hpresent _))) ?_)
  · rintro t ⟨part, rfl⟩
    exact .inr (.inl (hpresent _))
  rw [run_write]
  refine meets_read_bind (meets_lift_bind (.inr (.inl (hpresent _))) (fun _ _ => trivial) fun _ _ => ?_)
  refine meets_bind (meets_emit (.inr (.inl (hpresent _))) (fun _ h => (torn_link h).elim) ?_ ?_)
  · rw [hlink]
    exact .inr (.inl hboth)
  rw [hlink]
  refine meets_bind (meets_emit (.inr (.inl hboth)) (fun _ h => (torn_remove h).elim) ?_ ?_)
  · rw [run_remove]
    exact .inr (.inr hpromoted)
  · rw [run_remove]
    exact verifyExistingObject_quiet (.inr (.inr hpromoted))

theorem promoteSealedSegment_meets {name nonce : Bytes}
    (hfresh : disk.lookup (.outbox (promoteTemporary nonce)) = none) :
    Meets (promoteSealedSegment name nonce) disk
      (fun t => t = disk ∨ t.lookup (.outbox (promoteTemporary nonce)) ≠ none ∨ Promoted disk t (bytesAt (.sealed name) disk))
      (fun _ _ => True) fun _ _ => True := by
  refine meets_read_bind (meets_lift_bind (.inl rfl) (fun _ _ => trivial) fun source hsource => ?_)
  rw [mapError_eq_ok] at hsource
  obtain ⟨-, -, hsha, -, -⟩ := verifySealedBytes_facts hsource
  refine meets_read_bind ?_
  rw [hsha]
  split
  · exact verifyExistingObject_quiet (.inl rfl)
  · next hnew =>
    rw [Option.not_isSome_iff_eq_none] at hnew
    exact publishObject_meets hsource hfresh hnew

/-- A completion for the key of a segment is about that very segment. -/
def SpeaksFor (disk : PruneDisk H) (data : Bytes) : Prop :=
  ∀ id content recovered, disk.lookup (.completion id) = some content → inventoryCompletion disk (id, content) = .ok recovered →
    recovered.artifact.trustedPath = rawWALObjectKey (H.sha256 data) →
    verifyLocalArtifact (.data data : Content H) recovered.artifact = .ok ()

theorem Promoted.inventoryCompletion (h : Promoted disk t data) (hspeaks : SpeaksFor disk data) {id : Bytes} {recovered : CandidateFact} (hfile : disk.lookup (.completion id) = some content)
    (hrecovered : inventoryCompletion disk (id, content) = .ok recovered) :
    inventoryCompletion t (id, content) = .ok recovered := by
  refine inventoryCompletion_mono hrecovered fun file hlookup => ?_
  by_cases hkey : recovered.artifact.trustedPath = rawWALObjectKey (H.sha256 data)
  · rw [hkey, h.linked, Option.some.injEq] at hlookup
    rw [← hlookup]
    exact .inr (hspeaks id content recovered hfile hrecovered hkey)
  · rw [h.others _ (by simpa using hkey)] at hlookup
    exact .inl hlookup

theorem Promoted.kept (h : Promoted disk t data) (hkept : Kept disk) (hspeaks : SpeaksFor disk data) : Kept t where
  objects path content hfile := by
    by_cases hkey : path = rawWALObjectKey (H.sha256 data)
    · rw [hkey, h.linked, Option.some.injEq] at hfile
      obtain ⟨segment, hsealed⟩ := h.sealed
      rw [← hfile, hkey]
      exact ⟨_, inventoryObject_eq_ok.mpr ⟨rfl, segment, hsealed, rfl⟩⟩
    · rw [h.others _ (by simpa using hkey)] at hfile
      exact hkept.objects path content hfile
  completions id content hfile := by
    rw [h.others _ (by simp)] at hfile
    obtain ⟨recovered, hrecovered⟩ := hkept.completions id content hfile
    exact ⟨recovered, h.inventoryCompletion hspeaks hfile hrecovered⟩
  temporaries nonce := by
    rw [h.others _ (by simp)]
    exact hkept.temporaries nonce
  others name := by
    rw [h.others _ (by simp)]
    exact hkept.others name

/-! ## The rerun -/

/-- Every file of the plan is gone with its completion in place, and every other file is still there. -/
structure Converged (plan : PrunePlan) (disk t : PruneDisk H) : Prop where
  gone : ∀ action ∈ plan.actions, t.lookup (.outbox action.trustedPath) = none
  completed : ∀ action ∈ plan.actions, ∃ document : CompletionDocument H,
    t.lookup (.completion action.artifactID) = some (.completion document) ∧
      document.value.artifactID = action.artifactID ∧ completionMatchesAction H document.value action = .ok ()
  kept : ∀ path content, disk.lookup (.outbox path) = some content → (∀ action ∈ plan.actions, action.trustedPath ≠ path) →
    t.lookup (.outbox path) = some content

/-- Inventories, plan and execution succeed, and converge. -/
def Reruns (observe : LocalArtifact → CandidateFact) (verified : LocalArtifact → Bool) (input : PlannerInput)
    (maxObjects maxBytes : UInt64) (disk t : PruneDisk H) (plan : PrunePlan) : Prop :=
  ∃ candidates ops completed, outboxCandidates observe verified t maxObjects maxBytes = .ok candidates ∧
    buildPrunePlan H { input with candidates := candidates } = .ok plan ∧
    (execute noFault ⟨true, true⟩ plan candidates).run t = (ops, .ok completed) ∧ Converged plan disk (runAll ops t)

/-- No promotion and no publication of a completion has left its temporary file. -/
def NoTemporaries (t : PruneDisk H) : Prop :=
  (∀ nonce, t.lookup (.completionTemporary nonce) = none) ∧ ∀ nonce, t.lookup (.outbox (promoteTemporary nonce)) = none

theorem Kept.noTemporaries (h : Kept t) : NoTemporaries t := by
  refine ⟨h.temporaries, fun nonce => ?_⟩
  by_contra hne
  obtain ⟨content, hcontent⟩ := Option.ne_none_iff_exists'.mp hne
  obtain ⟨found, hfound⟩ := h.objects _ content hcontent
  exact promoteTemporary_ne nonce _ (inventoryObject_eq_ok.mp hfound).1

theorem Done.converged {known : List Identified} (h : Done ⟨true, true⟩ plan known t action) :
    t.lookup (.outbox action.trustedPath) = none ∧ ∃ document : CompletionDocument H,
      t.lookup (.completion action.artifactID) = some (.completion document) ∧
        document.value.artifactID = action.artifactID ∧ completionMatchesAction H document.value action = .ok () := by
  obtain ⟨artifact, proof, hprunable, hgone, content, hfile, document, rfl, hid, hartifact, rfl⟩ := h
  rw [hprunable.action_path]
  refine ⟨hgone, document, hfile, hid, bind_eq_ok.mpr ⟨artifact, hartifact, reject_eq_ok.mpr ?_⟩⟩
  rw [hprunable.authorised.made]
  simp [Except.toOption]

/-- What can be inventoried and planned is executed. -/
theorem execute_converges (hnonzero : ∀ data, H.sha256 data ≠ Digest.zero)
    (hobserve : ∀ artifact, (observe artifact).artifact = artifact)
    (hcandidates : outboxCandidates observe verified t maxObjects maxBytes = .ok candidates)
    (hplan : buildPrunePlan H { input with candidates := candidates } = .ok plan)
    (hfiles : ∀ path content, disk.lookup (.outbox path) = some content →
      (∀ action ∈ plan.actions, action.trustedPath ≠ path) → t.lookup (.outbox path) = some content) :
    Reruns observe verified input maxObjects maxBytes disk t plan := by
  obtain ⟨entries, hlisted, hplanned⟩ := buildPrunePlan_ok hplan
  have hmeets := executeOutbox_meets hnonzero hobserve (fun candidate hmem => (mem_outboxCandidates hcandidates).mp hmem)
    hlisted hplanned
  obtain ⟨ops, completed, hrun, -, hsame, -, hdone⟩ := hmeets.run_ok
  refine ⟨candidates, ops, completed, hcandidates, hplan, hrun, fun action hmem => (hdone action hmem).converged.1,
    fun action hmem => (hdone action hmem).converged.2, fun path content hfile hother => ?_⟩
  rw [← hfiles path content hfile hother]
  refine hsame.others (.outbox path) rfl fun action hmem => ⟨fun heq => ?_, by simp⟩
  rw [PruneName.outbox.injEq] at heq
  exact hother action hmem heq.symm

theorem encodes_recovered {id : Bytes} {recovered : CandidateFact}
    (h : inventoryCompletion disk (id, content) = .ok recovered) (hproof : recovered.proof = some proof) :
    Encodes proof.value := by
  obtain ⟨document, artifact, -, -, -, -, -, rfl⟩ := inventoryCompletion_eq_ok.mp h
  obtain ⟨_, -, hcanonical⟩ := bind_eq_ok.mp document.valid
  have hencodes : Encodes document.value.value := ⟨_, hcanonical⟩
  rw [PruneCompletion.value, encodes_jsonObject] at hencodes
  rw [← Option.some.inj hproof]
  exact hencodes ("retention_proof", document.value.retentionProof.value) (by simp)

theorem OutboxCandidate.encodes
    (hproofs : ∀ artifact proof, (observe artifact).proof = some proof → Encodes proof.value)
    (h : OutboxCandidate observe verified disk candidate) (hproof : candidate.proof = some proof) :
    Encodes proof.value := by
  cases h with
  | completed id content recovered hfile hinventory => exact encodes_recovered hinventory hproof
  | observed path content found id hfile hinventory hid hnew => exact hproofs found.1 proof hproof

theorem OutboxCandidate.id (hobserve : ∀ artifact, (observe artifact).artifact = artifact)
    (h : OutboxCandidate observe verified disk candidate) : ∃ id, candidate.artifact.stableID H = .ok id := by
  cases h with
  | completed id content recovered hfile hinventory =>
    have hid : recovered.artifact.stableID H = .ok id := inventoryCompletion_id hinventory
    exact ⟨id, hid⟩
  | observed path content found id hfile hinventory hid hnew =>
    refine ⟨id, ?_⟩
    show (observe found.1).artifact.stableID H = .ok id
    rw [hobserve]
    exact hid

/-- **When a crash of an execution is made good**: the rerun completes the plan just if no temporary file is left. -/
theorem reruns_after_execute (hnonzero : ∀ data, H.sha256 data ≠ Digest.zero)
    (hobserve : ∀ artifact, (observe artifact).artifact = artifact)
    (hcandidates : outboxCandidates observe verified disk maxObjects maxBytes = .ok input.candidates)
    (hplan : buildPrunePlan H input = .ok plan)
    (hcrash : (execute noFault ⟨true, true⟩ plan input.candidates).CrashIn disk t) (hclean : NoTemporaries t)
    (hfits : OutboxFits t maxObjects maxBytes) : Reruns observe verified input maxObjects maxBytes disk t plan := by
  obtain ⟨entries, hlisted, hplanned⟩ := buildPrunePlan_ok hplan
  have hkept := ((outboxCandidates_ok hnonzero).mp ⟨_, hcandidates⟩).1
  have hmember := fun candidate => @mem_outboxCandidates _ _ _ _ _ _ _ hcandidates candidate
  have hmeets := executeOutbox_meets hnonzero hobserve (fun candidate hmem => (hmember candidate).mp hmem) hlisted hplanned
  obtain ⟨hsame, hpending⟩ := hmeets.crash t hcrash
  have hsome : ∃ candidates, outboxCandidates observe verified t maxObjects maxBytes = .ok candidates :=
    (outboxCandidates_ok hnonzero).mpr ⟨kept_after_crash hkept hlisted hsame hpending hclean.1, hfits⟩
  obtain ⟨candidates, hagain⟩ := hsome
  have hperm : input.candidates.Perm candidates := by
    rw [List.perm_ext_iff_of_nodup (nodup_outboxCandidates hobserve hcandidates) (nodup_outboxCandidates hobserve hagain)]
    intro candidate
    rw [hmember, mem_outboxCandidates hagain,
      outboxCandidate_iff hobserve hkept hlisted hmember hsame hpending]
  refine execute_converges hnonzero hobserve hagain (buildPrunePlan_perm hperm hplan) fun path content hfile hother => ?_
  rw [← hfile]
  refine hsame.others (.outbox path) rfl fun action hmem => ⟨fun heq => ?_, by simp⟩
  rw [PruneName.outbox.injEq] at heq
  exact hother action hmem heq.symm

/-- The same for a crash of a promotion, after which there may be one more candidate. -/
theorem reruns_after_promote (hnonzero : ∀ data, H.sha256 data ≠ Digest.zero)
    (hobserve : ∀ artifact, (observe artifact).artifact = artifact)
    (hproofs : ∀ artifact proof, (observe artifact).proof = some proof → Encodes proof.value)
    (hcandidates : outboxCandidates observe verified disk maxObjects maxBytes = .ok input.candidates)
    (hplan : buildPrunePlan H input = .ok plan) (hpromoted : Promoted disk t data)
    (hspeaks : SpeaksFor disk data)
    (hdistinct : ∀ candidates, outboxCandidates observe verified t maxObjects maxBytes = .ok candidates → Distinct H candidates)
    (hfits : OutboxFits t maxObjects maxBytes) :
    ∃ plan', Reruns observe verified input maxObjects maxBytes disk t plan' := by
  have hkept := ((outboxCandidates_ok hnonzero).mp ⟨_, hcandidates⟩).1
  have hsome : ∃ candidates, outboxCandidates observe verified t maxObjects maxBytes = .ok candidates :=
    (outboxCandidates_ok hnonzero).mpr ⟨hpromoted.kept hkept hspeaks, hfits⟩
  obtain ⟨candidates, hagain⟩ := hsome
  have hmember := fun candidate => @mem_outboxCandidates _ _ _ _ _ _ _ hagain candidate
  have hlisted := listed_of_distinct (hdistinct candidates hagain) fun candidate hmem =>
    ((hmember candidate).mp hmem).id hobserve
  obtain ⟨plan', hplan'⟩ := buildPrunePlan_succeeds hplan hlisted fun candidate hmem proof hproof =>
    ((hmember candidate).mp hmem).encodes hproofs hproof
  refine ⟨plan', execute_converges hnonzero hobserve hagain hplan' fun path content hfile _ => ?_⟩
  have hne : path ≠ rawWALObjectKey (H.sha256 data) := by
    rintro rfl
    rw [hpromoted.new] at hfile
    cases hfile
  rw [hpromoted.others _ (by simpa using hne)]
  exact hfile

/-- **Pruning the outbox after a crash.** A rerun on what an interrupted execution or promotion has left converges just
if no temporary file is left and the inventories have room. -/
theorem outbox_converges_iff (hnonzero : ∀ data, H.sha256 data ≠ Digest.zero)
    (hobserve : ∀ artifact, (observe artifact).artifact = artifact)
    (hproofs : ∀ artifact proof, (observe artifact).proof = some proof → Encodes proof.value)
    (hcandidates : outboxCandidates observe verified disk maxObjects maxBytes = .ok input.candidates)
    (hplan : buildPrunePlan H input = .ok plan) :
    (∀ t, (execute noFault ⟨true, true⟩ plan input.candidates).CrashIn disk t →
      (Reruns observe verified input maxObjects maxBytes disk t plan ↔
        NoTemporaries t ∧ OutboxFits t maxObjects maxBytes)) ∧
    ∀ name nonce t, disk.lookup (.outbox (promoteTemporary nonce)) = none → SpeaksFor disk (bytesAt (.sealed name) disk) →
      (∀ candidates, outboxCandidates observe verified t maxObjects maxBytes = .ok candidates → Distinct H candidates) →
      (promoteSealedSegment name nonce).CrashIn disk t →
      ((∃ plan', Reruns observe verified input maxObjects maxBytes disk t plan') ↔
        NoTemporaries t ∧ OutboxFits t maxObjects maxBytes) := by
  have hclean : ∀ {t plan'}, Reruns observe verified input maxObjects maxBytes disk t plan' →
      NoTemporaries t ∧ OutboxFits t maxObjects maxBytes := by
    rintro t plan' ⟨candidates, ops, completed, hagain, -⟩
    obtain ⟨hkept, hfits⟩ := (outboxCandidates_ok hnonzero).mp ⟨candidates, hagain⟩
    exact ⟨hkept.noTemporaries, hfits⟩
  refine ⟨fun t hcrash => ⟨hclean, fun h => ?_⟩, fun name nonce t hfresh hspeaks hdistinct hcrash => ⟨?_, fun h => ?_⟩⟩
  · exact reruns_after_execute hnonzero hobserve hcandidates hplan hcrash h.1 h.2
  · rintro ⟨plan', hreruns⟩
    exact hclean hreruns
  · rcases (promoteSealedSegment_meets hfresh).crash t hcrash with rfl | htemporary | hpromoted
    · exact ⟨plan, execute_converges hnonzero hobserve hcandidates hplan fun _ _ hfile _ => hfile⟩
    · exact absurd (h.1.2 nonce) htemporary
    · exact reruns_after_promote hnonzero hobserve hproofs hcandidates hplan hpromoted hspeaks hdistinct h.2

/-! ## One segment in the outbox -/

/-- Every artifact is observed with a proof that can be written down. -/
def sampleObserve (artifact : LocalArtifact) : CandidateFact :=
  { sampleCandidate artifact with
    proof := if (canonicalJSON (sampleProof artifact).value).toOption.isSome then some (sampleProof artifact) else none }

theorem sampleObserve_encodes (artifact : LocalArtifact) (proof : RetentionProof)
    (h : (sampleObserve artifact).proof = some proof) : Encodes proof.value := by
  unfold sampleObserve at h
  simp only at h
  split at h
  · next hsome =>
    obtain ⟨text, htext⟩ := Option.isSome_iff_exists.mp hsome
    rw [← Option.some.inj h]
    exact ⟨text, toOption_eq_some.mp htext⟩
  · cases h

/-- The outbox after the promotion of the one segment. -/
def oneObject : PruneDisk sampleHashes :=
  runAll ((promoteSealedSegment (segmentNameFromRange 1 1) (utf8 "1")).run oneSegment).1 oneSegment

def outboxCandidate : List CandidateFact :=
  ((outboxCandidates sampleObserve (fun _ => true) oneObject 8 65536).toOption).getD []

/-- The outbox when the process dies after so many operations of the execution. -/
def cutOff (count : Nat) : PruneDisk sampleHashes :=
  runAll (((execute noFault ⟨true, true⟩ (samplePlan outboxCandidate) outboxCandidate).run oneObject).1.take count) oneObject

instance oneObject_plans : Fact ((outboxCandidates sampleObserve (fun _ => true) oneObject 8 65536).toOption.isSome ∧
      (buildPrunePlan sampleHashes (sampleInput outboxCandidate)).toOption.isSome) := ⟨by decide +kernel⟩

theorem oneObject_planned : outboxCandidates sampleObserve (fun _ => true) oneObject 8 65536 = .ok outboxCandidate ∧
    buildPrunePlan sampleHashes (sampleInput outboxCandidate) = .ok (samplePlan outboxCandidate) := by
  obtain ⟨candidates, hcandidates⟩ := Option.isSome_iff_exists.mp oneObject_plans.out.1
  obtain ⟨plan, hplan⟩ := Option.isSome_iff_exists.mp oneObject_plans.out.2
  have hsame : outboxCandidate = candidates := by
    rw [outboxCandidate, hcandidates]
    rfl
  have hplanned : samplePlan outboxCandidate = plan := by
    rw [samplePlan, hplan]
    rfl
  exact ⟨hsame ▸ toOption_eq_some.mp hcandidates, hplanned ▸ toOption_eq_some.mp hplan⟩

instance cutOff_state : Fact ((samplePlan outboxCandidate).actions.length = 1 ∧ (outboxFolder.list keyLE (cutOff 3)).length = 1 ∧
      (completionFolder.list keyLE (cutOff 3)).length = 1 ∧
      (outboxCandidates sampleObserve (fun _ => true) (cutOff 3) 8 65536).toOption.isSome) := ⟨by decide +kernel⟩

/-- The completion is published and the file still there when the process dies. -/
theorem outbox_converges_completed : (samplePlan outboxCandidate).actions.length = 1 ∧
    (outboxFolder.list keyLE (cutOff 3)).length = 1 ∧ (completionFolder.list keyLE (cutOff 3)).length = 1 ∧
    Reruns sampleObserve (fun _ => true) (sampleInput outboxCandidate) 8 65536 oneObject (cutOff 3)
      (samplePlan outboxCandidate) := by
  obtain ⟨hactions, hobjects, hcompletions, hsome⟩ := cutOff_state.out
  obtain ⟨candidates, hagain⟩ := Option.isSome_iff_exists.mp hsome
  obtain ⟨hkept, hfits⟩ := (outboxCandidates_ok sampleHashes_ne_zero).mp ⟨candidates, toOption_eq_some.mp hagain⟩
  have hiff := (outbox_converges_iff sampleHashes_ne_zero (fun _ => rfl) sampleObserve_encodes oneObject_planned.1
    oneObject_planned.2).1 (cutOff 3) (crashAt_take _ 3 _)
  exact ⟨hactions, hobjects, hcompletions, hiff.mpr ⟨hkept.noTemporaries, hfits⟩⟩

instance stuck_inventories : Fact (outboxCandidates sampleObserve (fun _ => true) (cutOff 1) 8 65536 =
      .error (otherError "prune completion directory contains an unexpected entry") ∧
    outboxCandidates sampleObserve (fun _ => true)
        (runAll (((promoteSealedSegment (segmentNameFromRange 1 1) (utf8 "1")).run oneSegment).1.take 1) oneSegment) 8 65536 =
      .error (otherError "raw outbox path does not match its content digest")) := ⟨by decide +kernel⟩

/-- The completion is written under its temporary name when the process dies; or the segment under its own, in a
promotion. Neither inventory accepts what is left. -/
theorem outbox_stuck :
    (execute noFault ⟨true, true⟩ (samplePlan outboxCandidate) outboxCandidate).CrashIn oneObject (cutOff 1) ∧
    outboxCandidates sampleObserve (fun _ => true) (cutOff 1) 8 65536 =
      .error (otherError "prune completion directory contains an unexpected entry") ∧
    ∃ t, (promoteSealedSegment (segmentNameFromRange 1 1) (utf8 "1")).CrashIn oneSegment t ∧
      outboxCandidates sampleObserve (fun _ => true) t 8 65536 =
        .error (otherError "raw outbox path does not match its content digest") := by
  exact ⟨crashAt_take _ 1 _, stuck_inventories.out.1, _, crashAt_take _ 1 _, stuck_inventories.out.2⟩

end TickPlatform.Retention
