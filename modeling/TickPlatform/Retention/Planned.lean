import TickPlatform.Lists
import TickPlatform.Retention.Planner

/-!
# What a plan is made of

Every action of a plan was made from an eligible candidate with its own id and its own path, and the plan
depends on the candidates only as a set.
-/

namespace TickPlatform.Retention

open Bytes Protocol Replay Wal

variable {H : Hashes} {input : PlannerInput} {plan : PrunePlan}

/-! ## Identified candidates -/

theorem nodup_map_concat {α β : Type} {f : α → β} {l : List α} {a : α} :
    ((l ++ [a]).map f).Nodup ↔ (l.map f).Nodup ∧ f a ∉ l.map f := by
  rw [List.map_append, List.map_singleton, List.nodup_append]
  constructor
  · rintro ⟨hnodup, -, hdisjoint⟩
    exact ⟨hnodup, fun hmem => hdisjoint _ hmem _ (List.mem_singleton_self _) rfl⟩
  · rintro ⟨hnodup, hnew⟩
    refine ⟨hnodup, List.nodup_singleton _, fun b hb c hc heq => hnew ?_⟩
    rw [← List.mem_singleton.mp hc, ← heq]
    exact hb

/-- Candidates under distinct ids and distinct paths. -/
structure Listed (H : Hashes) (entries : List Identified) (candidates : List CandidateFact) : Prop where
  facts : entries.map (·.2) = candidates
  ids : ∀ entry ∈ entries, entry.2.artifact.stableID H = .ok entry.1
  nodup : (entries.map (·.1)).Nodup
  paths : (entries.map fun entry => entry.2.artifact.trustedPath).Nodup

theorem addCandidate_eq_ok {known next : List Identified} {candidate : CandidateFact} :
    addCandidate H known candidate = .ok next ↔ ∃ id, candidate.artifact.stableID H = .ok id ∧
      id ∉ known.map (·.1) ∧ candidate.artifact.trustedPath ∉ known.map (fun entry => entry.2.artifact.trustedPath) ∧
      next = known ++ [(id, candidate)] := by
  simp only [addCandidate, bind_eq_ok, pure_eq_ok, mapError_eq_ok, reject_eq_ok, List.any_eq_true, decide_eq_true_eq,
    List.mem_map, exists_unit, eq_comm (a := next)]

theorem identify_from {candidates : List CandidateFact} {known entries : List Identified}
    (hids : (known.map (·.1)).Nodup) (hpaths : (known.map fun entry => entry.2.artifact.trustedPath).Nodup) :
    candidates.foldlM (addCandidate H) known = .ok entries ↔
      ∃ added, entries = known ++ added ∧ added.map (·.2) = candidates ∧
        (∀ entry ∈ added, entry.2.artifact.stableID H = .ok entry.1) ∧ (entries.map (·.1)).Nodup ∧
        (entries.map fun entry => entry.2.artifact.trustedPath).Nodup := by
  induction candidates generalizing known with
  | nil =>
    rw [foldlM_nil_eq_ok]
    constructor
    · rintro rfl
      exact ⟨[], by simp, rfl, by simp, hids, hpaths⟩
    · rintro ⟨added, rfl, hadded, -⟩
      rw [List.map_eq_nil_iff] at hadded
      rw [hadded, List.append_nil]
  | cons candidate later ih =>
    simp only [foldlM_cons_eq_ok, addCandidate_eq_ok]
    constructor
    · rintro ⟨_, ⟨id, hid, hnew, hpath, rfl⟩, hrest⟩
      rw [ih (nodup_map_concat.mpr ⟨hids, hnew⟩) (nodup_map_concat.mpr ⟨hpaths, hpath⟩)] at hrest
      obtain ⟨added, rfl, rfl, hadded, hnodup, hnodup'⟩ := hrest
      exact ⟨(id, candidate) :: added, by simp, rfl, List.forall_mem_cons.mpr ⟨hid, hadded⟩, hnodup, hnodup'⟩
    · rintro ⟨added, rfl, hadded, hall, hnodup, hnodup'⟩
      cases added with
      | nil => cases hadded
      | cons entry added =>
        rw [List.map_cons, List.cons.injEq] at hadded
        obtain ⟨rfl, rfl⟩ := hadded
        rw [List.forall_mem_cons] at hall
        have hsplit : known ++ entry :: added = (known ++ [entry]) ++ added := by simp
        have hfront : ((known ++ [entry]).map (·.1)).Nodup := by
          rw [hsplit, List.map_append] at hnodup
          exact hnodup.of_append_left
        have hfront' : ((known ++ [entry]).map fun entry => entry.2.artifact.trustedPath).Nodup := by
          rw [hsplit, List.map_append] at hnodup'
          exact hnodup'.of_append_left
        refine ⟨known ++ [entry], ⟨entry.1, hall.1, (nodup_map_concat.mp hfront).2, (nodup_map_concat.mp hfront').2, rfl⟩, ?_⟩
        exact (ih hfront hfront').mpr ⟨added, hsplit, rfl, hall.2, hnodup, hnodup'⟩

theorem identify_eq_ok {candidates : List CandidateFact} {entries : List Identified} :
    identify H candidates = .ok entries ↔ Listed H entries candidates := by
  have hempty := @identify_from H candidates [] entries List.nodup_nil List.nodup_nil
  rw [identify, hempty]
  constructor
  · rintro ⟨added, rfl, hfacts, hids, hnodup, hpaths⟩
    exact ⟨hfacts, hids, hnodup, hpaths⟩
  · rintro ⟨hfacts, hids, hnodup, hpaths⟩
    exact ⟨entries, rfl, hfacts, hids, hnodup, hpaths⟩

theorem eq_of_id {entries : List Identified} (hnodup : (entries.map (·.1)).Nodup) {entry other : Identified}
    (hentry : entry ∈ entries) (hother : other ∈ entries) (h : entry.1 = other.1) : entry = other :=
  List.inj_on_of_nodup_map hnodup hentry hother h

theorem Listed.lookup {entries : List Identified} {candidates : List CandidateFact} (h : Listed H entries candidates)
    {entry : Identified} (hmem : entry ∈ entries) : entries.lookup entry.1 = some entry.2 :=
  Lists.lookup_of_mem h.nodup hmem

theorem Listed.mem_of_lookup {entries : List Identified} {candidates : List CandidateFact}
    (h : Listed H entries candidates) {id : Bytes} {candidate : CandidateFact} (hlookup : entries.lookup id = some candidate) :
    candidate ∈ candidates := by
  obtain ⟨front, back, hsplit, -⟩ := List.lookup_eq_some_iff.mp hlookup
  rw [← h.facts, hsplit]
  simp

theorem Listed.unique {entries : List Identified} {candidates : List CandidateFact} (h : Listed H entries candidates)
    {candidate other : CandidateFact} (hcandidate : candidate ∈ candidates) (hother : other ∈ candidates) {id : Bytes}
    (hid : candidate.artifact.stableID H = .ok id) (hid' : other.artifact.stableID H = .ok id) : candidate = other := by
  rw [← h.facts] at hcandidate hother
  obtain ⟨entry, hentry, rfl⟩ := List.mem_map.mp hcandidate
  obtain ⟨entry', hentry', rfl⟩ := List.mem_map.mp hother
  have hfirst := h.ids entry hentry
  have hsecond := h.ids entry' hentry'
  rw [hid, Except.ok.injEq] at hfirst
  rw [hid', Except.ok.injEq] at hsecond
  rw [eq_of_id h.nodup hentry hentry' (hfirst.symm.trans hsecond)]

/-- No two candidates share an id or a path. -/
def Distinct (H : Hashes) (candidates : List CandidateFact) : Prop :=
  (candidates.map (·.artifact.stableID H)).Nodup ∧ (candidates.map (·.artifact.trustedPath)).Nodup

def identified (H : Hashes) (candidate : CandidateFact) : Identified :=
  ((candidate.artifact.stableID H).toOption.getD [], candidate)

theorem Listed.entries_eq {entries : List Identified} {candidates : List CandidateFact} (h : Listed H entries candidates) :
    entries = candidates.map (identified H) := by
  rw [← h.facts, List.map_map]
  conv_lhs => rw [← List.map_id entries]
  refine List.map_congr_left fun entry hentry => ?_
  simp [identified, h.ids entry hentry, Except.toOption]

theorem listed_of_distinct {candidates : List CandidateFact} (h : Distinct H candidates)
    (hids : ∀ candidate ∈ candidates, ∃ id, candidate.artifact.stableID H = .ok id) :
    Listed H (candidates.map (identified H)) candidates := by
  have hid : ∀ candidate ∈ candidates, candidate.artifact.stableID H = .ok (identified H candidate).1 := by
    intro candidate hmem
    obtain ⟨id, hid⟩ := hids candidate hmem
    rw [hid, identified, hid]
    rfl
  refine ⟨?_, ?_, ?_, ?_⟩
  · rw [List.map_map]
    exact List.map_id candidates
  · intro entry hentry
    obtain ⟨candidate, hmem, rfl⟩ := List.mem_map.mp hentry
    exact hid candidate hmem
  · refine List.Nodup.of_map (fun id => (.ok id : Except String Bytes)) ?_
    rw [List.map_map, List.map_map]
    refine (List.map_congr_left fun candidate hmem => ?_) ▸ h.1
    exact hid candidate hmem
  · rw [List.map_map]
    exact h.2

/-! ## Eligibility -/

theorem proofMatchesArtifact_iff {proof : RetentionProof} {artifact : LocalArtifact} :
    proofMatchesArtifact proof artifact = true ↔ proof.artifactKind = artifact.kind ∧
      proof.trustedRelativePath = artifact.trustedPath ∧ proof.bytes = artifact.bytes ∧
      proof.contentSHA256 = artifact.contentSHA256 ∧ proof.walRange = artifact.walRange ∧
      proof.replay = artifact.replay := by
  simp [proofMatchesArtifact]

theorem range_validate {proof : RetentionProof} {range : WALRange} (h : proof.validate = .ok ()) (hrange : proof.walRange = some range) :
    range.validate = .ok () := by
  simp only [RetentionProof.validate, bind_eq_ok] at h
  obtain ⟨_, -, _, -, _, -, _, -, _, -, _, -, _, -, _, -, _, -, _, hidentity, -⟩ := h
  rw [hrange] at hidentity
  unfold validateIdentity at hidentity
  cases hreplay : proof.replay with
  | none => rwa [hreplay] at hidentity
  | some identity => simp [hreplay] at hidentity

theorem range_facts {range : WALRange} (h : range.validate = .ok ()) :
    range.startSequence ≠ 0 ∧ range.startSequence ≤ range.endSequence ∧ range.endChainRoot ≠ Digest.zero := by
  simp only [WALRange.validate, bind_eq_ok, reject_eq_ok, not_or, UInt64.not_lt, validateHash] at h
  obtain ⟨_, ⟨hstart, hle⟩, h⟩ := h
  split at h
  · obtain ⟨_, -, hroot⟩ := bind_eq_ok.mp h
    exact ⟨hstart, hle, reject_eq_ok.mp hroot⟩
  · obtain ⟨_, -, hroot⟩ := bind_eq_ok.mp h
    exact ⟨hstart, hle, reject_eq_ok.mp hroot⟩

/-- What an eligible candidate brings along. -/
structure Eligible (input : PlannerInput) (candidate : CandidateFact) (proof : RetentionProof) : Prop where
  kind : candidate.artifact.kind = .walSegment ∨ candidate.artifact.kind = .rawOutbox
  recovered : candidate.recoveryRequired = false
  fresh : candidate.freshRemote = true
  covered : candidate.coverageVerified = true
  verified : input.requireRemoteVerified = true → candidate.remoteVerified = true
  given : candidate.proof = some proof
  valid : proof.validate = .ok ()
  bound : proofMatchesArtifact proof candidate.artifact = true
  elapsed : proof.observedWallTimeUnixMS.toNat + input.graceMS.toNat ≤ input.currentWallTimeUnixMS.toNat

theorem grace_le {observed grace notBefore current : UInt64} (hspace : ¬ grace > maxUint64 - observed)
    (hgrace : ¬ notBefore < observed + grace) (hcurrent : ¬ notBefore > current) :
    observed.toNat + grace.toNat ≤ current.toNat := by
  rw [gt_iff_lt, UInt64.not_lt, UInt64.le_iff_toNat_le] at hspace hcurrent
  rw [UInt64.not_lt, UInt64.le_iff_toNat_le, UInt64.toNat_add] at hgrace
  have hmax : observed ≤ maxUint64 := UInt64.le_iff_toNat_le.mpr (by have := observed.toNat_lt; simp [maxUint64]; omega)
  rw [UInt64.toNat_sub_of_le _ _ hmax] at hspace
  have hvalue : maxUint64.toNat = 2 ^ 64 - 1 := rfl
  have := observed.toNat_lt
  omega

theorem candidateEligibility_ok {candidate : CandidateFact} {proof : RetentionProof}
    (h : candidateEligibility candidate input = .ok proof) : Eligible input candidate proof := by
  simp only [candidateEligibility, bind_eq_ok, pure_eq_ok, reject_eq_ok, mapError_eq_ok] at h
  obtain ⟨_, -, _, hkind, _, hrecovery, _, hfresh, _, hcoverage, _, hremote, found, hproof, _, hvalid, _, -, _, hbound, _, -,
    _, hnotBefore, _, hspace, _, hgrace, _, -, rfl⟩ := h
  refine ⟨?_, by simpa using hrecovery, by simpa using hfresh, by simpa using hcoverage, ?_, ?_, hvalid,
    by simpa using hbound, grace_le hspace hgrace hnotBefore⟩
  · rw [not_and_or, not_not, not_not] at hkind
    exact hkind
  · intro hrequire
    simpa [hrequire] using hremote
  · cases hcase : candidate.proof with
    | none => simp [hcase] at hproof
    | some given => simpa [hcase] using hproof

/-! ## Verdicts -/

theorem mem_walPrefix {start : Option UInt64} {entries : List Identified} {id : Bytes} {proof : RetentionProof}
    (h : (id, .ok proof) ∈ walPrefix input start entries) :
    ∃ entry ∈ entries, entry.1 = id ∧ candidateEligibility entry.2 input = .ok proof := by
  induction entries generalizing start with
  | nil => simp [walPrefix] at h
  | cons entry later ih =>
    rw [walPrefix] at h
    split at h
    · simp at h
    · split at h
      · simp at h
      · cases hverdict : candidateEligibility entry.2 input with
        | error reason =>
          rw [hverdict] at h
          simp at h
        | ok given =>
          rw [hverdict] at h
          rcases List.mem_cons.mp h with heq | hmem
          · rw [Prod.mk.injEq, Except.ok.injEq] at heq
            exact ⟨entry, List.mem_cons_self, heq.1.symm, heq.2 ▸ hverdict⟩
          · obtain ⟨other, hother, hfacts⟩ := ih hmem
            exact ⟨other, List.mem_cons_of_mem _ hother, hfacts⟩

theorem verdict_ok {start : Option UInt64} {entries : List Identified} (hnodup : (entries.map (·.1)).Nodup)
    {entry : Identified} (hmem : entry ∈ entries) {proof : RetentionProof}
    (h : verdict input (walPrefix input start (walCandidates entries)) entry = .ok proof) :
    candidateEligibility entry.2 input = .ok proof := by
  unfold verdict at h
  split at h
  · cases hlookup : (walPrefix input start (walCandidates entries)).lookup entry.1 with
    | none =>
      rw [hlookup] at h
      cases h
    | some given =>
      rw [hlookup, Option.getD_some] at h
      subst h
      obtain ⟨front, back, hsplit, -⟩ := List.lookup_eq_some_iff.mp hlookup
      obtain ⟨other, hother, hid, heligible⟩ := mem_walPrefix (hsplit ▸ List.mem_append_right _ List.mem_cons_self)
      rw [walCandidates, List.mem_insertionSort, List.mem_filter] at hother
      rw [eq_of_id hnodup hmem hother.1 hid.symm]
      exact heligible
  · exact h

/-! ## Actions -/

theorem makePruneAction_id {artifact : LocalArtifact} {proof : RetentionProof} {action : PruneAction}
    (h : makePruneAction H artifact proof = .ok action) : artifact.stableID H = .ok action.artifactID := by
  simp only [makePruneAction, bind_eq_ok, pure_eq_ok] at h
  obtain ⟨id, hid, digest, -, rfl⟩ := h
  exact hid

/-- Whether a plan may act on an entry. -/
def admits (input : PlannerInput) (wal : List (Bytes × Verdict)) (entry : Identified) : Bool :=
  (verdict input wal entry).toOption.isSome

/-- The action is made from the entry and its proof. -/
def Makes (H : Hashes) (input : PlannerInput) (wal : List (Bytes × Verdict)) (entry : Identified) (action : PruneAction) :
    Prop :=
  ∃ proof, verdict input wal entry = .ok proof ∧ makePruneAction H entry.2.artifact proof = .ok action

/-- The actions are made from the first admitted entries, as many as there is room for; the rest is blocked. -/
theorem planCandidates_ok {wal : List (Bytes × Verdict)} {entries : List Identified}
    {acc result : List PruneAction × List BlockedCandidate} (h : entries.foldlM (planCandidate H input wal) acc = .ok result)
    (hids : ∀ entry ∈ entries, entry.2.artifact.stableID H = .ok entry.1) :
    ∃ added left, result = (acc.1 ++ added, acc.2 ++ left) ∧
      List.Forall₂ (Makes H input wal) ((entries.filter (admits input wal)).take (input.maxCandidates.toNat - acc.1.length))
        added ∧
      (added.map (·.artifactID) ++ left.map (·.artifactID)).Perm (entries.map (·.1)) := by
  induction entries generalizing acc with
  | nil =>
    rw [foldlM_nil_eq_ok] at h
    exact ⟨[], [], by simp [h], by simp, by simp⟩
  | cons entry later ih =>
    rw [List.forall_mem_cons] at hids
    obtain ⟨mid, hfirst, hrest⟩ := foldlM_cons_eq_ok.mp h
    obtain ⟨added, left, hresult, hmade, hperm⟩ := ih hrest hids.2
    unfold planCandidate at hfirst
    cases hverdict : verdict input wal entry with
    | error reason =>
      rw [hverdict, Except.ok.injEq] at hfirst
      subst hfirst
      refine ⟨added, ⟨entry.1, reason⟩ :: left, by simp [hresult], ?_, List.perm_middle.trans (hperm.cons _)⟩
      rwa [List.filter_cons_of_neg (by simp [admits, hverdict, Except.toOption])]
    | ok proof =>
      rw [hverdict] at hfirst
      simp only at hfirst
      rw [List.filter_cons_of_pos (by simp [admits, hverdict, Except.toOption])]
      split at hfirst
      · next hfull =>
        rw [Except.ok.injEq] at hfirst
        subst hfirst
        refine ⟨added, ⟨entry.1, .maxPruneCandidates⟩ :: left, by simp [hresult], ?_, List.perm_middle.trans (hperm.cons _)⟩
        rw [Nat.sub_eq_zero_of_le hfull, List.take_zero] at hmade ⊢
        exact hmade
      · next hroom =>
        rw [bind_eq_ok] at hfirst
        obtain ⟨action, haction, hmid⟩ := hfirst
        rw [pure_eq_ok] at hmid
        subst hmid
        have hid : action.artifactID = entry.1 :=
          Except.ok.inj ((makePruneAction_id haction).symm.trans hids.1)
        have hcount : input.maxCandidates.toNat - acc.1.length =
            input.maxCandidates.toNat - (acc.1 ++ [action]).length + 1 := by
          rw [List.length_append, List.length_singleton]
          omega
        refine ⟨action :: added, left, by simp [hresult], ?_, ?_⟩
        · rw [hcount, List.take_succ_cons]
          exact List.Forall₂.cons ⟨proof, hverdict, haction⟩ hmade
        · rw [List.map_cons, hid]
          exact hperm.cons _

/-! ## The plan -/

theorem sealPlan_eq_ok {draft : PrunePlan} :
    sealPlan H draft = .ok plan ↔ ∃ canonical, draft.canonicalJSON = .ok canonical ∧
      plan = { draft with planDigest := prunePlanDigest H canonical } := by
  simp only [sealPlan, bind_eq_ok, pure_eq_ok, @eq_comm _ plan]

/-- What the plan for some candidates is made of. -/
structure Planned (H : Hashes) (input : PlannerInput) (plan : PrunePlan) (entries : List Identified) : Prop where
  start : plan.walExpectedStart = input.walExpectedStart
  start_ne : input.walExpectedStart ≠ 0
  verified : plan.requireRemoteVerified = input.requireRemoteVerified
  sealed : ∃ canonical, plan.canonicalJSON = .ok canonical ∧ plan.planDigest = prunePlanDigest H canonical
  nodup : (plan.actions.map (·.artifactID)).Nodup
  made : ∀ action ∈ plan.actions, ∃ entry ∈ entries, ∃ proof, candidateEligibility entry.2 input = .ok proof ∧
    makePruneAction H entry.2.artifact proof = .ok action

theorem byID_perm (entries : List Identified) : (byID entries).Perm entries := List.perm_insertionSort _ _

theorem byID_eq {entries entries' : List Identified} (hnodup : (entries.map (·.1)).Nodup) (hperm : entries.Perm entries') :
    byID entries = byID entries' := by
  have : Std.Total fun a b : Identified => keyLE a.1 b.1 := ⟨fun a b => keyLE_total a.1 b.1⟩
  have : IsTrans Identified fun a b => keyLE a.1 b.1 := ⟨fun _ _ _ => keyLE_trans⟩
  refine List.Perm.eq_of_pairwise ?_ (List.pairwise_insertionSort (fun a b : Identified => keyLE a.1 b.1) entries)
    (List.pairwise_insertionSort (fun a b : Identified => keyLE a.1 b.1) entries')
    ((byID_perm entries).trans (hperm.trans (byID_perm entries').symm))
  intro a b ha hb hab hba
  have ha' : a ∈ entries := (byID_perm entries).mem_iff.mp ha
  have hb' : b ∈ entries := hperm.mem_iff.mpr ((byID_perm entries').mem_iff.mp hb)
  exact eq_of_id hnodup ha' hb' (keyLE_antisymm hab hba)

theorem planEntries_ok {candidates : List CandidateFact} {entries : List Identified} (hlisted : Listed H entries candidates)
    (hstart : input.walExpectedStart ≠ 0) (h : planEntries H input (byID entries) = .ok plan) :
    Planned H input plan entries := by
  have hperm := byID_perm entries
  have hnodup : ((byID entries).map (·.1)).Nodup := (hperm.map _).nodup_iff.mpr hlisted.nodup
  unfold planEntries at h
  split at h
  · obtain ⟨canonical, hcanonical, rfl⟩ := sealPlan_eq_ok.mp h
    exact ⟨rfl, hstart, rfl, ⟨canonical, hcanonical, rfl⟩, List.nodup_nil, by simp [emptyPlan]⟩
  · simp only [bind_eq_ok] at h
    obtain ⟨⟨actions, blocked⟩, hplanned, h⟩ := h
    obtain ⟨canonical, hcanonical, rfl⟩ := sealPlan_eq_ok.mp h
    have hids : ∀ entry ∈ byID entries, entry.2.artifact.stableID H = .ok entry.1 := fun entry hentry =>
      hlisted.ids entry (hperm.mem_iff.mp hentry)
    obtain ⟨added, left, hadded, hmade, hall⟩ := planCandidates_ok hplanned hids
    rw [List.nil_append, Prod.mk.injEq] at hadded
    obtain ⟨rfl, -⟩ := hadded
    refine ⟨rfl, hstart, rfl, ⟨canonical, hcanonical, rfl⟩, (hall.nodup_iff.mpr hnodup).of_append_left, ?_⟩
    intro action hmem
    obtain ⟨entry, hentry, proof, hverdict, haction⟩ := exists_left_of_mem hmade hmem
    have hentry' : entry ∈ byID entries := List.mem_of_mem_filter (List.mem_of_mem_take hentry)
    exact ⟨entry, hperm.mem_iff.mp hentry', proof, verdict_ok hnodup hentry' hverdict, haction⟩

theorem buildPrunePlan_ok (h : buildPrunePlan H input = .ok plan) :
    ∃ entries, Listed H entries input.candidates ∧ Planned H input plan entries := by
  simp only [buildPrunePlan, bind_eq_ok, reject_eq_ok, identify_eq_ok, not_or] at h
  obtain ⟨_, ⟨-, -, -, -, hstart, -⟩, entries, hlisted, hplan⟩ := h
  exact ⟨entries, hlisted, planEntries_ok hlisted hstart hplan⟩

theorem walPrefix_candidates (candidates : List CandidateFact) (start : Option UInt64) (entries : List Identified) :
    walPrefix { input with candidates := candidates } start entries = walPrefix input start entries := by
  induction entries generalizing start with
  | nil => rfl
  | cons entry later ih =>
    have hsame : candidateEligibility entry.2 { input with candidates := candidates } = candidateEligibility entry.2 input := rfl
    simp only [walPrefix, hsame, ih]

theorem planEntries_candidates (candidates : List CandidateFact) (entries : List Identified) :
    planEntries H { input with candidates := candidates } entries = planEntries H input entries := by
  unfold planEntries
  rw [walPrefix_candidates]
  rfl

/-- The order of the candidates does not matter. -/
theorem buildPrunePlan_perm {candidates : List CandidateFact} (hperm : input.candidates.Perm candidates)
    (h : buildPrunePlan H input = .ok plan) : buildPrunePlan H { input with candidates := candidates } = .ok plan := by
  simp only [buildPrunePlan, bind_eq_ok, identify_eq_ok] at h
  obtain ⟨_, hinput, entries, hlisted, hplan⟩ := h
  have hdistinct : Distinct H candidates := by
    have hids : input.candidates.map (·.artifact.stableID H) = (entries.map (·.1)).map fun id => (.ok id : Except String Bytes) := by
      rw [← hlisted.facts, List.map_map, List.map_map]
      exact List.map_congr_left fun entry hentry => hlisted.ids entry hentry
    refine ⟨(hperm.map _).nodup_iff.mp ?_, (hperm.map _).nodup_iff.mp ?_⟩
    · rw [hids]
      exact hlisted.nodup.map fun _ _ heq => Except.ok.inj heq
    · rw [← hlisted.facts, List.map_map]
      exact hlisted.paths
  have hstable : ∀ candidate ∈ candidates, ∃ id, candidate.artifact.stableID H = .ok id := by
    intro candidate hmem
    rw [← hperm.mem_iff, ← hlisted.facts] at hmem
    obtain ⟨entry, hentry, rfl⟩ := List.mem_map.mp hmem
    exact ⟨entry.1, hlisted.ids entry hentry⟩
  have hlisted' := listed_of_distinct hdistinct hstable
  have hentries : entries.Perm (candidates.map (identified H)) := by
    rw [hlisted.entries_eq]
    exact hperm.map _
  refine bind_eq_ok.mpr ⟨(), hinput, bind_eq_ok.mpr ⟨_, identify_eq_ok.mpr hlisted', ?_⟩⟩
  rw [← byID_eq hlisted.nodup hentries, planEntries_candidates]
  exact hplan

end TickPlatform.Retention
