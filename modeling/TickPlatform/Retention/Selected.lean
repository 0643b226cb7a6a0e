import TickPlatform.Retention.Planned
import TickPlatform.Spans

/-!
# What a plan selects

The planner admits WAL segments in the order of their sequence numbers and caps the plan in the order of their ids.
Here is what the two orders give together: which candidates a plan acts on, which it blocks, and when the segments
it acts on are a prefix of the log.
-/

namespace TickPlatform.Retention

open Bytes Protocol Replay Wal Spans

variable {H : Hashes} {input : PlannerInput} {plan : PrunePlan}

/-! ## The admitted segments -/

def walFirst (candidate : CandidateFact) : Nat := ((candidate.artifact.walRange.map WALRange.startSequence).getD 0).toNat

def walLast (candidate : CandidateFact) : Nat := ((candidate.artifact.walRange.map WALRange.endSequence).getD 0).toNat

/-- The number the next segment has to start with; past every number once they are used up. -/
def expectedNumber (expected : Option UInt64) : Nat := (expected.map (·.toNat)).getD UInt64.size

theorem expectedNumber_nextStart (last : UInt64) : expectedNumber (nextStart last) = last.toNat + 1 := by
  unfold nextStart
  split
  · next hmax =>
    rw [hmax]
    rfl
  · next hmax =>
    have hne : last.toNat ≠ 2 ^ 64 - 1 := fun heq => hmax (UInt64.toNat_inj.mp heq)
    have hlt := last.toNat_lt
    change (last + 1).toNat = _
    rw [UInt64.toNat_add, UInt64.toNat_one]
    omega

/-- The front of the sorted segments that is admitted, and the rest that is blocked. -/
structure Front (input : PlannerInput) (expected : Option UInt64) (entries front back : List Identified) : Prop where
  split : entries = front ++ back
  gapless : Gapless (fun entry : Identified => walFirst entry.2) (fun entry => walLast entry.2)
    (expectedNumber expected) front
  ranged : ∀ entry ∈ front, entry.2.artifact.walRange.isSome
  eligible : ∀ entry ∈ front, ∃ proof, candidateEligibility entry.2 input = .ok proof ∧
    (entry.1, .ok proof) ∈ walPrefix input expected entries
  blocked : ∀ entry ∈ back, ∃ reason, (entry.1, .error reason) ∈ walPrefix input expected entries

theorem walPrefix_keys (expected : Option UInt64) (entries : List Identified) :
    (walPrefix input expected entries).map (·.1) = entries.map (·.1) := by
  induction entries generalizing expected with
  | nil => rfl
  | cons entry later ih =>
    rw [walPrefix]
    split
    · simp
    · split
      · simp
      · split
        · simp
        · simp [ih]

variable {entry : Identified}

theorem front_stopped {expected : Option UInt64} {later : List Identified} (reason : BlockReason)
    (h : walPrefix input expected (entry :: later) =
      (entry.1, .error reason) :: later.map fun other => (other.1, .error .walPrefixBlocked)) :
    Front input expected (entry :: later) [] (entry :: later) := by
  refine ⟨rfl, trivial, by simp, by simp, List.forall_mem_cons.mpr ⟨⟨reason, ?_⟩, fun other hother => ?_⟩⟩
  · rw [h]
    exact List.mem_cons_self
  · rw [h]
    exact ⟨_, List.mem_cons_of_mem _ (List.mem_map.mpr ⟨other, hother, rfl⟩)⟩

theorem walPrefix_front (expected : Option UInt64) (entries : List Identified) :
    ∃ front back, Front input expected entries front back := by
  induction entries generalizing expected with
  | nil => exact ⟨[], [], rfl, trivial, by simp, by simp, by simp⟩
  | cons entry later ih =>
    cases hrange : entry.2.artifact.walRange with
    | none => exact ⟨_, _, front_stopped .walPrefixGap (by simp [walPrefix, hrange])⟩
    | some range =>
      by_cases hexpected : expected = some range.startSequence
      · cases hverdict : candidateEligibility entry.2 input with
        | error reason =>
          exact ⟨_, _, front_stopped reason (by simp [walPrefix, hrange, hexpected, hverdict])⟩
        | ok proof =>
          have hunfold : walPrefix input expected (entry :: later) =
              (entry.1, .ok proof) :: walPrefix input (nextStart range.endSequence) later := by
            simp [walPrefix, hrange, hexpected, hverdict]
          obtain ⟨front, back, hsplit, hgapless, hranged, heligible, hblocked⟩ := ih (nextStart range.endSequence)
          refine ⟨entry :: front, back, by rw [hsplit]; rfl, ⟨?_, ?_⟩, ?_, ?_, ?_⟩
          · simp [walFirst, hrange, hexpected, expectedNumber]
          · rw [expectedNumber_nextStart] at hgapless
            simpa [walLast, hrange] using hgapless
          · exact List.forall_mem_cons.mpr ⟨by simp [hrange], hranged⟩
          · rw [hunfold]
            refine List.forall_mem_cons.mpr ⟨⟨proof, hverdict, List.mem_cons_self⟩, fun other hother => ?_⟩
            obtain ⟨given, hgiven, hmem⟩ := heligible other hother
            exact ⟨given, hgiven, List.mem_cons_of_mem _ hmem⟩
          · rw [hunfold]
            intro other hother
            obtain ⟨reason, hmem⟩ := hblocked other hother
            exact ⟨reason, List.mem_cons_of_mem _ hmem⟩
      · exact ⟨_, _, front_stopped .walPrefixGap (by simp [walPrefix, hrange, hexpected])⟩

variable {proof : RetentionProof}

theorem eligible_span {candidate : CandidateFact}
    (h : candidateEligibility candidate input = .ok proof) (hrange : candidate.artifact.walRange.isSome) :
    walFirst candidate ≤ walLast candidate := by
  obtain ⟨range, hrange⟩ := Option.isSome_iff_exists.mp hrange
  have heligible := candidateEligibility_ok h
  have hproof : proof.walRange = some range := (proofMatchesArtifact_iff.mp heligible.bound).2.2.2.2.1.trans hrange
  obtain ⟨-, hle, -⟩ := range_facts (range_validate heligible.valid hproof)
  simpa [walFirst, walLast, hrange, UInt64.le_iff_toNat_le] using hle

variable {back entries front : List Identified}

theorem Front.span_le {expected : Option UInt64}
    (h : Front input expected entries front back) : ∀ entry ∈ front, walFirst entry.2 ≤ walLast entry.2 := by
  intro entry hentry
  obtain ⟨proof, heligible, -⟩ := h.eligible entry hentry
  exact eligible_span heligible (h.ranged entry hentry)

/-! ## Verdicts -/

/-- What the planner decides about the WAL segments of a list of entries. -/
def walVerdicts (input : PlannerInput) (entries : List Identified) : List (Bytes × Verdict) :=
  walPrefix input (some input.walExpectedStart) (walCandidates entries)

theorem mem_walCandidates : entry ∈ walCandidates entries ↔ entry ∈ entries ∧ entry.2.artifact.kind = .walSegment := by
  rw [walCandidates, List.mem_insertionSort, List.mem_filter, decide_eq_true_eq]

theorem walCandidates_perm (entries : List Identified) :
    (walCandidates entries).Perm (entries.filter fun entry => entry.2.artifact.kind = .walSegment) :=
  List.perm_insertionSort _ _

theorem walCandidates_nodup (hnodup : (entries.map (·.1)).Nodup) : ((walCandidates entries).map (·.1)).Nodup :=
  ((walCandidates_perm entries).map _).nodup_iff.mpr (hnodup.sublist (List.filter_sublist.map _))

theorem verdict_wal (hnodup : (entries.map (·.1)).Nodup)
    (hkind : entry.2.artifact.kind = .walSegment) {given : Verdict} (hmem : (entry.1, given) ∈ walVerdicts input entries) :
    verdict input (walVerdicts input entries) entry = given := by
  have hkeys : ((walVerdicts input entries).map (·.1)).Nodup := by
    rw [walVerdicts, walPrefix_keys]
    exact walCandidates_nodup hnodup
  rw [verdict, if_pos hkind, Lists.lookup_of_mem hkeys hmem, Option.getD_some]

theorem admits_iff_front (hnodup : (entries.map (·.1)).Nodup)
    (hfront : Front input (some input.walExpectedStart) (walCandidates entries) front back)
    (hmem : entry ∈ walCandidates entries) : admits input (walVerdicts input entries) entry = true ↔ entry ∈ front := by
  have hkind := (mem_walCandidates.mp hmem).2
  constructor
  · intro hadmits
    rw [hfront.split, List.mem_append] at hmem
    refine hmem.resolve_right fun hback => ?_
    obtain ⟨reason, hreason⟩ := hfront.blocked entry hback
    rw [admits, verdict_wal hnodup hkind hreason] at hadmits
    cases hadmits
  · intro hin
    obtain ⟨proof, -, hproof⟩ := hfront.eligible entry hin
    rw [admits, verdict_wal hnodup hkind hproof]
    rfl

/-! ## The cap -/

/-- The entries a plan may act on, in the order of their ids; none while the clock is behind. -/
def admitted (input : PlannerInput) (entries : List Identified) : List Identified :=
  if input.currentWallTimeUnixMS < input.durableWallTimeUnixMS then []
  else entries.filter (admits input (walVerdicts input entries))

/-- As many of them as the cap allows. -/
def taken (input : PlannerInput) (entries : List Identified) : List Identified :=
  (admitted input entries).take input.maxCandidates.toNat

theorem admitted_subset (h : entry ∈ admitted input entries) :
    entry ∈ entries ∧ admits input (walVerdicts input entries) entry = true := by
  unfold admitted at h
  split at h
  · cases h
  · exact List.mem_filter.mp h

theorem mem_admitted_of_taken {other : Identified} (h : other ∈ taken input entries)
    (hmem : entry ∈ entries) (hadmits : admits input (walVerdicts input entries) entry = true) :
    entry ∈ admitted input entries := by
  have hother := List.mem_of_mem_take h
  unfold admitted at hother ⊢
  split at hother
  · cases hother
  · next hclock =>
    rw [if_neg hclock]
    exact List.mem_filter.mpr ⟨hmem, hadmits⟩

theorem taken_nodup (hnodup : entries.Nodup) : (taken input entries).Nodup := by
  refine List.Nodup.sublist (List.take_sublist _ _) ?_
  unfold admitted
  split
  · exact List.nodup_nil
  · exact hnodup.filter _

theorem planEntries_selects
    (hids : ∀ entry ∈ entries, entry.2.artifact.stableID H = .ok entry.1) (h : planEntries H input entries = .ok plan) :
    List.Forall₂ (Makes H input (walVerdicts input entries)) (taken input entries) plan.actions ∧
      (plan.actions.map (·.artifactID) ++ plan.blocked.map (·.artifactID)).Perm (entries.map (·.1)) := by
  unfold planEntries at h
  split at h
  · next hclock =>
    obtain ⟨canonical, -, rfl⟩ := sealPlan_eq_ok.mp h
    simp [taken, admitted, hclock, emptyPlan, Function.comp_def]
  · next hclock =>
    simp only [bind_eq_ok] at h
    obtain ⟨⟨actions, blocked⟩, hplanned, h⟩ := h
    obtain ⟨canonical, -, rfl⟩ := sealPlan_eq_ok.mp h
    obtain ⟨added, left, hadded, hmade, hall⟩ := planCandidates_ok hplanned hids
    rw [List.nil_append, List.nil_append, Prod.mk.injEq] at hadded
    obtain ⟨rfl, rfl⟩ := hadded
    rw [taken, admitted, if_neg hclock]
    exact ⟨hmade, hall⟩

/-- The entries of an input in the order of their ids. -/
def ordered (H : Hashes) (input : PlannerInput) : List Identified := byID (input.candidates.map (identified H))

/-- What a plan does with the entries of its input. -/
structure Selects (H : Hashes) (input : PlannerInput) (plan : PrunePlan) : Prop where
  ids : ∀ entry ∈ ordered H input, entry.2.artifact.stableID H = .ok entry.1
  nodup : ((ordered H input).map (·.1)).Nodup
  acts : List.Forall₂ (Makes H input (walVerdicts input (ordered H input))) (taken input (ordered H input)) plan.actions
  all : (plan.actions.map (·.artifactID) ++ plan.blocked.map (·.artifactID)).Perm ((ordered H input).map (·.1))

theorem selects_of_plan (h : buildPrunePlan H input = .ok plan) : Selects H input plan := by
  simp only [buildPrunePlan, bind_eq_ok, identify_eq_ok] at h
  obtain ⟨_, -, entries, hlisted, h⟩ := h
  have hperm := byID_perm entries
  have hids : ∀ entry ∈ byID entries, entry.2.artifact.stableID H = .ok entry.1 := fun entry hentry =>
    hlisted.ids entry (hperm.mem_iff.mp hentry)
  have hordered : byID entries = ordered H input := by rw [ordered, ← hlisted.entries_eq]
  obtain ⟨hacts, hall⟩ := planEntries_selects hids h
  rw [hordered] at hids hacts hall hperm
  exact ⟨hids, (hperm.map _).nodup_iff.mpr hlisted.nodup, hacts, hall⟩

/-! ## The segments a plan deletes -/

def PruneAction.first (action : PruneAction) : Nat := action.walStartSequence.toNat

def PruneAction.last (action : PruneAction) : Nat := action.walEndSequence.toNat

/-- The WAL segments a plan acts on, by start sequence. -/
def PrunePlan.walActions (plan : PrunePlan) : List PruneAction :=
  (plan.actions.filter fun action => action.artifactKind = .walSegment).insertionSort fun a b =>
    a.walStartSequence ≤ b.walStartSequence

variable {action : PruneAction}

theorem makePruneAction_artifact {artifact : LocalArtifact} (h : makePruneAction H artifact proof = .ok action) :
    action.artifactKind = artifact.kind ∧ action.walStartSequence = (artifact.walRange.map (·.startSequence)).getD 0 ∧
      action.walEndSequence = (artifact.walRange.map (·.endSequence)).getD 0 := by
  simp only [makePruneAction, bind_eq_ok, pure_eq_ok] at h
  obtain ⟨id, -, digest, -, rfl⟩ := h
  exact ⟨rfl, rfl, rfl⟩

variable {wal : List (Bytes × Verdict)}

theorem Makes.kind (h : Makes H input wal entry action) : action.artifactKind = entry.2.artifact.kind := by
  obtain ⟨proof, -, haction⟩ := h
  exact (makePruneAction_artifact haction).1

theorem Makes.span
    (h : Makes H input wal entry action) : (action.first, action.last) = (walFirst entry.2, walLast entry.2) := by
  obtain ⟨proof, -, haction⟩ := h
  obtain ⟨-, hstart, hend⟩ := makePruneAction_artifact haction
  rw [PruneAction.first, PruneAction.last, hstart, hend]
  rfl

theorem wal_spans {actions : List PruneAction} (h : List.Forall₂ (Makes H input wal) entries actions) :
    (actions.filter fun action => action.artifactKind = .walSegment).map (fun action => (action.first, action.last)) =
      (entries.filter fun entry => entry.2.artifact.kind = .walSegment).map
        fun entry => (walFirst entry.2, walLast entry.2) := by
  induction h with
  | nil => rfl
  | @cons entry action entries actions hmakes _ ih =>
    simp only [List.filter_cons, hmakes.kind]
    split
    · rw [List.map_cons, List.map_cons, hmakes.span, ih]
    · exact ih

/-- The cap never takes a segment and leaves out one before it. -/
def CapKeepsPrefix (H : Hashes) (input : PlannerInput) : Prop :=
  ∀ earlier ∈ admitted input (ordered H input), ∀ later ∈ taken input (ordered H input),
    earlier.2.artifact.kind = .walSegment → later.2.artifact.kind = .walSegment →
    walFirst earlier.2 < walFirst later.2 → earlier ∈ taken input (ordered H input)

theorem front_taken_perm (hnodup : ((ordered H input).map (·.1)).Nodup)
    (hfront : Front input (some input.walExpectedStart) (walCandidates (ordered H input)) front back) :
    (front.filter fun entry => entry ∈ taken input (ordered H input)).Perm
      ((taken input (ordered H input)).filter fun entry => entry.2.artifact.kind = .walSegment) := by
  have hwal := walCandidates_nodup hnodup
  rw [hfront.split, List.map_append] at hwal
  have hdistinct : front.Nodup := hwal.of_append_left.of_map
  rw [List.perm_ext_iff_of_nodup (hdistinct.filter _) ((taken_nodup hnodup.of_map).filter _)]
  intro entry
  simp only [List.mem_filter, decide_eq_true_eq]
  constructor
  · rintro ⟨hin, htaken⟩
    have hmem : entry ∈ walCandidates (ordered H input) := hfront.split ▸ List.mem_append_left _ hin
    exact ⟨htaken, (mem_walCandidates.mp hmem).2⟩
  · rintro ⟨htaken, hkind⟩
    obtain ⟨hmem, hadmits⟩ := admitted_subset (List.mem_of_mem_take htaken)
    exact ⟨(admits_iff_front hnodup hfront (mem_walCandidates.mpr ⟨hmem, hkind⟩)).mp hadmits, htaken⟩

theorem walActions_spans (hselects : Selects H input plan)
    (hfront : Front input (some input.walExpectedStart) (walCandidates (ordered H input)) front back) :
    plan.walActions.map (fun action => (action.first, action.last)) =
      (front.filter fun entry => entry ∈ taken input (ordered H input)).map
        fun entry => (walFirst entry.2, walLast entry.2) := by
  refine Lists.eq_of_perm_ascending (f := Prod.fst) ?_ ?_ ?_
  · refine ((List.perm_insertionSort _ _).map _).trans ?_
    rw [wal_spans hselects.acts]
    exact ((front_taken_perm hselects.nodup hfront).map _).symm
  · rw [List.pairwise_map]
    have : IsTrans PruneAction fun a b => a.first ≤ b.first := ⟨fun _ _ _ => Nat.le_trans⟩
    refine Lists.pairwise_insertionSort_of fun a _ b _ => ⟨UInt64.le_iff_toNat_le.mp, fun hnot => ?_⟩
    exact (UInt64.lt_iff_toNat_lt.mp (UInt64.not_le.mp hnot)).le
  · rw [List.pairwise_map]
    exact (hfront.gapless.ascending hfront.span_le).sublist List.filter_sublist

/-- **The segments of a plan.** By start they begin where the log is expected to begin and leave no gap just if the cap
keeps the prefix. -/
theorem wal_actions_gapless_iff (h : buildPrunePlan H input = .ok plan) :
    Gapless PruneAction.first PruneAction.last input.walExpectedStart.toNat plan.walActions ↔ CapKeepsPrefix H input := by
  have hselects := selects_of_plan h
  obtain ⟨front, back, hfront⟩ := @walPrefix_front input (some input.walExpectedStart) (walCandidates (ordered H input))
  have hin : ∀ {entry}, entry ∈ front → entry ∈ walCandidates (ordered H input) := fun hentry =>
    hfront.split ▸ List.mem_append_left _ hentry
  have hspans : Gapless PruneAction.first PruneAction.last input.walExpectedStart.toNat plan.walActions ↔
      Gapless (fun entry : Identified => walFirst entry.2) (fun entry => walLast entry.2) input.walExpectedStart.toNat
        (front.filter fun entry => entry ∈ taken input (ordered H input)) := by
    have hmap := walActions_spans hselects hfront
    have hplan := @gapless_map (Nat × Nat) Prod.fst Prod.snd input.walExpectedStart.toNat PruneAction
      (fun action => (action.first, action.last)) plan.walActions
    rw [hmap, gapless_map] at hplan
    exact hplan.symm
  have hgapless : Gapless (fun entry : Identified => walFirst entry.2) (fun entry => walLast entry.2)
      input.walExpectedStart.toNat front := hfront.gapless
  rw [hspans, gapless_filter_iff hfront.span_le hgapless]
  simp only [decide_eq_true_eq]
  constructor
  · intro hkeeps earlier hearlier later hlater hkind hkind' hlt
    have hfront_of : ∀ {entry : Identified}, entry ∈ ordered H input → entry.2.artifact.kind = .walSegment →
        admits input (walVerdicts input (ordered H input)) entry = true → entry ∈ front := fun hmem hkind =>
      (admits_iff_front hselects.nodup hfront (mem_walCandidates.mpr ⟨hmem, hkind⟩)).mp
    obtain ⟨hmem, hadmits⟩ := admitted_subset hearlier
    obtain ⟨hmem', hadmits'⟩ := admitted_subset (List.mem_of_mem_take hlater)
    exact hkeeps earlier (hfront_of hmem hkind hadmits) later (hfront_of hmem' hkind' hadmits') hlt hlater
  · intro hkeeps earlier hearlier later hlater hlt htaken
    obtain ⟨hmem, hkind⟩ := mem_walCandidates.mp (hin hearlier)
    have hadmits := (admits_iff_front hselects.nodup hfront (hin hearlier)).mpr hearlier
    exact hkeeps earlier (mem_admitted_of_taken htaken hmem hadmits) later htaken hkind
      (mem_walCandidates.mp (hin hlater)).2 hlt

/-! ## A capped plan -/

/-- Two segments, one after the other, under a cap. The id of the second comes first. -/
def twoSegmentInput (cap : UInt64) : PlannerInput :=
  { sampleInput [sampleCandidate (sampleArtifact "b" 1), sampleCandidate (sampleArtifact "a" 2)] with maxCandidates := cap }

instance twoSegmentInput_plans : Fact ((buildPrunePlan sampleHashes (twoSegmentInput 2)).toOption.any (fun plan =>
    plan.walActions.length = 2 ∧ plan.actions.length = 2) = true) := ⟨by decide +kernel⟩

instance twoSegmentInput_keeps : Fact (CapKeepsPrefix sampleHashes (twoSegmentInput 2)) :=
  ⟨by unfold CapKeepsPrefix; decide +kernel⟩

theorem wal_actions_gapless_two : ∃ plan, buildPrunePlan sampleHashes (twoSegmentInput 2) = .ok plan ∧
    plan.walActions.length = 2 ∧
    Gapless PruneAction.first PruneAction.last (twoSegmentInput 2).walExpectedStart.toNat plan.walActions := by
  obtain ⟨plan, hplan, hlength⟩ := exists_ok_of_any twoSegmentInput_plans.out
  exact ⟨plan, hplan, (of_decide_eq_true hlength).1, (wal_actions_gapless_iff hplan).mpr twoSegmentInput_keeps.out⟩

instance capped_plans : Fact ((buildPrunePlan sampleHashes (twoSegmentInput 1)).toOption.any (fun plan =>
      plan.walActions.map (fun action => (action.first, action.last)) = [(2, 2)]) = true) := ⟨by decide +kernel⟩

/-- With room for one action, the plan deletes the second segment and keeps the first. -/
theorem capped_plan_skips_first : ∃ plan, buildPrunePlan sampleHashes (twoSegmentInput 1) = .ok plan ∧
    (twoSegmentInput 1).candidates.map (fun candidate => (walFirst candidate, walLast candidate)) = [(1, 1), (2, 2)] ∧
    plan.walActions.map (fun action => (action.first, action.last)) = [(2, 2)] ∧
    ¬ Gapless PruneAction.first PruneAction.last (twoSegmentInput 1).walExpectedStart.toNat plan.walActions := by
  obtain ⟨plan, hplan, hspans⟩ := exists_ok_of_any capped_plans.out
  rw [decide_eq_true_eq] at hspans
  refine ⟨plan, hplan, by decide, hspans, fun hgapless => ?_⟩
  have hmap := @gapless_map (Nat × Nat) Prod.fst Prod.snd (twoSegmentInput 1).walExpectedStart.toNat PruneAction
    (fun action => (action.first, action.last)) plan.walActions
  rw [hspans] at hmap
  exact absurd (hmap.mpr hgapless).1 (by decide)

/-! ## Safe plans -/

/-- Every segment among the candidates carries its range. -/
def Ranged (input : PlannerInput) : Prop :=
  ∀ candidate ∈ input.candidates, candidate.artifact.kind = .walSegment → candidate.artifact.walRange ≠ none

theorem walBefore_first {a b : Identified} (ha : a.2.artifact.walRange ≠ none) (hb : b.2.artifact.walRange ≠ none) :
    (walBefore a b = true → walFirst a.2 ≤ walFirst b.2) ∧ (¬ walBefore a b = true → walFirst b.2 ≤ walFirst a.2) := by
  obtain ⟨left, hleft⟩ := Option.ne_none_iff_exists'.mp ha
  obtain ⟨right, hright⟩ := Option.ne_none_iff_exists'.mp hb
  simp only [walBefore, walFirst, hleft, hright, Option.map_some, Option.getD_some]
  split
  · rw [decide_eq_true_eq, UInt64.not_lt, UInt64.lt_iff_toNat_lt, UInt64.le_iff_toNat_le]
    exact ⟨Nat.le_of_lt, id⟩
  · next heq =>
    rw [not_not.mp heq]
    exact ⟨fun _ => Nat.le_refl _, fun _ => Nat.le_refl _⟩

theorem mem_ordered (h : entry ∈ ordered H input) : entry.2 ∈ input.candidates := by
  obtain ⟨candidate, hmem, rfl⟩ := List.mem_map.mp ((byID_perm _).mem_iff.mp h)
  exact hmem

theorem walCandidates_sorted (hranged : Ranged input) :
    (walCandidates (ordered H input)).Pairwise fun a b => walFirst a.2 ≤ walFirst b.2 := by
  have : IsTrans Identified fun a b => walFirst a.2 ≤ walFirst b.2 := ⟨fun _ _ _ => Nat.le_trans⟩
  have hrange : ∀ entry ∈ (ordered H input).filter (fun entry => entry.2.artifact.kind = .walSegment),
      entry.2.artifact.walRange ≠ none := by
    intro entry hentry
    rw [List.mem_filter, decide_eq_true_eq] at hentry
    exact hranged entry.2 (mem_ordered hentry.1) hentry.2
  exact Lists.pairwise_insertionSort_of fun a ha b hb => walBefore_first (hrange a ha) (hrange b hb)

/-- The segments that start before the given number. -/
def walBelow (number : Nat) (entries : List Identified) : List Identified :=
  (walCandidates entries).filter fun entry => walFirst entry.2 < number

/-- The segments before an admitted one are admitted and lead up to it. -/
theorem chain_before (hnodup : ((ordered H input).map (·.1)).Nodup) (hranged : Ranged input)
    (hmem : entry ∈ walCandidates (ordered H input))
    (hadmits : admits input (walVerdicts input (ordered H input)) entry = true) :
    (∀ other ∈ walBelow (walFirst entry.2) (ordered H input), ∃ proof, candidateEligibility other.2 input = .ok proof) ∧
      Gapless (fun entry : Identified => walFirst entry.2) (fun entry => walLast entry.2) input.walExpectedStart.toNat
        (walBelow (walFirst entry.2) (ordered H input) ++ [entry]) := by
  obtain ⟨front, back, hfront⟩ := @walPrefix_front input (some input.walExpectedStart) (walCandidates (ordered H input))
  obtain ⟨earlier, later, rfl⟩ := List.append_of_mem ((admits_iff_front hnodup hfront hmem).mp hadmits)
  have hbelow : walBelow (walFirst entry.2) (ordered H input) = earlier := by
    have hascending := hfront.gapless.ascending hfront.span_le
    have hsorted := walCandidates_sorted (H := H) hranged
    rw [List.pairwise_append] at hascending
    rw [hfront.split, List.append_assoc, List.pairwise_append, List.cons_append, List.pairwise_cons] at hsorted
    rw [walBelow, hfront.split, List.append_assoc, List.filter_append, List.cons_append]
    have hall : earlier.filter (fun other => walFirst other.2 < walFirst entry.2) = earlier :=
      List.filter_eq_self.mpr fun other hother =>
        decide_eq_true (hascending.2.2 other hother entry List.mem_cons_self)
    have hnone : (entry :: (later ++ back)).filter (fun other => walFirst other.2 < walFirst entry.2) = [] :=
      List.filter_eq_nil_iff.mpr <| List.forall_mem_cons.mpr ⟨by simp, fun other hother => by
        simpa using hsorted.2.1.1 other hother⟩
    rw [hall, hnone, List.append_nil]
  rw [hbelow]
  constructor
  · intro other hother
    obtain ⟨proof, hproof, -⟩ := hfront.eligible other (List.mem_append_left _ hother)
    exact ⟨proof, hproof⟩
  · have hgapless := hfront.gapless
    rw [List.append_cons] at hgapless
    exact hgapless.left

theorem candidateEligibility_floor {candidate : CandidateFact}
    (h : candidateEligibility candidate input = .ok proof) (hkind : candidate.artifact.kind = .walSegment)
    (hfloor : input.activeRecoveryFloor ≠ 0) :
    ((candidate.artifact.walRange.map (·.endSequence)).getD 0) < input.activeRecoveryFloor := by
  simp only [candidateEligibility, bind_eq_ok, pure_eq_ok, reject_eq_ok] at h
  obtain ⟨_, -, _, -, _, -, _, -, _, -, _, -, _, -, _, -, _, -, _, -, _, -, _, -, _, -, _, -, _, hbelow, -⟩ := h
  cases hrange : candidate.artifact.walRange with
  | none =>
    rw [UInt64.lt_iff_toNat_lt]
    exact Nat.pos_of_ne_zero fun hzero => hfloor (UInt64.toNat_inj.mp hzero)
  | some range => simpa [hkind, hfloor, hrange] using hbelow

/-- What a plan may do to the candidates of its input. -/
structure SafePlan (H : Hashes) (input : PlannerInput) (plan : PrunePlan) : Prop where
  distinct : (input.candidates.map (·.artifact.stableID H)).Nodup
  /-- Every candidate is in exactly one of the two lists. -/
  all : ((plan.actions.map (·.artifactID) ++ plan.blocked.map (·.artifactID)).map
    fun id => (.ok id : Except String Bytes)).Perm (input.candidates.map (·.artifact.stableID H))
  /-- Every action is about an eligible candidate, and where it is a segment, all segments that start before it are
  eligible and lead up to it from the expected start. -/
  eligible : ∀ action ∈ plan.actions, ∃ candidate ∈ input.candidates,
    candidate.artifact.stableID H = .ok action.artifactID ∧
    (∃ proof, candidateEligibility candidate input = .ok proof ∧ makePruneAction H candidate.artifact proof = .ok action) ∧
    (action.artifactKind = .walSegment → Ranged input → ∃ earlier,
      earlier.Perm (input.candidates.filter fun other =>
        other.artifact.kind = .walSegment ∧ walFirst other < walFirst candidate) ∧
      (∀ other ∈ earlier, ∃ proof, candidateEligibility other input = .ok proof) ∧
      Gapless walFirst walLast input.walExpectedStart.toNat (earlier ++ [candidate]))
  floor : ∀ action ∈ plan.actions, action.artifactKind = .walSegment → input.activeRecoveryFloor ≠ 0 →
    action.walEndSequence < input.activeRecoveryFloor
  clock : input.currentWallTimeUnixMS < input.durableWallTimeUnixMS → plan.actions = []

theorem ordered_perm (H : Hashes) (input : PlannerInput) : ((ordered H input).map (·.2)).Perm input.candidates := by
  refine ((byID_perm _).map _).trans ?_
  rw [List.map_map]
  exact (List.map_id input.candidates).symm ▸ List.Perm.refl _

theorem walBelow_perm (H : Hashes) (input : PlannerInput) (number : Nat) :
    ((walBelow number (ordered H input)).map (·.2)).Perm (input.candidates.filter fun other =>
      other.artifact.kind = .walSegment ∧ walFirst other < number) := by
  have hfilter := ((walCandidates_perm (ordered H input)).filter fun entry => walFirst entry.2 < number).map (·.2)
  refine hfilter.trans (.trans (.of_eq ?_) ((ordered_perm H input).filter _))
  rw [List.filter_filter, List.filter_map]
  refine congrArg _ (List.filter_congr fun entry _ => ?_)
  simp [Bool.and_comm]

theorem safe_of_plan (h : buildPrunePlan H input = .ok plan) : SafePlan H input plan := by
  have hselects := selects_of_plan h
  have hids : input.candidates.map (·.artifact.stableID H) |>.Perm
      (((ordered H input).map (·.1)).map fun id => (.ok id : Except String Bytes)) := by
    refine ((ordered_perm H input).symm.map _).trans (.of_eq ?_)
    rw [List.map_map, List.map_map]
    exact List.map_congr_left hselects.ids
  have hentry : ∀ action ∈ plan.actions, ∃ entry ∈ taken input (ordered H input), ∃ proof,
      candidateEligibility entry.2 input = .ok proof ∧ makePruneAction H entry.2.artifact proof = .ok action := by
    intro action haction
    obtain ⟨entry, htaken, proof, hverdict, hmade⟩ := exists_left_of_mem hselects.acts haction
    have hmem := (admitted_subset (List.mem_of_mem_take htaken)).1
    exact ⟨entry, htaken, proof, verdict_ok hselects.nodup hmem hverdict, hmade⟩
  refine ⟨?_, (hselects.all.map _).trans hids.symm, fun action haction => ?_, fun action haction hkind hfloor => ?_,
    fun hclock => ?_⟩
  · exact hids.nodup_iff.mpr (hselects.nodup.map fun _ _ heq => Except.ok.inj heq)
  · obtain ⟨entry, htaken, proof, heligible, hmade⟩ := hentry action haction
    obtain ⟨hmem, hadmits⟩ := admitted_subset (List.mem_of_mem_take htaken)
    refine ⟨entry.2, mem_ordered hmem, makePruneAction_id hmade, ⟨proof, heligible, hmade⟩, fun hkind hranged => ?_⟩
    rw [(makePruneAction_artifact hmade).1] at hkind
    obtain ⟨hearlier, hgapless⟩ := chain_before hselects.nodup hranged (mem_walCandidates.mpr ⟨hmem, hkind⟩) hadmits
    refine ⟨_, walBelow_perm H input (walFirst entry.2), fun other hother => ?_, ?_⟩
    · obtain ⟨found, hfound, rfl⟩ := List.mem_map.mp hother
      exact hearlier found hfound
    · rw [← List.map_singleton, ← List.map_append, gapless_map]
      exact hgapless
  · obtain ⟨entry, -, proof, heligible, hmade⟩ := hentry action haction
    obtain ⟨hmadeKind, -, hend⟩ := makePruneAction_artifact hmade
    rw [hend]
    exact candidateEligibility_floor heligible (hmadeKind ▸ hkind) hfloor
  · have hacts := hselects.acts
    rw [taken, admitted, if_pos hclock, List.take_nil] at hacts
    exact List.forall₂_nil_left_iff.mp hacts

/-- **Plans.** The order of the candidates does not matter, and every plan is safe. -/
theorem plan_order_free_and_safe (H : Hashes) (input : PlannerInput) :
    (∀ candidates, input.candidates.Perm candidates →
      (buildPrunePlan H { input with candidates := candidates }).toOption = (buildPrunePlan H input).toOption) ∧
    ∀ plan, buildPrunePlan H input = .ok plan → SafePlan H input plan := by
  refine ⟨fun candidates hperm => Option.ext fun plan => ?_, fun plan => safe_of_plan⟩
  rw [toOption_eq_some, toOption_eq_some]
  exact ⟨@buildPrunePlan_perm H { input with candidates := candidates } plan input.candidates hperm.symm,
    buildPrunePlan_perm hperm⟩

theorem plan_order_free_and_safe_two : Ranged (twoSegmentInput 2) ∧
    ∃ plan, buildPrunePlan sampleHashes (twoSegmentInput 2) = .ok plan ∧ plan.actions.length = 2 ∧
      buildPrunePlan sampleHashes { twoSegmentInput 2 with candidates := (twoSegmentInput 2).candidates.reverse } = .ok plan ∧
      SafePlan sampleHashes (twoSegmentInput 2) plan := by
  obtain ⟨plan, hplan, hlength⟩ := exists_ok_of_any twoSegmentInput_plans.out
  obtain ⟨hperm, hsafe⟩ := plan_order_free_and_safe sampleHashes (twoSegmentInput 2)
  have hreversed := hperm _ (List.reverse_perm _).symm
  rw [hplan] at hreversed
  exact ⟨by unfold Ranged; decide, plan, hplan, (of_decide_eq_true hlength).2, toOption_eq_some.mp hreversed, hsafe plan hplan⟩

/-- The log is expected to start at 2. In the order of the ids a segment without a range stands between that segment and
one that starts at 1. -/
def rangelessInput : PlannerInput :=
  { sampleInput [sampleCandidate (sampleArtifact "a" 2), sampleCandidate { sampleArtifact "b" 1 with walRange := none },
      sampleCandidate (sampleArtifact "c" 1)] with walExpectedStart := 2 }

instance rangelessInput_plans : Fact ((buildPrunePlan sampleHashes rangelessInput).toOption.any (fun plan =>
      plan.walActions.map (fun action => (action.first, action.last)) = [(2, 2)]) = true) := ⟨by decide +kernel⟩

/-- Without its range a segment can keep another from its place in the order: the plan acts on the segment that starts
at 2, and no gapless run from there can hold the one that starts at 1. -/
theorem rangeless_segment_hides_earlier : ∃ plan, buildPrunePlan sampleHashes rangelessInput = .ok plan ∧
    plan.walActions.map (fun action => (action.first, action.last)) = [(2, 2)] ∧
    ∃ candidate ∈ rangelessInput.candidates, candidate.artifact.kind = .walSegment ∧
      candidate.artifact.walRange ≠ none ∧ walFirst candidate < 2 ∧
      ∀ chain, candidate ∈ chain → (∀ other ∈ chain, walFirst other ≤ walLast other) →
        ¬ Gapless walFirst walLast rangelessInput.walExpectedStart.toNat chain := by
  obtain ⟨plan, hplan, hspans⟩ := exists_ok_of_any rangelessInput_plans.out
  refine ⟨plan, hplan, of_decide_eq_true hspans, sampleCandidate (sampleArtifact "c" 1),
    List.mem_cons_of_mem _ (List.mem_cons_of_mem _ List.mem_cons_self), rfl, nofun, by decide, ?_⟩
  intro chain hmem hspan hgapless
  exact absurd (hgapless.start_le hspan _ hmem) (by decide)

end TickPlatform.Retention
