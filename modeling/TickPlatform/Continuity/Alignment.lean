import Mathlib.Data.Set.Subsingleton
import Mathlib.Order.Bounds.Basic
import TickPlatform.Continuity.Reducer

/-!
# What the searches of the reducer find

The overlap and the changed payload, said of two lists: a tail and the records that come after it.
-/

namespace TickPlatform.Continuity

open Bytes Protocol Replay

theorem isGreatest_getLast {l : List Nat} (hl : l.Pairwise (· < ·)) (h : l ≠ []) :
    IsGreatest {n | n ∈ l} (l.getLast h) := by
  refine ⟨List.getLast_mem h, fun j hj => ?_⟩
  rw [← List.dropLast_append_getLast h, List.pairwise_append] at hl
  rw [Set.mem_ofPred_eq, ← List.dropLast_append_getLast h, List.mem_append, List.mem_singleton] at hj
  rcases hj with hj | rfl
  · exact Nat.le_of_lt (hl.2.2 j hj _ (List.mem_singleton_self _))
  · exact Nat.le_refl _

theorem findSome?_eq_some_iff_greatest {α : Type} {l : List Nat} (hl : l.Pairwise (· > ·)) {f : Nat → Option α}
    {b : α} :
    l.findSome? f = some b ↔ ∃ n, IsGreatest {n | n ∈ l ∧ (f n).isSome} n ∧ f n = some b := by
  rw [List.findSome?_eq_some_iff]
  constructor
  · rintro ⟨front, n, back, rfl, hn, hfront⟩
    refine ⟨n, ⟨by simp [hn], ?_⟩, hn⟩
    rintro j ⟨hj, hsome⟩
    rcases List.mem_append.mp hj with hj | hj
    · simp [hfront j hj] at hsome
    · rcases List.mem_cons.mp hj with rfl | hj
      · exact Nat.le_refl _
      · exact Nat.le_of_lt (List.rel_of_pairwise_cons (List.pairwise_append.mp hl).2.1 hj)
  · rintro ⟨n, ⟨⟨hmem, -⟩, hgreatest⟩, hn⟩
    obtain ⟨front, back, rfl⟩ := List.append_of_mem hmem
    refine ⟨front, n, back, rfl, hn, fun j hj => ?_⟩
    by_contra hsome
    have hle := hgreatest ⟨List.mem_append_left _ hj, Option.isSome_iff_ne_none.mpr hsome⟩
    have hgt := (List.pairwise_append.mp hl).2.2 j hj n (by simp)
    omega

theorem length_filter_range_eq_one {n : Nat} {p : Nat → Bool} :
    ((List.range n).filter p).length = 1 ↔ ∃! a, a < n ∧ p a = true := by
  have hnodup : ((List.range n).filter p).Nodup := List.nodup_range.filter p
  have hmem : ∀ a, a ∈ (List.range n).filter p ↔ a < n ∧ p a = true := by simp
  simp only [← hmem]
  generalize (List.range n).filter p = l at hnodup
  rw [List.length_eq_one_iff]
  constructor
  · rintro ⟨a, rfl⟩
    exact ⟨a, by simp⟩
  · rintro ⟨a, ha, hunique⟩
    refine ⟨a, List.perm_singleton.mp ((List.perm_ext_iff_of_nodup hnodup (List.nodup_singleton a)).mpr fun b => ?_)⟩
    rw [List.mem_singleton]
    exact ⟨hunique b, fun hb => hb ▸ ha⟩

/-! ## The overlap -/

/-- The last `k` of one list are the first `k` of the other. -/
def Joins (previous incoming : List FingerprintOccurrence) (k : Nat) : Prop :=
  k ≤ incoming.length ∧ (fingerprints incoming).take k <:+ fingerprints previous

def LongestJoin (previous incoming : List FingerprintOccurrence) (k : Nat) : Prop :=
  IsGreatest {length | 0 < length ∧ Joins previous incoming length} k

/-- The windows of one list that hold the first `length` of the other. -/
def standing (previous incoming : List FingerprintOccurrence) (length : Nat) : Set Nat :=
  {start | start + length ≤ previous.length ∧
    ((fingerprints previous).drop start).take length = (fingerprints incoming).take length}

/-- The window at `start` and the first `length` differ at one offset, which is neither end. -/
def DiffersAt (previous incoming : List FingerprintOccurrence) (length start offset : Nat) : Prop :=
  start + length ≤ previous.length ∧ length ≤ incoming.length ∧ offset ≠ 0 ∧ offset ≠ length - 1 ∧
    ∀ i, (((fingerprints previous).drop start).take length)[i]? ≠ ((fingerprints incoming).take length)[i]? ↔ i = offset

/-- The longest end of one list that differs in this way from the first of the other. -/
def LongestChange (previous incoming : List FingerprintOccurrence) (length : Nat) : Prop :=
  IsGreatest {length | 3 ≤ length ∧ length ≤ previous.length ∧
    ∃ offset, DiffersAt previous incoming length (previous.length - length) offset} length

/-- The longest changed end is the only window of its length that can be meant. -/
def Changes (previous incoming : List FingerprintOccurrence) (reference : FingerprintOccurrence) : Prop :=
  ∃ length offset, LongestChange previous incoming length ∧
    DiffersAt previous incoming length (previous.length - length) offset ∧
    (∀ start offset, DiffersAt previous incoming length start offset → start = previous.length - length) ∧
    previous[previous.length - length + offset]? = some reference

variable {previous incoming : List FingerprintOccurrence}

@[simp] theorem length_fingerprints (occurrences : List FingerprintOccurrence) :
    (fingerprints occurrences).length = occurrences.length := List.length_map _

theorem joins_iff {k : Nat} : Joins previous incoming k ↔ k ≤ previous.length ∧ k ≤ incoming.length ∧
      ((fingerprints previous).drop (previous.length - k)).take k = (fingerprints incoming).take k := by
  unfold Joins
  rw [List.suffix_iff_eq_drop, List.length_take, length_fingerprints, length_fingerprints]
  constructor
  · rintro ⟨hk, heq⟩
    rw [min_eq_left hk] at heq
    have hle : k ≤ previous.length := by
      have := congrArg List.length heq
      simp at this
      omega
    exact ⟨hle, hk, by rw [← heq, List.take_take, min_self]⟩
  · rintro ⟨hle, hk, heq⟩
    rw [min_eq_left hk, ← heq, List.take_of_length_le (by simp; omega)]
    exact ⟨hk, rfl⟩

theorem mem_candidates {k : Nat} :
    k ∈ (List.range' 1 (min previous.length incoming.length)).filter (equalSuffixPrefix previous incoming) ↔
      0 < k ∧ Joins previous incoming k := by
  rw [joins_iff, List.mem_filter, List.mem_range'_1]
  simp only [equalSuffixPrefix, matchesAt]
  split
  · simp only [Bool.false_eq_true, and_false, false_iff]
    omega
  · rw [decide_eq_true_eq]
    constructor
    · exact fun h => ⟨by omega, by omega, by omega, h.2⟩
    · exact fun h => ⟨by omega, h.2.2.2⟩

theorem length_positions_eq_one {k : Nat} :
    ((windowStarts previous.length k).filter fun start => matchesAt previous incoming start k).length = 1 ↔
      ∃! start, start ∈ standing previous incoming k := by
  rw [windowStarts, length_filter_range_eq_one]
  simp only [matchesAt, decide_eq_true_eq, standing, Set.mem_ofPred_eq,
    show ∀ start, start < previous.length + 1 - k ↔ start + k ≤ previous.length by omega]

theorem overlapLength_cases (previous incoming : List FingerprintOccurrence) :
    ((∀ k, 0 < k → ¬ Joins previous incoming k) ∧ overlapLength previous incoming = (0, false)) ∨
      ∃ k, LongestJoin previous incoming k ∧
        (((∃! start, start ∈ standing previous incoming k) ∧ overlapLength previous incoming = (k, false)) ∨
          ((standing previous incoming k).Nontrivial ∧ overlapLength previous incoming = (0, true))) := by
  simp only [overlapLength]
  split
  · rename_i hnone
    refine .inl ⟨fun k hk hjoins => ?_, rfl⟩
    have hmem := mem_candidates.mpr ⟨hk, hjoins⟩
    rw [hnone] at hmem
    exact List.not_mem_nil hmem
  · rename_i hsome
    have hsorted := (List.pairwise_lt_range' (s := 1) (n := min previous.length incoming.length)).filter
      (equalSuffixPrefix previous incoming)
    have hgreatest := isGreatest_getLast hsorted hsome
    simp only [mem_candidates] at hgreatest
    refine .inr ⟨_, hgreatest, ?_⟩
    split
    · rename_i hmany
      refine .inr ⟨?_, rfl⟩
      rw [← Set.not_subsingleton_iff]
      intro hsingle
      obtain ⟨hle, -, hlast⟩ := joins_iff.mp hgreatest.1.2
      have hstands : _ ∈ standing previous incoming _ := ⟨by omega, hlast⟩
      exact hmany (length_positions_eq_one.mpr ⟨_, hstands, fun start hstart => hsingle hstart hstands⟩)
    · rename_i hone
      exact .inl ⟨length_positions_eq_one.mp (not_not.mp hone), rfl⟩

theorem overlapLength_spec {k : Nat} (hk : 0 < k) (h : overlapLength previous incoming = (k, false)) :
    LongestJoin previous incoming k ∧ ∃! start, start ∈ standing previous incoming k := by
  rcases overlapLength_cases previous incoming with ⟨-, hnone⟩ | ⟨j, hj, ⟨hone, hj'⟩ | ⟨-, hmany⟩⟩
  · simp [hnone] at h
    omega
  · obtain rfl : j = k := by simpa [hj'] using h
    exact ⟨hj, hone⟩
  · simp [hmany] at h

/-! ## The changed payload -/

theorem changedOffsetFrom_found (length offset c d : Nat) (p q : List Digest) (h : p.length = q.length) :
    changedOffsetFrom length offset (some c) p q = some (some d) ↔ d = c ∧ p = q := by
  induction p generalizing offset q with
  | nil =>
    cases q with
    | nil => simp [changedOffsetFrom, eq_comm]
    | cons => simp at h
  | cons a p ih =>
    cases q with
    | nil => simp at h
    | cons b q =>
      simp only [changedOffsetFrom]
      split
      · rename_i hab
        rw [ih _ _ (by simpa using h)]
        simp [hab]
      · rename_i hab
        simp [hab]

theorem changedOffsetFrom_eq_some (length offset c : Nat) (p q : List Digest) (h : p.length = q.length) :
    changedOffsetFrom length offset none p q = some (some c) ↔
      offset ≤ c ∧ c ≠ 0 ∧ c ≠ length - 1 ∧ ∀ i, p[i]? ≠ q[i]? ↔ offset + i = c := by
  induction p generalizing offset q with
  | nil =>
    cases q with
    | nil =>
      simp only [changedOffsetFrom, Option.some.injEq, reduceCtorEq, false_iff]
      rintro ⟨hle, -, -, hdiffers⟩
      exact absurd ((hdiffers (c - offset)).mpr (by omega)) (by simp)
    | cons => simp at h
  | cons a p ih =>
    cases q with
    | nil => simp at h
    | cons b q =>
      have hlength : p.length = q.length := by simpa using h
      have hsplit : (∀ i, (a :: p)[i]? ≠ (b :: q)[i]? ↔ offset + i = c) ↔
          (a ≠ b ↔ offset = c) ∧ ∀ i, p[i]? ≠ q[i]? ↔ offset + 1 + i = c := by
        rw [← Nat.and_forall_add_one]
        simp [Nat.add_assoc, Nat.add_comm 1]
      rw [hsplit]
      simp only [changedOffsetFrom]
      split
      · rename_i hab
        rw [ih _ _ hlength]
        constructor
        · rintro ⟨hle, hzero, hlast, hrest⟩
          exact ⟨by omega, hzero, hlast, by simp only [hab, ne_eq, not_true_eq_false, false_iff]; omega, hrest⟩
        · rintro ⟨hle, hzero, hlast, hfirst, hrest⟩
          have hne : offset ≠ c := fun hc => hfirst.mpr hc hab
          exact ⟨by omega, hzero, hlast, hrest⟩
      · rename_i hab
        have hsame : (∀ i, p[i]? ≠ q[i]? ↔ offset + 1 + i = offset) ↔ p = q := by
          rw [List.ext_getElem?_iff]
          refine forall_congr' fun i => ?_
          rw [show (offset + 1 + i = offset) ↔ False by simp; omega, iff_false, not_not]
        split
        · rename_i hend
          simp only [Option.isSome_none, Bool.false_eq_true, or_false] at hend
          simp only [reduceCtorEq, false_iff]
          rintro ⟨-, hzero, hlast, hfirst, -⟩
          have := hfirst.mp hab
          omega
        · rename_i hinner
          rw [changedOffsetFrom_found _ _ _ _ _ _ hlength]
          constructor
          · rintro ⟨rfl, hpq⟩
            exact ⟨Nat.le_refl _, by tauto, by tauto, by simp [hab], hsame.mpr hpq⟩
          · rintro ⟨-, -, -, hfirst, hrest⟩
            have hc := hfirst.mp hab
            subst hc
            exact ⟨rfl, hsame.mp hrest⟩

theorem oneSubstitutionAlignment_eq_some {start length : Nat} {found : HistoryAlignment} :
    oneSubstitutionAlignment previous start incoming length = some found ↔
      ∃ offset, 3 ≤ length ∧ DiffersAt previous incoming length start offset ∧ found = ⟨start, offset, length⟩ := by
  simp only [oneSubstitutionAlignment, DiffersAt]
  by_cases hbounds : length < 3 ∨ start + length > previous.length ∨ length > incoming.length
  · simp only [hbounds, not_true_eq_false, guard_false]
    constructor
    · intro h
      cases h
    · rintro ⟨offset, hlength, ⟨hprevious, hincoming, -⟩, -⟩
      omega
  · simp only [hbounds, not_false_eq_true, guard_true]
    simp only [Option.pure_def, Option.bind_eq_bind, Option.bind_some, Option.bind_eq_some_iff, Option.some.injEq]
    have hscan : ∀ offset, changedOffsetFrom length 0 none (((fingerprints previous).drop start).take length)
        ((fingerprints incoming).take length) = some (some offset) ↔ _ :=
      fun offset => changedOffsetFrom_eq_some length 0 offset _ _ (by simp; omega)
    simp only [Nat.zero_add] at hscan
    constructor
    · rintro ⟨_, h, offset, rfl, rfl⟩
      exact ⟨offset, by omega, ⟨by omega, by omega, ((hscan offset).mp h).2⟩, rfl⟩
    · rintro ⟨offset, -, ⟨-, -, hdiffers⟩, rfl⟩
      exact ⟨some offset, (hscan offset).mpr ⟨Nat.zero_le _, hdiffers⟩, offset, rfl, rfl⟩

theorem isSome_oneSubstitutionAlignment {start length : Nat} :
    (oneSubstitutionAlignment previous start incoming length).isSome = true ↔
      3 ≤ length ∧ ∃ offset, DiffersAt previous incoming length start offset := by
  simp only [Option.isSome_iff_exists, oneSubstitutionAlignment_eq_some]
  constructor
  · rintro ⟨_, offset, hlength, hdiffers, -⟩
    exact ⟨hlength, offset, hdiffers⟩
  · rintro ⟨hlength, offset, hdiffers⟩
    exact ⟨_, offset, hlength, hdiffers, rfl⟩

theorem boundary_eq_some {found : HistoryAlignment} :
    ((boundaryLengths (min previous.length incoming.length)).findSome? fun length =>
        oneSubstitutionAlignment previous (previous.length - length) incoming length) = some found ↔
      ∃ length offset, LongestChange previous incoming length ∧
        DiffersAt previous incoming length (previous.length - length) offset ∧
        found = ⟨previous.length - length, offset, length⟩ := by
  have hsorted : (boundaryLengths (min previous.length incoming.length)).Pairwise (· > ·) :=
    List.pairwise_reverse.mpr List.pairwise_lt_range'
  have hset : ∀ length, length ∈ boundaryLengths (min previous.length incoming.length) ∧
        (oneSubstitutionAlignment previous (previous.length - length) incoming length).isSome ↔
      3 ≤ length ∧ length ≤ previous.length ∧
        ∃ offset, DiffersAt previous incoming length (previous.length - length) offset := by
    intro length
    rw [boundaryLengths, List.mem_reverse, List.mem_range'_1, isSome_oneSubstitutionAlignment]
    constructor
    · rintro ⟨hrange, hlength, hdiffers⟩
      exact ⟨hlength, by omega, hdiffers⟩
    · rintro ⟨hlength, hprevious, offset, hdiffers⟩
      have hincoming := hdiffers.2.1
      exact ⟨by omega, hlength, offset, hdiffers⟩
  rw [findSome?_eq_some_iff_greatest hsorted]
  simp only [hset, oneSubstitutionAlignment_eq_some]
  constructor
  · rintro ⟨length, hgreatest, offset, -, hdiffers, rfl⟩
    exact ⟨length, offset, hgreatest, hdiffers, rfl⟩
  · rintro ⟨length, offset, hgreatest, hdiffers, rfl⟩
    exact ⟨length, hgreatest, offset, hgreatest.1.1, hdiffers, rfl⟩

theorem length_compatible_eq_one {length offset : Nat} (hlength : 3 ≤ length)
    (hdiffers : DiffersAt previous incoming length (previous.length - length) offset) :
    ((windowStarts previous.length length).filter fun start =>
        (oneSubstitutionAlignment previous start incoming length).isSome).length = 1 ↔
      ∀ start offset, DiffersAt previous incoming length start offset → start = previous.length - length := by
  have hbounds := hdiffers.1
  rw [windowStarts, length_filter_range_eq_one]
  simp only [isSome_oneSubstitutionAlignment]
  constructor
  · rintro ⟨only, -, hunique⟩ start offset' hstart
    have hfirst := hstart.1
    rw [hunique (previous.length - length) ⟨by omega, hlength, offset, hdiffers⟩]
    exact hunique start ⟨by omega, hlength, offset', hstart⟩
  · intro hunique
    refine ⟨previous.length - length, ⟨by omega, hlength, offset, hdiffers⟩, ?_⟩
    rintro start ⟨-, -, offset', hstart⟩
    exact hunique start offset' hstart

theorem uniqueHistoryChange_eq_some {reference : FingerprintOccurrence} :
    uniqueHistoryChange previous incoming = some reference ↔ Changes previous incoming reference := by
  simp only [uniqueHistoryChange, Option.bind_eq_bind, Option.bind_eq_some_iff, boundary_eq_some, Option.guard_eq_some']
  constructor
  · rintro ⟨_, ⟨length, offset, hgreatest, hdiffers, rfl⟩, _, hone, hreference⟩
    exact ⟨length, offset, hgreatest, hdiffers, (length_compatible_eq_one hgreatest.1.1 hdiffers).mp hone, hreference⟩
  · rintro ⟨length, offset, hgreatest, hdiffers, hunique, hreference⟩
    have hone := (length_compatible_eq_one hgreatest.1.1 hdiffers).mpr hunique
    exact ⟨_, ⟨length, offset, hgreatest, hdiffers, rfl⟩, (), hone, hreference⟩

/-- The two searches of the reducer, as conditions on the fingerprints of the tail and of the batch. -/
theorem searches_spec (previous incoming : List FingerprintOccurrence) :
    (∀ k, (0 < k ∧ overlapLength previous incoming = (k, false)) ↔
      LongestJoin previous incoming k ∧ ∃! start, start ∈ standing previous incoming k) ∧
    (overlapLength previous incoming = (0, true) ↔
      ∃ k, LongestJoin previous incoming k ∧ (standing previous incoming k).Nontrivial) ∧
    (overlapLength previous incoming = (0, false) ↔ ∀ k, 0 < k → ¬ Joins previous incoming k) ∧
    ∀ reference, uniqueHistoryChange previous incoming = some reference ↔ Changes previous incoming reference := by
  refine ⟨fun k => ⟨fun h => overlapLength_spec h.1 h.2, ?_⟩, ?_, ?_, fun _ => uniqueHistoryChange_eq_some⟩
  all_goals rcases overlapLength_cases previous incoming with ⟨hnone, h⟩ | ⟨j, hj, ⟨hone, h⟩ | ⟨hmany, h⟩⟩
  · exact fun hk => absurd hk.1.1.2 (hnone k hk.1.1.1)
  · rintro ⟨hk, -⟩
    obtain rfl := hk.unique hj
    exact ⟨hk.1.1, h⟩
  · rintro ⟨hk, hone⟩
    obtain rfl := hk.unique hj
    obtain ⟨a, ha, b, hb, hne⟩ := hmany
    exact absurd (hone.unique ha hb) hne
  · exact iff_of_false (by simp [h]) fun ⟨k, hk, _⟩ => hnone k hk.1.1 hk.1.2
  · refine iff_of_false (by simp [h]) ?_
    rintro ⟨k, hk, a, ha, b, hb, hne⟩
    obtain rfl := hk.unique hj
    exact hne (hone.unique ha hb)
  · exact iff_of_true h ⟨j, hj, hmany⟩
  · exact iff_of_true h hnone
  · exact iff_of_false (by simp [h, hj.1.1.ne']) fun hnone => hnone j hj.1.1 hj.1.2
  · exact iff_of_false (by simp [h]) fun hnone => hnone j hj.1.1 hj.1.2

end TickPlatform.Continuity
