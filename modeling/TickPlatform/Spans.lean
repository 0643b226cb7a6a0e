import Mathlib.Data.List.Chain
import Mathlib.Data.List.Infix
import Mathlib.Data.List.Pairwise

/-!
# Spans without a gap

Elements that each cover a span of numbers, one after another. Leaving some of them out makes no gap just if the
ones left out come last.
-/

namespace TickPlatform.Spans

variable {α : Type} {first last : α → Nat} {l : List α} {start : Nat}

/-- Each span starts one past the end of the one before, and the first at the given number. -/
def Gapless (first last : α → Nat) : Nat → List α → Prop
  | _, [] => True
  | start, x :: later => first x = start ∧ Gapless first last (last x + 1) later

theorem Gapless.left {l' : List α} (h : Gapless first last start (l ++ l')) : Gapless first last start l := by
  induction l generalizing start with
  | nil => trivial
  | cons x later ih => exact ⟨h.1, ih h.2⟩

theorem gapless_map {β : Type} {f : β → α} {l : List β} :
    Gapless first last start (l.map f) ↔ Gapless (first ∘ f) (last ∘ f) start l := by
  induction l generalizing start with
  | nil => rfl
  | cons x later ih => exact and_congr_right fun _ => ih

theorem Gapless.start_le (hspan : ∀ x ∈ l, first x ≤ last x) (h : Gapless first last start l) :
    ∀ x ∈ l, start ≤ first x := by
  induction l generalizing start with
  | nil => simp
  | cons y later ih =>
    rw [List.forall_mem_cons] at hspan
    obtain ⟨rfl, hlater⟩ := h
    refine List.forall_mem_cons.mpr ⟨Nat.le_refl _, fun x hx => ?_⟩
    have := ih hspan.2 hlater x hx
    omega

theorem Gapless.ascending (hspan : ∀ x ∈ l, first x ≤ last x) (h : Gapless first last start l) :
    l.Pairwise fun x y => first x < first y := by
  induction l generalizing start with
  | nil => exact List.Pairwise.nil
  | cons x later ih =>
    rw [List.forall_mem_cons] at hspan
    obtain ⟨-, hlater⟩ := h
    refine List.pairwise_cons.mpr ⟨fun y hy => ?_, ih hspan.2 hlater⟩
    have := hlater.start_le hspan.2 y hy
    omega

/-- What is kept has no gap just if nothing before a kept element is left out. -/
theorem gapless_filter_iff {p : α → Bool} (hspan : ∀ x ∈ l, first x ≤ last x) (h : Gapless first last start l) :
    Gapless first last start (l.filter p) ↔
      ∀ x ∈ l, ∀ y ∈ l, first x < first y → p y = true → p x = true := by
  induction l generalizing start with
  | nil => simp [Gapless]
  | cons x later ih =>
    have habove := (List.pairwise_cons.mp (h.ascending hspan)).1
    rw [List.forall_mem_cons] at hspan
    obtain ⟨hfirst, hlater⟩ := h
    cases hx : p x with
    | true =>
      rw [List.filter_cons_of_pos hx]
      constructor
      · rintro ⟨-, hkept⟩
        refine List.forall_mem_cons.mpr ⟨fun _ _ _ _ => hx, fun y hy => List.forall_mem_cons.mpr ⟨fun hlt => ?_, ?_⟩⟩
        · exact absurd (habove y hy) (Nat.lt_asymm hlt)
        · exact (ih hspan.2 hlater).mp hkept y hy
      · intro hall
        refine ⟨hfirst, (ih hspan.2 hlater).mpr fun y hy z hz => ?_⟩
        exact hall y (List.mem_cons_of_mem _ hy) z (List.mem_cons_of_mem _ hz)
    | false =>
      rw [List.filter_cons_of_neg (by simp [hx])]
      -- the first kept element would have to start at the number of the one left out
      constructor
      · intro hkept
        have hnone : ∀ y ∈ later, ¬ p y = true := by
          rw [← List.filter_eq_nil_iff]
          cases hcase : later.filter p with
          | nil => rfl
          | cons y kept =>
            rw [hcase] at hkept
            have hmem : y ∈ later.filter p := hcase ▸ List.mem_cons_self
            have hlt := habove y (List.mem_of_mem_filter hmem)
            have hstart := hkept.1
            omega
        intro y _ z hz _ hkeep
        rcases List.mem_cons.mp hz with rfl | hz
        · rw [hx] at hkeep
          cases hkeep
        · exact absurd hkeep (hnone z hz)
      · intro hall
        have hnone : later.filter p = [] := List.filter_eq_nil_iff.mpr fun y hy hkeep => by
          have := hall x List.mem_cons_self y (List.mem_cons_of_mem _ hy) (habove y hy) hkeep
          rw [hx] at this
          cases this
        rw [hnone]
        trivial

/-- Without a gap, the neighbours are the elements that meet. -/
theorem Gapless.isChain_iff {R : α → α → Prop} (hspan : ∀ x ∈ l, first x ≤ last x) (h : Gapless first last start l) :
    l.IsChain R ↔ ∀ x ∈ l, ∀ y ∈ l, first y = last x + 1 → R x y := by
  induction l generalizing start with
  | nil => simp
  | cons x later ih =>
    have habove := (List.pairwise_cons.mp (h.ascending hspan)).1
    rw [List.forall_mem_cons] at hspan
    obtain ⟨-, hlater⟩ := h
    rw [List.isChain_cons, ih hspan.2 hlater]
    constructor
    · rintro ⟨hhead, hrest⟩
      refine List.forall_mem_cons.mpr ⟨List.forall_mem_cons.mpr ⟨fun hmeet => ?_, fun y hy hmeet => ?_⟩,
        fun y hy => List.forall_mem_cons.mpr ⟨fun hmeet => ?_, hrest y hy⟩⟩
      · have := hspan.1
        omega
      · -- the first of the later ones is the only one that starts there
        cases later with
        | nil => cases hy
        | cons z rest =>
          have hascending := (List.pairwise_cons.mp (hlater.ascending hspan.2)).1
          have hz := hlater.1
          rcases List.mem_cons.mp hy with rfl | hy
          · exact hhead y rfl
          · have := hascending y hy
            omega
      · have := habove y hy
        have := hspan.2 y hy
        omega
    · intro hall
      refine ⟨fun y hy => ?_, fun y hy z hz => hall y (List.mem_cons_of_mem _ hy) z (List.mem_cons_of_mem _ hz)⟩
      cases later with
      | nil => cases hy
      | cons z rest =>
        obtain rfl : z = y := by simpa using hy
        exact hall x List.mem_cons_self z (List.mem_cons_of_mem _ List.mem_cons_self) hlater.1

/-- The span of an element holds a number. -/
def covers (first last : α → Nat) (n : Nat) (x : α) : Bool := decide (first x ≤ n) && decide (n ≤ last x)

theorem covers_iff {n : Nat} {x : α} : covers first last n x = true ↔ first x ≤ n ∧ n ≤ last x := by
  simp [covers]

theorem two_le_countP {p : α → Bool} {x y : α} (hx : p x = true) (hy : p y = true) (hmem : y ∈ l) :
    2 ≤ (x :: l).countP p := by
  rw [List.countP_cons_of_pos hx]
  have := List.countP_pos_iff.mpr ⟨y, hmem, hy⟩
  omega

/-- Spans with ascending ends leave no gap just if each number up to the last end is in exactly one of them. -/
theorem gapless_iff_count (hspan : ∀ x ∈ l, first x ≤ last x) (hstart : ∀ x ∈ l, start ≤ first x)
    (hlast : l.Pairwise fun x y => last x < last y) :
    Gapless first last start l ↔
      ∀ n, start ≤ n → (∃ x ∈ l, n ≤ last x) → l.countP (covers first last n) = 1 := by
  induction l generalizing start with
  | nil => simp [Gapless]
  | cons x later ih =>
    rw [List.forall_mem_cons] at hspan hstart
    rw [List.pairwise_cons] at hlast
    constructor
    · rintro ⟨rfl, hlater⟩ n hn ⟨y, hy, hbelow⟩
      have habove := hlater.start_le hspan.2
      by_cases hx : n ≤ last x
      · -- the first span holds the number, and the later ones start past it
        rw [List.countP_cons_of_pos (covers_iff.mpr ⟨hn, hx⟩), List.countP_eq_zero.mpr]
        intro z hz hcovers
        have := habove z hz
        have := (covers_iff.mp hcovers).1
        omega
      · rw [List.countP_cons_of_neg (fun hcovers => hx (covers_iff.mp hcovers).2)]
        refine (ih hspan.2 habove hlast.2).mp hlater n (by omega) ?_
        rcases List.mem_cons.mp hy with rfl | hy
        · exact absurd hbelow hx
        · exact ⟨y, hy, hbelow⟩
    · intro hcount
      have hdisjoint : ∀ y ∈ later, last x + 1 ≤ first y := by
        intro y hy
        by_contra hlt
        have hends := hlast.1 y hy
        have htwo := @two_le_countP _ later _ x y (covers_iff.mpr ⟨hspan.1, Nat.le_refl _⟩)
          (covers_iff.mpr ⟨by omega, hends.le⟩) hy
        have hone := hcount (last x) (hstart.1.trans hspan.1) ⟨x, List.mem_cons_self, Nat.le_refl _⟩
        omega
      have hfirst : first x = start := by
        have hone := hcount start (Nat.le_refl _) ⟨x, List.mem_cons_self, hstart.1.trans hspan.1⟩
        have hpos : 0 < (x :: later).countP (covers first last start) := by omega
        obtain ⟨y, hy, hcovers⟩ := List.countP_pos_iff.mp hpos
        have hle := (covers_iff.mp hcovers).1
        rcases List.mem_cons.mp hy with rfl | hy
        · exact Nat.le_antisymm hle hstart.1
        · have := hdisjoint y hy
          omega
      refine ⟨hfirst, (ih hspan.2 hdisjoint hlast.2).mpr fun n hn hbelow => ?_⟩
      obtain ⟨y, hy, hbelow⟩ := hbelow
      have hone := hcount n (by omega) ⟨y, List.mem_cons_of_mem _ hy, hbelow⟩
      rwa [List.countP_cons_of_neg (fun hcovers => by have := (covers_iff.mp hcovers).2; omega)] at hone

end TickPlatform.Spans
