import Mathlib.Data.List.Chain
import Mathlib.Data.List.MinMax

/-!
# Numbered chains

Elements that carry a number, each linked to one with the number before its own, down to one. Where no two elements
share a number, they are one chain.
-/

namespace TickPlatform.Ranked

variable {α : Type} {rank : α → Nat} {link : α → α → Prop}

/-- Numbered from one on, each linked to the next. -/
structure Numbered (rank : α → Nat) (link : α → α → Prop) (chain : List α) : Prop where
  ranks : chain.map rank = List.range' 1 chain.length
  links : chain.IsChain link

theorem numbered_nil : Numbered rank link [] := ⟨rfl, List.isChain_nil⟩

variable {chain : List α} {x : α}

theorem numbered_snoc : Numbered rank link (chain ++ [x]) ↔
      Numbered rank link chain ∧ rank x = chain.length + 1 ∧ ∀ y ∈ chain.getLast?, link y x := by
  have hranks : (chain ++ [x]).map rank = List.range' 1 (chain ++ [x]).length ↔
      chain.map rank = List.range' 1 chain.length ∧ rank x = chain.length + 1 := by
    rw [List.map_append, List.length_append, List.length_singleton, List.range'_concat, Nat.one_mul, Nat.add_comm 1,
      List.map_singleton]
    constructor
    · intro h
      obtain ⟨hfront, hlast⟩ := List.append_inj' h rfl
      exact ⟨hfront, List.singleton_injective hlast⟩
    · rintro ⟨hfront, hlast⟩
      rw [hfront, hlast]
  constructor
  · rintro ⟨hmap, hlinks⟩
    rw [List.isChain_append] at hlinks
    exact ⟨⟨(hranks.mp hmap).1, hlinks.1⟩, (hranks.mp hmap).2, fun y hy => hlinks.2.2 y hy x rfl⟩
  · rintro ⟨⟨hmap, hlinks⟩, hrank, hlast⟩
    refine ⟨hranks.mpr ⟨hmap, hrank⟩, List.isChain_append.mpr ⟨hlinks, List.isChain_singleton x, ?_⟩⟩
    rintro y hy z hz
    obtain rfl : x = z := Option.some.inj hz
    exact hlast y hy

theorem Numbered.rank_head (h : Numbered rank link chain) (hx : x ∈ chain.head?) : rank x = 1 := by
  obtain ⟨rest, rfl⟩ := List.head?_eq_some_iff.mp hx
  have hranks := h.ranks
  rw [List.map_cons, List.length_cons, List.range'_succ] at hranks
  exact (List.cons.inj hranks).1

theorem Numbered.rank_getLast (h : Numbered rank link chain) (hx : chain.getLast? = some x) :
    rank x = chain.length := by
  obtain ⟨front, rfl⟩ := List.getLast?_eq_some_iff.mp hx
  rw [(numbered_snoc.mp h).2.1, List.length_append, List.length_singleton]

theorem Numbered.exists_rank (h : Numbered rank link chain) {n : Nat} (hpos : n ≠ 0)
    (hle : n ≤ chain.length) : ∃ x ∈ chain, rank x = n := by
  have hmem : n ∈ chain.map rank := by
    rw [h.ranks, List.mem_range'_1]
    omega
  exact List.mem_map.mp hmem

theorem Numbered.getLast? (h : Numbered rank link chain) (hx : x ∈ chain)
    (hfree : ∀ y ∈ chain, rank y ≠ rank x + 1) : chain.getLast? = some x := by
  obtain ⟨front, last, rfl⟩ := (List.eq_nil_or_concat' chain).resolve_left (List.ne_nil_of_mem hx)
  rw [List.getLast?_concat]
  rcases List.mem_append.mp hx with hfront | hlast
  · have hranks := (numbered_snoc.mp h).1.ranks
    have hbound : rank x ∈ List.range' 1 front.length := hranks ▸ List.mem_map_of_mem hfront
    rw [List.mem_range'_1] at hbound
    have hwithin : rank x + 1 ≤ (front ++ [last]).length := by
      rw [List.length_append, List.length_singleton]
      omega
    obtain ⟨y, hy, hrank⟩ := h.exists_rank (Nat.succ_ne_zero _) hwithin
    exact absurd hrank (hfree y hy)
  · rw [List.mem_singleton.mp hlast]

section
variable {elements : List α} (hpred : ∀ x ∈ elements, rank x ≠ 1 → ∃ y ∈ elements, rank x = rank y + 1 ∧ link y x)
include hpred

theorem exists_numbered_to {n : Nat} : ∀ x ∈ elements, rank x = n →
    ∃ chain, Numbered rank link (chain ++ [x]) ∧ ∀ y ∈ chain, y ∈ elements := by
  induction n with
  | zero =>
    intro x hx hzero
    obtain ⟨y, -, hsucc, -⟩ := hpred x hx (by omega)
    omega
  | succ n ih =>
    intro x hx hrank
    by_cases hone : rank x = 1
    · exact ⟨[], numbered_snoc.mpr ⟨numbered_nil, hone, nofun⟩, nofun⟩
    · obtain ⟨y, hy, hsucc, hlink⟩ := hpred x hx hone
      obtain ⟨chain, hchain, hmem⟩ := ih y hy (by omega)
      refine ⟨chain ++ [y], numbered_snoc.mpr ⟨hchain, ?_, ?_⟩, ?_⟩
      · rw [hsucc, (numbered_snoc.mp hchain).2.1, List.length_append, List.length_singleton]
      · rw [List.getLast?_concat]
        intro z hz
        obtain rfl : y = z := Option.some.inj hz
        exact hlink
      · intro z hz
        rcases List.mem_append.mp hz with hz | hz
        · exact hmem z hz
        · rwa [List.mem_singleton.mp hz]

/-- Elements without a number in common are one chain. -/
theorem exists_numbered (hunique : ∀ x ∈ elements, ∀ y ∈ elements, rank x = rank y → x = y) :
    ∃ chain, Numbered rank link chain ∧ ∀ x, x ∈ chain ↔ x ∈ elements := by
  cases hcase : elements.argmax rank with
  | none =>
    rw [List.argmax_eq_none] at hcase
    exact ⟨[], numbered_nil, fun x => by rw [hcase]⟩
  | some top =>
    obtain ⟨chain, hchain, hmem⟩ := exists_numbered_to hpred top (List.argmax_mem hcase) rfl
    have hwithin : ∀ x ∈ chain ++ [top], x ∈ elements := by
      intro x hx
      rcases List.mem_append.mp hx with hx | hx
      · exact hmem x hx
      · rw [List.mem_singleton.mp hx]
        exact List.argmax_mem hcase
    refine ⟨chain ++ [top], hchain, fun x => ⟨hwithin x, fun hx => ?_⟩⟩
    -- No number is above that of `top`, so the chain has an element with the number of `x`.
    have hle : rank x ≤ rank top := List.le_of_mem_argmax hx hcase
    have hpos : rank x ≠ 0 := by
      intro hzero
      obtain ⟨y, -, hsucc, -⟩ := hpred x hx (by omega)
      omega
    have hlength : rank top = (chain ++ [top]).length := hchain.rank_getLast List.getLast?_concat
    obtain ⟨y, hy, hrank⟩ := hchain.exists_rank hpos (hlength ▸ hle)
    rwa [← hunique y (hwithin y hy) x hx hrank]

end

end TickPlatform.Ranked
