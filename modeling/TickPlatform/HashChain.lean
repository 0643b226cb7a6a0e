import Mathlib.Tactic.Common

/-!
# Hash chains

A chain of values in which each one is computed from the one before. Where the computation can be
inverted on the values of the chain, and never returns the value the chain starts with, no value
occurs twice.
-/

namespace TickPlatform.HashChain

variable {δ : Type} {value : Nat → δ} {size : Nat}

theorem walk_back (hback : ∀ i j, i < size → j < size → value (i + 1) = value (j + 1) → value i = value j)
    {i j : Nat} (hi : i ≤ size) (hj : j ≤ size) (h : value i = value j) (k : Nat) (hki : k ≤ i)
    (hkj : k ≤ j) : value (i - k) = value (j - k) := by
  induction k with
  | zero => simpa using h
  | succ k ih =>
    have hprev := ih (by omega) (by omega)
    apply hback (i - (k + 1)) (j - (k + 1)) (by omega) (by omega)
    rwa [show i - (k + 1) + 1 = i - k by omega, show j - (k + 1) + 1 = j - k by omega]

theorem index_unique (hback : ∀ i j, i < size → j < size → value (i + 1) = value (j + 1) → value i = value j)
    (hstart : ∀ i, i < size → value (i + 1) ≠ value 0) {i j : Nat} (hi : i ≤ size) (hj : j ≤ size)
    (h : value i = value j) : i = j := by
  -- The shorter of the two is walked back to the start of the chain.
  rcases Nat.lt_trichotomy i j with hlt | heq | hlt
  · have hzero := walk_back hback hi hj h i (Nat.le_refl i) (by omega)
    rw [Nat.sub_self, show j - i = j - i - 1 + 1 by omega] at hzero
    exact absurd hzero.symm (hstart (j - i - 1) (by omega))
  · exact heq
  · have hzero := walk_back hback hi hj h j (by omega) (Nat.le_refl j)
    rw [Nat.sub_self, show i - j = i - j - 1 + 1 by omega] at hzero
    exact absurd hzero (hstart (i - j - 1) (by omega))

end TickPlatform.HashChain
