import Mathlib.Data.List.Chain
import Mathlib.Tactic.Common

/-!
# Lists cut into groups greedily

A list is cut element by element: an element joins the last group where that still fits and starts a new one where it
does not.
-/

namespace TickPlatform.Cuts

variable {α : Type} {fits : List α → Prop} {groups : List (List α)} {last : List α} {x : α}

/-- Every group fits, and none could have taken the element that starts the next one. -/
structure Cut (fits : List α → Prop) (groups : List (List α)) : Prop where
  nonempty : ∀ group ∈ groups, group ≠ []
  within : ∀ group ∈ groups, fits group
  full : groups.IsChain fun group next => ∀ first ∈ next.head?, ¬ fits (group ++ [first])

theorem cut_nil : Cut fits [] := by
  constructor <;> simp

theorem Cut.start (h : Cut fits groups) (hx : fits [x]) (hfull : ∀ last ∈ groups.getLast?, ¬ fits (last ++ [x])) :
    Cut fits (groups ++ [[x]]) where
  nonempty group hgroup := by
    rcases List.mem_append.mp hgroup with hold | hnew
    · exact h.nonempty group hold
    · rw [List.mem_singleton.mp hnew]
      exact List.cons_ne_nil _ _
  within group hgroup := by
    rcases List.mem_append.mp hgroup with hold | hnew
    · exact h.within group hold
    · rw [List.mem_singleton.mp hnew]
      exact hx
  full := by
    rw [List.isChain_append]
    refine ⟨h.full, List.isChain_singleton _, fun last hlast next hnext first hfirst => ?_⟩
    cases hnext
    cases hfirst
    exact hfull last hlast

theorem Cut.extend (h : Cut fits (groups ++ [last])) (hx : fits (last ++ [x])) : Cut fits (groups ++ [last ++ [x]]) where
  nonempty group hgroup := by
    rcases List.mem_append.mp hgroup with hold | hnew
    · exact h.nonempty group (List.mem_append_left _ hold)
    · rw [List.mem_singleton.mp hnew]
      simp
  within group hgroup := by
    rcases List.mem_append.mp hgroup with hold | hnew
    · exact h.within group (List.mem_append_left _ hold)
    · rw [List.mem_singleton.mp hnew]
      exact hx
  full := by
    have hlast : last ≠ [] := h.nonempty last (by simp)
    have hfull := h.full
    rw [List.isChain_append] at hfull ⊢
    refine ⟨hfull.1, List.isChain_singleton _, fun group hgroup next hnext first hfirst => ?_⟩
    cases hnext
    rw [List.head?_append_of_ne_nil _ hlast] at hfirst
    exact hfull.2.2 group hgroup last rfl first hfirst

end TickPlatform.Cuts
