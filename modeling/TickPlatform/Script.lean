import TickPlatform.Crash

/-!
# Programs that follow a script

Some programs decide what they do without the device: the device only says whether each of their actions can be taken.
Such a program is a list of actions and a value, and it ends in that value on every device where the actions can be
taken one after the other.
-/

namespace TickPlatform.Crash

variable {σ ε err α β τ : Type} [Device σ ε]

/-- What an action needs of the device and the operations it takes there. -/
structure Action (σ ε τ : Type) where
  guard : σ → τ → Prop
  ops : σ → τ → List ε

namespace Action

variable (A : Action σ ε τ)

def opsAll (s : σ) : List τ → List ε
  | [] => []
  | action :: actions => A.ops s action ++ opsAll (runAll (A.ops s action) s) actions

/-- Each action can be taken on the device that those before it leave. -/
def GuardAll (s : σ) : List τ → Prop
  | [] => True
  | action :: actions => A.guard s action ∧ GuardAll (runAll (A.ops s action) s) actions

variable {A}

variable {s : σ}

theorem opsAll_append {xs ys : List τ} :
    A.opsAll s (xs ++ ys) = A.opsAll s xs ++ A.opsAll (runAll (A.opsAll s xs) s) ys := by
  induction xs generalizing s with
  | nil => rfl
  | cons x xs ih => simp only [List.cons_append, opsAll, ih, List.append_assoc, runAll_append]

theorem guardAll_append {xs ys : List τ} :
    A.GuardAll s (xs ++ ys) ↔ A.GuardAll s xs ∧ A.GuardAll (runAll (A.opsAll s xs) s) ys := by
  induction xs generalizing s with
  | nil => simp [GuardAll, opsAll]
  | cons x xs ih => simp only [List.cons_append, GuardAll, opsAll, ih, runAll_append, and_assoc]

theorem opsAll_singleton {x : τ} : A.opsAll s [x] = A.ops s x := List.append_nil _

theorem guardAll_singleton {x : τ} : A.GuardAll s [x] ↔ A.guard s x := by
  simp [GuardAll]

end Action

/-- The program takes the actions of the script and ends in `a`, wherever they can be taken; elsewhere it fails. -/
structure Follows (A : Action σ ε τ) (p : Prog σ ε err α) (script : List τ) (a : α) : Prop where
  run : ∀ s, A.GuardAll s script → p.run s = (A.opsAll s script, .ok a)
  guarded : ∀ {s ops b}, p.run s = (ops, .ok b) → A.GuardAll s script

variable {A : Action σ ε τ}

theorem follows_pure (a : α) : Follows A (pure a : Prog σ ε err α) [] a :=
  ⟨fun _ _ => rfl, fun _ => trivial⟩

variable {a : α}

theorem follows_lift {x : Except err α} (h : x = .ok a) : Follows A (Prog.lift x) [] a := by
  subst h
  exact ⟨fun _ _ => rfl, fun _ => trivial⟩

variable {p : Prog σ ε err α}

theorem follows_single {x : τ} (hrun : ∀ s, A.guard s x → p.run s = (A.ops s x, .ok a))
    (hguard : ∀ {s ops b}, p.run s = (ops, .ok b) → A.guard s x) : Follows A p [x] a where
  run s h := by rw [Action.opsAll_singleton, hrun s (Action.guardAll_singleton.mp h)]
  guarded h := Action.guardAll_singleton.mpr (hguard h)

theorem Follows.eq_of_run {script : List τ} {b : α} {s : σ} {ops : List ε}
    (h : Follows A p script a) (hrun : p.run s = (ops, .ok b)) : ops = A.opsAll s script ∧ b = a := by
  rw [h.run s (h.guarded hrun), Prod.mk.injEq, Except.ok.injEq] at hrun
  exact ⟨hrun.1.symm, hrun.2.symm⟩

theorem follows_bind {f : α → Prog σ ε err β} {xs ys : List τ} {b : β}
    (hp : Follows A p xs a) (hf : Follows A (f a) ys b) : Follows A (p >>= f) (xs ++ ys) b where
  run s h := by
    rw [Action.guardAll_append] at h
    rw [Prog.bind_ok (hp.run s h.1), hf.run _ h.2, Action.opsAll_append]
  guarded h := by
    obtain ⟨_, _, _, hfirst, hsecond, -⟩ := Prog.bind_eq_ok h
    obtain ⟨rfl, rfl⟩ := hp.eq_of_run hfirst
    exact Action.guardAll_append.mpr ⟨hp.guarded hfirst, hf.guarded hsecond⟩

theorem follows_lift_bind {x : Except err α} {f : α → Prog σ ε err β} {ys : List τ} {b : β} (hx : x = .ok a)
    (hf : Follows A (f a) ys b) : Follows A (Prog.lift x >>= f) ys b :=
  follows_bind (follows_lift hx) hf

end TickPlatform.Crash
