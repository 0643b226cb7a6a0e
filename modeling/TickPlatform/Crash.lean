import Mathlib.Data.List.Basic
import Mathlib.Tactic.Common

/-!
# Programs over a device that can crash

A program reads a device, emits operations on it and ends in a value or an error. A crash stops it
after any number of its operations, or inside one.
-/

namespace TickPlatform.Crash

/-- A device with state `σ` and operations `ε`. A crash inside an operation leaves a torn state. -/
class Device (σ : Type) (ε : outParam Type) where
  run : ε → σ → σ
  torn : ε → σ → σ → Prop

section
variable {σ ε : Type} [Device σ ε]

def runAll (ops : List ε) (s : σ) : σ := ops.foldl (fun s op => Device.run op s) s

@[simp] theorem runAll_nil (s : σ) : runAll ([] : List ε) s = s := rfl

@[simp] theorem runAll_cons (op : ε) (ops : List ε) (s : σ) :
    runAll (op :: ops) s = runAll ops (Device.run op s) := rfl

@[simp] theorem runAll_append (ops ops' : List ε) (s : σ) : runAll (ops ++ ops') s = runAll ops' (runAll ops s) := by
  simp [runAll, List.foldl_append]

/-- The states in which a crash can leave the device while `ops` run on `s`. -/
inductive CrashAt : List ε → σ → σ → Prop
  | before (ops : List ε) (s : σ) : CrashAt ops s s
  | inside {op : ε} {ops : List ε} {s t : σ} : Device.torn op s t → CrashAt (op :: ops) s t
  | after {op : ε} {ops : List ε} {s t : σ} : CrashAt ops (Device.run op s) t → CrashAt (op :: ops) s t

variable {s t : σ}

theorem crashAt_nil : CrashAt ([] : List ε) s t ↔ t = s := by
  constructor
  · intro h
    cases h
    rfl
  · rintro rfl
    exact .before _ _

theorem crashAt_cons {op : ε} {ops : List ε} :
    CrashAt (op :: ops) s t ↔ t = s ∨ Device.torn op s t ∨ CrashAt ops (Device.run op s) t := by
  constructor
  · intro h
    cases h with
    | before => exact .inl rfl
    | inside h => exact .inr (.inl h)
    | after h => exact .inr (.inr h)
  · rintro (rfl | h | h)
    · exact .before _ _
    · exact .inside h
    · exact .after h

theorem crashAt_append {ops ops' : List ε} :
    CrashAt (ops ++ ops') s t ↔ CrashAt ops s t ∨ CrashAt ops' (runAll ops s) t := by
  induction ops generalizing s with
  | nil =>
    rw [List.nil_append, runAll_nil, crashAt_nil]
    constructor
    · exact .inr
    · rintro (rfl | h)
      · exact .before _ _
      · exact h
  | cons op ops ih => rw [List.cons_append, crashAt_cons, ih, crashAt_cons, runAll_cons, or_assoc, or_assoc]

theorem crashAt_runAll (ops : List ε) (s : σ) : CrashAt ops s (runAll ops s) := by
  induction ops generalizing s with
  | nil => exact .before _ _
  | cons op ops ih => exact .after (ih _)

theorem crashAt_take (ops : List ε) (k : Nat) (s : σ) : CrashAt ops s (runAll (ops.take k) s) := by
  rw [← List.take_append_drop k ops, crashAt_append, List.take_append_drop]
  exact .inl (crashAt_runAll _ _)

end

/-- The operations a program emits on a device, and how it ends. -/
structure Prog (σ ε err α : Type) where
  run : σ → List ε × Except err α

namespace Prog

variable {σ ε err α β : Type}

def read (f : σ → α) : Prog σ ε err α := ⟨fun s => ([], .ok (f s))⟩

def emit (op : ε) : Prog σ ε err Unit := ⟨fun _ => ([op], .ok ())⟩

def fail (e : err) : Prog σ ε err α := ⟨fun _ => ([], .error e)⟩

def lift (x : Except err α) : Prog σ ε err α := ⟨fun _ => ([], x)⟩

@[simp] theorem fail_run (e : err) (s : σ) : (fail e : Prog σ ε err α).run s = ([], .error e) := rfl

@[simp] theorem emit_run (op : ε) (s : σ) : (emit op : Prog σ ε err Unit).run s = ([op], .ok ()) := rfl

@[simp] theorem lift_run (x : Except err α) (s : σ) : (lift x : Prog σ ε err α).run s = ([], x) := rfl

/-- The second program sees the device as the first one left it. -/
def bind [Device σ ε] (p : Prog σ ε err α) (f : α → Prog σ ε err β) : Prog σ ε err β := ⟨fun s =>
  match p.run s with
  | (ops, .error e) => (ops, .error e)
  | (ops, .ok a) =>
    let (ops', r) := (f a).run (runAll ops s)
    (ops ++ ops', r)⟩

/-- Goes on with `h` where `p` ends in an error. -/
def handle [Device σ ε] (p : Prog σ ε err α) (h : err → Prog σ ε err α) : Prog σ ε err α := ⟨fun s =>
  match p.run s with
  | (ops, .error e) =>
    let (ops', r) := (h e).run (runAll ops s)
    (ops ++ ops', r)
  | (ops, .ok a) => (ops, .ok a)⟩

def mapError {err' : Type} (g : err → err') (p : Prog σ ε err α) : Prog σ ε err' α := ⟨fun s =>
  ((p.run s).1, (p.run s).2.mapError g)⟩

variable {a : α} {ops : List ε} {p : Prog σ ε err α}

theorem mapError_ok {err' : Type} (g : err → err') {s : σ}
    (h : p.run s = (ops, .ok a)) : (p.mapError g).run s = (ops, .ok a) := by
  simp only [mapError, h]
  rfl

theorem run_eq_ok {s : σ} (h : (p.run s).2.toOption = some a) : p.run s = ((p.run s).1, .ok a) := by
  rcases hrun : p.run s with ⟨ops, e | b⟩
  · rw [hrun] at h
    cases h
  · rw [hrun] at h
    rw [Option.some.inj h]

instance [Device σ ε] : Monad (Prog σ ε err) where
  pure a := ⟨fun _ => ([], .ok a)⟩
  bind := bind

variable [Device σ ε] {s : σ} {f : α → Prog σ ε err β}

@[simp] theorem pure_run (a : α) : (pure a : Prog σ ε err α).run s = ([], .ok a) := rfl

theorem bind_ok (h : p.run s = (ops, .ok a)) :
    (p >>= f).run s = (ops ++ ((f a).run (runAll ops s)).1, ((f a).run (runAll ops s)).2) := by
  show (bind p f).run s = _
  simp only [bind, h]

variable {e : err}

theorem bind_error (h : p.run s = (ops, .error e)) : (p >>= f).run s = (ops, .error e) := by
  show (bind p f).run s = _
  simp only [bind, h]

variable {b : β}

theorem bind_eq_ok (h : (p >>= f).run s = (ops, .ok b)) :
    ∃ ops₁ a ops₂, p.run s = (ops₁, .ok a) ∧ (f a).run (runAll ops₁ s) = (ops₂, .ok b) ∧
      ops = ops₁ ++ ops₂ := by
  cases hp : p.run s with
  | mk ops₁ r =>
    cases r with
    | error e =>
      rw [bind_error hp] at h
      cases h
    | ok a =>
      rw [bind_ok hp, Prod.mk.injEq] at h
      exact ⟨ops₁, a, _, rfl, Prod.ext rfl h.2, h.1.symm⟩

theorem bind_quiet (h : p.run s = ([], .ok a)) : (p >>= f).run s = (f a).run s := by
  rw [bind_ok h]
  rfl

@[simp] theorem read_bind (g : σ → α) : (read g >>= f).run s = (f (g s)).run s := bind_quiet rfl

@[simp] theorem pure_bind_run (a : α) : ((pure a : Prog σ ε err α) >>= f).run s = (f a).run s :=
  bind_quiet rfl

@[simp] theorem emit_bind (op : ε) (g : Unit → Prog σ ε err β) : ((emit op : Prog σ ε err Unit) >>= g).run s =
      (op :: ((g ()).run (Device.run op s)).1, ((g ()).run (Device.run op s)).2) :=
  bind_ok (p := emit op) rfl

theorem lift_bind_ok (a : α) : ((lift (.ok a) : Prog σ ε err α) >>= f).run s = (f a).run s :=
  bind_quiet rfl

theorem lift_bind_error (e : err) : ((lift (.error e) : Prog σ ε err α) >>= f).run s = ([], .error e) :=
  bind_error rfl

theorem lift_bind_eq_ok {x : Except err α} (h : (lift x >>= f).run s = (ops, .ok b)) :
    ∃ a, x = .ok a ∧ (f a).run s = (ops, .ok b) := by
  cases x with
  | error e =>
    rw [lift_bind_error] at h
    cases h
  | ok a => exact ⟨a, rfl, by rwa [lift_bind_ok] at h⟩

theorem emit_bind_eq_ok {op : ε} {g : Unit → Prog σ ε err β}
    (h : ((emit op : Prog σ ε err Unit) >>= g).run s = (ops, .ok b)) :
    ∃ ops', ops = op :: ops' ∧ (g ()).run (Device.run op s) = (ops', .ok b) := by
  rw [emit_bind, Prod.mk.injEq] at h
  exact ⟨_, h.1.symm, Prod.ext rfl h.2⟩

theorem handle_ok (g : err → Prog σ ε err α) (h : p.run s = (ops, .ok a)) : (p.handle g).run s = (ops, .ok a) := by
  simp only [handle, h]

theorem handle_error (g : err → Prog σ ε err α) (h : p.run s = ([], .error e)) : (p.handle g).run s = (g e).run s := by
  simp only [handle, h]
  rfl

theorem handle_fail (g : err → Prog σ ε err α)
    (h : p.run s = (ops, .error e)) (hg : ∀ t : σ, (g e).run t = ([], .error e)) :
    (p.handle g).run s = (ops, .error e) := by
  simp only [handle, h, hg, List.append_nil]

theorem ok_of_handle {g : err → Prog σ ε err α}
    (h : (p.handle g).run s = (ops, .ok a)) (hg : ∀ e t ops', (g e).run t ≠ (ops', .ok a)) : p.run s = (ops, .ok a) := by
  rcases hp : p.run s with ⟨ops₁, e | b⟩
  · simp only [handle, hp, Prod.mk.injEq] at h
    exact (hg e (runAll ops₁ s) _ (Prod.ext rfl h.2)).elim
  · rwa [handle_ok g hp] at h

/-- The device after a program has run to its end. -/
def final (p : Prog σ ε err α) (s : σ) : σ := runAll (p.run s).1 s

/-- The states in which a crash can leave the device while a program runs. -/
def CrashIn (p : Prog σ ε err α) (s t : σ) : Prop := CrashAt (p.run s).1 s t

end Prog

/-! ## A logic for programs that can crash -/

/-- Run from `s`, the program leaves `C` wherever it crashes, `Q` if it ends well and `E` if it ends in an error. -/
structure Meets [Device σ ε] (p : Prog σ ε err α) (s : σ) (C : σ → Prop) (Q : α → σ → Prop) (E : err → σ → Prop) :
    Prop where
  crash : ∀ t, p.CrashIn s t → C t
  ok : ∀ ops a, p.run s = (ops, .ok a) → Q a (runAll ops s)
  error : ∀ ops e, p.run s = (ops, .error e) → E e (runAll ops s)

section
variable {σ ε err α β : Type} [Device σ ε] {s : σ} {C : σ → Prop} {Q : α → σ → Prop} {E : err → σ → Prop}

variable {a : α} {p : Prog σ ε err α}

theorem meets_of_ok {ops : List ε} (hrun : p.run s = (ops, .ok a))
    (hC : ∀ t, CrashAt ops s t → C t) (hQ : Q a (runAll ops s)) : Meets p s C Q E where
  crash t h := hC t (by rw [Prog.CrashIn, hrun] at h; exact h)
  ok ops' a' h := by
    rw [hrun, Prod.mk.injEq, Except.ok.injEq] at h
    obtain ⟨rfl, rfl⟩ := h
    exact hQ
  error ops' e h := by
    rw [hrun] at h
    cases h

theorem meets_of_error {ops : List ε} {e : err} (hrun : p.run s = (ops, .error e))
    (hC : ∀ t, CrashAt ops s t → C t) (hE : E e (runAll ops s)) : Meets p s C Q E where
  crash t h := hC t (by rw [Prog.CrashIn, hrun] at h; exact h)
  ok ops' a h := by
    rw [hrun] at h
    cases h
  error ops' e' h := by
    rw [hrun, Prod.mk.injEq, Except.error.injEq] at h
    obtain ⟨rfl, rfl⟩ := h
    exact hE

theorem crashAt_nil_of {C : σ → Prop} (hC : C s) (t : σ) (h : CrashAt ([] : List ε) s t) : C t := by
  rw [crashAt_nil] at h
  rw [h]
  exact hC

theorem meets_pure (hC : C s) (hQ : Q a s) : Meets (pure a : Prog σ ε err α) s C Q E :=
  meets_of_ok rfl (crashAt_nil_of hC) hQ

theorem meets_fail {e : err} (hC : C s) (hE : E e s) : Meets (Prog.fail e : Prog σ ε err α) s C Q E :=
  meets_of_error rfl (crashAt_nil_of hC) hE

theorem meets_emit {op : ε} {Q : Unit → σ → Prop} (hC : C s) (htorn : ∀ t, Device.torn op s t → C t)
    (hC' : C (Device.run op s)) (hQ : Q () (Device.run op s)) :
    Meets (Prog.emit op : Prog σ ε err Unit) s C Q E := by
  refine meets_of_ok rfl (fun t h => ?_) hQ
  rw [crashAt_cons, crashAt_nil] at h
  rcases h with rfl | h | rfl
  · exact hC
  · exact htorn t h
  · exact hC'

variable {f : α → Prog σ ε err β}

theorem meets_bind {Q : β → σ → Prop}
    (h : Meets p s C (fun a t => Meets (f a) t C Q E) E) : Meets (p >>= f) s C Q E := by
  rcases hp : p.run s with ⟨ops, e | a⟩
  · exact meets_of_error (Prog.bind_error hp) (fun t ht => h.crash t (by rw [Prog.CrashIn, hp]; exact ht))
      (h.error ops e hp)
  · have hnext := h.ok ops a hp
    have hcrash : ∀ t, CrashAt (ops ++ ((f a).run (runAll ops s)).1) s t → C t := by
      intro t ht
      rw [crashAt_append] at ht
      rcases ht with ht | ht
      · exact h.crash t (by rw [Prog.CrashIn, hp]; exact ht)
      · exact hnext.crash t ht
    rcases hf : (f a).run (runAll ops s) with ⟨ops', e | b⟩
    · rw [hf] at hcrash
      have hrun : (p >>= f).run s = (ops ++ ops', .error e) := by rw [Prog.bind_ok hp, hf]
      refine meets_of_error hrun hcrash ?_
      rw [runAll_append]
      exact hnext.error ops' e hf
    · rw [hf] at hcrash
      have hrun : (p >>= f).run s = (ops ++ ops', .ok b) := by rw [Prog.bind_ok hp, hf]
      refine meets_of_ok hrun hcrash ?_
      rw [runAll_append]
      exact hnext.ok ops' b hf

theorem meets_read_bind {g : σ → α} {Q : β → σ → Prop}
    (h : Meets (f (g s)) s C Q E) : Meets (Prog.read g >>= f) s C Q E where
  crash t ht := h.crash t (by rw [Prog.CrashIn, Prog.read_bind] at ht; exact ht)
  ok ops b hrun := h.ok ops b (by rw [Prog.read_bind] at hrun; exact hrun)
  error ops e hrun := h.error ops e (by rw [Prog.read_bind] at hrun; exact hrun)

variable {x : Except err α}

theorem meets_lift_bind {Q : β → σ → Prop}
    (hC : C s) (hE : ∀ e, x = .error e → E e s) (h : ∀ a, x = .ok a → Meets (f a) s C Q E) :
    Meets (Prog.lift x >>= f) s C Q E := by
  cases x with
  | error e => exact meets_of_error (Prog.lift_bind_error e) (crashAt_nil_of hC) (hE e rfl)
  | ok a => exact meets_bind (meets_of_ok rfl (crashAt_nil_of hC) (h a rfl))

theorem meets_ok_bind {Q : β → σ → Prop} (hx : x = .ok a)
    (h : Meets (f a) s C Q E) : Meets (Prog.lift x >>= f) s C Q E where
  crash t ht := h.crash t (by rw [hx, Prog.CrashIn, Prog.lift_bind_ok] at ht; exact ht)
  ok ops b hrun := h.ok ops b (by rw [hx, Prog.lift_bind_ok] at hrun; exact hrun)
  error ops e hrun := h.error ops e (by rw [hx, Prog.lift_bind_ok] at hrun; exact hrun)

theorem meets_lift (hC : C s) (hE : ∀ e, x = .error e → E e s) (hQ : ∀ a, x = .ok a → Q a s) :
    Meets (Prog.lift x) s C Q E := by
  cases x with
  | error e => exact meets_of_error rfl (crashAt_nil_of hC) (hE e rfl)
  | ok a => exact meets_of_ok rfl (crashAt_nil_of hC) (hQ a rfl)

theorem meets_mapError {err' : Type} {g : err' → err} {p : Prog σ ε err' α}
    (h : Meets p s C Q fun e => E (g e)) : Meets (p.mapError g) s C Q E := by
  rcases hp : p.run s with ⟨ops, e | a⟩
  · have hrun : (p.mapError g).run s = (ops, .error (g e)) := by
      simp only [Prog.mapError, hp]
      rfl
    exact meets_of_error hrun (fun t ht => h.crash t (by rw [Prog.CrashIn, hp]; exact ht)) (h.error ops e hp)
  · exact meets_of_ok (Prog.mapError_ok g hp) (fun t ht => h.crash t (by rw [Prog.CrashIn, hp]; exact ht))
      (h.ok ops a hp)

theorem meets_congr {p' : Prog σ ε err α} (hrun : p.run s = p'.run s) (h : Meets p' s C Q E) : Meets p s C Q E where
  crash t ht := h.crash t (by rw [Prog.CrashIn, hrun] at ht; exact ht)
  ok ops a hok := h.ok ops a (hrun ▸ hok)
  error ops e herror := h.error ops e (hrun ▸ herror)

theorem Meets.run_ok (h : Meets p s C Q fun _ _ => False) : ∃ ops a, p.run s = (ops, .ok a) ∧ Q a (runAll ops s) := by
  rcases hrun : p.run s with ⟨ops, e | a⟩
  · exact (h.error ops e hrun).elim
  · exact ⟨ops, a, rfl, h.ok ops a hrun⟩

theorem Meets.mono {C' : σ → Prop} {Q' : α → σ → Prop} {E' : err → σ → Prop}
    (h : Meets p s C Q E) (hC : ∀ t, C t → C' t) (hQ : ∀ a t, Q a t → Q' a t) (hE : ∀ e t, E e t → E' e t) :
    Meets p s C' Q' E' where
  crash t ht := hC t (h.crash t ht)
  ok ops a hrun := hQ a _ (h.ok ops a hrun)
  error ops e hrun := hE e _ (h.error ops e hrun)

end

end TickPlatform.Crash
