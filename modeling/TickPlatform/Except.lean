import Mathlib.Algebra.Ring.Nat
import Mathlib.Data.List.Chain
import Mathlib.Data.List.Forall2
import Mathlib.Tactic.Common

/-!
# Fallible code

Inversion of the `Except` programs that transcribe checks and loops which return early.
-/

namespace TickPlatform

variable {ε α β σ : Type}

variable {x : Except ε α}

theorem bind_eq_ok {f : α → Except ε β} {b : β} : (x >>= f) = .ok b ↔ ∃ a, x = .ok a ∧ f a = .ok b := by
  cases x with
  | error err => simp [bind, Except.bind]
  | ok a => simp [bind, Except.bind]

theorem bind_eq_error {f : α → Except ε β} {err : ε} :
    (x >>= f) = .error err ↔ x = .error err ∨ ∃ a, x = .ok a ∧ f a = .error err := by
  cases x with
  | error found => simp [bind, Except.bind]
  | ok a => simp [bind, Except.bind]

/-- A check gives nothing back. -/
theorem exists_unit {P : Unit → Prop} : (∃ u, P u) ↔ P () :=
  ⟨fun ⟨_, h⟩ => h, fun h => ⟨(), h⟩⟩

variable {a : α}

theorem pure_eq_ok {b : α} : (pure a : Except ε α) = .ok b ↔ a = b := by
  simp [pure, Except.pure]

theorem mapError_eq_ok {ε' : Type} {f : ε → ε'} : x.mapError f = .ok a ↔ x = .ok a := by
  cases x <;> simp [Except.mapError]

theorem toOption_eq_some : x.toOption = some a ↔ x = .ok a := by
  cases x <;> simp [Except.toOption]

theorem elim_eq_ok {x : Option α} {err : ε} : x.elim (.error err) .ok = (.ok a : Except ε α) ↔ x = some a := by
  cases x <;> simp

theorem exists_ok_of_any {p : α → Bool} (h : x.toOption.any p = true) : ∃ a, x = .ok a ∧ p a = true := by
  cases x with
  | error err => simp [Except.toOption] at h
  | ok a => exact ⟨a, rfl, by simpa [Except.toOption] using h⟩

theorem ite_error_eq_ok {bad : Prop} [Decidable bad] {err : ε} :
    (if bad then .error err else x) = .ok a ↔ ¬ bad ∧ x = .ok a := by
  split <;> simp_all

/-- `if bad { return err }`. -/
def reject (bad : Prop) [Decidable bad] (err : ε) : Except ε Unit :=
  if bad then .error err else .ok ()

@[simp] theorem reject_eq_ok {bad : Prop} [Decidable bad] {err : ε} {u : Unit} : reject bad err = .ok u ↔ ¬ bad := by
  unfold reject
  split <;> simp_all

theorem reject_eq_error {bad : Prop} [Decidable bad] {err found : ε} :
    reject bad err = .error found ↔ bad ∧ err = found := by
  unfold reject
  split <;> simp_all

theorem forall_mem_nil_iff {P : α → Prop} : (∀ a ∈ ([] : List α), P a) ↔ True := by
  simp

/-- A loop that returns at the first element that fails its check. -/
def each (check : α → Except ε Unit) : List α → Except ε Unit
  | [] => .ok ()
  | a :: rest => do
    check a
    each check rest

variable {l : List α}

theorem each_eq_ok {check : α → Except ε Unit} {u : Unit} : each check l = .ok u ↔ ∀ a ∈ l, check a = .ok () := by
  induction l with
  | nil => simp [each]
  | cons a rest ih =>
    simp only [each, bind_eq_ok, ih, List.forall_mem_cons, exists_unit]

variable {f : σ → α → Except ε σ} {s t : σ}

theorem foldlM_cons_eq_ok : (a :: l).foldlM f s = .ok t ↔ ∃ mid, f s a = .ok mid ∧ l.foldlM f mid = .ok t := by
  rw [List.foldlM_cons, bind_eq_ok]

theorem foldlM_nil_eq_ok : ([] : List α).foldlM f s = .ok t ↔ s = t := by
  rw [List.foldlM_nil, pure_eq_ok]

theorem foldlM_keeps {P : σ → Prop}
    (hstep : ∀ a ∈ l, ∀ s t, P s → f s a = .ok t → P t) (hs : P s) (h : l.foldlM f s = .ok t) : P t := by
  induction l generalizing s with
  | nil =>
    rw [foldlM_nil_eq_ok] at h
    exact h ▸ hs
  | cons a l ih =>
    obtain ⟨mid, hfirst, hrest⟩ := foldlM_cons_eq_ok.mp h
    apply ih (fun b hb => hstep b (List.mem_cons_of_mem a hb)) ?_ hrest
    exact hstep a (List.mem_cons_self) s mid hs hfirst

theorem foldlM_succeeds {P : σ → Prop} (hs : P s)
    (hstep : ∀ a ∈ l, ∀ s, P s → ∃ t, f s a = .ok t ∧ P t) : ∃ t, l.foldlM f s = .ok t ∧ P t := by
  induction l generalizing s with
  | nil => exact ⟨s, foldlM_nil_eq_ok.mpr rfl, hs⟩
  | cons a l ih =>
    rw [List.forall_mem_cons] at hstep
    obtain ⟨mid, hfirst, hmid⟩ := hstep.1 s hs
    obtain ⟨t, hrest, ht⟩ := ih hmid hstep.2
    exact ⟨t, foldlM_cons_eq_ok.mpr ⟨mid, hfirst, hrest⟩, ht⟩

theorem foldlM_of_step {ε' : Type} {g : σ → α → Except ε' σ}
    (hstep : ∀ s a t, f s a = .ok t → g s a = .ok t) (h : l.foldlM f s = .ok t) :
    l.foldlM g s = .ok t := by
  induction l generalizing s with
  | nil =>
    rw [foldlM_nil_eq_ok] at h ⊢
    exact h
  | cons a l ih =>
    obtain ⟨mid, hfirst, hrest⟩ := foldlM_cons_eq_ok.mp h
    exact foldlM_cons_eq_ok.mpr ⟨mid, hstep s a mid hfirst, ih hrest⟩

variable {m : List β}

theorem mapM_eq_ok {f : α → Except ε β} : l.mapM f = .ok m ↔ List.Forall₂ (fun a b => f a = .ok b) l m := by
  induction l generalizing m with
  | nil => rw [List.mapM_nil, pure_eq_ok, List.forall₂_nil_left_iff, eq_comm]
  | cons a l ih =>
    rw [List.mapM_cons, bind_eq_ok, List.forall₂_cons_left_iff]
    constructor
    · rintro ⟨b, hb, h⟩
      obtain ⟨rest, hrest, h⟩ := bind_eq_ok.mp h
      exact ⟨b, rest, hb, ih.mp hrest, (pure_eq_ok.mp h).symm⟩
    · rintro ⟨b, rest, hb, hrest, rfl⟩
      exact ⟨b, hb, bind_eq_ok.mpr ⟨rest, ih.mpr hrest, rfl⟩⟩

theorem exists_forall₂ {R : α → β → Prop} (h : ∀ a ∈ l, ∃ b, R a b) : ∃ m, List.Forall₂ R l m := by
  induction l with
  | nil => exact ⟨[], .nil⟩
  | cons a l ih =>
    obtain ⟨b, hb⟩ := h a List.mem_cons_self
    obtain ⟨m, hm⟩ := ih fun c hc => h c (List.mem_cons_of_mem _ hc)
    exact ⟨b :: m, .cons hb hm⟩

/-! ## Loops over a chain -/

variable {result : List β}

/-- A loop that makes one thing of every element, the last of them first, looks for it among all it made before and
compares it with the one before. -/
theorem foldlM_linked {f : List β → α → Except ε (List β)} {Item : α → β → Prop} {Apart Link : β → β → Prop}
    (hf : ∀ seen a next, f seen a = .ok next ↔
      ∃ b, Item a b ∧ (∀ p ∈ seen, Apart p b) ∧ (∀ p ∈ seen.head?, Link p b) ∧ next = b :: seen) {seen : List β} :
    l.foldlM f seen = .ok result ↔
      ∃ made, List.Forall₂ Item l made ∧ (∀ p ∈ seen, ∀ b ∈ made, Apart p b) ∧ made.Pairwise Apart ∧
        (∀ p ∈ seen.head?, ∀ b ∈ made.head?, Link p b) ∧ made.IsChain Link ∧ result = made.reverse ++ seen := by
  induction l generalizing seen with
  | nil =>
    rw [foldlM_nil_eq_ok]
    constructor
    · rintro rfl
      exact ⟨[], .nil, by simp⟩
    · rintro ⟨_, ⟨⟩, -, -, -, -, rfl⟩
      rfl
  | cons a l ih =>
    simp only [foldlM_cons_eq_ok, hf, ih]
    constructor
    · rintro ⟨_, ⟨b, hitem, hapart, hlink, rfl⟩, made, hmade, hrest, hpairs, hhead, hchain, rfl⟩
      rw [List.forall_mem_cons] at hrest
      refine ⟨b :: made, .cons hitem hmade, ?_, List.pairwise_cons.mpr ⟨hrest.1, hpairs⟩, by simpa using hlink,
        List.isChain_cons.mpr ⟨by simpa using hhead, hchain⟩, by simp⟩
      intro p hp
      exact List.forall_mem_cons.mpr ⟨hapart p hp, hrest.2 p hp⟩
    · rintro ⟨_, hmade, hapart, hpairs, hlink, hchain, rfl⟩
      cases hmade with
      | @cons _ b _ made hitem hmade =>
        rw [List.pairwise_cons] at hpairs
        rw [List.isChain_cons] at hchain
        refine ⟨b :: seen, ⟨b, hitem, fun p hp => hapart p hp b List.mem_cons_self, by simpa using hlink, rfl⟩, made, hmade,
          ?_, hpairs.2, by simpa using hchain.1, hchain.2, by simp⟩
        rw [List.forall_mem_cons]
        exact ⟨hpairs.1, fun p hp c hc => hapart p hp c (List.mem_cons_of_mem _ hc)⟩

theorem foldlM_linked_nil {f : List β → α → Except ε (List β)} {Item : α → β → Prop} {Apart Link : β → β → Prop}
    (hf : ∀ seen a next, f seen a = .ok next ↔
      ∃ b, Item a b ∧ (∀ p ∈ seen, Apart p b) ∧ (∀ p ∈ seen.head?, Link p b) ∧ next = b :: seen) :
    l.foldlM f [] = .ok result ↔
      ∃ made, List.Forall₂ Item l made ∧ made.Pairwise Apart ∧ made.IsChain Link ∧ result = made.reverse := by
  rw [foldlM_linked hf]
  simp

theorem foldlM_made {f : List β → α → Except ε (List β)} {Item : α → β → Prop}
    (hf : ∀ seen a next, f seen a = .ok next → ∃ b, Item a b ∧ next = seen ++ [b]) {seen : List β}
    (h : l.foldlM f seen = .ok result) : ∃ made, List.Forall₂ Item l made ∧ result = seen ++ made := by
  induction l generalizing seen with
  | nil =>
    rw [foldlM_nil_eq_ok] at h
    exact ⟨[], .nil, by rw [h, List.append_nil]⟩
  | cons a l ih =>
    obtain ⟨mid, hfirst, hrest⟩ := foldlM_cons_eq_ok.mp h
    obtain ⟨b, hitem, rfl⟩ := hf seen a mid hfirst
    obtain ⟨made, hmade, rfl⟩ := ih hrest
    exact ⟨b :: made, .cons hitem hmade, by rw [List.append_assoc, List.singleton_append]⟩

/-! ## Bounded collections -/

theorem exists_right_of_mem {R : α → β → Prop} (h : List.Forall₂ R l m) (ha : a ∈ l) : ∃ b ∈ m, R a b := by
  induction h with
  | nil => cases ha
  | @cons c b l m hcb _ ih =>
    rcases List.mem_cons.mp ha with rfl | ha
    · exact ⟨b, List.mem_cons_self, hcb⟩
    · obtain ⟨b', hb', hr⟩ := ih ha
      exact ⟨b', List.mem_cons_of_mem _ hb', hr⟩

theorem exists_left_of_mem {R : α → β → Prop} (h : List.Forall₂ R l m) {b : β} (hb : b ∈ m) : ∃ a ∈ l, R a b := by
  induction h with
  | nil => cases hb
  | @cons a c l m hac _ ih =>
    rcases List.mem_cons.mp hb with rfl | hb
    · exact ⟨a, List.mem_cons_self, hac⟩
    · obtain ⟨a', ha', hr⟩ := ih hb
      exact ⟨a', List.mem_cons_of_mem _ ha', hr⟩

/-- One round of a loop that collects what it makes of each element, within a limit on their number and one on
their total size. -/
def collect (maxObjects maxBytes : Nat) (objectError : ε) (byteError : α → ε) (size : α → Nat)
    (make : α → Except ε β) (found : List β × Nat) (a : α) : Except ε (List β × Nat) := do
  reject (found.1.length ≥ maxObjects) objectError
  reject (size a > maxBytes - found.2) (byteError a)
  let made ← make a
  return (found.1 ++ [made], found.2 + size a)

section
variable {maxObjects maxBytes : Nat} {objectError : ε} {byteError : α → ε} {size : α → Nat} {make : α → Except ε β}

theorem collect_eq_ok {found next : List β × Nat} {a : α} :
    collect maxObjects maxBytes objectError byteError size make found a = .ok next ↔
      found.1.length < maxObjects ∧ size a ≤ maxBytes - found.2 ∧
        ∃ made, make a = .ok made ∧ next = (found.1 ++ [made], found.2 + size a) := by
  simp only [collect, bind_eq_ok, pure_eq_ok, reject_eq_ok, ge_iff_le, gt_iff_lt, Nat.not_le, Nat.not_lt, exists_unit,
    eq_comm (a := next)]

theorem collect_from {l : List α} {start : List β} {used : Nat} {result : List β × Nat}
    (hobjects : start.length ≤ maxObjects) (hused : used ≤ maxBytes) :
    l.foldlM (collect maxObjects maxBytes objectError byteError size make) (start, used) = .ok result ↔
      start.length + l.length ≤ maxObjects ∧ used + (l.map size).sum ≤ maxBytes ∧
        ∃ made, List.Forall₂ (fun a b => make a = .ok b) l made ∧
          result = (start ++ made, used + (l.map size).sum) := by
  induction l generalizing start used with
  | nil =>
    rw [foldlM_nil_eq_ok]
    simp only [List.length_nil, List.map_nil, List.sum_nil, Nat.add_zero, List.forall₂_nil_left_iff,
      exists_eq_left, List.append_nil]
    constructor
    · rintro rfl
      exact ⟨hobjects, hused, rfl⟩
    · rintro ⟨-, -, rfl⟩
      rfl
  | cons a l ih =>
    simp only [foldlM_cons_eq_ok, collect_eq_ok, List.length_cons, List.map_cons, List.sum_cons,
      List.forall₂_cons_left_iff]
    constructor
    · rintro ⟨_, ⟨hcount, hsize, first, hfirst, rfl⟩, hrest⟩
      have hused' : used + size a ≤ maxBytes := by omega
      rw [ih (by simp; omega) hused'] at hrest
      obtain ⟨hcount', hsum, made, hmade, rfl⟩ := hrest
      rw [List.length_append, List.length_singleton] at hcount'
      refine ⟨by omega, by omega, first :: made, ⟨first, made, hfirst, hmade, rfl⟩, ?_⟩
      simp [Nat.add_assoc]
    · rintro ⟨hcount, hsum, _, ⟨first, made, hfirst, hmade, rfl⟩, rfl⟩
      refine ⟨_, ⟨by omega, by omega, first, hfirst, rfl⟩, ?_⟩
      rw [ih (by simp; omega) (by omega)]
      refine ⟨by simp; omega, by omega, made, hmade, ?_⟩
      simp [Nat.add_assoc]

theorem collect_all {l : List α} {result : List β × Nat} :
    l.foldlM (collect maxObjects maxBytes objectError byteError size make) ([], 0) = .ok result ↔
      l.length ≤ maxObjects ∧ (l.map size).sum ≤ maxBytes ∧
        List.Forall₂ (fun a b => make a = .ok b) l result.1 ∧ result.2 = (l.map size).sum := by
  rw [collect_from (Nat.zero_le _) (Nat.zero_le _)]
  simp only [List.length_nil, Nat.zero_add, List.nil_append]
  constructor
  · rintro ⟨hcount, hsum, made, hmade, rfl⟩
    exact ⟨hcount, hsum, hmade, rfl⟩
  · rintro ⟨hcount, hsum, hmade, htotal⟩
    exact ⟨hcount, hsum, result.1, hmade, by rw [← htotal]⟩

end

end TickPlatform
