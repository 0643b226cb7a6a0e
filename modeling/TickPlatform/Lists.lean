import Mathlib.Data.List.Chain
import Mathlib.Data.List.Infix
import Mathlib.Data.List.Sort

/-!
# Filters of ordered lists

A predicate that fails from some place on keeps a prefix, one that holds from some place on keeps a suffix, and what
lies between two bounds of an ordered list is a stretch of it.
-/

namespace TickPlatform.Lists

variable {α β : Type} {l : List α} {p q : α → Bool}

theorem takeWhile_eq_filter (h : l.Pairwise fun x y => p y = true → p x = true) : l.takeWhile p = l.filter p := by
  induction l with
  | nil => rfl
  | cons x l ih =>
    rw [List.pairwise_cons] at h
    cases hx : p x with
    | true => rw [List.takeWhile_cons_of_pos hx, List.filter_cons_of_pos hx, ih h.2]
    | false =>
      rw [List.takeWhile_cons_of_neg (by simp [hx]), List.filter_cons_of_neg (by simp [hx]), eq_comm,
        List.filter_eq_nil_iff]
      intro y hy hp
      rw [h.1 y hy hp] at hx
      cases hx

theorem filter_isPrefix (h : l.Pairwise fun x y => p y = true → p x = true) : l.filter p <+: l := by
  rw [← takeWhile_eq_filter h]
  exact List.takeWhile_prefix p

theorem filter_isSuffix (h : l.Pairwise fun x y => p x = true → p y = true) : l.filter p <:+ l := by
  induction l with
  | nil => exact List.suffix_rfl
  | cons x l ih =>
    rw [List.pairwise_cons] at h
    cases hx : p x with
    | true =>
      have hall : l.filter p = l := List.filter_eq_self.mpr fun y hy => h.1 y hy hx
      rw [List.filter_cons_of_pos hx, hall]
    | false =>
      rw [List.filter_cons_of_neg (by simp [hx])]
      exact (ih h.2).trans (List.suffix_cons x l)

theorem filter_isInfix (hp : l.Pairwise fun x y => p x = true → p y = true)
    (hq : l.Pairwise fun x y => q y = true → q x = true) : l.filter (fun x => p x && q x) <:+: l := by
  rw [← List.filter_filter]
  have hfront := filter_isPrefix hq
  exact (filter_isSuffix (hp.sublist hfront.sublist)).isInfix.trans hfront.isInfix

variable {f : α → List β}

theorem filter_flatMap_filter {q : β → Bool} (h : ∀ x ∈ l, p x = false → (f x).filter q = []) :
    ((l.filter p).flatMap f).filter q = (l.flatMap f).filter q := by
  induction l with
  | nil => rfl
  | cons x l ih =>
    rw [List.forall_mem_cons] at h
    cases hx : p x with
    | true => simp only [List.filter_cons_of_pos hx, List.flatMap_cons, List.filter_append, ih h.2]
    | false =>
      rw [List.filter_cons_of_neg (by simp [hx]), List.flatMap_cons, List.filter_append, h.1 hx, List.nil_append, ih h.2]

theorem flatMap_filter_of_nil (h : ∀ x ∈ l, p x = false → f x = []) : (l.filter p).flatMap f = l.flatMap f := by
  induction l with
  | nil => rfl
  | cons x l ih =>
    rw [List.forall_mem_cons] at h
    cases hx : p x with
    | true => rw [List.filter_cons_of_pos hx, List.flatMap_cons, List.flatMap_cons, ih h.2]
    | false => rw [List.filter_cons_of_neg (by simp [hx]), List.flatMap_cons, h.1 hx, List.nil_append, ih h.2]

theorem filterMap_filter_of {f : α → Option β} (h : ∀ x ∈ l, ∀ y, f x = some y → p x = true) :
    (l.filter p).filterMap f = l.filterMap f := by
  induction l with
  | nil => rfl
  | cons x l ih =>
    rw [List.forall_mem_cons] at h
    cases hx : p x with
    | true => rw [List.filter_cons_of_pos hx, List.filterMap_cons, List.filterMap_cons, ih h.2]
    | false =>
      have hnone : f x = none := by
        cases hf : f x with
        | none => rfl
        | some y =>
          rw [h.1 y hf] at hx
          cases hx
      rw [List.filter_cons_of_neg (by simp [hx]), List.filterMap_cons_none hnone, ih h.2]

theorem flatMap_filterMap {γ : Type} (f : α → Option β) (g : β → List γ) (l : List α) :
    (l.filterMap f).flatMap g = l.flatMap fun x => (f x).elim [] g := by
  induction l with
  | nil => rfl
  | cons x l ih => cases hx : f x <;> simp [hx, ih]

theorem filter_flatMap_of_mem {q : β → Bool} {x : α} (hx : x ∈ l) (hnodup : l.Nodup)
    (hown : ∀ b ∈ f x, q b = true) (hother : ∀ y ∈ l, y ≠ x → ∀ b ∈ f y, q b = false) :
    (l.flatMap f).filter q = f x := by
  obtain ⟨front, back, rfl⟩ := List.append_of_mem hx
  rw [List.nodup_append, List.nodup_cons] at hnodup
  have hnone : ∀ part : List α, (∀ y ∈ part, y ∈ front ++ x :: back ∧ y ≠ x) → (part.flatMap f).filter q = [] := by
    intro part hpart
    rw [List.filter_eq_nil_iff]
    intro b hb
    obtain ⟨y, hy, hb⟩ := List.mem_flatMap.mp hb
    simp [hother y (hpart y hy).1 (hpart y hy).2 b hb]
  have hfront := hnone front fun y hy =>
    ⟨List.mem_append_left _ hy, fun heq => hnodup.2.2 y hy x List.mem_cons_self heq⟩
  have hback := hnone back fun y hy =>
    ⟨List.mem_append_right _ (List.mem_cons_of_mem _ hy), fun heq => hnodup.2.1.1 (heq ▸ hy)⟩
  rw [List.flatMap_append, List.flatMap_cons, List.filter_append, List.filter_append, hfront, hback, List.nil_append,
    List.append_nil, List.filter_eq_self.mpr hown]

theorem lookup_of_mem [BEq α] [LawfulBEq α] {members : List (α × β)} (hkeys : (members.map (·.1)).Nodup) {key : α} {value : β}
    (hmem : (key, value) ∈ members) : members.lookup key = some value := by
  obtain ⟨front, back, rfl⟩ := List.append_of_mem hmem
  refine List.lookup_eq_some_iff.mpr ⟨front, back, rfl, fun member hmember => ?_⟩
  rw [List.map_append, List.nodup_append] at hkeys
  have hne := hkeys.2.2 member.1 (List.mem_map_of_mem hmember) key (by simp)
  simpa [bne_iff_ne] using Ne.symm hne

theorem pairwise_orderedInsert_of {r s : α → α → Prop} [DecidableRel r] [IsTrans α s] {a : α} (hsorted : l.Pairwise s)
    (h : ∀ b ∈ l, (r a b → s a b) ∧ (¬ r a b → s b a)) : (l.orderedInsert r a).Pairwise s := by
  induction l with
  | nil => exact List.pairwise_singleton s a
  | cons b l ih =>
    rw [List.pairwise_cons] at hsorted
    rw [List.forall_mem_cons] at h
    rw [List.orderedInsert]
    split
    · next hr =>
      refine List.pairwise_cons.mpr ⟨List.forall_mem_cons.mpr ⟨h.1.1 hr, fun c hc => ?_⟩, List.pairwise_cons.mpr hsorted⟩
      exact IsTrans.trans _ _ _ (h.1.1 hr) (hsorted.1 c hc)
    · next hr =>
      refine List.pairwise_cons.mpr ⟨fun c hc => ?_, ih hsorted.2 h.2⟩
      rcases (List.mem_orderedInsert r).mp hc with rfl | hc
      · exact h.1.2 hr
      · exact hsorted.1 c hc

theorem pairwise_insertionSort_of {r s : α → α → Prop} [DecidableRel r] [IsTrans α s]
    (h : ∀ a ∈ l, ∀ b ∈ l, (r a b → s a b) ∧ (¬ r a b → s b a)) : (l.insertionSort r).Pairwise s := by
  induction l with
  | nil => exact List.Pairwise.nil
  | cons a l ih =>
    rw [List.insertionSort_cons]
    refine pairwise_orderedInsert_of (ih fun b hb c hc => ?_) fun b hb => ?_
    · exact h b (List.mem_cons_of_mem _ hb) c (List.mem_cons_of_mem _ hc)
    · exact h a List.mem_cons_self b (List.mem_cons_of_mem _ ((List.mem_insertionSort r).mp hb))

theorem eq_of_perm_ascending {f : α → Nat} {l' : List α} (hperm : l.Perm l') (hsorted : l.Pairwise fun x y => f x ≤ f y)
    (hascending : l'.Pairwise fun x y => f x < f y) : l = l' := by
  have hnodup : (l'.map f).Nodup := List.pairwise_map.mpr (hascending.imp Nat.ne_of_lt)
  refine hperm.eq_of_pairwise (fun x y hx hy hxy hyx => ?_) hsorted (hascending.imp Nat.le_of_lt)
  exact List.inj_on_of_nodup_map hnodup (hperm.mem_iff.mp hx) hy (Nat.le_antisymm hxy hyx)

theorem head_le {f : α → Nat} (h : l.Pairwise fun x y => f x < f y) {first : α} (hfirst : first ∈ l.head?) :
    ∀ x ∈ l, f first ≤ f x := by
  cases l with
  | nil => simp
  | cons x l =>
    obtain rfl : x = first := by simpa using hfirst
    rw [List.pairwise_cons] at h
    exact List.forall_mem_cons.mpr ⟨le_refl _, fun y hy => (h.1 y hy).le⟩

theorem le_getLast {f : α → Nat} (h : l.Pairwise fun x y => f x < f y) {last : α} (hlast : last ∈ l.getLast?) :
    ∀ x ∈ l, f x ≤ f last := by
  rw [← List.head?_reverse] at hlast
  have hreverse : l.reverse.Pairwise fun x y => f y < f x := List.pairwise_reverse.mpr h
  cases hcase : l.reverse with
  | nil => simp [List.reverse_eq_nil_iff.mp hcase]
  | cons x back =>
    rw [hcase] at hlast hreverse
    obtain rfl : x = last := by simpa using hlast
    rw [List.pairwise_cons] at hreverse
    intro y hy
    rw [← List.mem_reverse, hcase] at hy
    rcases List.mem_cons.mp hy with rfl | hy
    · exact le_refl _
    · exact (hreverse.1 y hy).le

end TickPlatform.Lists
