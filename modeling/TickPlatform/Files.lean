import Mathlib.Data.List.AList
import Mathlib.Data.List.Sort
import TickPlatform.Crash

/-!
# A file tree that can crash

Files under names `ν` with contents `κ`. A folder is a family of names; its listing comes in the order of
the family, so it depends on nothing but what the names hold.
-/

namespace TickPlatform.Files

open TickPlatform.Crash

variable {ν κ α : Type} [DecidableEq ν]

abbrev Tree (ν κ : Type) := AList fun _ : ν => κ

inductive FileOp (ν κ : Type)
  /-- A file created and written. -/
  | write (name : ν) (content : κ)
  /-- A second name for a file; the program has seen that the name is free. -/
  | link (source target : ν)
  | rename (source target : ν)
  | remove (name : ν)

/-- A crash inside a write leaves any content; the other operations are atomic. -/
instance : Device (Tree ν κ) (FileOp ν κ) where
  run
    | .write name content, t => t.insert name content
    | .link source target, t => ((t.lookup source).map fun content => t.insert target content).getD t
    | .rename source target, t =>
      ((t.lookup source).map fun content => (t.erase source).insert target content).getD t
    | .remove name, t => t.erase name
  torn
    | .write name _, t, t' => ∃ content, t' = t.insert name content
    | _, _, _ => False

section
variable {t t' : Tree ν κ} {name source target : ν} {content : κ}

@[simp] theorem run_write : Device.run (.write name content) t = t.insert name content := rfl

@[simp] theorem run_remove : Device.run (.remove name : FileOp ν κ) t = t.erase name := rfl

theorem run_link (h : t.lookup source = some content) :
    Device.run (.link source target : FileOp ν κ) t = t.insert target content := by
  simp [Device.run, h]

theorem run_rename (h : t.lookup source = some content) :
    Device.run (.rename source target : FileOp ν κ) t = (t.erase source).insert target content := by
  simp [Device.run, h]

@[simp] theorem torn_write : Device.torn (.write name content) t t' ↔ ∃ part, t' = t.insert name part := Iff.rfl

@[simp] theorem torn_link : ¬ Device.torn (.link source target : FileOp ν κ) t t' := fun h => h

@[simp] theorem torn_rename : ¬ Device.torn (.rename source target : FileOp ν κ) t t' := fun h => h

@[simp] theorem torn_remove : ¬ Device.torn (.remove name : FileOp ν κ) t t' := fun h => h

end

theorem lookup_insert_of (t : Tree ν κ) (name other : ν) (content : κ) :
    (t.insert name content).lookup other = if other = name then some content else t.lookup other := by
  split
  · next h => rw [h, AList.lookup_insert]
  · next h => rw [AList.lookup_insert_ne h]

theorem lookup_erase_of (t : Tree ν κ) (name other : ν) :
    (t.erase name).lookup other = if other = name then none else t.lookup other := by
  split
  · next h => rw [h, AList.lookup_erase]
  · next h => rw [AList.lookup_erase_ne h]

/-! ## Folders -/

/-- A family of names, and the member a name belongs to. -/
structure Folder (ν α : Type) where
  place : α → ν
  pick : ν → Option α
  pick_iff : ∀ {name a}, pick name = some a ↔ name = place a

omit [DecidableEq ν] in
theorem Folder.place_inj (F : Folder ν α) {a b : α} : F.place a = F.place b ↔ a = b := by
  constructor
  · intro h
    have ha : F.pick (F.place a) = some a := F.pick_iff.mpr rfl
    have hb : F.pick (F.place a) = some b := F.pick_iff.mpr h
    rw [ha] at hb
    exact Option.some.inj hb
  · rintro rfl
    rfl

/-- The files of a folder, in the order of their names. -/
def Folder.list (F : Folder ν α) (le : α → α → Prop) [DecidableRel le] (t : Tree ν κ) : List (α × κ) :=
  (t.entries.filterMap fun file => (F.pick file.1).map fun a => (a, file.2)).insertionSort fun x y => le x.1 y.1

section
variable (F : Folder ν α) (le : α → α → Prop) [DecidableRel le] {t t' : Tree ν κ}

theorem Folder.mem_list {a : α} {content : κ} : (a, content) ∈ F.list le t ↔ t.lookup (F.place a) = some content := by
  rw [Folder.list, List.mem_insertionSort, List.mem_filterMap, ← Option.mem_def, AList.mem_lookup_iff]
  constructor
  · rintro ⟨⟨name, c⟩, hmem, hpick⟩
    rw [Option.map_eq_some_iff] at hpick
    obtain ⟨b, hb, hpair⟩ := hpick
    rw [Prod.mk.injEq] at hpair
    obtain ⟨rfl, rfl⟩ := hpair
    rw [F.pick_iff] at hb
    exact hb ▸ hmem
  · intro hmem
    exact ⟨_, hmem, by rw [F.pick_iff.mpr rfl]; rfl⟩

omit [DecidableEq ν] in
theorem Folder.nodup_list : ((F.list le t).map (·.1)).Nodup := by
  have hperm := ((t.entries.filterMap fun file => (F.pick file.1).map fun a => (a, file.2)).perm_insertionSort
    (fun x y => le x.1 y.1)).map (·.1)
  refine hperm.nodup_iff.mpr ?_
  rw [List.map_filterMap]
  have hkeys : (t.entries.filterMap fun file => ((F.pick file.1).map fun a => (a, file.2)).map (·.1)) =
      t.keys.filterMap F.pick := by
    rw [AList.keys, List.keys, List.filterMap_map]
    congr 1
    funext file
    rw [Option.map_map]
    exact Option.map_id'
  rw [hkeys]
  refine t.keys_nodup.filterMap ?_
  intro x y a hx hy
  rw [Option.mem_def, F.pick_iff] at hx hy
  rw [hx, hy]

variable [Std.Total le] [IsTrans α le]

omit [DecidableEq ν] in
theorem Folder.sorted_list : (F.list le t).Pairwise fun x y => le x.1 y.1 := by
  have : Std.Total fun x y : α × κ => le x.1 y.1 := ⟨fun x y => Std.Total.total x.1 y.1⟩
  have : IsTrans (α × κ) fun x y => le x.1 y.1 := ⟨fun x y z => IsTrans.trans x.1 y.1 z.1⟩
  exact List.pairwise_insertionSort _ _

variable [Std.Antisymm le]

theorem Folder.list_eq {l : List (α × κ)} (hsorted : l.Pairwise fun x y => le x.1 y.1) (hnodup : (l.map (·.1)).Nodup)
    (hmem : ∀ a content, (a, content) ∈ l ↔ t.lookup (F.place a) = some content) : F.list le t = l := by
  have hperm : (F.list le t).Perm l := by
    rw [List.perm_ext_iff_of_nodup (F.nodup_list le).of_map hnodup.of_map]
    rintro ⟨a, content⟩
    rw [F.mem_list, hmem]
  refine hperm.eq_of_pairwise ?_ (F.sorted_list le) hsorted
  intro x y hx hy hxy hyx
  have hkey : x.1 = y.1 := antisymm hxy hyx
  rw [hperm.mem_iff] at hx
  exact List.inj_on_of_nodup_map hnodup hx hy hkey

theorem Folder.list_congr (h : ∀ a, t.lookup (F.place a) = t'.lookup (F.place a)) : F.list le t = F.list le t' := by
  refine F.list_eq le (F.sorted_list le) (F.nodup_list le) fun a content => ?_
  rw [F.mem_list, h]

theorem Folder.list_insert_last {a : α} {content : κ} (h : ∀ b c, (b, c) ∈ F.list le t → le b a ∧ b ≠ a) :
    F.list le (t.insert (F.place a) content) = F.list le t ++ [(a, content)] := by
  refine F.list_eq le ?_ ?_ ?_
  · rw [List.pairwise_append]
    refine ⟨F.sorted_list le, List.pairwise_singleton _ _, ?_⟩
    rintro ⟨b, c⟩ hb x hx
    rw [List.mem_singleton.mp hx]
    exact (h b c hb).1
  · rw [List.map_append, List.nodup_append]
    refine ⟨F.nodup_list le, List.nodup_singleton _, ?_⟩
    intro b hb x hx
    obtain ⟨⟨_, c⟩, hmem, rfl⟩ := List.mem_map.mp hb
    rw [List.mem_singleton.mp hx]
    exact (h _ c hmem).2
  · intro b c
    rw [List.mem_append, F.mem_list, List.mem_singleton, Prod.mk.injEq, lookup_insert_of]
    by_cases hb : b = a
    · subst hb
      simp only [true_and, if_true, Option.some.injEq]
      constructor
      · rintro (hold | rfl)
        · exact absurd rfl (h b c ((F.mem_list le).mpr hold)).2
        · rfl
      · rintro rfl
        exact .inr rfl
    · simp [hb, F.place_inj]

theorem Folder.list_erase (a : α) [DecidableEq α] :
    F.list le (t.erase (F.place a)) = (F.list le t).filter fun file => file.1 ≠ a := by
  refine F.list_eq le ((F.sorted_list le).filter _) ?_ ?_
  · exact (F.nodup_list le).sublist (List.filter_sublist.map _)
  · intro b c
    rw [List.mem_filter, F.mem_list, lookup_erase_of]
    by_cases hb : b = a
    · simp [hb]
    · simp [hb, F.place_inj]

end

end TickPlatform.Files
