import TickPlatform.Wal.Seal

/-!
# The WAL as a list of entries

What a client of the WAL relies on: which entries a directory holds, which of them a store serves, and how each
call changes the list.
-/

namespace TickPlatform.Wal

open Bytes Protocol Crash

variable {H : Hashes} {gatewayID : Bytes} {anchor : Option PruneAnchor} {entries : List Entry}

/-- A directory at rest, with these entries after the anchor. -/
def Holds (H : Hashes) (gatewayID : Bytes) (anchor : Option PruneAnchor) (entries : List Entry) (d : Disk) : Prop :=
  ∃ l : Log H gatewayID, anchorPosition anchor = l.base ∧ l.entries = entries ∧ AtRest l d

/-- A store over its directory, with these entries after the anchor. -/
def Serves (H : Hashes) (gatewayID : Bytes) (anchor : Option PruneAnchor) (entries : List Entry) (s : Store)
    (d : Disk) : Prop :=
  ∃ l : Log H gatewayID, anchorPosition anchor = l.base ∧ l.entries = entries ∧ s = l.store ∧ d = l.disk

def prunedThrough (anchor : Option PruneAnchor) : UInt64 := (anchorPosition anchor).next - 1

/-- A directory in which a write may have left one entry more, of which `P` is known. -/
def MayHold (H : Hashes) (gatewayID : Bytes) (P : Entry → Prop) (anchor : Option PruneAnchor) (entries : List Entry)
    (d : Disk) : Prop :=
  Holds H gatewayID anchor entries d ∨ ∃ entry, P entry ∧ Holds H gatewayID anchor (entries ++ [entry]) d

/-- A store after a write has failed. -/
structure Poisoned (H : Hashes) (gatewayID : Bytes) (P : Entry → Prop) (anchor : Option PruneAnchor)
    (entries : List Entry) (s : Store) (d : Disk) : Prop where
  poisoned : s.poisoned = true
  entries_eq : s.entries = entries
  pruned_eq : s.prunedThrough = prunedThrough anchor
  mayHold : MayHold H gatewayID P anchor entries d

/-- The states of a store that a process has open. -/
def Open (H : Hashes) (gatewayID : Bytes) (P : Entry → Prop) (anchor : Option PruneAnchor) (entries : List Entry)
    (s : Store) (d : Disk) : Prop :=
  Serves H gatewayID anchor entries s d ∨ Poisoned H gatewayID P anchor entries s d

theorem holds_of_same {l : Log H gatewayID} (hbase : anchorPosition anchor = l.base) {d : Disk}
    (h : ∃ l', SameLog l l' ∧ AtRest l' d) : Holds H gatewayID anchor l.entries d := by
  obtain ⟨l', hsame, hrest⟩ := h
  exact ⟨l', hbase.trans hsame.base.symm, hsame.entries, hrest⟩

theorem holds_empty (hid : ValidID gatewayID) (ha : AnchorOk anchor) : Holds H gatewayID anchor [] ⟨none, []⟩ :=
  ⟨.fresh hid (anchorPosition anchor) (anchorPosition_next ha) 0, rfl, rfl, .missing _ rfl⟩

theorem chained_sound {p : Position} {offset : Nat} (h : Chained H p offset entries) :
    ∀ entry ∈ entries, entry.Sound H := by
  induction entries generalizing p offset with
  | nil => simp
  | cons first others ih =>
    obtain ⟨hsound, -, -, -, hrest⟩ := h
    intro entry hmem
    rcases List.mem_cons.mp hmem with rfl | hmem
    · exact hsound
    · exact ih hrest entry hmem

theorem sealedOk_sound {p : Position} {segs : List SegmentData} (h : SealedOk H gatewayID p segs) :
    ∀ entry ∈ sealedEntries segs, entry.Sound H := by
  induction segs generalizing p with
  | nil => simp [sealedEntries]
  | cons seg segs ih =>
    obtain ⟨hseg, hrest⟩ := h
    intro entry hmem
    rw [sealedEntries, List.flatMap_cons, List.mem_append] at hmem
    rcases hmem with hmem | hmem
    · exact chained_sound hseg.chained entry hmem
    · exact ih hrest entry hmem

theorem Holds.sound {d : Disk} (h : Holds H gatewayID anchor entries d) : ∀ entry ∈ entries, entry.Sound H := by
  obtain ⟨l, -, rfl, -⟩ := h
  intro entry hmem
  rcases List.mem_append.mp hmem with hmem | hmem
  · exact sealedOk_sound l.sealed_ok entry hmem
  · exact chained_sound l.active_chained entry hmem

section
variable {P : Entry → Prop} {s : Store} {d : Disk}

theorem Serves.holds (h : Serves H gatewayID anchor entries s d) : Holds H gatewayID anchor entries d := by
  obtain ⟨l, hbase, hentries, -, rfl⟩ := h
  exact ⟨l, hbase, hentries, atRest_disk l⟩

theorem Open.entries_eq (h : Open H gatewayID P anchor entries s d) : s.entries = entries := by
  rcases h with ⟨l, -, hentries, rfl, -⟩ | h
  · exact hentries
  · exact h.entries_eq

theorem Open.pruned_eq (h : Open H gatewayID P anchor entries s d) : s.prunedThrough = prunedThrough anchor := by
  rcases h with ⟨l, hbase, -, rfl, -⟩ | h
  · rw [prunedThrough, hbase]
    rfl
  · exact h.pruned_eq

theorem Open.mayHold (h : Open H gatewayID P anchor entries s d) : MayHold H gatewayID P anchor entries d := by
  rcases h with h | h
  · exact .inl h.holds
  · exact h.mayHold

theorem Open.sound (h : Open H gatewayID P anchor entries s d) : ∀ entry ∈ entries, entry.Sound H := by
  rcases h.mayHold with hholds | ⟨entry, -, hholds⟩
  · exact hholds.sound
  · exact fun x hx => hholds.sound x (List.mem_append_left _ hx)

/-! ## `Start` -/

/-- **`Start` serves what the directory holds**, and a crash inside it changes nothing. -/
theorem meets_start (h : Holds H gatewayID anchor entries d) (now : Int64) :
    Meets (start H gatewayID anchor now) d (Holds H gatewayID anchor entries)
      (fun s d' => AnchorOk anchor ∧ Serves H gatewayID anchor entries s d')
      (fun _ d' => Holds H gatewayID anchor entries d') := by
  by_cases ha : AnchorOk anchor
  · obtain ⟨l, hbase, rfl, hrest⟩ := h
    obtain ⟨hresult, hcrash⟩ := restarts_of_atRest ha hbase now hrest
    have hcrash' := fun t ht => holds_of_same hbase (hcrash t ht)
    rcases hresult with ⟨ops, err, hrun, -, hrest'⟩ | ⟨ops, l', hrun, hsame, hdisk⟩
    · exact meets_of_error hrun (fun t ht => hcrash' t (by rw [Prog.CrashIn, hrun]; exact ht)) ⟨l, hbase, rfl, hrest'⟩
    · exact meets_of_ok hrun (fun t ht => hcrash' t (by rw [Prog.CrashIn, hrun]; exact ht))
        ⟨ha, l', hbase.trans hsame.base.symm, hsame.entries, rfl, hdisk⟩
  · obtain ⟨err, hrun⟩ := start_bad_anchor H gatewayID ha now d
    exact meets_of_error hrun (crashAt_nil_of h) h

/-! ## `Append` -/

/-- The entry that an `Append` to the store writes. -/
structure Appends (H : Hashes) (s : Store) (frame : Bytes) (entry : Entry) : Prop where
  frame_eq : entry.frame = frame
  batchHash_eq : entry.batchHash = gatewayBatchSHA256 H frame
  sequence_eq : entry.sequence = s.next

theorem appends_nextEntry (l : Log H gatewayID) (frame : Bytes) (wall : Int64) (mono : UInt64) :
    Appends H l.store frame (l.nextEntry frame wall mono) := ⟨rfl, rfl, rfl⟩

theorem mayHold_written (l : Log H gatewayID) (hbase : anchorPosition anchor = l.base) {frame : Bytes}
    (happ : Appendable H frame) (wall : Int64) (mono : UInt64) (hP : P (l.nextEntry frame wall mono)) (written : Nat)
    (hcrash : CrashAt [.appendActive ((encodeEntry H (l.nextEntry frame wall mono)).take written)] l.disk d) :
    MayHold H gatewayID P anchor l.entries d := by
  have hrest : AtRest l d ∨ AtRest (l.append happ wall mono) d := by
    rw [crashAt_cons, crashAt_nil] at hcrash
    rcases hcrash with rfl | ⟨k, -, rfl⟩ | rfl
    · exact .inl (atRest_disk l)
    · refine atRest_written l happ wall mono (min k written) ?_
      rw [List.take_take]
      rfl
    · exact atRest_written l happ wall mono written rfl
  rcases hrest with hrest | hrest
  · exact .inl ⟨l, hbase, rfl, hrest⟩
  · exact .inr ⟨_, hP, l.append happ wall mono, hbase, l.append_entries happ wall mono, hrest⟩

/-- **`Append` adds one entry or none.** `P` is what the caller knows of the entry. -/
theorem meets_append (h : Open H gatewayID P anchor entries s d) (frame : Bytes) (wall : Int64) (mono : UInt64)
    (fault : Option AppendFault) (hP : ∀ entry, Appends H s frame entry → P entry) :
    Meets (s.append H frame wall mono fault) d (MayHold H gatewayID P anchor entries)
      (fun r d' => Appends H s frame r.2 ∧ Serves H gatewayID anchor (entries ++ [r.2]) r.1 d')
      (fun r d' => Open H gatewayID P anchor entries r.1 d') := by
  rcases h with ⟨l, hbase, rfl, rfl, rfl⟩ | hpoisoned
  · by_cases happ : Appendable H frame
    · have hcrash := fun written t => mayHold_written l hbase happ wall mono
        (hP _ (appends_nextEntry l frame wall mono)) written (d := t)
      cases fault with
      | none =>
        refine meets_of_ok (append_run l happ wall mono) (fun t ht => ?_) ⟨appends_nextEntry l frame wall mono, ?_⟩
        · rw [← List.take_length (l := encodeEntry H (l.nextEntry frame wall mono))] at ht
          exact hcrash _ t ht
        · exact ⟨l.append happ wall mono, hbase, l.append_entries happ wall mono, rfl, l.append_disk happ wall mono⟩
      | some fault =>
        obtain ⟨written, hwritten⟩ := fault.leaves_eq_take (encodeEntry H (l.nextEntry frame wall mono))
        have hrun := append_fault_run l happ wall mono fault
        rw [hwritten] at hrun
        refine meets_of_error hrun (hcrash written) (.inr ⟨rfl, rfl, ?_, hcrash written _ (crashAt_runAll _ _)⟩)
        rw [prunedThrough, hbase]
        rfl
    · obtain ⟨err, hrun⟩ := append_refused l.store happ wall mono fault l.disk
      exact meets_of_error hrun (crashAt_nil_of (.inl ⟨l, hbase, rfl, atRest_disk l⟩)) (.inl ⟨l, hbase, rfl, rfl, rfl⟩)
  · obtain ⟨err, hrun⟩ := append_poisoned (H := H) hpoisoned.poisoned frame wall mono fault d
    exact meets_of_error hrun (crashAt_nil_of hpoisoned.mayHold) (.inr hpoisoned)

/-- An `Append` that ends well has written something. -/
theorem append_grows (h : Open H gatewayID P anchor entries s d) {frame : Bytes} {wall : Int64} {mono : UInt64}
    {fault : Option AppendFault} {ops : List DiskOp} {r : Store × Entry}
    (hrun : (s.append H frame wall mono fault).run d = (ops, .ok r)) : runAll ops d ≠ d := by
  rcases h with ⟨l, -, -, rfl, rfl⟩ | hpoisoned
  · by_cases happ : Appendable H frame
    · cases fault with
      | none =>
        rw [append_run l happ wall mono, Prod.mk.injEq] at hrun
        obtain ⟨rfl, -⟩ := hrun
        intro heq
        have hnil : encodeEntry H (l.nextEntry frame wall mono) = [] := by
          simpa [Log.disk, Device.run] using congrArg Disk.active heq
        have hlength := length_encodeEntry H (l.nextEntry frame wall mono)
        have hpos := entrySize_pos (l.nextEntry frame wall mono)
        rw [hnil, List.length_nil] at hlength
        omega
      | some fault =>
        rw [append_fault_run l happ wall mono fault] at hrun
        cases hrun
    · obtain ⟨err, hrun'⟩ := append_refused l.store happ wall mono fault l.disk
      rw [hrun'] at hrun
      cases hrun
  · obtain ⟨err, hrun'⟩ := append_poisoned (H := H) hpoisoned.poisoned frame wall mono fault d
    rw [hrun'] at hrun
    cases hrun

/-! ## `Seal` -/

/-- **`Seal` keeps the entries.** -/
theorem meets_seal (h : Open H gatewayID P anchor entries s d) (now : Int64) :
    Meets (s.sealActive H now) d (MayHold H gatewayID P anchor entries)
      (fun r d' => Open H gatewayID P anchor entries r.1 d') (fun r d' => Open H gatewayID P anchor entries r.1 d') := by
  rcases h with ⟨l, hbase, rfl, rfl, rfl⟩ | hpoisoned
  · have hcrash : ∀ t, (l.store.sealActive H now).CrashIn l.disk t → MayHold H gatewayID P anchor l.entries t :=
      fun t ht => .inl (holds_of_same hbase (atRest_crashedSeal l ht))
    rcases sealActive_cases l now with ⟨err, hrun⟩ | ⟨hcan, hrun⟩ | ⟨hcountable, -, err, herr, hrun⟩
    · exact meets_of_error hrun (fun t ht => hcrash t (by rw [Prog.CrashIn, hrun]; exact ht))
        (.inl ⟨l, hbase, rfl, rfl, rfl⟩)
    · exact meets_of_ok hrun (fun t ht => hcrash t (by rw [Prog.CrashIn, hrun]; exact ht))
        (.inl ⟨l.sealActive hcan now, hbase, l.sealActive_entries hcan now, rfl, runAll_sealOps l hcan now⟩)
    · refine meets_of_error hrun (fun t ht => hcrash t (by rw [Prog.CrashIn, hrun]; exact ht))
        (.inr ⟨rfl, rfl, ?_, .inl ⟨l, hbase, rfl, .unverified l hcountable err herr⟩⟩)
      rw [prunedThrough, hbase]
      rfl
  · obtain ⟨err, hrun⟩ := sealActive_poisoned (H := H) hpoisoned.poisoned now d
    exact meets_of_error hrun (crashAt_nil_of hpoisoned.mayHold) (.inr hpoisoned)

end

end TickPlatform.Wal
