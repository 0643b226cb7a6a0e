import TickPlatform.Wal.Serve

/-!
# WAL histories

A store and its directory after any run of starts, appends and seals, with failed appends and with crashes
inside each call. The directory is always that of a log, and sealing loses nothing.
-/

namespace TickPlatform.Wal

open Bytes Protocol Crash

variable {H : Hashes} {gatewayID : Bytes}

/-- The states of a WAL root that is empty at first: the store, if a process serves it, and the directory. -/
inductive Reached (H : Hashes) (gatewayID : Bytes) (anchor : Option PruneAnchor) : Option Store → Disk → Prop
  | empty : Reached H gatewayID anchor none ⟨none, []⟩
  | started {d : Disk} (now : Int64) :
    Reached H gatewayID anchor none d →
    Reached H gatewayID anchor ((start H gatewayID anchor now).run d).2.toOption ((start H gatewayID anchor now).final d)
  | crashedStart {d d' : Disk} {now : Int64} :
    Reached H gatewayID anchor none d → (start H gatewayID anchor now).CrashIn d d' →
    Reached H gatewayID anchor none d'
  | appended {s : Store} {d : Disk} (frame : Bytes) (wall : Int64) (mono : UInt64) (fault : Option AppendFault) :
    Reached H gatewayID anchor (some s) d →
    Reached H gatewayID anchor (some (storeAfter ((s.append H frame wall mono fault).run d).2))
      ((s.append H frame wall mono fault).final d)
  | crashedAppend {s : Store} {d d' : Disk} {frame : Bytes} {wall : Int64} {mono : UInt64} :
    Reached H gatewayID anchor (some s) d → (s.append H frame wall mono none).CrashIn d d' →
    Reached H gatewayID anchor none d'
  | sealed {s : Store} {d : Disk} (now : Int64) :
    Reached H gatewayID anchor (some s) d →
    Reached H gatewayID anchor (some (storeAfter ((s.sealActive H now).run d).2)) ((s.sealActive H now).final d)
  | crashedSeal {s : Store} {d d' : Disk} {now : Int64} :
    Reached H gatewayID anchor (some s) d → (s.sealActive H now).CrashIn d d' →
    Reached H gatewayID anchor none d'
  | stopped {s : Store} {d : Disk} : Reached H gatewayID anchor (some s) d → Reached H gatewayID anchor none d

/-! ## The directory is that of a log -/

/-- The state of a WAL root, with or without a process. -/
def Standing (H : Hashes) (gatewayID : Bytes) (anchor : Option PruneAnchor) : Option Store → Disk → Prop
  | some s, d => ∃ entries, Open H gatewayID (fun _ => True) anchor entries s d
  | none, d => ∃ entries, Holds H gatewayID anchor entries d

section
variable {anchor : Option PruneAnchor} {s : Store} {d d' : Disk}

theorem standing_of_mayHold {entries : List Entry} (h : MayHold H gatewayID (fun _ => True) anchor entries d) :
    Standing H gatewayID anchor none d := by
  rcases h with h | ⟨entry, -, h⟩
  · exact ⟨entries, h⟩
  · exact ⟨entries ++ [entry], h⟩

theorem standing_started (h : Standing H gatewayID anchor none d) (now : Int64) :
    Standing H gatewayID anchor ((start H gatewayID anchor now).run d).2.toOption
      ((start H gatewayID anchor now).final d) := by
  obtain ⟨entries, hholds⟩ := h
  have hmeets := meets_start hholds now
  unfold Prog.final
  rcases hrun : (start H gatewayID anchor now).run d with ⟨ops, err | s⟩
  · exact ⟨entries, hmeets.error ops err hrun⟩
  · exact ⟨entries, .inl (hmeets.ok ops s hrun).2⟩

theorem standing_appended (h : Standing H gatewayID anchor (some s) d) (frame : Bytes) (wall : Int64) (mono : UInt64)
    (fault : Option AppendFault) :
    Standing H gatewayID anchor (some (storeAfter ((s.append H frame wall mono fault).run d).2))
      ((s.append H frame wall mono fault).final d) := by
  obtain ⟨entries, hopen⟩ := h
  have hmeets := meets_append hopen frame wall mono fault fun _ _ => trivial
  unfold Prog.final
  rcases hrun : (s.append H frame wall mono fault).run d with ⟨ops, r | r⟩
  · exact ⟨entries, hmeets.error ops r hrun⟩
  · exact ⟨entries ++ [r.2], .inl (hmeets.ok ops r hrun).2⟩

theorem standing_sealed (h : Standing H gatewayID anchor (some s) d) (now : Int64) :
    Standing H gatewayID anchor (some (storeAfter ((s.sealActive H now).run d).2)) ((s.sealActive H now).final d) := by
  obtain ⟨entries, hopen⟩ := h
  have hmeets := meets_seal hopen now
  unfold Prog.final
  rcases hrun : (s.sealActive H now).run d with ⟨ops, r | r⟩
  · exact ⟨entries, hmeets.error ops r hrun⟩
  · exact ⟨entries, hmeets.ok ops r hrun⟩

/-- **Every history keeps a log.** -/
theorem standing_of_reached (hid : ValidID gatewayID) (ha : AnchorOk anchor) {o : Option Store}
    (h : Reached H gatewayID anchor o d) : Standing H gatewayID anchor o d := by
  induction h with
  | empty => exact ⟨[], holds_empty hid ha⟩
  | started now _ ih => exact standing_started ih now
  | crashedStart _ hcrash ih =>
    obtain ⟨entries, hholds⟩ := ih
    exact ⟨entries, (meets_start hholds _).crash _ hcrash⟩
  | appended frame wall mono fault _ ih => exact standing_appended ih frame wall mono fault
  | crashedAppend _ hcrash ih =>
    obtain ⟨entries, hopen⟩ := ih
    exact standing_of_mayHold ((meets_append hopen _ _ _ _ fun _ _ => trivial).crash _ hcrash)
  | sealed now _ ih => exact standing_sealed ih now
  | crashedSeal _ hcrash ih =>
    obtain ⟨entries, hopen⟩ := ih
    exact standing_of_mayHold ((meets_seal hopen _).crash _ hcrash)
  | stopped _ ih =>
    obtain ⟨entries, hopen⟩ := ih
    exact standing_of_mayHold hopen.mayHold

theorem inputs_of_reached {o : Option Store} (h : Reached H gatewayID anchor o d) (hsome : o.isSome = true) :
    ValidID gatewayID ∧ AnchorOk anchor := by
  induction h with
  | @started d now _ _ =>
    cases hrun : ((start H gatewayID anchor now).run d).2 with
    | error err =>
      rw [hrun] at hsome
      cases hsome
    | ok s => exact inputs_of_start (Prod.ext rfl hrun)
  | appended _ _ _ _ _ ih => exact ih rfl
  | sealed _ _ ih => exact ih rfl
  | empty | crashedStart | crashedAppend | crashedSeal | stopped => cases hsome

end

/-! ## Sealing is crash safe -/

/-- Starting on a directory gives the entries, the next sequence and the chain root of `s`, and starting
again gives the same store. -/
def RecoversTo (H : Hashes) (gatewayID : Bytes) (anchor : Option PruneAnchor) (s : Store) (d : Disk) : Prop :=
  ∀ now again, ∃ ops s', (start H gatewayID anchor now).run d = (ops, .ok s') ∧
    s'.entries = s.entries ∧ s'.next = s.next ∧ s'.last = s.last ∧
    (start H gatewayID anchor again).run (runAll ops d) = ([], .ok s')

/-- A `Start` that does not get to its end. -/
def CrashedStart (H : Hashes) (gatewayID : Bytes) (anchor : Option PruneAnchor) (d d' : Disk) : Prop :=
  ∃ now, (start H gatewayID anchor now).CrashIn d d'

section
variable {l : Log H gatewayID} {anchor : Option PruneAnchor} (ha : AnchorOk anchor)
  (hbase : anchorPosition anchor = l.base)
include ha hbase

theorem recoversTo_of_atRest (hroom : l.HasRoom) {d : Disk} (h : ∃ l', SameLog l l' ∧ AtRest l' d) :
    RecoversTo H gatewayID anchor l.store d := by
  intro now again
  obtain ⟨l₁, hsame₁, hrest⟩ := h
  rcases (restarts_of_atRest ha (hbase.trans hsame₁.base.symm) now hrest).1 with
    ⟨ops, err, -, hfull, -⟩ | ⟨ops, l₂, hrun, hsame₂, hdisk⟩
  · exact absurd (hsame₁.hasRoom hroom) hfull
  · have hsame := hsame₁.trans hsame₂
    have hhead : l₂.head = l.head := by rw [Log.head, Log.head, hsame.base, hsame.entries]
    refine ⟨ops, l₂.store, hrun, hsame.entries, congrArg Position.next hhead, congrArg Position.last hhead, ?_⟩
    rw [hdisk]
    exact start_disk l₂ ha (hbase.trans hsame.base.symm) again (hsame.hasRoom hroom).not_exhausted

theorem atRest_crashedStarts {d d' : Disk} (h : ∃ l', SameLog l l' ∧ AtRest l' d)
    (hcrash : Relation.ReflTransGen (CrashedStart H gatewayID anchor) d d') : ∃ l', SameLog l l' ∧ AtRest l' d' := by
  induction hcrash with
  | refl => exact h
  | tail _ hstart ih =>
    obtain ⟨l₁, hsame₁, hrest⟩ := ih
    obtain ⟨now, hstart⟩ := hstart
    obtain ⟨l₂, hsame₂, hrest'⟩ :=
      (restarts_of_atRest ha (hbase.trans hsame₁.base.symm) now hrest).2 _ hstart
    exact ⟨l₂, hsame₁.trans hsame₂, hrest'⟩

end

theorem Log.hasRoom_of_store (l : Log H gatewayID)
    (h : l.store.prunedThrough.toNat + l.store.entries.length < maxUint64.toNat) : l.HasRoom := by
  have hpos : (1 : UInt64) ≤ l.base.next := by
    have hstart := l.base_start
    grind
  have hnext : l.store.prunedThrough.toNat = l.base.next.toNat - 1 := UInt64.toNat_sub_of_le _ _ hpos
  have hle : 1 ≤ l.base.next.toNat := hpos
  have hmax : maxUint64.toNat = 18446744073709551615 := rfl
  have hcount : l.store.entries.length = l.entries.length := rfl
  unfold Log.HasRoom
  omega

theorem reached_fresh (H : Hashes) (hid : ValidID gatewayID) {anchor : Option PruneAnchor} (ha : AnchorOk anchor)
    (now : Int64) :
    let l : Log H gatewayID := .fresh hid (anchorPosition anchor) (anchorPosition_next ha) now
    Reached H gatewayID anchor (some l.store) l.disk := by
  intro l
  have hempty : Reached H gatewayID anchor none (l.withActive none) := .empty
  have hstarted := hempty.started now
  rw [Prog.final, start_missing l ha rfl now, runAll_create] at hstarted
  exact hstarted

theorem reached_append {anchor : Option PruneAnchor} {l : Log H gatewayID}
    (h : Reached H gatewayID anchor (some l.store) l.disk) {frame : Bytes} (happ : Appendable H frame) (wall : Int64)
    (mono : UInt64) :
    Reached H gatewayID anchor (some (l.append happ wall mono).store) (l.append happ wall mono).disk := by
  have hnext := h.appended frame wall mono none
  rw [Prog.final, append_run l happ] at hnext
  rw [← l.append_disk happ]
  exact hnext

end TickPlatform.Wal
