import TickPlatform.Wal.Recovery

/-!
# Directories at rest

What a crash can leave of a log: a torn tail, an active file that is missing or has half a header, or a
rotation that stopped somewhere. `Start` brings each of them back to the log, and a crash inside `Start`
leaves another one.
-/

namespace TickPlatform.Wal

open Bytes Protocol Crash

variable {H : Hashes} {gatewayID : Bytes}

/-- The same entries after the same anchor, cut into segments in another place. -/
structure SameLog (l l' : Log H gatewayID) : Prop where
  base : l'.base = l.base
  entries : l'.entries = l.entries

theorem SameLog.refl (l : Log H gatewayID) : SameLog l l := ⟨rfl, rfl⟩

variable {l : Log H gatewayID}

theorem SameLog.trans {l' l'' : Log H gatewayID} (h : SameLog l l') (h' : SameLog l' l'') : SameLog l l'' :=
  ⟨h'.base.trans h.base, h'.entries.trans h.entries⟩

theorem SameLog.sealActive (l : Log H gatewayID) (h : l.CanSeal) (created : Int64) :
    SameLog l (l.sealActive h created) :=
  ⟨rfl, l.sealActive_entries h created⟩

theorem SameLog.recreate (h : l.active.entries = []) (created : Int64) : SameLog l (l.recreate created) := by
  refine ⟨rfl, ?_⟩
  simp [Log.entries, Log.recreate, h]

inductive AtRest : Log H gatewayID → Disk → Prop
  /-- The end of the active file is torn off an entry or a trailer. -/
  | tail (l : Log H gatewayID) (tail : Bytes)
      (h : tail = [] ∨ parseFront H true tail (openBytes H gatewayID l.activeStart l.active).length = .ok none) :
    AtRest l (l.withActive (some (openBytes H gatewayID l.activeStart l.active ++ tail)))
  | missing (l : Log H gatewayID) (h : l.active.entries = []) : AtRest l (l.withActive none)
  | header (l : Log H gatewayID) (h : l.active.entries = []) (created : Int64) (k : Nat)
      (hk : k < 30 + gatewayID.length) :
    AtRest l (l.withActive (some ((encodeHeader gatewayID l.activeStart.next created).take k)))
  /-- The trailer is complete and the segment not yet installed. -/
  | trailer (l : Log H gatewayID) (h : l.CanSeal) :
    AtRest l (l.withActive (some (sealedBytes H gatewayID l.activeStart l.active)))
  /-- The segment is installed and the active file not yet removed. -/
  | linked (l : Log H gatewayID) (h : l.CanSeal) (created : Int64) :
    AtRest (l.sealActive h created)
      ((l.sealActive h created).withActive (some (sealedBytes H gatewayID l.activeStart l.active)))
  /-- The numbers of the segment wrap, so that its trailer does not verify. -/
  | unverified (l : Log H gatewayID) (h : Countable H gatewayID l.activeStart l.active) (err : WalError)
      (herr : verifySealedBytes H "active.wal" (sealedBytes H gatewayID l.activeStart l.active) = .error err) :
    AtRest l (l.withActive (some (sealedBytes H gatewayID l.activeStart l.active)))

theorem atRest_disk (l : Log H gatewayID) : AtRest l l.disk := by
  have h := AtRest.tail l [] (.inl rfl)
  rw [List.append_nil] at h
  exact h

/-! ## The steps of `Start` -/

theorem runAll_tailOps (l : Log H gatewayID) (tail : Bytes) :
    runAll (tailOps l tail) (l.withActive (some (l.openFile ++ tail))) =
      l.disk := by
  unfold tailOps
  by_cases hnil : tail = []
  · subst hnil
    simp [Log.withActive, Log.disk]
  · rw [if_neg hnil]
    simp [Log.withActive, Log.disk, Device.run]

variable {d : Disk}

theorem atRest_tailOps {tail : Bytes}
    (h : tail = [] ∨ parseFront H true tail l.openFile.length = .ok none)
    (hcrash : CrashAt (tailOps l tail)
      (l.withActive (some (l.openFile ++ tail))) d) : AtRest l d := by
  have hrun := runAll_tailOps l tail
  unfold tailOps at hcrash hrun
  by_cases hnil : tail = []
  · rw [if_pos hnil, crashAt_nil] at hcrash
    subst hcrash
    exact .tail l tail h
  · rw [if_neg hnil, runAll_cons, runAll_nil] at hrun
    rw [if_neg hnil, crashAt_cons, crashAt_nil, hrun] at hcrash
    rcases hcrash with rfl | htorn | rfl
    · exact .tail l tail h
    · exact htorn.elim
    · exact atRest_disk l

theorem recreate_disk (l : Log H gatewayID) (created : Int64) :
    l.withActive (some (encodeHeader gatewayID l.activeStart.next created)) = (l.recreate created).disk := by
  simp [Log.withActive, Log.disk, Log.recreate, openBytes, Log.activeStart]

variable {now : Int64}

theorem atRest_writeHeader (h : l.active.entries = [])
    (hcrash : CrashAt [.appendActive (encodeHeader gatewayID l.activeStart.next now)] (l.withActive (some [])) d) :
    ∃ l', SameLog l l' ∧ AtRest l' d := by
  have hdone : Device.run (DiskOp.appendActive (encodeHeader gatewayID l.activeStart.next now))
      (l.withActive (some [])) = (l.recreate now).disk := by
    rw [← recreate_disk]
    rfl
  rw [crashAt_cons, crashAt_nil, hdone] at hcrash
  rcases hcrash with rfl | ⟨k, hk, htorn⟩ | rfl
  · exact ⟨l, .refl l, .header l h 0 0 (by omega)⟩
  · rcases Nat.lt_or_ge k (30 + gatewayID.length) with hcut | hfull
    · subst htorn
      exact ⟨l, .refl l, .header l h now k hcut⟩
    · rw [List.take_of_length_le (by simpa using hfull)] at htorn
      obtain rfl := htorn.trans hdone
      exact ⟨l.recreate now, .recreate h now, atRest_disk _⟩
  · exact ⟨l.recreate now, .recreate h now, atRest_disk _⟩

theorem atRest_create (h : l.active.entries = [])
    (hcrash : CrashAt [.createActive, .appendActive (encodeHeader gatewayID l.activeStart.next now)]
      (l.withActive none) d) :
    ∃ l', SameLog l l' ∧ AtRest l' d := by
  rw [crashAt_cons] at hcrash
  rcases hcrash with rfl | htorn | hrest
  · exact ⟨l, .refl l, .missing l h⟩
  · exact htorn.elim
  · exact atRest_writeHeader h hrest

theorem runAll_create (l : Log H gatewayID) (now : Int64) :
    runAll [.createActive, .appendActive (encodeHeader gatewayID l.activeStart.next now)] (l.withActive none) =
      (l.recreate now).disk := by
  rw [← recreate_disk]
  rfl

/-! ## The steps of a rotation -/

theorem sealActive_sealed (l : Log H gatewayID) (h : l.CanSeal) (created : Int64) :
    (l.sealActive h created).disk.sealed = l.disk.sealed ++
      [(sealedName l.activeStart l.active, l.sealedFile)] :=
  sealedFiles_append H gatewayID l.base l.sealed l.active

theorem sealActive_active (l : Log H gatewayID) (h : l.CanSeal) (created : Int64) :
    (l.sealActive h created).disk.active = some (encodeHeader gatewayID l.head.next created) := by
  show some (openBytes H gatewayID (l.sealActive h created).activeStart ⟨created, []⟩) = _
  rw [l.sealActive_activeStart h created, openBytes, encodeEntries_nil, List.append_nil]

theorem sealActive_disk (l : Log H gatewayID) (h : l.CanSeal) (created : Int64) : (l.sealActive h created).disk =
      { active := some (encodeHeader gatewayID l.head.next created)
        sealed := l.disk.sealed ++
          [(sealedName l.activeStart l.active, l.sealedFile)] } := by
  rw [← sealActive_sealed l h created, ← sealActive_active l h created]

theorem rotated_disk (l : Log H gatewayID) (h : l.CanSeal) (created now : Int64) :
    ((l.sealActive h created).recreate now).disk = (l.sealActive h now).disk := by
  rw [← recreate_disk, sealActive_disk, Log.withActive, sealActive_disk, Log.sealActive_activeStart]

theorem atRest_reopen (h : l.CanSeal) {created : Int64}
    (hcrash : CrashAt [.removeActive, .createActive, .appendActive (encodeHeader gatewayID l.head.next now)]
      ((l.sealActive h created).withActive (some l.sealedFile)) d) :
    ∃ l', SameLog l l' ∧ AtRest l' d := by
  rw [crashAt_cons, ← Log.sealActive_activeStart l h created] at hcrash
  rcases hcrash with rfl | htorn | hrest
  · exact ⟨l.sealActive h created, .sealActive l h created, .linked l h created⟩
  · exact htorn.elim
  · obtain ⟨l', hsame, hrest⟩ := atRest_create rfl hrest
    exact ⟨l', (SameLog.sealActive l h created).trans hsame, hrest⟩

theorem runAll_reopen (l : Log H gatewayID) (h : l.CanSeal) (created now : Int64) :
    runAll [.removeActive, .createActive, .appendActive (encodeHeader gatewayID l.head.next now)]
      ((l.sealActive h created).withActive (some l.sealedFile)) =
      (l.sealActive h now).disk := by
  rw [runAll_cons, ← rotated_disk l h created now, ← runAll_create, Log.sealActive_activeStart]
  rfl

theorem link_sealed (l : Log H gatewayID) (h : l.CanSeal) (created : Int64) :
    Device.run (DiskOp.linkSealed (sealedName l.activeStart l.active))
      (l.withActive (some l.sealedFile)) =
      (l.sealActive h created).withActive (some l.sealedFile) := by
  simp [Log.withActive, sealActive_disk, Device.run]

theorem atRest_install (h : l.CanSeal)
    (hcrash : CrashAt [.linkSealed (sealedName l.activeStart l.active), .removeActive, .createActive,
      .appendActive (encodeHeader gatewayID l.head.next now)]
      (l.withActive (some l.sealedFile)) d) :
    ∃ l', SameLog l l' ∧ AtRest l' d := by
  rw [crashAt_cons, link_sealed l h 0] at hcrash
  rcases hcrash with rfl | htorn | hrest
  · exact ⟨l, .refl l, .trailer l h⟩
  · exact htorn.elim
  · exact atRest_reopen h hrest

theorem runAll_install (l : Log H gatewayID) (h : l.CanSeal) (now : Int64) :
    runAll [.linkSealed (sealedName l.activeStart l.active), .removeActive, .createActive,
      .appendActive (encodeHeader gatewayID l.head.next now)]
      (l.withActive (some l.sealedFile)) = (l.sealActive h now).disk := by
  rw [runAll_cons, link_sealed l h 0, runAll_reopen]

/-! ## `Start` -/

/-- The last sequence number is unused. -/
def Log.HasRoom (l : Log H gatewayID) : Prop :=
  l.base.next.toNat + l.entries.length < 18446744073709551616

theorem SameLog.hasRoom {l' : Log H gatewayID} (h : SameLog l l') (hroom : l.HasRoom) : l'.HasRoom := by
  unfold Log.HasRoom
  rw [h.base, h.entries]
  exact hroom

theorem Log.HasRoom.active (h : l.HasRoom) :
    l.activeStart.next.toNat + l.active.entries.length < 18446744073709551616 := by
  unfold Log.HasRoom Log.entries at h
  rw [List.length_append] at h
  rw [Log.activeStart, advance_next, UInt64.toNat_add, UInt64.toNat_ofNat']
  omega

theorem Log.HasRoom.not_exhausted (h : l.HasRoom) : ¬ l.Exhausted := by
  rintro ⟨final, hlast, hmax⟩
  have hroom := h.active
  have hnext := chained_last l.active_chained hlast
  rw [hmax, advance_next] at hnext
  have hpos : 0 < l.active.entries.length := by
    rcases List.eq_nil_or_concat l.active.entries with hnil | ⟨front, x, hx⟩
    · rw [hnil] at hlast
      cases hlast
    · rw [hx]
      simp
  have hnat := congrArg UInt64.toNat hnext
  rw [UInt64.toNat_add, UInt64.toNat_add, UInt64.toNat_ofNat'] at hnat
  simp [maxUint64] at hnat
  omega

/-- What `Start` does with a directory at rest: it refuses a log without room, or serves the log, and a
crash on the way leaves the log at rest. -/
def Restarts (l : Log H gatewayID) (anchor : Option PruneAnchor) (now : Int64) (d : Disk) : Prop :=
  ((∃ ops err, (start H gatewayID anchor now).run d = (ops, .error err) ∧ ¬ l.HasRoom ∧ AtRest l (runAll ops d)) ∨
    ∃ ops l', (start H gatewayID anchor now).run d = (ops, .ok l'.store) ∧ SameLog l l' ∧ runAll ops d = l'.disk) ∧
  ∀ d', (start H gatewayID anchor now).CrashIn d d' → ∃ l', SameLog l l' ∧ AtRest l' d'

section
variable {l : Log H gatewayID} {anchor : Option PruneAnchor} (ha : AnchorOk anchor)
  (hbase : anchorPosition anchor = l.base) (now : Int64)
include ha hbase

theorem restarts_tail (tail : Bytes)
    (h : tail = [] ∨ parseFront H true tail l.openFile.length = .ok none) :
    Restarts l anchor now (l.withActive (some (l.openFile ++ tail))) := by
  unfold Restarts Prog.CrashIn
  by_cases hroom : l.Exhausted
  · rw [(start_tail l ha hbase now tail h).2 hroom]
    refine ⟨.inl ⟨_, _, rfl, fun hr => hr.not_exhausted hroom, ?_⟩, fun d hcrash => ⟨l, .refl l, ?_⟩⟩
    · rw [runAll_tailOps]
      exact atRest_disk l
    · exact atRest_tailOps h hcrash
  · rw [(start_tail l ha hbase now tail h).1 hroom]
    refine ⟨.inr ⟨_, _, rfl, .refl l, runAll_tailOps l tail⟩, fun d hcrash => ⟨l, .refl l, ?_⟩⟩
    exact atRest_tailOps h hcrash

theorem restarts_missing (h : l.active.entries = []) : Restarts l anchor now (l.withActive none) := by
  unfold Restarts Prog.CrashIn
  rw [start_missing l ha hbase now]
  exact ⟨.inr ⟨_, _, rfl, .recreate h now, runAll_create l now⟩, fun d hcrash => atRest_create h hcrash⟩

theorem restarts_header (h : l.active.entries = []) (created : Int64) (k : Nat) (hk : k < 30 + gatewayID.length) :
    Restarts l anchor now
      (l.withActive (some ((encodeHeader gatewayID l.activeStart.next created).take k))) := by
  unfold Restarts Prog.CrashIn
  rw [start_torn_header l ha hbase now created k hk]
  have hcut : Device.run (DiskOp.truncateActive 0)
      (l.withActive (some ((encodeHeader gatewayID l.activeStart.next created).take k))) =
      l.withActive (some []) := by
    simp [Log.withActive, Device.run]
  refine ⟨.inr ⟨_, _, rfl, .recreate h now, ?_⟩, fun d hcrash => ?_⟩
  · rw [runAll_cons, hcut, ← recreate_disk]
    rfl
  · rw [crashAt_cons, hcut] at hcrash
    rcases hcrash with rfl | htorn | hrest
    · exact ⟨l, .refl l, .header l h created k hk⟩
    · exact htorn.elim
    · exact atRest_writeHeader h hrest

theorem restarts_trailer (h : l.CanSeal) :
    Restarts l anchor now (l.withActive (some l.sealedFile)) := by
  unfold Restarts Prog.CrashIn
  rw [start_trailer l ha hbase now h]
  exact ⟨.inr ⟨_, _, rfl, .sealActive l h now, runAll_install l h now⟩, fun d hcrash => atRest_install h hcrash⟩

theorem restarts_linked (h : l.CanSeal) (created : Int64) : Restarts (l.sealActive h created) anchor now
      ((l.sealActive h created).withActive (some l.sealedFile)) := by
  have hback : SameLog (l.sealActive h created) l := ⟨rfl, (l.sealActive_entries h created).symm⟩
  unfold Restarts Prog.CrashIn
  rw [start_linked l ha hbase now h created]
  refine ⟨.inr ⟨_, _, rfl, hback.trans (.sealActive l h now), runAll_reopen l h created now⟩, fun d hcrash => ?_⟩
  obtain ⟨l', hsame, hrest⟩ := atRest_reopen h hcrash
  exact ⟨l', hback.trans hsame, hrest⟩

theorem restarts_unverified (h : Countable H gatewayID l.activeStart l.active) {err : WalError}
    (herr : verifySealedBytes H "active.wal" l.sealedFile = .error err) :
    Restarts l anchor now (l.withActive (some l.sealedFile)) := by
  unfold Restarts Prog.CrashIn
  rw [start_eq_openActive l ha hbase now _ rfl, openActive_sealed l.validID h l.loaded rfl now _ rfl, herr,
    Prog.lift_bind_error]
  refine ⟨.inl ⟨_, _, rfl, fun hroom => ?_, .unverified l h err herr⟩, fun d hcrash => ?_⟩
  · -- With room the trailer verifies.
    rw [verifySealedBytes_sealed l.validID ⟨h, hroom.active⟩] at herr
    cases herr
  · rw [crashAt_nil] at hcrash
    subst hcrash
    exact ⟨l, .refl l, .unverified l h err herr⟩

end

/-- **`Start` judges every directory at rest.** -/
theorem restarts_of_atRest {anchor : Option PruneAnchor} (ha : AnchorOk anchor)
    (hbase : anchorPosition anchor = l.base) (now : Int64) (h : AtRest l d) :
    Restarts l anchor now d := by
  cases h with
  | tail _ tail htail => exact restarts_tail ha hbase now tail htail
  | missing _ hempty => exact restarts_missing ha hbase now hempty
  | header _ hempty created k hk => exact restarts_header ha hbase now hempty created k hk
  | trailer _ hcan => exact restarts_trailer ha hbase now hcan
  | linked l₀ hcan created => exact restarts_linked (l := l₀) ha hbase now hcan created
  | unverified _ hcountable err herr => exact restarts_unverified ha hbase now hcountable herr

end TickPlatform.Wal
