import TickPlatform.Wal.Append

/-!
# Sealing the active segment

`Seal` on the files of a log writes the trailer, installs the segment and opens a new one. From
every crash point in between, `Start` recovers the same entries.
-/

namespace TickPlatform.Wal

open Bytes Protocol Crash

variable {H : Hashes} {gatewayID : Bytes}

/-! ## What `Seal` does -/

theorem store_active_first (l : Log H gatewayID) : l.store.entries[l.store.activeAt]? = l.active.entries.head? := by
  show (sealedEntries l.sealed ++ l.active.entries)[(sealedEntries l.sealed).length]? = _
  rw [List.getElem?_append_right (Nat.le_refl _), Nat.sub_self, List.head?_eq_getElem?]

theorem store_last {l : Log H gatewayID} {final : Entry} (h : l.active.entries.getLast? = some final) :
    l.store.entries.getLast? = some final := by
  show (sealedEntries l.sealed ++ l.active.entries).getLast? = _
  rw [List.getLast?_append, h]
  rfl

theorem store_active_count (l : Log H gatewayID) :
    l.store.entries.length - l.store.activeAt = l.active.entries.length := by
  show (sealedEntries l.sealed ++ l.active.entries).length - (sealedEntries l.sealed).length = _
  rw [List.length_append]
  omega

/-- The operations of `Seal` on the files of a log. -/
def sealOps (l : Log H gatewayID) (now : Int64) : List DiskOp :=
  [.appendActive (trailerOf H gatewayID l.activeStart l.active),
    .linkSealed (sealedName l.activeStart l.active), .removeActive, .createActive,
    .appendActive (encodeHeader gatewayID l.head.next now)]

theorem rotate_run (l : Log H gatewayID) (h : l.CanSeal) (now : Int64) :
    (l.store.rotate H (verified H gatewayID "active.wal" l.activeStart l.active) now).run
        (l.withActive (some l.sealedFile)) =
      ([.linkSealed (sealedName l.activeStart l.active), .removeActive, .createActive,
        .appendActive (encodeHeader gatewayID l.head.next now)],
        .ok ((l.sealActive h now).store,
          verified H gatewayID (sealedName l.activeStart l.active) l.activeStart l.active)) := by
  have hlookup : (l.disk.sealed).lookup (sealedName l.activeStart l.active) = none :=
    lookup_sealedFiles l.sealed_ok _
  have hinstall : (Store.installActiveAsSealed H (verified H gatewayID "active.wal" l.activeStart l.active)).run
      (l.withActive (some l.sealedFile)) =
      ([.linkSealed (sealedName l.activeStart l.active), .removeActive],
        .ok (verified H gatewayID (sealedName l.activeStart l.active) l.activeStart l.active)) :=
    installActiveAsSealed_new _ _ hlookup
  have hgone : (runAll [.linkSealed (sealedName l.activeStart l.active), .removeActive]
      (l.withActive (some l.sealedFile))).active = none := rfl
  have hcreate : ((l.store.addSealed
        (verified H gatewayID (sealedName l.activeStart l.active) l.activeStart l.active)).createActive now).run
      (runAll [.linkSealed (sealedName l.activeStart l.active), .removeActive]
        (l.withActive (some l.sealedFile))) =
      ([.createActive, .appendActive (encodeHeader gatewayID l.head.next now)],
        .ok (l.sealActive h now).store) := by
    have hstart := Log.sealActive_activeStart l h now
    unfold Store.createActive
    rw [Prog.read_bind, hgone]
    simp only [Option.isSome_none, Bool.false_eq_true, if_false, Prog.emit_bind, Prog.pure_run]
    simp only [Log.store, Store.addSealed, Log.sealActive_head, Log.sealActive_entries, hstart, openBytes,
      length_encodeHeader, List.length_append]
    simp [Log.sealActive, Log.sealedSize, verifiedSegments_append, sealedFiles_append, Log.activeStart,
      Log.entries, sealedEntries, verified]
  unfold Store.rotate
  rw [Prog.bind_ok (Prog.mapError_ok _ hinstall), Prog.bind_ok (Prog.mapError_ok _ hcreate)]
  rfl

theorem sealActive_run (l : Log H gatewayID) (h : l.CanSeal) (now : Int64) : (l.store.sealActive H now).run l.disk =
      (sealOps l now, .ok ((l.sealActive h now).store,
        verified H gatewayID (sealedName l.activeStart l.active) l.activeStart l.active)) := by
  obtain ⟨first, final, hfirst, hfinal, hseq, hprev, hlast, hhash⟩ := h.head_and_last
  have hmax : final.sequence ≠ maxUint64 := by
    rw [hlast]
    exact lastSequence_ne_max h
  have hcount : ¬ l.active.entries.length > 4294967295 := by
    have := h.count
    omega
  have htrailer : l.store.sealTrailer H first final l.openFile =
      trailerOf H gatewayID l.activeStart l.active := by
    rw [Store.sealTrailer, store_active_count, hseq, hlast, hhash]
    rfl
  have hentry : (UInt32.ofNat l.active.entries.length).toNat = l.active.entries.length :=
    toNat_ofNat32 _ h.count
  have hsealed : (Device.run (DiskOp.appendActive (trailerOf H gatewayID l.activeStart l.active)) l.disk) =
      l.withActive (some l.sealedFile) := rfl
  have hverify := verifySealedBytes_sealed l.validID h "active.wal"
  have hopen : ¬ ((!l.store.file) = true ∨ l.store.poisoned = true) := by simp [Log.store]
  have hmeta : ¬ ((verified H gatewayID "active.wal" l.activeStart l.active).gatewayInstanceID ≠ l.store.gatewayID ∨
      (verified H gatewayID "active.wal" l.activeStart l.active).startSequence ≠ l.store.start ∨
      (verified H gatewayID "active.wal" l.activeStart l.active).lastSequence ≠ final.sequence ∨
      (verified H gatewayID "active.wal" l.activeStart l.active).entryCount.toNat ≠ l.active.entries.length ∨
      (verified H gatewayID "active.wal" l.activeStart l.active).chainStart ≠ first.previousEntryHash ∨
      (verified H gatewayID "active.wal" l.activeStart l.active).chainRoot ≠ final.entryHash) := by
    simp [verified, Log.store, hlast, hentry, hprev, hhash]
  unfold Store.sealActive
  rw [store_active_first, hfirst, store_last hfinal]
  simp only [store_active_count, if_neg hcount, if_neg hmax, if_neg hopen]
  rw [Prog.read_bind]
  show ((Prog.emit (.appendActive (l.store.sealTrailer H first final
    l.openFile))) >>= _ : WalProg _ _).run l.disk = _
  have hget : ((l.withActive (some l.sealedFile)).active.getD []) =
      l.sealedFile := rfl
  rw [htrailer, Prog.emit_bind, hsealed, Prog.read_bind, hget, hverify]
  simp only [Except.mapError]
  rw [Prog.lift_bind_ok, if_neg hmeta, rotate_run l h now]
  rfl

/-- What `Seal` can do: refuse and leave the disk alone, rotate, or write the trailer of a segment
whose numbers wrap and then find that it does not verify. -/
theorem sealActive_cases (l : Log H gatewayID) (now : Int64) :
    (∃ err, (l.store.sealActive H now).run l.disk = ([], .error (l.store, err))) ∨
      (∃ h : l.CanSeal, (l.store.sealActive H now).run l.disk =
        (sealOps l now, .ok ((l.sealActive h now).store,
          verified H gatewayID (sealedName l.activeStart l.active) l.activeStart l.active))) ∨
      (Countable H gatewayID l.activeStart l.active ∧ ¬ l.Exhausted ∧
        ∃ err, verifySealedBytes H "active.wal" l.sealedFile = .error err ∧
          (l.store.sealActive H now).run l.disk =
            ([.appendActive (trailerOf H gatewayID l.activeStart l.active)],
              .error ({ l.store with poisoned := true, file := false }, err))) := by
  by_cases hcan : l.CanSeal
  · exact .inr (.inl ⟨hcan, sealActive_run l hcan now⟩)
  have hfile : l.store.file = true := rfl
  have hclean : l.store.poisoned = false := rfl
  have hopen : ¬ ((!l.store.file) = true ∨ l.store.poisoned = true) := by simp [hfile, hclean]
  rcases List.eq_nil_or_concat l.active.entries with hnil | ⟨front, final, hsnoc⟩
  · left
    unfold Store.sealActive
    rw [store_active_first, hnil]
    simp [hfile, hclean]
  have hne : l.active.entries ≠ [] := by simp [hsnoc]
  have hfinal : l.active.entries.getLast? = some final := by simp [hsnoc]
  by_cases hcount : l.active.entries.length > 4294967295
  · left
    unfold Store.sealActive
    rw [store_active_first, List.head?_eq_some_head hne, store_last hfinal, store_active_count]
    simp [hfile, hclean, hcount]
  by_cases hmax : final.sequence = maxUint64
  · left
    unfold Store.sealActive
    rw [store_active_first, List.head?_eq_some_head hne, store_last hfinal, store_active_count]
    simp [hfile, hclean, hcount, hmax]
  -- The guards pass, so the trailer is written; the numbers wrap, so it does not verify.
  have hcountable : Countable H gatewayID l.activeStart l.active :=
    ⟨hne, l.active_chained, l.activeStart_next, by omega⟩
  obtain ⟨first, final', hfirst, hfinal', hseq, -, hlast, hhash⟩ := hcountable.head_and_last
  obtain rfl : final' = final := Option.some.inj (hfinal'.symm.trans hfinal)
  refine .inr (.inr ⟨hcountable, ?_, ?_⟩)
  · rintro ⟨other, hother, hm⟩
    obtain rfl : other = final' := Option.some.inj (hother.symm.trans hfinal)
    exact hmax hm
  cases hverify : verifySealedBytes H "active.wal" l.sealedFile with
  | ok segment =>
    exact absurd (sealable_of_verified l.validID hcountable (by rw [← hlast]; exact hmax) hverify) hcan
  | error err =>
    refine ⟨err, rfl, ?_⟩
    have htrailer : l.store.sealTrailer H first final' l.openFile =
        trailerOf H gatewayID l.activeStart l.active := by
      rw [Store.sealTrailer, store_active_count, hseq, hlast, hhash]
      rfl
    have hdata : l.disk.active.getD [] = l.openFile := rfl
    have hsealed : (Device.run (DiskOp.appendActive (trailerOf H gatewayID l.activeStart l.active))
        l.disk).active.getD [] = l.sealedFile := rfl
    unfold Store.sealActive
    rw [store_active_first, hfirst, store_last hfinal]
    simp only [store_active_count, if_neg hcount, if_neg hmax, if_neg hopen]
    rw [Prog.read_bind, hdata, htrailer, Prog.emit_bind, Prog.read_bind, hsealed, hverify]
    simp only [Except.mapError]
    rw [Prog.lift_bind_error]

/-! ## Crash points -/

theorem runAll_sealOps (l : Log H gatewayID) (h : l.CanSeal) (now : Int64) :
    runAll (sealOps l now) l.disk = (l.sealActive h now).disk := by
  rw [← runAll_install]
  rfl

theorem parseFront_trailerOf (p : Position) (seg : SegmentData) (k offset : Nat) (hk : k < 96) :
    parseFront H true ((trailerOf H gatewayID p seg).take k) offset = .ok none := by
  obtain ⟨rest, hrest⟩ := encodeTrailer_magic H p.next (lastSequence p seg)
    (UInt32.ofNat seg.entries.length) (p.advance seg.entries).last (H.sha256 (openBytes H gatewayID p seg))
  rw [trailerOf, hrest]
  exact parseFront_torn_trailer H rest k _ hk

theorem length_trailerOf (p : Position) (seg : SegmentData) : (trailerOf H gatewayID p seg).length = 96 := by
  simp [trailerOf]

theorem atRest_trailer {l : Log H gatewayID} {d : Disk}
    (hfull : AtRest l (l.withActive (some l.sealedFile)))
    (hcrash : CrashAt [.appendActive (trailerOf H gatewayID l.activeStart l.active)] l.disk d) : AtRest l d := by
  rw [crashAt_cons, crashAt_nil] at hcrash
  rcases hcrash with rfl | ⟨k, -, htorn⟩ | rfl
  · exact atRest_disk l
  · rcases Nat.lt_or_ge k 96 with hshort | hlong
    · subst htorn
      exact .tail l _ (.inr (parseFront_trailerOf _ _ k _ hshort))
    · rw [List.take_of_length_le (by rw [length_trailerOf]; exact hlong)] at htorn
      subst htorn
      exact hfull
  · exact hfull

/-- **Every crash point of `Seal` leaves the log at rest.** -/
theorem atRest_crashedSeal (l : Log H gatewayID) {now : Int64} {d : Disk}
    (hcrash : (l.store.sealActive H now).CrashIn l.disk d) : ∃ l', SameLog l l' ∧ AtRest l' d := by
  unfold Prog.CrashIn at hcrash
  rcases sealActive_cases l now with ⟨e, hrun⟩ | ⟨hcan, hrun⟩ | ⟨hcountable, -, err, herr, hrun⟩
  · rw [hrun, crashAt_nil] at hcrash
    subst hcrash
    exact ⟨l, .refl l, atRest_disk l⟩
  · rw [hrun] at hcrash
    have hsplit : sealOps l now = [.appendActive (trailerOf H gatewayID l.activeStart l.active)] ++
        [.linkSealed (sealedName l.activeStart l.active), .removeActive, .createActive,
          .appendActive (encodeHeader gatewayID l.head.next now)] := rfl
    rw [hsplit, crashAt_append] at hcrash
    rcases hcrash with htrailer | hinstall
    · exact ⟨l, .refl l, atRest_trailer (.trailer l hcan) htrailer⟩
    · exact atRest_install hcan hinstall
  · rw [hrun] at hcrash
    exact ⟨l, .refl l, atRest_trailer (.unverified l hcountable err herr) hcrash⟩

theorem sealActive_poisoned {s : Store} (h : s.poisoned = true) (now : Int64) (d : Disk) :
    ∃ err, (s.sealActive H now).run d = ([], .error (s, err)) := by
  unfold Store.sealActive
  simp only
  rw [if_pos (.inr h)]
  exact ⟨_, rfl⟩

end TickPlatform.Wal
