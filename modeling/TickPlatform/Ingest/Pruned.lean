import TickPlatform.Ingest.History

/-!
# A lagging journal after a prune

Once an anchor is there, `Recover` only compares the journal with the WAL. An entry without a row stays without one,
and no `Start` gets through as long as the entry is retained.
-/

namespace TickPlatform.Ingest

open Bytes Protocol Crash Wal Journal

variable {H : Hashes} {c : Config} {entries : List Entry} {g : Gateway} {d : Durable}

/-! ## A missing row stays missing -/

theorem Misses.mono {db : Db} {entries' : List Entry} (h : Misses H db entries) (hgrows : entries <+: entries') :
    Misses H db entries' := by
  obtain ⟨entry, hmem, hentry⟩ := h
  exact ⟨entry, hgrows.subset hmem, hentry⟩

theorem Misses.push {db : Db} (h : Misses H db entries) {entry : Entry} {batch : BatchFrameV1} {outcome : Outcome}
    (hnew : some (batch.producerSessionID, batch.batchSequence) ∉ entries.map (identityOf H)) :
    Misses H (db.push entry batch outcome) entries := by
  obtain ⟨missing, hmem, batch', hbatch', hfind⟩ := h
  refine ⟨missing, hmem, batch', hbatch', ?_⟩
  rw [find_eq_none] at hfind ⊢
  rw [push_rows, List.map_append, List.mem_append, not_or]
  refine ⟨hfind, fun heq => hnew ?_⟩
  have hsame : (batch'.producerSessionID, batch'.batchSequence) = (batch.producerSessionID, batch.batchSequence) :=
    List.mem_singleton.mp heq
  rw [← hsame, ← identityOf_decoded hbatch']
  exact List.mem_map_of_mem hmem

theorem meets_accept_misses (h : Running H c anyFrame g d) (hanchor : d.anchor ≠ none) {conn : Connection} {raw : Bytes}
    {batch : BatchFrameV1} (hdecode : decodeBatchFrame H raw = .ok batch) (w : Surroundings)
    (hmiss : Misses H (d.journal c) g.wal.entries) :
    Meets (acceptBatch H c g conn raw batch w) d (fun t => Misses H (t.journal c) g.wal.entries)
      (fun _ t => Misses H (t.journal c) g.wal.entries) (fun _ t => Misses H (t.journal c) g.wal.entries) := by
  rcases acceptBatch_cases H c g conn raw batch w d with ⟨ack, terminal, hrun, -⟩ | ⟨err, hrun, -⟩ |
    ⟨-, stored, -, -, hrun⟩ | ⟨-, hfind, hwal, hrun⟩ | ⟨-, -, hwal, hrun⟩
  · exact meets_of_ok hrun (crashAt_nil_of hmiss) hmiss
  · exact meets_of_error hrun (crashAt_nil_of hmiss) hmiss
  · exact meets_of_ok hrun (crashAt_nil_of hmiss) hmiss
  · obtain ⟨err, hrun', -⟩ := h.retransmitted_pruned raw hanchor hfind hwal w
    exact meets_of_error (hrun.trans hrun') (crashAt_nil_of hmiss) hmiss
  · have hnot : ∀ {t}, NotJournaled d t → Misses H (t.journal c) g.wal.entries := by
      intro t hnot
      rw [hnot.journal]
      exact hmiss
    have hpush : ∀ {entry t}, Journaled H c d entry batch t → Misses H (t.journal c) g.wal.entries := by
      intro entry t hjournaled
      rw [hjournaled.journal]
      exact hmiss.push (findWALIdentity_none hwal)
    refine meets_congr hrun ((meets_appendBatch h.opened (fun _ he => new_of_appends trivial hdecode hwal he) batch _ w).mono
      ?_ ?_ ?_)
    · rintro t (⟨hsame, -⟩ | ⟨entry, -, hjournaled, -⟩)
      · exact hnot hsame
      · exact hpush hjournaled
    · rintro r t (⟨rfl, -⟩ | ⟨entry, -, hjournaled, -⟩)
      · exact hmiss
      · exact hpush hjournaled
    · rintro r t (⟨hsame, -⟩ | ⟨entry, -, hsame, -⟩)
      · exact hnot hsame
      · exact hnot hsame

/-! ## No `Start` gets through -/

/-- The durable state with a retained entry that has no row. -/
structure Lost (H : Hashes) (c : Config) (d : Durable) (entries : List Entry) : Prop where
  resting : Resting H c anyFrame d entries
  anchored : d.anchor ≠ none
  misses : Misses H (d.journal c) entries

theorem Lost.of_same {t : Durable} (h : Lost H c d entries) (hsame : SameStores c d t) : Lost H c t entries where
  resting := h.resting.of_same hsame
  anchored := hsame.anchor ▸ h.anchored
  misses := hsame.journal ▸ h.misses

/-- **`Recover` never succeeds** over an anchor with a row missing. -/
theorem meets_start_lost (h : Lost H c d entries) (gate : DiskStateMachine) (nowS : Int64) (nowMS : UInt64)
    (faults : TxFaults) :
    Meets (startGateway H c gate nowS nowMS faults) d (fun t => Lost H c t entries) (fun _ _ => False)
      (fun _ t => Lost H c t entries) := by
  have hwal : ∀ disk, Holds H c.gatewayInstanceID d.anchor entries disk → Lost H c { d with disk } entries :=
    fun _ hholds => ⟨⟨hholds, h.resting.collected, h.resting.lags⟩, h.anchored, h.misses⟩
  unfold startGateway
  refine meets_read_bind (meets_bind (meets_mapError (meets_onWal ?_)))
  refine (meets_start h.resting.holds nowS).mono (fun disk hd => hwal disk hd) (fun wal disk hs => ?_)
    (fun _ disk hd => hwal disk hd)
  obtain ⟨hok, hserves⟩ := hs
  have hlost := hwal disk hserves.holds
  have hopen : Open H c.gatewayInstanceID (fun _ => True) d.anchor entries wal disk := .inl hserves
  refine meets_bind ((meets_openJournal _).mono (fun t ht => hlost.of_same ht) (fun _ t hsame => ?_)
    (fun _ t ht => hlost.of_same ht))
  unfold recover
  refine meets_bind (meets_bind ((meets_publishWallClock nowMS t).mono
    (fun u hu => hlost.of_same (hsame.trans hu)) (fun _ u hu => ?_) (fun _ u hu => hlost.of_same (hsame.trans hu))))
  have hlost' := hlost.of_same (hsame.trans hu)
  have hpruned : wal.prunedThrough ≠ 0 := by
    rw [hopen.pruned_eq]
    exact prunedThrough_ne_zero hok h.anchored
  obtain ⟨err, hrun, -⟩ := reconcile_of_misses hpruned (hopen.entries_eq.symm ▸ hlost'.misses) faults
  exact meets_of_error hrun (crashAt_nil_of hlost') hlost'

/-- A world in which a retained entry has no row. -/
def Stuck (H : Hashes) (c : Config) (world : World) : Prop :=
  match world.process with
  | none => ∃ entries, Lost H c world.durable entries
  | some p => Running H c anyFrame p.gateway world.durable ∧ world.durable.anchor ≠ none ∧
      Misses H (world.durable.journal c) p.gateway.wal.entries

theorem misses_step {p : Process} {world' : World} {event : Event} (h : Running H c anyFrame p.gateway d)
    (hanchor : d.anchor ≠ none) (hmiss : Misses H (d.journal c) p.gateway.wal.entries)
    (hstep : Step H c ⟨d, some p⟩ event world') :
    Misses H (world'.durable.journal c) p.gateway.wal.entries ∧ event ≠ .started := by
  cases hstep with
  | accept w _ hdecode hrun => exact ⟨(meets_accept_misses h hanchor hdecode w hmiss).ok _ _ hrun, by simp⟩
  | acceptFailed w _ hdecode hrun => exact ⟨(meets_accept_misses h hanchor hdecode w hmiss).error _ _ hrun, by simp⟩
  | acceptCrashed w _ hdecode hcrash => exact ⟨(meets_accept_misses h hanchor hdecode w hmiss).crash _ hcrash, by simp⟩
  | rotate now => exact ⟨(h.rotated now).2.2.1.symm ▸ hmiss, by simp⟩
  | rotateCrashed now hcrash =>
    obtain ⟨disk, -, rfl⟩ := crashAt_wal hcrash
    exact ⟨hmiss, by simp⟩
  | hello | helloRefused | touch | release | stop => exact ⟨hmiss, by simp⟩

theorem stuck_step {world world' : World} {event : Event} (h : Stuck H c world) (hstep : Step H c world event world')
    (hprune : event ≠ .pruned) : Stuck H c world' ∧ event ≠ .started := by
  obtain ⟨d, _ | p⟩ := world
  · obtain ⟨entries, hlost⟩ := h
    cases hstep with
    | start disk nowS nowMS faults hrun => exact ((meets_start_lost hlost disk nowS nowMS faults).ok _ _ hrun).elim
    | startFailed disk nowS nowMS faults hrun =>
      exact ⟨⟨entries, (meets_start_lost hlost disk nowS nowMS faults).error _ _ hrun⟩, by simp⟩
    | startCrashed disk nowS nowMS faults hcrash =>
      exact ⟨⟨entries, (meets_start_lost hlost disk nowS nowMS faults).crash _ hcrash⟩, by simp⟩
    | prune => exact absurd rfl hprune
  · obtain ⟨hrunning, hanchor, hmiss⟩ := h
    obtain ⟨hsame, hstands⟩ := running_step hrunning hstep
    obtain ⟨hmiss', hevent⟩ := misses_step hrunning hanchor hmiss hstep
    obtain ⟨d', _ | p'⟩ := world'
    · obtain ⟨entries, hgrows, hrest⟩ := hstands
      exact ⟨⟨entries, hrest, hsame ▸ hanchor, hmiss'.mono hgrows⟩, hevent⟩
    · exact ⟨⟨hstands.2, hsame ▸ hanchor, hmiss'.mono hstands.1⟩, hevent⟩

theorem stuck_steps {world world' : World} {later : List Event} (h : Stuck H c world)
    (hsteps : Steps H c world later world') (hprune : .pruned ∉ later) : Stuck H c world' ∧ .started ∉ later := by
  induction hsteps with
  | refl => exact ⟨h, by simp⟩
  | step _ hstep ih =>
    rw [List.mem_cons, not_or] at hprune
    obtain ⟨hstuck, hstarted⟩ := ih hprune.2
    obtain ⟨hstuck', hevent⟩ := stuck_step hstuck hstep (Ne.symm hprune.1)
    exact ⟨hstuck', by simp [hstarted, Ne.symm hevent]⟩

/-! ## How an entry is left without its row -/

/-- The durable state between the append of a call and its transaction. -/
def afterAppend (H : Hashes) (g : Gateway) (raw : Bytes) (w : Surroundings) (d : Durable) : Option Durable :=
  match (g.wal.append H raw w.wallS w.monotonicUS w.append).run d.disk with
  | (ops, .ok _) => some { d with disk := runAll ops d.disk }
  | (_, .error _) => none

/-- The worlds in which a call has appended its entry and not committed its row: it crashes there, or the transaction
fails. -/
inductive AppendedOnly (H : Hashes) (c : Config) (d : Durable) (p : Process) (conn : Connection) (raw : Bytes)
    (batch : BatchFrameV1) (w : Surroundings) : World → Prop
  | crashed {d' : Durable} (hcrash : (acceptBatch H c p.gateway conn raw batch w).CrashIn d d')
      (happended : afterAppend H p.gateway raw w d = some d') : AppendedOnly H c d p conn raw batch w ⟨d', none⟩
  | failed {ops : List DurableOp} {g : Gateway} {err : JournalError}
      (hcall : (acceptBatch H c p.gateway conn raw batch w).run d = (ops, .error (g, .apply err))) :
    AppendedOnly H c d p conn raw batch w ⟨runAll ops d, some { p with gateway := g }⟩

section
variable {conn : Connection} {raw : Bytes} {batch : BatchFrameV1} {w : Surroundings}

theorem misses_appended {entry : Entry} (hdecode : decodeBatchFrame H raw = .ok batch)
    (hfind : (d.journal c).find batch.producerSessionID batch.batchSequence = none)
    (hentry : Appends H g.wal raw entry) : Misses H (d.journal c) (entries ++ [entry]) :=
  ⟨entry, by simp, batch, hentry.frame_eq ▸ hdecode, hfind⟩

theorem afterAppend_ne {d' : Durable} (h : Running H c anyFrame g d) (happended : afterAppend H g raw w d = some d') :
    d' ≠ d := by
  unfold afterAppend at happended
  split at happended
  · rename_i ops r hrun
    obtain rfl := Option.some.inj happended
    exact fun heq => append_grows h.opened hrun (congrArg Durable.disk heq)
  · cases happended

/-- The entry of a crashed call is lost. -/
theorem lost_of_crash {d' : Durable} (h : Running H c anyFrame g d) (hanchor : d.anchor ≠ none)
    (hdecode : decodeBatchFrame H raw = .ok batch) (hcrash : (acceptBatch H c g conn raw batch w).CrashIn d d')
    (happended : afterAppend H g raw w d = some d') : ∃ entries, Lost H c d' entries := by
  have hmoved := afterAppend_ne h happended
  have hstill : ∀ r, (acceptBatch H c g conn raw batch w).run d = ([], r) → ∃ entries, Lost H c d' entries := by
    intro r hrun
    rw [Prog.CrashIn, hrun, crashAt_nil] at hcrash
    exact absurd hcrash hmoved
  rcases acceptBatch_cases H c g conn raw batch w d with ⟨ack, terminal, hrun, -⟩ | ⟨err, hrun, -⟩ |
    ⟨-, stored, -, -, hrun⟩ | ⟨-, hfind, hwal, hrun⟩ | ⟨-, hfind, hwal, -⟩
  · exact hstill _ hrun
  · exact hstill _ hrun
  · exact hstill _ hrun
  · obtain ⟨err, hrun', -⟩ := h.retransmitted_pruned raw hanchor hfind hwal w
    exact hstill _ (hrun.trans hrun')
  · unfold afterAppend at happended
    split at happended
    · rename_i ops r hrun
      obtain rfl := Option.some.inj happended
      have hnew : ∀ entry, Appends H g.wal raw entry → New H anyFrame g.wal.entries entry := fun _ =>
        new_of_appends trivial hdecode hwal
      obtain ⟨hentry, hserves⟩ := (meets_append h.opened raw w.wallS w.monotonicUS w.append hnew).ok _ _ hrun
      exact ⟨_, ⟨hserves.holds, h.collected.append (hnew _ hentry), fun hnone => absurd hnone hanchor⟩, hanchor,
        misses_appended hdecode hfind hentry⟩
    · cases happended

theorem stuck_of_appendedOnly {p : Process} {world : World} (h : Running H c anyFrame p.gateway d) (hanchor : d.anchor ≠ none)
    (hdecode : decodeBatchFrame H raw = .ok batch) (hworld : AppendedOnly H c d p conn raw batch w world) :
    Stuck H c world := by
  cases hworld with
  | crashed hcrash happended => exact lost_of_crash h hanchor hdecode hcrash happended
  | failed hcall =>
    obtain ⟨hsame, -, hrunning⟩ := (meets_acceptBatch h trivial hdecode w).error _ _ hcall
    refine ⟨hrunning, hsame ▸ hanchor, ?_⟩
    rcases acceptBatch_cases H c p.gateway conn raw batch w d with ⟨ack, terminal, hrun, -⟩ | ⟨err, hrun, herr⟩ |
      ⟨-, stored, -, -, hrun⟩ | ⟨-, hfind, hwal, hrun⟩ | ⟨-, hfind, hwal, hrun⟩
    · rw [hrun] at hcall
      cases hcall
    · rw [hrun] at hcall
      cases hcall
      cases herr
    · rw [hrun] at hcall
      cases hcall
    · obtain ⟨err, hrun', herr⟩ := h.retransmitted_pruned raw hanchor hfind hwal w
      rw [hrun, hrun'] at hcall
      cases hcall
      cases herr
    · rw [hrun] at hcall
      rcases (meets_appendBatch h.opened (fun _ he => new_of_appends trivial hdecode hwal he) batch _ w).error _ _ hcall
        with ⟨-, -, herr⟩ | ⟨entry, hentry, hnot, hserves, -⟩
      · cases herr
      · have hopen : Open H c.gatewayInstanceID (fun _ => True) d.anchor (p.gateway.wal.entries ++ [entry]) _ _ :=
          .inl hserves
        rw [hopen.entries_eq, hnot.journal]
        exact misses_appended hdecode hfind hentry

/-- **After a prune a lagging journal is never repaired.** If a call has appended its entry and not committed its row,
then no `Start` succeeds any more, whatever happens, until a further prune. -/
theorem lagging_never_recovered {events : List Event} {p : Process} (hrun : Run H c events ⟨d, some p⟩)
    (hanchor : d.anchor ≠ none) (hdecode : decodeBatchFrame H raw = .ok batch) {world world' : World}
    (hworld : AppendedOnly H c d p conn raw batch w world) {later : List Event}
    (hlater : Steps H c world later world') (hprune : .pruned ∉ later) : .started ∉ later :=
  (stuck_steps (stuck_of_appendedOnly (running_of_run hrun) hanchor hdecode hworld) hlater hprune).2

end

def smallPruned : List Action :=
  smallFirst ++ [.rotate 0, .stop, .prune, .start smallGate 0 1 noFaults, .hello (smallHello (ascii "X")) 0]

/-- Batch 1 is journaled, sealed and pruned; the call for batch 2 stops after its append. -/
theorem lagging_never_recovered_second : ∃ events d p world,
    Run Hashes.sample smallConfig events ⟨d, some p⟩ ∧ d.anchor ≠ none ∧
    AppendedOnly Hashes.sample smallConfig d p (smallConnection (ascii "X") 1)
      (batchFrame Hashes.sample (smallBatch (ascii "X") 2)) (smallBatch (ascii "X") 2) (smallSurroundings noFaults) world ∧
    ∀ later world', Steps Hashes.sample smallConfig world later world' → .pruned ∉ later → .started ∉ later := by
  obtain ⟨events, d, p, hrun, hcheck⟩ := exists_running (H := Hashes.sample) (c := smallConfig)
    smallPruned
    (fun _ d p => decide (d.anchor ≠ none ∧
      afterAppend Hashes.sample p.gateway (batchFrame Hashes.sample (smallBatch (ascii "X") 2))
        (smallSurroundings noFaults) d =
      some (runAll (((acceptBatch Hashes.sample smallConfig p.gateway (smallConnection (ascii "X") 1)
        (batchFrame Hashes.sample (smallBatch (ascii "X") 2)) (smallBatch (ascii "X") 2)
        (smallSurroundings noFaults)).run d).1.take 1) d)))
    (by decide +kernel)
  obtain ⟨hanchor, happended⟩ := of_decide_eq_true hcheck
  have hworld := AppendedOnly.crashed (crashAt_take _ 1 d) happended
  exact ⟨events, d, p, _, hrun, hanchor, hworld, fun later world' hlater hprune =>
    lagging_never_recovered hrun hanchor (by decide +kernel) hworld hlater hprune⟩

/-- What the next `Recover` says then. -/
theorem lagging_recover_fails : ∃ events world,
    Run Hashes.sample smallConfig
      (.startFailed (.wal (.integrity "journal does not match retained WAL after prune anchor")) :: .crashed :: events)
      world ∧ world.durable.anchor ≠ none := by
  obtain ⟨events, world, hrun, hcheck⟩ := exists_run (H := Hashes.sample) (c := smallConfig)
    (smallPruned ++ [.acceptCrash (smallConnection (ascii "X") 1) (batchFrame Hashes.sample (smallBatch (ascii "X") 2))
      (smallSurroundings noFaults) 1, .start smallGate 0 1 noFaults])
    (fun r => decide (r.2.durable.anchor ≠ none ∧ r.1.take 2 =
      [.startFailed (.wal (.integrity "journal does not match retained WAL after prune anchor")), .crashed]))
    (by decide +kernel)
  obtain ⟨hanchor, htake⟩ := of_decide_eq_true hcheck
  refine ⟨events.drop 2, world, ?_, hanchor⟩
  rw [← List.take_append_drop 2 events, htake] at hrun
  exact hrun

end TickPlatform.Ingest
