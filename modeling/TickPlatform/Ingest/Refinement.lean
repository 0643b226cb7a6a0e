import TickPlatform.Ingest.History

/-!
# Acknowledgements and the journal

When an acknowledged batch leaves the journal equal to the fold of `outcomeForBatch` and `Apply` over the WAL.
-/

namespace TickPlatform.Ingest

open Bytes Protocol Crash Wal Journal

variable {H : Hashes} {c : Config} {entries : List Entry}

/-- Statuses 1 to 5: the producer may forget the batch. -/
def Acknowledged (ack : AckV1) : Prop := ackAcceptedAdvanced ≤ ack.status ∧ ack.status ≤ ackDenseUnresolved

instance (ack : AckV1) : Decidable (Acknowledged ack) := inferInstanceAs (Decidable (_ ∧ _))

theorem not_acknowledged {ack : AckV1} {status : UInt8} (h : ack.status = status) (hstatus : ackDenseUnresolved < status) :
    ¬ Acknowledged ack := by
  rw [Acknowledged, h]
  exact fun hle => UInt8.not_lt.mpr hle.2 hstatus

/-- One row per entry, and rows and state are the fold over the entries from the initial state. -/
def Refines (H : Hashes) (c : Config) (db : Db) (entries : List Entry) : Prop :=
  db.count = entries.length ∧ db = journalOf H c entries

instance (db : Db) (entries : List Entry) : Decidable (Refines H c db entries) := inferInstanceAs (Decidable (_ ∧ _))

theorem Lags.refines_iff {db : Db} (h : Lags H c db entries) : Refines H c db entries ↔ db.count = entries.length :=
  ⟨fun hrefines => hrefines.1, fun hcount => ⟨hcount, h.eq_of_count hcount⟩⟩

theorem refines_journalOf (h : ∀ entry ∈ entries, entry.Sound H) : Refines H c (journalOf H c entries) entries :=
  ⟨count_journalOf h, rfl⟩

/-- **When an acknowledgement means that the journal refines the WAL**: the journal was up to date before the call,
or the call was a retransmission of a batch that only the WAL has. -/
theorem acknowledged_refines_iff {events : List Event} {d : Durable} {p : Process} (hrun : Run H c events ⟨d, some p⟩)
    (hanchor : d.anchor = none) {conn : Connection} {raw : Bytes} {batch : BatchFrameV1}
    (hdecode : decodeBatchFrame H raw = .ok batch) {w : Surroundings} {ops : List DurableOp} {g : Gateway} {ack : AckV1}
    {terminal : Bool} (hcall : (acceptBatch H c p.gateway conn raw batch w).run d = (ops, .ok (g, ack, terminal)))
    (hack : Acknowledged ack) :
    Refines H c ((runAll ops d).journal c) g.wal.entries ↔
      (d.journal c).count = p.gateway.wal.entries.length ∨
      (d.journal c).find batch.producerSessionID batch.batchSequence = none ∧
        some (batch.producerSessionID, batch.batchSequence) ∈ p.gateway.wal.entries.map (identityOf H) := by
  have hrunning := running_of_run hrun
  have hlags := hrunning.lags hanchor
  rcases acceptBatch_cases H c p.gateway conn raw batch w d with ⟨ack', terminal', hrun', hstatus⟩ |
    ⟨err, hrun', -⟩ | ⟨-, stored, hfind, -, hrun'⟩ | ⟨hadmitted, hfind, hwal, hrun'⟩ | ⟨-, hfind, hwal, hrun'⟩
  · rw [hrun', Prod.mk.injEq, Except.ok.injEq, Prod.mk.injEq, Prod.mk.injEq] at hcall
    obtain ⟨-, -, rfl, -⟩ := hcall
    rcases hstatus with hstatus | hstatus <;> exact absurd hack (not_acknowledged hstatus (by decide))
  · rw [hrun'] at hcall
    cases hcall
  · rw [hrun', Prod.mk.injEq, Except.ok.injEq, Prod.mk.injEq] at hcall
    obtain ⟨rfl, rfl, -⟩ := hcall
    rw [runAll_nil, hlags.refines_iff, hfind]
    simp
  · rw [hrun'] at hcall
    obtain ⟨-, hjournal, stored, -, hreply⟩ := (meets_answerRetransmitted hrunning.opened hanchor hlags
      hadmitted.sequence (findWALIdentity_some hwal) _ w).ok _ _ hcall
    have hg : g = p.gateway := by
      rw [← answerStored_gateway p.gateway batch (gatewayBatchSHA256 H raw) stored, ← hreply]
    rw [hjournal, hg]
    exact iff_of_true (refines_journalOf hrunning.opened.sound) (.inr ⟨hfind, findWALIdentity_some hwal⟩)
  · rw [hrun'] at hcall
    have habsent := findWALIdentity_none hwal
    rcases (meets_appendBatch hrunning.opened (fun _ he => new_of_appends trivial hdecode hwal he) batch _ w).ok _ _ hcall
      with ⟨-, -, hstatus⟩ | ⟨entry, hentry, hjournaled, hserves, -⟩
    · exact absurd hack (not_acknowledged hstatus (by decide))
    · have hnew : New H anyFrame p.gateway.wal.entries entry := new_of_appends trivial hdecode hwal hentry
      rw [← hentry.frame_eq] at hdecode
      obtain ⟨hentries, -⟩ := hrunning.appended hjournaled.anchor hnew hserves
        (fun _ => hjournaled.lags hlags hdecode)
      rw [hentries, (hjournaled.lags hlags hdecode).refines_iff, hjournaled.journal, Db.count, push_rows]
      simp [habsent, Db.count]

/-- The first batch of a gateway. -/
theorem acknowledged_refines_iff_first : ∃ events d p conn raw ops g ack terminal,
    Run Hashes.sample smallConfig events ⟨d, some p⟩ ∧
    (acceptBatch Hashes.sample smallConfig p.gateway conn raw (smallBatch (ascii "X") 1) (smallSurroundings noFaults)).run
      d = (ops, .ok (g, ack, terminal)) ∧
    Acknowledged ack ∧ Refines Hashes.sample smallConfig ((runAll ops d).journal smallConfig) g.wal.entries := by
  obtain ⟨events, d, p, hrun, hcheck⟩ := exists_running (H := Hashes.sample) (c := smallConfig)
    [.start smallGate 0 1 noFaults, .hello (smallHello (ascii "X")) 0]
    (fun _ d p => decide (d.anchor = none ∧ (d.journal smallConfig).count = p.gateway.wal.entries.length) &&
      ((acceptBatch Hashes.sample smallConfig p.gateway (smallConnection (ascii "X") 1)
        (batchFrame Hashes.sample (smallBatch (ascii "X") 1)) (smallBatch (ascii "X") 1)
        (smallSurroundings noFaults)).run d).2.toOption.any fun r => decide (Acknowledged r.2.1))
    (by decide +kernel)
  rw [Bool.and_eq_true, decide_eq_true_eq, Option.any_eq_true] at hcheck
  obtain ⟨⟨hanchor, hcount⟩, ⟨g, ack, terminal⟩, hok, hack⟩ := hcheck
  have hcall := Prog.run_eq_ok hok
  exact ⟨events, d, p, _, _, _, g, ack, terminal, hrun, hcall, of_decide_eq_true hack,
    (acknowledged_refines_iff hrun hanchor (by decide +kernel) hcall (of_decide_eq_true hack)).mpr (.inl hcount)⟩

/-- The transaction of the first batch fails, and the second batch is acknowledged: one row and two entries. -/
theorem acknowledged_behind : ∃ events conn raw ack d p,
    Run Hashes.sample smallConfig (.acked conn raw ack :: events) ⟨d, some p⟩ ∧ d.anchor = none ∧ Acknowledged ack ∧
    (d.journal smallConfig).count = 1 ∧ p.gateway.wal.entries.length = 2 ∧
    ¬ Refines Hashes.sample smallConfig (d.journal smallConfig) p.gateway.wal.entries := by
  obtain ⟨events, d, p, hrun, hcheck⟩ := exists_running (H := Hashes.sample) (c := smallConfig)
    [.start smallGate 0 1 noFaults, .hello (smallHello (ascii "X")) 0,
      .accept (smallConnection (ascii "X") 1) (batchFrame Hashes.sample (smallBatch (ascii "X") 1))
        (smallSurroundings fun _ => some .commit),
      .release (smallConnection (ascii "X") 1), .hello (smallHello (ascii "X")) 0,
      .accept (smallConnection (ascii "X") 2) (batchFrame Hashes.sample (smallBatch (ascii "X") 2))
        (smallSurroundings noFaults)]
    (fun events d p => decide (d.anchor = none ∧ (d.journal smallConfig).count = 1 ∧
        p.gateway.wal.entries.length = 2) &&
      events.head?.any fun event => event.ack?.any fun seen => decide (Acknowledged seen.2.2))
    (by decide +kernel)
  rw [Bool.and_eq_true, decide_eq_true_eq, Option.any_eq_true] at hcheck
  obtain ⟨⟨hanchor, hcount, hlength⟩, event, hhead, hevent⟩ := hcheck
  obtain ⟨⟨conn, raw, ack⟩, hseen, hack⟩ := (Option.any_eq_true _ _).mp hevent
  obtain rfl := Event.ack?_eq_some hseen
  obtain ⟨earlier, rfl⟩ := List.head?_eq_some_iff.mp hhead
  refine ⟨earlier, conn, raw, ack, d, p, hrun, hanchor, of_decide_eq_true hack, hcount, hlength, fun hrefines => ?_⟩
  rw [Refines, hcount, hlength] at hrefines
  exact absurd hrefines.1 (by decide)

end TickPlatform.Ingest
