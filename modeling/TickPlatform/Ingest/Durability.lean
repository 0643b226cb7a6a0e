import Mathlib.Data.List.Nodup
import TickPlatform.Ingest.Refinement

/-!
# Acknowledgements are durable and idempotent

While no journal transaction fails and nothing is pruned, the journal of a running gateway is that of its WAL, so
that the row behind an acknowledgement stays where it is.
-/

namespace TickPlatform.Ingest

open Bytes Protocol Crash Wal Journal

variable {H : Hashes} {c : Config} {entries : List Entry} {raw : Bytes} {batch : BatchFrameV1} {ack : AckV1}

/-! ## The rows of a WAL -/

theorem rows_journalOf_grow (entries more : List Entry) :
    (journalOf H c entries).rows <+: (journalOf H c (entries ++ more)).rows := by
  induction more using List.reverseRecOn with
  | nil => simp
  | append_singleton more entry ih =>
    rw [← List.append_assoc, journalOf_append]
    refine ih.trans ?_
    unfold journalStep
    split
    · rw [push_rows]
      exact List.prefix_append _ _
    · exact List.prefix_rfl

variable {row : Batch}

theorem entry_of_row (h : row ∈ (journalOf H c entries).rows) :
    ∃ entry ∈ entries, ∃ batch outcome, row = makeRow entry batch outcome := by
  induction entries using List.reverseRecOn with
  | nil => cases h
  | append_singleton entries entry ih =>
    have hearlier : row ∈ (journalOf H c entries).rows →
        ∃ x ∈ entries ++ [entry], ∃ batch outcome, row = makeRow x batch outcome := by
      intro hrow
      obtain ⟨x, hx, hmade⟩ := ih hrow
      exact ⟨x, List.mem_append_left _ hx, hmade⟩
    rw [journalOf_append] at h
    unfold journalStep at h
    split at h
    · rename_i batch _
      rw [push_rows, List.mem_append, List.mem_singleton] at h
      rcases h with h | h
      · exact hearlier h
      · exact ⟨entry, by simp, batch, _, h⟩
    · exact hearlier h

theorem find_row (hsound : ∀ entry ∈ entries, entry.Sound H) (hdistinct : Distinct H entries)
    (h : row ∈ (journalOf H c entries).rows) :
    (journalOf H c entries).find row.producerSessionID row.batchSequence = some row := by
  rw [Distinct, ← identities_journalOf (c := c) hsound] at hdistinct
  cases hfind : (journalOf H c entries).find row.producerSessionID row.batchSequence with
  | none => exact absurd (List.mem_map_of_mem h) (find_eq_none.mp hfind)
  | some found =>
    obtain ⟨hmem, hsession, hsequence⟩ := find_eq_some hfind
    refine congrArg some (List.inj_on_of_nodup_map hdistinct hmem h ?_)
    rw [rowIdentity, hsession, hsequence]
    rfl

theorem Distinct.frames (h : Distinct H entries) : (entries.map (·.frame)).Nodup := by
  refine List.Nodup.of_map (frameIdentity H) ?_
  rw [List.map_map]
  exact h

/-! ## What an acknowledgement leaves -/

/-- The row behind an acknowledgement of a frame. -/
structure Recorded (H : Hashes) (c : Config) (entries : List Entry) (raw : Bytes) (ack : AckV1) (batch : BatchFrameV1)
    (row : Batch) : Prop where
  decodes : decodeBatchFrame H raw = .ok batch
  records : UInt32.ofNat batch.records.length ≤ c.maxRecords
  requested : batch.requestedCount ≤ c.maximumBatchCount
  sequence : batch.batchSequence ≤ maxInt64
  mem : row ∈ (journalOf H c entries).rows
  identity : rowIdentity row = (batch.producerSessionID, batch.batchSequence)
  hash : row.gatewayBatchSHA256 = gatewayBatchSHA256 H raw
  answer : ack = ackFromBatch row ack.status

theorem Recorded.mono {entries' : List Entry} (h : Recorded H c entries raw ack batch row)
    (hgrows : entries <+: entries') : Recorded H c entries' raw ack batch row := by
  obtain ⟨more, rfl⟩ := hgrows
  exact { h with mem := (rows_journalOf_grow entries more).subset h.mem }

/-- Every acknowledged frame has its row. -/
def AllRecorded (H : Hashes) (c : Config) (entries : List Entry) (events : List Event) : Prop :=
  ∀ conn raw ack, .acked conn raw ack ∈ events → Acknowledged ack → ∃ batch row, Recorded H c entries raw ack batch row

variable {events : List Event}

theorem AllRecorded.mono {entries' : List Entry} (h : AllRecorded H c entries events)
    (hgrows : entries <+: entries') : AllRecorded H c entries' events := by
  intro conn raw ack hmem hack
  obtain ⟨batch, row, hrecorded⟩ := h conn raw ack hmem hack
  exact ⟨batch, row, hrecorded.mono hgrows⟩

variable {event : Event}

theorem AllRecorded.cons (h : AllRecorded H c entries events)
    (hevent : ∀ conn raw ack, event = .acked conn raw ack → Acknowledged ack →
      ∃ batch row, Recorded H c entries raw ack batch row) : AllRecorded H c entries (event :: events) := by
  intro conn raw ack hmem hack
  rcases List.mem_cons.mp hmem with heq | hmem
  · exact hevent conn raw ack heq.symm hack
  · exact h conn raw ack hmem hack

section
variable {g g' : Gateway} {d : Durable} {conn : Connection} {w : Surroundings} {ops : List DurableOp}

theorem Journaled.inStep {t : Durable} {entry : Entry} (h : Journaled H c d entry batch t)
    (hjournal : d.journal c = journalOf H c entries) (hbatch : decodeBatchFrame H entry.frame = .ok batch) :
    t.journal c = journalOf H c (entries ++ [entry]) := by
  rw [h.journal, journalOf_append, journalStep_decoded hbatch, hjournal]

theorem not_retransmitted (h : Running H c anyFrame g d) (hjournal : d.journal c = journalOf H c g.wal.entries) {hash : Digest}
    (hfind : (d.journal c).find batch.producerSessionID batch.batchSequence = none) :
    findWALIdentity H batch.producerSessionID batch.batchSequence hash g.wal.entries ≠ .ok (some true) := by
  intro hwal
  rw [hjournal] at hfind
  exact (find_journalOf h.opened.sound).mp hfind (findWALIdentity_some hwal)

/-- **A call leaves the journal in step with the WAL**, a failed transaction apart, and an acknowledgement has its
row. -/
theorem meets_accept_inStep (h : Running H c anyFrame g d) (hjournal : d.journal c = journalOf H c g.wal.entries)
    (hdecode : decodeBatchFrame H raw = .ok batch) (w : Surroundings) :
    Meets (acceptBatch H c g conn raw batch w) d (fun _ => True)
      (fun r t => t.journal c = journalOf H c r.1.wal.entries ∧
        (Acknowledged r.2.1 → ∃ row, Recorded H c r.1.wal.entries raw r.2.1 batch row))
      (fun r t => r.2.isTransaction = false → t.journal c = journalOf H c r.1.wal.entries) := by
  rcases acceptBatch_cases H c g conn raw batch w d with ⟨ack', terminal', hrun, hstatus⟩ | ⟨err, hrun, -⟩ |
    ⟨hadmitted, stored, hfind, hhash, hrun⟩ | ⟨-, hfind, hwal, -⟩ | ⟨hadmitted, hfind, hwal, hrun⟩
  · refine meets_of_ok hrun (fun _ _ => trivial) ⟨hjournal, fun hack => ?_⟩
    rcases hstatus with hstatus | hstatus <;> exact absurd hack (not_acknowledged hstatus (by decide))
  · exact meets_of_error hrun (fun _ _ => trivial) fun _ => hjournal
  · rw [hjournal] at hfind
    obtain ⟨hmem, hsession, hsequence⟩ := find_eq_some hfind
    exact meets_of_ok hrun (fun _ _ => trivial) ⟨hjournal, fun _ => ⟨stored, hdecode, hadmitted.records,
      hadmitted.requested, hadmitted.sequence, hmem, Prod.ext hsession hsequence, hhash, rfl⟩⟩
  · exact absurd hwal (not_retransmitted h hjournal hfind)
  · have hnew : ∀ entry, Appends H g.wal raw entry → New H anyFrame g.wal.entries entry := fun _ =>
      new_of_appends trivial hdecode hwal
    refine meets_congr hrun ((meets_appendBatch h.opened hnew batch _ w).mono (fun _ _ => trivial) ?_ ?_)
    · rintro ⟨g', ack, terminal⟩ t (⟨rfl, hsame, hstatus⟩ | ⟨entry, hentry, hjournaled, hserves, hstatus⟩)
      · refine ⟨?_, fun hack => absurd hack (not_acknowledged hstatus (by decide))⟩
        rw [hsame]
        exact hjournal
      · have hbatch := hdecode
        rw [← hentry.frame_eq] at hbatch
        obtain ⟨hentries, -⟩ := h.appended hjournaled.anchor (hnew entry hentry) hserves
          fun hnone => hjournaled.lags (h.lags hnone) hbatch
        have hstep := hjournaled.inStep hjournal hbatch
        rw [hentries]
        refine ⟨hstep, fun hack => ?_⟩
        rcases hstatus with hstatus | hanswer
        · exact absurd hack (not_acknowledged hstatus (by decide))
        · refine ⟨makeRow entry batch (outcomeForBatch H (d.journal c).state batch c), hdecode, hadmitted.records,
            hadmitted.requested, hadmitted.sequence, ?_, rfl, hentry.batchHash_eq, ?_⟩
          · rw [← hstep, hjournaled.journal, push_rows]
            exact List.mem_append_right _ (List.mem_singleton_self _)
          · rw [hanswer]
            rfl
    · rintro ⟨g', err⟩ t (⟨hnot, hopen, -⟩ | ⟨entry, -, -, -, htx⟩) herr
      · rw [hnot.journal, hjournal, hopen.entries_eq]
      · rw [htx] at herr
        cases herr

end

/-! ## Over a history -/

/-- The state of a history without a prune and without a failed transaction. -/
def InStep (H : Hashes) (c : Config) (events : List Event) (world : World) : Prop :=
  match world.process with
  | none => ∃ entries, Resting H c anyFrame world.durable entries ∧ AllRecorded H c entries events
  | some p => Running H c anyFrame p.gateway world.durable ∧
      world.durable.journal c = journalOf H c p.gateway.wal.entries ∧ AllRecorded H c p.gateway.wal.entries events

/-- A journal transaction failed. -/
def Event.failsTransaction : Event → Bool
  | .failed _ err => err.isTransaction
  | _ => false

/-- The journal of a running gateway stays in step, and what is acknowledged has its row. -/
theorem journal_step {d : Durable} {p : Process} {world' : World} (h : Running H c anyFrame p.gateway d)
    (hjournal : d.journal c = journalOf H c p.gateway.wal.entries) (hstep : Step H c ⟨d, some p⟩ event world')
    (hcommitted : event.failsTransaction = false) {p' : Process} (hp : world'.process = some p') :
    world'.durable.journal c = journalOf H c p'.gateway.wal.entries ∧
      ∀ conn raw ack, event = .acked conn raw ack → Acknowledged ack →
        ∃ batch row, Recorded H c p'.gateway.wal.entries raw ack batch row := by
  have hsame : ∀ g : Gateway, g.wal = p.gateway.wal → d.journal c = journalOf H c g.wal.entries := fun _ hwal => hwal ▸ hjournal
  cases hstep with
  | hello hello now hrun =>
    cases hp
    exact ⟨hsame _ ((congrArg (·.1.wal) hrun).symm.trans (startSession_wal _ hello now)), by simp⟩
  | helloRefused hello now hrun =>
    cases hp
    exact ⟨hsame _ ((congrArg (·.1.wal) hrun).symm.trans (startSession_wal _ hello now)), by simp⟩
  | accept w _ hdecode hrun =>
    cases hp
    obtain ⟨hjournal', hrecorded⟩ := (meets_accept_inStep h hjournal hdecode w).ok _ _ hrun
    refine ⟨hjournal', fun conn raw ack heq hack => ?_⟩
    obtain ⟨rfl, rfl, rfl⟩ := Event.acked.inj heq
    exact ⟨_, hrecorded hack⟩
  | acceptFailed w _ hdecode hrun =>
    cases hp
    exact ⟨(meets_accept_inStep h hjournal hdecode w).error _ _ hrun hcommitted, by simp⟩
  | touch conn now =>
    cases hp
    exact ⟨hsame _ (touchSession_wal _ _ _), by simp⟩
  | release conn =>
    cases hp
    exact ⟨hsame _ (releaseSession_wal _ _), by simp⟩
  | rotate now =>
    cases hp
    obtain ⟨-, -, hjournal', hentries⟩ := h.rotated now
    exact ⟨hjournal'.trans (hentries ▸ hjournal), by simp⟩
  | acceptCrashed | rotateCrashed | stop => cases hp

theorem ack_of_process {world world' : World} (hstep : Step H c world event world') (hp : world'.process = none) :
    ∀ conn raw ack, event ≠ .acked conn raw ack := by
  cases hstep with
  | startFailed | startCrashed | acceptCrashed | rotateCrashed | stop | prune => simp
  | start | hello | helloRefused | accept | acceptFailed | touch | release | rotate => cases hp

theorem inStep_step {world world' : World} (h : InStep H c events world)
    (hstep : Step H c world event world') (hanchor : world'.durable.anchor = none) (hcommitted : event.failsTransaction = false) :
    InStep H c (event :: events) world' := by
  obtain ⟨d, _ | p⟩ := world
  · obtain ⟨entries, hrest, hall⟩ := h
    cases hstep with
    | start disk nowS nowMS faults hrun =>
      obtain ⟨hrunning, hsame, hentries, hjournal⟩ := (meets_startGateway hrest disk nowS nowMS faults).ok _ _ hrun
      exact ⟨hrunning, hentries ▸ hjournal (hsame.symm.trans hanchor), hentries ▸ hall.cons (by simp)⟩
    | startFailed disk nowS nowMS faults hrun =>
      exact ⟨entries, ((meets_startGateway hrest disk nowS nowMS faults).error _ _ hrun).1, hall.cons (by simp)⟩
    | startCrashed disk nowS nowMS faults hcrash =>
      exact ⟨entries, ((meets_startGateway hrest disk nowS nowMS faults).crash _ hcrash).1, hall.cons (by simp)⟩
    | prune hprune => exact absurd hanchor (pruneFirst_anchor hprune)
  · obtain ⟨hrunning, hjournal, hall⟩ := h
    obtain ⟨-, hstands⟩ := running_step hrunning hstep
    obtain ⟨d', _ | p'⟩ := world'
    · obtain ⟨entries, hgrows, hrest⟩ := hstands
      exact ⟨entries, hrest, (hall.mono hgrows).cons fun conn raw ack heq => absurd heq (ack_of_process hstep rfl _ _ _)⟩
    · obtain ⟨hgrows, hrunning'⟩ := hstands
      obtain ⟨hjournal', hrecorded⟩ := journal_step hrunning hjournal hstep hcommitted rfl
      exact ⟨hrunning', hjournal', (hall.mono hgrows).cons hrecorded⟩

theorem inStep_of_run (hid : ValidID c.gatewayInstanceID) {world : World}
    (h : Run H c events world) (hanchor : world.durable.anchor = none)
    (hcommitted : ∀ event ∈ events, event.failsTransaction = false) : InStep H c events world := by
  induction h with
  | refl => exact ⟨[], ⟨holds_empty hid trivial, ⟨List.nodup_nil, by simp⟩, fun _ => lags_initial []⟩, by simp [AllRecorded]⟩
  | step hrun hstep ih =>
    have hbefore := anchor_step (standing_of_run hid hrun) hstep hanchor
    exact inStep_step (ih hbefore fun event hmem => hcommitted event (List.mem_cons_of_mem _ hmem)) hstep hanchor
      (hcommitted _ List.mem_cons_self)

/-! ## Sending a frame again -/

theorem Recorded.frame_mem (h : Recorded H c entries raw ack batch row) (hsound : ∀ entry ∈ entries, entry.Sound H)
    (hcollision : ∀ entry ∈ entries, gatewayBatchSHA256 H entry.frame = gatewayBatchSHA256 H raw → entry.frame = raw) :
    raw ∈ entries.map (·.frame) := by
  obtain ⟨entry, hmem, batch', outcome, rfl⟩ := entry_of_row h.mem
  refine List.mem_map.mpr ⟨entry, hmem, hcollision entry hmem ?_⟩
  rw [← (hsound entry hmem).batchHash]
  exact h.hash

section
variable {g : Gateway} {d : Durable} {row : Batch} {conn : Connection} {w : Surroundings}
  (hrecorded : Recorded H c g.wal.entries raw ack batch row)
  (hactive : g.sessionActive conn.lease conn.generation w.now = true)
  (hsession : batch.producerSessionID = conn.hello.producerSessionID)
include hrecorded hactive hsession

theorem accept_recorded (h : Running H c anyFrame g d) (hjournal : d.journal c = journalOf H c g.wal.entries)
    (hlease : batch.sessionLeaseID = conn.lease) :
    (acceptBatch H c g conn raw batch w).run d = ([], .ok (g, { ack with status := ackDuplicate }, false)) := by
  have hlimits : ¬ (UInt32.ofNat batch.records.length > c.maxRecords ∨ batch.requestedCount > c.maximumBatchCount) :=
    not_or_intro (UInt32.not_lt.mpr hrecorded.records) (UInt32.not_lt.mpr hrecorded.requested)
  have hfind := find_row h.opened.sound h.collected.distinct hrecorded.mem
  obtain ⟨hrowSession, hrowSequence⟩ := Prod.mk.inj hrecorded.identity
  rw [hrowSession, hrowSequence, ← hjournal] at hfind
  have hplace : (acceptBatch H c g conn raw batch w).run d = (placeBatch H c g raw batch w).run d := by
    simp [acceptBatch, hactive, hlimits, hsession, hlease]
  rw [hplace, placeBatch, Prog.read_bind, lookup_eq_ok.mpr ⟨hrecorded.sequence, hfind⟩]
  refine (Prog.lift_bind_ok _).trans ?_
  have hanswer := hrecorded.answer
  simp only [answerStored, hrecorded.hash, ne_eq, not_true_eq_false, if_false, Prog.pure_run]
  rw [hanswer]
  rfl

theorem accept_other_lease (hlease : batch.sessionLeaseID ≠ conn.lease) : (acceptBatch H c g conn raw batch w).run d =
      ([], .ok (g, refusal c batch (gatewayBatchSHA256 H raw) 0 ackSessionLeaseConflict, true)) := by
  have hlimits : ¬ (UInt32.ofNat batch.records.length > c.maxRecords ∨ batch.requestedCount > c.maximumBatchCount) :=
    not_or_intro (UInt32.not_lt.mpr hrecorded.records) (UInt32.not_lt.mpr hrecorded.requested)
  simp [acceptBatch, hactive, hlimits, hsession, hlease]

end

/-- **An acknowledgement is durable and idempotent.** After any history without a prune and without a failed
transaction, whatever crashed on the way: an acknowledged frame is in the WAL once, unless another frame there has its
hash, and in an active session of its producer session it gets the first answer again, as a duplicate, if the lease is
that of the frame, and is refused otherwise. -/
theorem acknowledgement_durable {events : List Event} {d : Durable} {p : Process} (hrun : Run H c events ⟨d, some p⟩)
    (hanchor : d.anchor = none) (hcommitted : ∀ event ∈ events, event.failsTransaction = false) :
    Distinct H p.gateway.wal.entries ∧
    ∀ conn raw ack, .acked conn raw ack ∈ events → Acknowledged ack →
      ((∀ entry ∈ p.gateway.wal.entries, gatewayBatchSHA256 H entry.frame = gatewayBatchSHA256 H raw →
        entry.frame = raw) → (p.gateway.wal.entries.map (·.frame)).count raw = 1) ∧
      ∃ batch, decodeBatchFrame H raw = .ok batch ∧
        ∀ again w, p.gateway.sessionActive again.lease again.generation w.now = true →
          batch.producerSessionID = again.hello.producerSessionID →
          (acceptBatch H c p.gateway again raw batch w).run d =
            ([], .ok (if batch.sessionLeaseID = again.lease then (p.gateway, { ack with status := ackDuplicate }, false)
              else (p.gateway, refusal c batch (gatewayBatchSHA256 H raw) 0 ackSessionLeaseConflict, true))) := by
  obtain ⟨hrunning, hjournal, hall⟩ := inStep_of_run (validID_of_run hrun rfl) hrun hanchor hcommitted
  refine ⟨hrunning.collected.distinct, fun conn raw ack hmem hack => ?_⟩
  obtain ⟨batch, row, hrecorded⟩ := hall conn raw ack hmem hack
  refine ⟨fun hcollision => ?_, batch, hrecorded.decodes, fun again w hactive hsession => ?_⟩
  · exact List.count_eq_one_of_mem hrunning.collected.distinct.frames (hrecorded.frame_mem hrunning.opened.sound hcollision)
  · split
    · rename_i hlease
      exact accept_recorded hrecorded hactive hsession hrunning hjournal hlease
    · rename_i hlease
      exact accept_other_lease hrecorded hactive hsession hlease

/-- The first batch of a gateway, sent twice in its session. -/
theorem acknowledgement_durable_first : ∃ events conn raw ack d p,
    Run Hashes.sample smallConfig events ⟨d, some p⟩ ∧ .acked conn raw ack ∈ events ∧ Acknowledged ack ∧
    (p.gateway.wal.entries.map (·.frame)).count raw = 1 ∧
    ∃ batch, (acceptBatch Hashes.sample smallConfig p.gateway conn raw batch (smallSurroundings noFaults)).run d =
      ([], .ok (p.gateway, { ack with status := ackDuplicate }, false)) := by
  obtain ⟨events, d, p, hrun, hcheck⟩ := exists_running (H := Hashes.sample) (c := smallConfig)
    smallFirst
    (fun events d p => decide (d.anchor = none ∧ ∀ event ∈ events, event.failsTransaction = false) &&
      (events.findSome? Event.ack?).any fun (seen : Connection × Bytes × AckV1) => decide (Acknowledged seen.2.2 ∧
          p.gateway.wal.entries.map (·.frame) = [seen.2.1] ∧
          p.gateway.sessionActive seen.1.lease seen.1.generation 0 = true ∧
          decodeBatchFrame Hashes.sample seen.2.1 = .ok (smallBatch (ascii "X") 1) ∧
          (smallBatch (ascii "X") 1).producerSessionID = seen.1.hello.producerSessionID ∧
          (smallBatch (ascii "X") 1).sessionLeaseID = seen.1.lease))
    (by decide +kernel)
  rw [Bool.and_eq_true, decide_eq_true_eq, Option.any_eq_true] at hcheck
  obtain ⟨⟨hanchor, hcommitted⟩, ⟨conn, raw, ack⟩, hseen, hcheck⟩ := hcheck
  obtain ⟨hack, hframes, hactive, hdecode, hsession, hlease⟩ := of_decide_eq_true hcheck
  obtain ⟨event, hmem, hevent⟩ := List.exists_of_findSome?_eq_some hseen
  obtain rfl := Event.ack?_eq_some hevent
  obtain ⟨-, hacked⟩ := acknowledgement_durable hrun hanchor hcommitted
  obtain ⟨hcount, batch, hbatch, hagain⟩ := hacked conn raw ack hmem hack
  obtain rfl := Except.ok.inj (hdecode.symm.trans hbatch)
  have hdup := hagain conn (smallSurroundings noFaults) hactive hsession
  rw [if_pos hlease] at hdup
  refine ⟨events, conn, raw, ack, d, p, hrun, hmem, hack, hcount fun entry hentry _ => ?_, _, hdup⟩
  exact List.mem_singleton.mp (hframes ▸ List.mem_map_of_mem hentry)

/-- In a session of the same producer session with another symbol the lease is another one, and the frame is refused. -/
theorem duplicate_needs_lease : ∃ events d p conn raw ack again batch,
    Run Hashes.sample smallConfig events ⟨d, some p⟩ ∧ d.anchor = none ∧
    (∀ event ∈ events, event.failsTransaction = false) ∧ .acked conn raw ack ∈ events ∧ Acknowledged ack ∧
    decodeBatchFrame Hashes.sample raw = .ok batch ∧ again ∈ p.connections ∧
    p.gateway.sessionActive again.lease again.generation 0 = true ∧
    batch.producerSessionID = again.hello.producerSessionID ∧
    (acceptBatch Hashes.sample smallConfig p.gateway again raw batch (smallSurroundings noFaults)).run d =
      ([], .ok (p.gateway, refusal smallConfig batch (gatewayBatchSHA256 Hashes.sample raw) 0 ackSessionLeaseConflict,
        true)) := by
  obtain ⟨events, d, p, hrun, hcheck⟩ := exists_running (H := Hashes.sample) (c := smallConfig)
    (smallFirst ++ [.release (smallConnection (ascii "X") 1), .hello (smallHello (ascii "Y")) 0])
    (fun events d p => decide (d.anchor = none ∧ (∀ event ∈ events, event.failsTransaction = false) ∧
        smallConnection (ascii "Y") 2 ∈ p.connections ∧
        p.gateway.sessionActive (smallConnection (ascii "Y") 2).lease 2 0 = true) &&
      (events.findSome? Event.ack?).any fun (seen : Connection × Bytes × AckV1) => decide (Acknowledged seen.2.2 ∧
        decodeBatchFrame Hashes.sample seen.2.1 = .ok (smallBatch (ascii "X") 1)))
    (by decide +kernel)
  rw [Bool.and_eq_true, decide_eq_true_eq, Option.any_eq_true] at hcheck
  obtain ⟨⟨hanchor, hcommitted, hagain, hactive⟩, ⟨conn, raw, ack⟩, hseen, hcheck⟩ := hcheck
  obtain ⟨hack, hdecode⟩ := of_decide_eq_true hcheck
  obtain ⟨event, hmem, hevent⟩ := List.exists_of_findSome?_eq_some hseen
  obtain rfl := Event.ack?_eq_some hevent
  obtain ⟨-, -, hall⟩ := inStep_of_run (validID_of_run hrun rfl) hrun hanchor hcommitted
  obtain ⟨batch, row, hrecorded⟩ := hall conn raw ack hmem hack
  obtain rfl := Except.ok.inj (hdecode.symm.trans hrecorded.decodes)
  exact ⟨_, d, p, conn, raw, ack, _, _, hrun, hanchor, hcommitted, hmem, hack, hdecode, hagain, hactive, rfl,
    accept_other_lease (w := smallSurroundings noFaults) hrecorded hactive rfl (by decide +kernel)⟩

end TickPlatform.Ingest
