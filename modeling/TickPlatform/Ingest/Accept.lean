import TickPlatform.Ingest.Identity

/-!
# What `acceptBatch` can do

The five ways a call can go, and for each way that writes what it leaves in the WAL and in the journal, at its end
and at every crash point.
-/

namespace TickPlatform.Ingest

open Bytes Protocol Crash Wal Journal

variable {H : Hashes} {c : Config}

/-- The batch is one of the active session and within the limits. -/
structure Admitted (c : Config) (g : Gateway) (conn : Connection) (batch : BatchFrameV1) (now : Int) : Prop where
  active : g.sessionActive conn.lease conn.generation now = true
  records : UInt32.ofNat batch.records.length ≤ c.maxRecords
  requested : batch.requestedCount ≤ c.maximumBatchCount
  session : batch.producerSessionID = conn.hello.producerSessionID
  lease : batch.sessionLeaseID = conn.lease
  sequence : batch.batchSequence ≤ maxInt64

inductive AcceptCase (H : Hashes) (c : Config) (g : Gateway) (conn : Connection) (raw : Bytes) (batch : BatchFrameV1)
    (w : Surroundings) (d : Durable) : Prop
  | refused (ack : AckV1) (terminal : Bool)
      (hrun : (acceptBatch H c g conn raw batch w).run d = ([], .ok (g, ack, terminal)))
      (hstatus : ack.status = ackSourceStateConflict ∨ ack.status = ackSessionLeaseConflict)
  | failed (err : IngestError) (hrun : (acceptBatch H c g conn raw batch w).run d = ([], .error (g, err)))
      (herr : err.isTransaction = false)
  | duplicate (hadmitted : Admitted c g conn batch w.now) (stored : Batch)
      (hfind : (d.journal c).find batch.producerSessionID batch.batchSequence = some stored)
      (hhash : stored.gatewayBatchSHA256 = gatewayBatchSHA256 H raw)
      (hrun : (acceptBatch H c g conn raw batch w).run d = ([], .ok (g, ackFromBatch stored ackDuplicate, false)))
  | retransmitted (hadmitted : Admitted c g conn batch w.now)
      (hfind : (d.journal c).find batch.producerSessionID batch.batchSequence = none)
      (hwal : findWALIdentity H batch.producerSessionID batch.batchSequence (gatewayBatchSHA256 H raw) g.wal.entries =
        .ok (some true))
      (hrun : (acceptBatch H c g conn raw batch w).run d =
        (answerRetransmitted H c g raw batch (gatewayBatchSHA256 H raw) w).run d)
  | fresh (hadmitted : Admitted c g conn batch w.now)
      (hfind : (d.journal c).find batch.producerSessionID batch.batchSequence = none)
      (hwal : findWALIdentity H batch.producerSessionID batch.batchSequence (gatewayBatchSHA256 H raw) g.wal.entries =
        .ok none)
      (hrun : (acceptBatch H c g conn raw batch w).run d =
        (appendBatch H c g raw batch (gatewayBatchSHA256 H raw) w).run d)

theorem findWALIdentity_error {session : Bytes} {sequence : UInt64} {hash : Digest} {entries : List Entry}
    {err : IngestError} (h : findWALIdentity H session sequence hash entries = .error err) :
    err.isTransaction = false := by
  induction entries with
  | nil => cases h
  | cons entry entries ih =>
    unfold findWALIdentity at h
    split at h
    · split at h
      · cases h
      · exact ih h
    · exact ih h
    · cases h
      rfl

/-- **The ways of a call.** -/
theorem acceptBatch_cases (H : Hashes) (c : Config) (g : Gateway) (conn : Connection) (raw : Bytes)
    (batch : BatchFrameV1) (w : Surroundings) (d : Durable) : AcceptCase H c g conn raw batch w d := by
  by_cases hactive : g.sessionActive conn.lease conn.generation w.now = true
  swap
  · refine .refused (refusal c batch (gatewayBatchSHA256 H raw) 0 ackSessionLeaseConflict) true ?_ (.inr rfl)
    simp [acceptBatch, hactive]
  by_cases hlimits : UInt32.ofNat batch.records.length > c.maxRecords ∨ batch.requestedCount > c.maximumBatchCount
  · refine .failed (.protocol (newError .oversizedFrame "batch exceeds configured record or request limit")) ?_ rfl
    simp [acceptBatch, hactive, hlimits]
  by_cases hsession : batch.producerSessionID ≠ conn.hello.producerSessionID ∨ batch.sessionLeaseID ≠ conn.lease
  · refine .refused (refusal c batch (gatewayBatchSHA256 H raw) 0 ackSessionLeaseConflict) true ?_ (.inr rfl)
    simp [acceptBatch, hactive, hlimits, hsession]
  have hplace : (acceptBatch H c g conn raw batch w).run d = (placeBatch H c g raw batch w).run d := by
    simp [acceptBatch, hactive, hlimits, hsession]
  unfold placeBatch at hplace
  rw [Prog.read_bind] at hplace
  rcases hlookup : (d.journal c).lookup batch.producerSessionID batch.batchSequence with err | stored
  · rw [hlookup] at hplace
    exact .failed (.lookup err) (hplace.trans (Prog.lift_bind_error _)) rfl
  obtain ⟨hsequence, hfind⟩ := lookup_eq_ok.mp hlookup
  have hadmitted : Admitted c g conn batch w.now := by
    simp only [not_or, not_not, gt_iff_lt, ne_eq, UInt32.not_lt] at hlimits hsession
    exact ⟨hactive, hlimits.1, hlimits.2, hsession.1, hsession.2, hsequence⟩
  rw [hlookup] at hplace
  replace hplace := hplace.trans (Prog.lift_bind_ok _)
  cases stored with
  | some stored =>
    by_cases hhash : stored.gatewayBatchSHA256 = gatewayBatchSHA256 H raw
    · refine .duplicate hadmitted stored hfind hhash (hplace.trans ?_)
      simp [answerStored, hhash]
    · refine .refused { ackFromBatch stored ackSourceStateConflict with
          producerSessionID := batch.producerSessionID, batchSequence := batch.batchSequence,
          gatewayBatchSHA256 := gatewayBatchSHA256 H raw } true (hplace.trans ?_) (.inl rfl)
      simp [answerStored, hhash]
  | none =>
    rcases hfound : findWALIdentity H batch.producerSessionID batch.batchSequence (gatewayBatchSHA256 H raw)
        g.wal.entries with err | found
    · simp only [hfound] at hplace
      exact .failed err (hplace.trans (Prog.lift_bind_error _)) (findWALIdentity_error hfound)
    simp only [hfound] at hplace
    replace hplace := hplace.trans (Prog.lift_bind_ok _)
    cases found with
    | none => exact .fresh hadmitted hfind hfound hplace
    | some same =>
      cases same with
      | false =>
        exact .refused (refusal c batch (gatewayBatchSHA256 H raw) 0 ackSourceStateConflict) true hplace (.inl rfl)
      | true => exact .retransmitted hadmitted hfind hfound hplace

/-! ## A new batch -/

/-- The journal is as it was. -/
structure NotJournaled (d t : Durable) : Prop where
  db : t.db = d.db
  anchor : t.anchor = d.anchor

theorem NotJournaled.journal {d t : Durable} (h : NotJournaled d t) : t.journal c = d.journal c := by
  rw [Durable.journal, Durable.journal, h.db]

/-- The journal has the row of an entry more. -/
structure Journaled (H : Hashes) (c : Config) (d : Durable) (entry : Entry) (batch : BatchFrameV1) (t : Durable) :
    Prop where
  journal : t.journal c = (d.journal c).push entry batch (outcomeForBatch H (d.journal c).state batch c)
  anchor : t.anchor = d.anchor

theorem Journaled.lags {d t : Durable} {entry : Entry} {batch : BatchFrameV1} {entries : List Entry}
    (h : Journaled H c d entry batch t) (hlag : Lags H c (d.journal c) entries)
    (hbatch : decodeBatchFrame H entry.frame = .ok batch) : Lags H c (t.journal c) (entries ++ [entry]) := by
  rw [h.journal]
  exact hlag.push hbatch

section
variable {P : Entry → Prop} {entries : List Entry} {g : Gateway} {raw : Bytes}

/-- **A new batch gets its entry and then its row.** Only a failed transaction leaves an entry without its row. -/
theorem meets_appendBatch {d : Durable} (h : Open H c.gatewayInstanceID P d.anchor entries g.wal d.disk)
    (hP : ∀ entry, Appends H g.wal raw entry → P entry) (batch : BatchFrameV1) (hash : Digest) (w : Surroundings) :
    Meets (appendBatch H c g raw batch hash w) d
      (fun t =>
        NotJournaled d t ∧ MayHold H c.gatewayInstanceID P d.anchor entries t.disk ∨
        ∃ entry, Appends H g.wal raw entry ∧ Journaled H c d entry batch t ∧
          Holds H c.gatewayInstanceID d.anchor (entries ++ [entry]) t.disk)
      (fun r t =>
        t = d ∧ r.1.wal = g.wal ∧ r.2.1.status = ackRetryableError ∨
        ∃ entry, Appends H g.wal raw entry ∧ Journaled H c d entry batch t ∧
          Serves H c.gatewayInstanceID d.anchor (entries ++ [entry]) r.1.wal t.disk ∧
          (r.2.1.status = ackRetryableError ∨
            r.2.1 = ackFromBatch (makeRow entry batch (outcomeForBatch H (d.journal c).state batch c))
              (outcomeForBatch H (d.journal c).state batch c).status))
      (fun r t =>
        NotJournaled d t ∧ Open H c.gatewayInstanceID P d.anchor entries r.1.wal t.disk ∧ r.2.isTransaction = false ∨
        ∃ entry, Appends H g.wal raw entry ∧ NotJournaled d t ∧
          Serves H c.gatewayInstanceID d.anchor (entries ++ [entry]) r.1.wal t.disk ∧ r.2.isTransaction = true) := by
  unfold appendBatch
  simp only
  split
  · exact meets_pure (.inl ⟨⟨rfl, rfl⟩, h.mayHold⟩) (.inl ⟨rfl, rfl, rfl⟩)
  refine meets_read_bind (meets_bind (meets_mapError (meets_onWal ?_)))
  refine (meets_append h raw w.wallS w.monotonicUS w.append hP).mono (fun disk hdisk => .inl ⟨⟨rfl, rfl⟩, hdisk⟩) ?_
    (fun r disk hopen => .inl ⟨⟨rfl, rfl⟩, hopen, rfl⟩)
  rintro ⟨wal, entry⟩ disk ⟨hentry, hserves⟩
  have hwritten : NotJournaled d { d with disk } ∧ MayHold H c.gatewayInstanceID P d.anchor entries disk :=
    ⟨⟨rfl, rfl⟩, .inr ⟨entry, hP entry hentry, hserves.holds⟩⟩
  refine meets_lift_bind (.inl hwritten) (fun r hr => ?_) fun applied happlied => ?_
  · rcases hresult : (d.journal c).apply entry batch (outcomeForBatch H (d.journal c).state batch c) (w.tx 0)
      with err | applied
    · rw [hresult] at hr
      obtain rfl := Except.error.inj hr
      exact .inr ⟨entry, hentry, ⟨rfl, rfl⟩, hserves, rfl⟩
    · rw [hresult] at hr
      cases hr
  · obtain ⟨rfl, -⟩ := apply_eq_ok.mp (mapError_eq_ok.mp happlied)
    have hjournaled : Journaled H c d entry batch { d with
        disk, db := some ((d.journal c).push entry batch (outcomeForBatch H (d.journal c).state batch c)) } := ⟨rfl, rfl⟩
    refine meets_bind (meets_commit (.inl hwritten) (.inr ⟨entry, hentry, hjournaled, hserves.holds⟩) ?_)
    split
    · exact meets_pure (.inr ⟨entry, hentry, hjournaled, hserves.holds⟩)
        (.inr ⟨entry, hentry, hjournaled, hserves, .inl rfl⟩)
    · exact meets_pure (.inr ⟨entry, hentry, hjournaled, hserves.holds⟩)
        (.inr ⟨entry, hentry, hjournaled, hserves, .inr rfl⟩)

/-! ## A batch the journal has lost -/

/-- **A retransmission brings the journal up to date** while nothing is pruned, and is then a duplicate. -/
theorem meets_answerRetransmitted {d : Durable}
    (h : Open H c.gatewayInstanceID P d.anchor entries g.wal d.disk) (hanchor : d.anchor = none)
    (hlag : Lags H c (d.journal c) entries) {batch : BatchFrameV1} (hsequence : batch.batchSequence ≤ maxInt64)
    (hidentity : some (batch.producerSessionID, batch.batchSequence) ∈ entries.map (identityOf H)) (hash : Digest)
    (w : Surroundings) :
    Meets (answerRetransmitted H c g raw batch hash w) d
      (fun t => SameButJournal d t ∧ Lags H c (t.journal c) entries)
      (fun r t => SameButJournal d t ∧ t.journal c = journalOf H c entries ∧
        ∃ stored, (journalOf H c entries).find batch.producerSessionID batch.batchSequence = some stored ∧
          r = answerStored g batch hash stored)
      (fun r t => SameButJournal d t ∧ Lags H c (t.journal c) entries ∧ r.1 = g) := by
  obtain rfl := h.entries_eq
  have hsound := h.sound
  have hpruned : g.wal.prunedThrough = 0 := by
    rw [h.pruned_eq, hanchor]
    rfl
  unfold answerRetransmitted
  refine meets_bind (meets_mapError ?_)
  refine (meets_reconcile hsound hpruned hlag w.tx).mono (fun t ht => ht) ?_ (fun err t ht => ⟨ht.1, ht.2, rfl⟩)
  rintro - t ⟨hsame, hjournal⟩
  have hlag' : Lags H c (t.journal c) g.wal.entries := by
    rw [hjournal]
    exact lags_self c hsound
  refine meets_read_bind (meets_lift_bind ⟨hsame, hlag'⟩ (fun r hr => ?_) fun stored hstored => ?_)
  · rw [lookup_eq_ok.mpr ⟨hsequence, rfl⟩] at hr
    cases hr
  · obtain ⟨-, hfind⟩ := lookup_eq_ok.mp (mapError_eq_ok.mp hstored)
    rw [hjournal] at hfind
    cases stored with
    | some stored => exact meets_pure ⟨hsame, hlag'⟩ ⟨hsame, hjournal, stored, hfind, rfl⟩
    | none => exact absurd hidentity ((find_journalOf hsound).mp hfind)

end

end TickPlatform.Ingest
