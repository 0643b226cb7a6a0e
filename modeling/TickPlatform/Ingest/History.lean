import Mathlib.Data.List.Infix
import TickPlatform.Ingest.Accept
import TickPlatform.Ingest.World
import TickPlatform.Wal.Prune

/-!
# What every gateway history keeps

The WAL directory is always that of a log with distinct identities, and while nothing is pruned the journal never
runs ahead of it. Each step keeps this, so every run does.
-/

namespace TickPlatform.Ingest

open Bytes Protocol Crash Wal Journal

variable {H : Hashes} {c : Config} {F : Bytes → Prop} {entries : List Entry} {g : Gateway} {d : Durable}

/-- The durable state while no process runs. `F` is what is known of the frames. -/
structure Resting (H : Hashes) (c : Config) (F : Bytes → Prop) (d : Durable) (entries : List Entry) : Prop where
  holds : Holds H c.gatewayInstanceID d.anchor entries d.disk
  collected : Collected H F entries
  lags : d.anchor = none → Lags H c (d.journal c) entries

/-- The durable state under a process. -/
structure Running (H : Hashes) (c : Config) (F : Bytes → Prop) (g : Gateway) (d : Durable) : Prop where
  anchorOk : AnchorOk d.anchor
  opened : Open H c.gatewayInstanceID (New H F g.wal.entries) d.anchor g.wal.entries g.wal d.disk
  collected : Collected H F g.wal.entries
  lags : d.anchor = none → Lags H c (d.journal c) g.wal.entries

theorem resting_of_mayHold {P : Entry → Prop} (hmay : MayHold H c.gatewayInstanceID P d.anchor entries d.disk)
    (hP : ∀ entry, P entry → New H F entries entry) (hcollected : Collected H F entries)
    (hlags : d.anchor = none → Lags H c (d.journal c) entries) :
    ∃ entries', entries <+: entries' ∧ Resting H c F d entries' := by
  rcases hmay with hholds | ⟨entry, hentry, hholds⟩
  · exact ⟨entries, List.prefix_rfl, hholds, hcollected, hlags⟩
  · exact ⟨entries ++ [entry], List.prefix_append _ _, hholds, hcollected.append (hP entry hentry),
      fun hnone => (hlags hnone).append entry⟩

theorem Running.resting (h : Running H c F g d) : ∃ entries', g.wal.entries <+: entries' ∧ Resting H c F d entries' :=
  resting_of_mayHold h.opened.mayHold (fun _ hnew => hnew) h.collected h.lags

theorem running_of_serves (hok : AnchorOk d.anchor)
    (hserves : Serves H c.gatewayInstanceID d.anchor entries g.wal d.disk) (hcollected : Collected H F entries)
    (hlags : d.anchor = none → Lags H c (d.journal c) entries) : g.wal.entries = entries ∧ Running H c F g d := by
  have hopen : Open H c.gatewayInstanceID (New H F entries) d.anchor entries g.wal d.disk := .inl hserves
  obtain rfl := hopen.entries_eq
  exact ⟨rfl, hok, hopen, hcollected, hlags⟩

theorem Running.of_open {g' : Gateway} {t : Durable} (h : Running H c F g d) (hanchor : t.anchor = d.anchor)
    (hjournal : t.journal c = d.journal c)
    (hopen : Open H c.gatewayInstanceID (New H F g.wal.entries) d.anchor g.wal.entries g'.wal t.disk) :
    g'.wal.entries = g.wal.entries ∧ Running H c F g' t := by
  have hentries := hopen.entries_eq
  refine ⟨hentries, hanchor ▸ h.anchorOk, ?_, hentries ▸ h.collected, ?_⟩
  · rw [hanchor, hentries]
    exact hopen
  · rw [hanchor, hjournal, hentries]
    exact h.lags

theorem Running.of_wal {g' : Gateway} (h : Running H c F g d) (hwal : g'.wal = g.wal) : Running H c F g' d :=
  (h.of_open rfl rfl (hwal ▸ h.opened)).2

theorem prunedThrough_ne_zero {anchor : Option PruneAnchor} (hok : AnchorOk anchor) (hsome : anchor ≠ none) :
    prunedThrough anchor ≠ 0 := by
  cases anchor with
  | none => exact absurd rfl hsome
  | some anchor => simpa [prunedThrough, anchorPosition] using hok.1

/-! ## `Start` -/

/-- The WAL directory, the anchor and the journal are the same. -/
structure SameStores (c : Config) (d t : Durable) : Prop where
  disk : t.disk = d.disk
  anchor : t.anchor = d.anchor
  journal : t.journal c = d.journal c

theorem SameStores.refl (d : Durable) : SameStores c d d := ⟨rfl, rfl, rfl⟩

theorem SameStores.trans {t u : Durable} (h : SameStores c d t) (h' : SameStores c t u) : SameStores c d u :=
  ⟨h'.disk.trans h.disk, h'.anchor.trans h.anchor, h'.journal.trans h.journal⟩

theorem meets_openJournal (d : Durable) :
    Meets (openJournal c) d (SameStores c d) (fun _ => SameStores c d) (fun _ => SameStores c d) := by
  unfold openJournal
  refine meets_read_bind ?_
  split
  · exact meets_pure (.refl d) (.refl d)
  · rename_i hnone
    have hsame : SameStores c d { d with db := some (journalStore c).initial } := by
      refine ⟨rfl, rfl, ?_⟩
      rw [Bool.not_eq_true, Option.isSome_eq_false_iff, Option.isNone_iff_eq_none] at hnone
      simp [Durable.journal, hnone, Journal.Store.start]
    exact meets_commit (.refl d) hsame hsame

theorem meets_publishWallClock (observed : UInt64) (d : Durable) :
    Meets (publishWallClock observed) d (SameStores c d) (fun _ => SameStores c d) (fun _ => SameStores c d) := by
  have hemit : Meets (Prog.emit (.publishClock observed) : GatewayProg IngestError Unit) d (SameStores c d)
      (fun _ => SameStores c d) (fun _ => SameStores c d) :=
    meets_emit (.refl d) (fun _ h => h.elim) ⟨rfl, rfl, rfl⟩ ⟨rfl, rfl, rfl⟩
  unfold publishWallClock
  refine meets_read_bind ?_
  split
  · exact meets_fail (.refl d) (.refl d)
  split
  · exact hemit
  split
  · exact meets_fail (.refl d) (.refl d)
  split
  · exact meets_pure (.refl d) (.refl d)
  · exact hemit

theorem meets_reconcile_pruned {wal : Wal.Store} (hpruned : wal.prunedThrough ≠ 0) (d : Durable) (faults : TxFaults) :
    Meets (reconcileJournal H c wal faults) d (· = d) (fun _ t => t = d) (fun _ t => t = d) := by
  unfold reconcileJournal
  refine meets_read_bind ?_
  rw [if_pos hpruned]
  split
  · exact meets_fail rfl rfl
  · refine meets_lift_bind rfl (fun _ _ => rfl) fun rowsMatch _ => ?_
    split
    · exact meets_pure rfl rfl
    · exact meets_fail rfl rfl

theorem Resting.of_same {t : Durable} (h : Resting H c F d entries) (hsame : SameStores c d t) :
    Resting H c F t entries where
  holds := by
    rw [hsame.anchor, hsame.disk]
    exact h.holds
  collected := h.collected
  lags := by
    rw [hsame.anchor, hsame.journal]
    exact h.lags

/-- `Recover` of a store that has just been opened. -/
theorem meets_recover {wal : Wal.Store} (hok : AnchorOk d.anchor) (hcollected : Collected H F entries)
    (hserves : Serves H c.gatewayInstanceID d.anchor entries wal d.disk)
    (hlags : d.anchor = none → Lags H c (d.journal c) entries) (nowMS : UInt64) (faults : TxFaults) :
    Meets (recover H c wal nowMS faults) d
      (fun t => Resting H c F t entries ∧ t.anchor = d.anchor)
      (fun _ t => Resting H c F t entries ∧ t.anchor = d.anchor ∧ t.disk = d.disk ∧
        (d.anchor = none → t.journal c = journalOf H c entries))
      (fun _ t => Resting H c F t entries ∧ t.anchor = d.anchor) := by
  have hrest : Resting H c F d entries := ⟨hserves.holds, hcollected, hlags⟩
  have hopen : Open H c.gatewayInstanceID (New H F entries) d.anchor entries wal d.disk := .inl hserves
  have hentries := hopen.entries_eq
  unfold recover
  refine meets_bind ((meets_publishWallClock nowMS d).mono (fun t ht => ⟨hrest.of_same ht, ht.anchor⟩)
    (fun _ t hsame => ?_) (fun _ t ht => ⟨hrest.of_same ht, ht.anchor⟩))
  by_cases hnone : d.anchor = none
  · have hpruned : wal.prunedThrough = 0 := by
      rw [hopen.pruned_eq, hnone]
      rfl
    have hsound : ∀ entry ∈ wal.entries, entry.Sound H := by
      rw [hentries]
      exact hopen.sound
    have hlag : Lags H c (t.journal c) wal.entries := by
      rw [hsame.journal, hentries]
      exact hlags hnone
    have hkeep : ∀ u, SameButJournal t u → Lags H c (u.journal c) wal.entries →
        Resting H c F u entries ∧ u.anchor = d.anchor := by
      intro u hu hlag
      rw [hentries] at hlag
      refine ⟨⟨?_, hcollected, fun _ => hlag⟩, hu.anchor.trans hsame.anchor⟩
      rw [hu.anchor, hu.disk, hsame.anchor, hsame.disk]
      exact hserves.holds
    refine (meets_reconcile hsound hpruned hlag faults).mono (fun u hu => hkeep u hu.1 hu.2) (fun _ u hu => ?_)
      (fun _ u hu => hkeep u hu.1 hu.2)
    obtain ⟨hrest', hanchor⟩ := hkeep u hu.1 (hu.2 ▸ lags_self c hsound)
    refine ⟨hrest', hanchor, hu.1.disk.trans hsame.disk, fun _ => ?_⟩
    rw [hu.2, hentries]
  · have hpruned : wal.prunedThrough ≠ 0 := by
      rw [hopen.pruned_eq]
      exact prunedThrough_ne_zero hok hnone
    refine (meets_reconcile_pruned hpruned t faults).mono ?_ ?_ ?_
    · rintro u rfl
      exact ⟨hrest.of_same hsame, hsame.anchor⟩
    · rintro - u rfl
      exact ⟨hrest.of_same hsame, hsame.anchor, hsame.disk, fun h => absurd h hnone⟩
    · rintro - u rfl
      exact ⟨hrest.of_same hsame, hsame.anchor⟩

/-- **`Start` serves what is held**, and with no prune it ends with the journal up to date. -/
theorem meets_startGateway (h : Resting H c F d entries) (gate : DiskStateMachine) (nowS : Int64) (nowMS : UInt64)
    (faults : TxFaults) :
    Meets (startGateway H c gate nowS nowMS faults) d
      (fun t => Resting H c F t entries ∧ t.anchor = d.anchor)
      (fun g t => Running H c F g t ∧ t.anchor = d.anchor ∧ g.wal.entries = entries ∧
        (d.anchor = none → t.journal c = journalOf H c entries))
      (fun _ t => Resting H c F t entries ∧ t.anchor = d.anchor) := by
  unfold startGateway
  have hwal : ∀ disk, Holds H c.gatewayInstanceID d.anchor entries disk →
      Resting H c F { d with disk } entries ∧ ({ d with disk } : Durable).anchor = d.anchor :=
    fun _ hholds => ⟨⟨hholds, h.collected, h.lags⟩, rfl⟩
  refine meets_read_bind (meets_bind (meets_mapError (meets_onWal ?_)))
  refine (meets_start h.holds nowS).mono (fun disk hd => hwal disk hd) (fun wal disk hs => ?_) (fun _ disk hd => hwal disk hd)
  obtain ⟨hok, hserves⟩ := hs
  obtain ⟨hrest, -⟩ := hwal disk hserves.holds
  refine meets_bind ((meets_openJournal _).mono (fun t ht => ⟨hrest.of_same ht, ht.anchor⟩) (fun _ t hsame => ?_)
    (fun _ t ht => ⟨hrest.of_same ht, ht.anchor⟩))
  have hanchor : t.anchor = d.anchor := hsame.anchor
  have hserves' : Serves H c.gatewayInstanceID t.anchor entries wal t.disk := by
    rw [hanchor, hsame.disk]
    exact hserves
  refine meets_bind ((meets_recover (hanchor ▸ hok) h.collected hserves' (hrest.of_same hsame).lags nowMS faults).mono
    (fun u hu => ⟨hu.1, hu.2.trans hanchor⟩) (fun _ u hu => ?_) (fun _ u hu => ⟨hu.1, hu.2.trans hanchor⟩))
  obtain ⟨hrest', hanchor', hdisk, hjournal⟩ := hu
  refine meets_pure ⟨hrest', hanchor'.trans hanchor⟩ ?_
  have hok' : AnchorOk u.anchor := by
    rw [hanchor', hanchor]
    exact hok
  have hserves'' : Serves H c.gatewayInstanceID u.anchor entries wal u.disk := by
    rw [hanchor', hdisk]
    exact hserves'
  obtain ⟨hentries, hrunning⟩ := running_of_serves (g := ⟨wal, false, [], none, 0, 0, gate⟩) hok' hserves'' h.collected
    hrest'.lags
  exact ⟨hrunning, hanchor'.trans hanchor, hentries, hanchor ▸ hjournal⟩

/-! ## `acceptBatch` -/

section
variable {conn : Connection} {raw : Bytes} {batch : BatchFrameV1}

theorem new_of_appends (hraw : F raw) (hdecode : decodeBatchFrame H raw = .ok batch) {hash : Digest}
    (hwal : findWALIdentity H batch.producerSessionID batch.batchSequence hash g.wal.entries = .ok none) {entry : Entry}
    (hentry : Appends H g.wal raw entry) : New H F g.wal.entries entry := by
  rw [← hentry.frame_eq] at hdecode hraw
  refine ⟨?_, hraw⟩
  rw [Fresh, identityOf_decoded hdecode]
  exact findWALIdentity_none hwal

theorem Running.retransmitted_pruned (h : Running H c F g d) (raw : Bytes) (hanchor : d.anchor ≠ none)
    (hfind : (d.journal c).find batch.producerSessionID batch.batchSequence = none) {hash : Digest}
    (hwal : findWALIdentity H batch.producerSessionID batch.batchSequence hash g.wal.entries = .ok (some true))
    (w : Surroundings) :
    ∃ err, (answerRetransmitted H c g raw batch hash w).run d = ([], .error (g, err)) ∧ err.isTransaction = false := by
  have hpruned : g.wal.prunedThrough ≠ 0 := by
    rw [h.opened.pruned_eq]
    exact prunedThrough_ne_zero h.anchorOk hanchor
  obtain ⟨err, hrun, herr⟩ := reconcile_of_misses hpruned (misses_of_identity hfind (findWALIdentity_some hwal)) w.tx
  refine ⟨err, Prog.bind_error ?_, herr⟩
  simp only [Prog.mapError, hrun]
  rfl

theorem Running.appended {g' : Gateway} {t : Durable} {entry : Entry} (h : Running H c F g d)
    (hanchor : t.anchor = d.anchor) (hnew : New H F g.wal.entries entry)
    (hserves : Serves H c.gatewayInstanceID d.anchor (g.wal.entries ++ [entry]) g'.wal t.disk)
    (hlags : d.anchor = none → Lags H c (t.journal c) (g.wal.entries ++ [entry])) :
    g'.wal.entries = g.wal.entries ++ [entry] ∧ Running H c F g' t := by
  rw [← hanchor] at hserves hlags
  exact running_of_serves (hanchor ▸ h.anchorOk) hserves (h.collected.append hnew) hlags

/-- **A call keeps what the history keeps**, however it ends. -/
theorem meets_acceptBatch (h : Running H c F g d) (hraw : F raw) (hdecode : decodeBatchFrame H raw = .ok batch)
    (w : Surroundings) :
    Meets (acceptBatch H c g conn raw batch w) d
      (fun t => t.anchor = d.anchor ∧ ∃ entries', g.wal.entries <+: entries' ∧ Resting H c F t entries')
      (fun r t => t.anchor = d.anchor ∧ g.wal.entries <+: r.1.wal.entries ∧ Running H c F r.1 t)
      (fun r t => t.anchor = d.anchor ∧ g.wal.entries <+: r.1.wal.entries ∧ Running H c F r.1 t) := by
  have hnothing : ∀ t, CrashAt ([] : List DurableOp) d t →
      t.anchor = d.anchor ∧ ∃ entries', g.wal.entries <+: entries' ∧ Resting H c F t entries' :=
    crashAt_nil_of ⟨rfl, h.resting⟩
  rcases acceptBatch_cases H c g conn raw batch w d with ⟨ack, terminal, hrun, -⟩ | ⟨err, hrun, -⟩ |
    ⟨-, stored, -, -, hrun⟩ | ⟨hadmitted, hfind, hwal, hrun⟩ | ⟨-, -, hwal, hrun⟩
  · exact meets_of_ok hrun hnothing ⟨rfl, List.prefix_rfl, h⟩
  · exact meets_of_error hrun hnothing ⟨rfl, List.prefix_rfl, h⟩
  · exact meets_of_ok hrun hnothing ⟨rfl, List.prefix_rfl, h⟩
  · refine meets_congr hrun ?_
    by_cases hnone : d.anchor = none
    · have hkeep : ∀ t, SameButJournal d t → Lags H c (t.journal c) g.wal.entries →
          t.anchor = d.anchor ∧ Running H c F g t := by
        intro t hsame hlag
        refine ⟨hsame.anchor, ?_, ?_, h.collected, fun _ => hlag⟩
        · rw [hsame.anchor]
          exact h.anchorOk
        · rw [hsame.anchor, hsame.disk]
          exact h.opened
      refine (meets_answerRetransmitted h.opened hnone (h.lags hnone) hadmitted.sequence (findWALIdentity_some hwal) _
        w).mono (fun t ht => ?_) ?_ ?_
      · obtain ⟨hanchor, hrunning⟩ := hkeep t ht.1 ht.2
        exact ⟨hanchor, hrunning.resting⟩
      · rintro - t ⟨hsame, hjournal, stored, -, rfl⟩
        obtain ⟨hanchor, hrunning⟩ := hkeep t hsame (hjournal ▸ lags_self c h.opened.sound)
        rw [answerStored_gateway]
        exact ⟨hanchor, List.prefix_rfl, hrunning⟩
      · rintro ⟨g', err⟩ t ⟨hsame, hlag, rfl⟩
        obtain ⟨hanchor, hrunning⟩ := hkeep t hsame hlag
        exact ⟨hanchor, List.prefix_rfl, hrunning⟩
    · obtain ⟨err, hrun', -⟩ := h.retransmitted_pruned raw hnone hfind hwal w
      exact meets_of_error hrun' hnothing ⟨rfl, List.prefix_rfl, h⟩
  · have hnew : ∀ entry, Appends H g.wal raw entry → New H F g.wal.entries entry := fun _ =>
      new_of_appends hraw hdecode hwal
    have hlags : ∀ {entry t}, Appends H g.wal raw entry → Journaled H c d entry batch t → d.anchor = none →
        Lags H c (t.journal c) (g.wal.entries ++ [entry]) := by
      intro entry t hentry hjournaled hnone
      rw [← hentry.frame_eq] at hdecode
      exact hjournaled.lags (h.lags hnone) hdecode
    refine meets_congr hrun ((meets_appendBatch h.opened hnew batch _ w).mono ?_ ?_ ?_)
    · rintro t (⟨hnot, hmay⟩ | ⟨entry, hentry, hjournaled, hholds⟩)
      · refine ⟨hnot.anchor, resting_of_mayHold (hnot.anchor ▸ hmay) (fun _ hnew => hnew) h.collected ?_⟩
        rw [hnot.anchor, hnot.journal]
        exact h.lags
      · refine ⟨hjournaled.anchor, _, List.prefix_append _ [entry], hjournaled.anchor ▸ hholds,
          h.collected.append (hnew entry hentry), ?_⟩
        rw [hjournaled.anchor]
        exact hlags hentry hjournaled
    · rintro ⟨g', ack, terminal⟩ t (⟨rfl, hsame, -⟩ | ⟨entry, hentry, hjournaled, hserves, -⟩)
      · exact ⟨rfl, hsame ▸ List.prefix_rfl, h.of_wal hsame⟩
      · obtain ⟨hentries, hrunning⟩ := h.appended hjournaled.anchor (hnew entry hentry) hserves
          (hlags hentry hjournaled)
        exact ⟨hjournaled.anchor, hentries ▸ List.prefix_append _ _, hrunning⟩
    · rintro ⟨g', err⟩ t (⟨hnot, hopen, -⟩ | ⟨entry, hentry, hnot, hserves, -⟩)
      · obtain ⟨hentries, hrunning⟩ := h.of_open hnot.anchor hnot.journal hopen
        exact ⟨hnot.anchor, hentries ▸ List.prefix_rfl, hrunning⟩
      · obtain ⟨hentries, hrunning⟩ := h.appended hnot.anchor (hnew entry hentry) hserves fun hnone => by
          rw [hnot.journal]
          exact (h.lags hnone).append entry
        exact ⟨hnot.anchor, hentries ▸ List.prefix_append _ _, hrunning⟩

end

/-! ## Steps and runs -/

theorem startSession_wal (db : Db) (hello : HelloV1) (now : Int) : (startSession H c g db hello now).1.wal = g.wal := by
  unfold startSession
  split
  · rfl
  simp only
  split
  · rfl
  split
  · rfl
  split
  · simp only [Gateway.releaseSession]
    split <;> rfl
  · rfl

theorem touchSession_wal (lease : Bytes) (generation : UInt64) (now : Int) :
    (g.touchSession c lease generation now).wal = g.wal := by
  unfold Gateway.touchSession
  split <;> rfl

theorem releaseSession_wal (lease : Bytes) (generation : UInt64) : (g.releaseSession lease generation).wal = g.wal := by
  unfold Gateway.releaseSession
  split <;> rfl

/-- `Seal` under the gateway. -/
theorem meets_rotate (h : Running H c F g d) (now : Int64) : Meets (onWal (g.wal.sealActive H now)) d
      (fun t => t.anchor = d.anchor ∧ ∃ entries', g.wal.entries <+: entries' ∧ Resting H c F t entries')
      (fun r t => Running H c F { g with wal := r.1 } t ∧ t.anchor = d.anchor ∧ t.journal c = d.journal c ∧
        r.1.entries = g.wal.entries)
      (fun r t => Running H c F { g with wal := r.1 } t ∧ t.anchor = d.anchor ∧ t.journal c = d.journal c ∧
        r.1.entries = g.wal.entries) := by
  have hkeep : ∀ wal disk, Open H c.gatewayInstanceID (New H F g.wal.entries) d.anchor g.wal.entries wal disk →
      Running H c F { g with wal } { d with disk } ∧ d.anchor = d.anchor ∧
        ({ d with disk } : Durable).journal c = d.journal c ∧ wal.entries = g.wal.entries := by
    intro wal disk hopen
    obtain ⟨hentries, hrunning⟩ := @Running.of_open H c F g d { g with wal } { d with disk } h rfl rfl hopen
    exact ⟨hrunning, rfl, rfl, hentries⟩
  refine meets_onWal ((meets_seal h.opened now).mono (fun disk hmay => ⟨rfl, ?_⟩) (fun r disk => hkeep r.1 disk)
    (fun r disk => hkeep r.1 disk))
  exact resting_of_mayHold (d := { d with disk }) hmay (fun _ hnew => hnew) h.collected h.lags

theorem Running.rotated (h : Running H c F g d) (now : Int64) :
    Running H c F { g with wal := storeAfter ((g.wal.sealActive H now).run d.disk).2 }
        ((onWal (g.wal.sealActive H now)).final d) ∧
      ((onWal (g.wal.sealActive H now)).final d).anchor = d.anchor ∧
      ((onWal (g.wal.sealActive H now)).final d).journal c = d.journal c ∧
      (storeAfter ((g.wal.sealActive H now).run d.disk).2).entries = g.wal.entries := by
  have hmeets := meets_rotate h now
  have hresult : ((onWal (g.wal.sealActive H now)).run d).2 = ((g.wal.sealActive H now).run d.disk).2 := rfl
  rw [← hresult, Prog.final]
  rcases hrun : (onWal (g.wal.sealActive H now)).run d with ⟨ops, r | r⟩
  · exact hmeets.error ops r hrun
  · exact hmeets.ok ops r hrun

theorem Resting.pruned {d' : Durable} (h : Resting H c F d entries) (hprune : pruneFirst H d = some d') :
    ∃ pruned retained, entries = pruned ++ retained ∧ Resting H c F d' retained := by
  unfold pruneFirst at hprune
  split at hprune
  · cases hprune
  rename_i name data rest hsealed
  split at hprune
  · cases hprune
  rename_i segment hverified
  split at hprune
  · cases hprune
  rename_i hcopy
  obtain rfl := Option.some.inj hprune
  obtain ⟨pruned, retained, rfl, hholds⟩ := h.holds.dropFirst hsealed hverified hcopy
  have hdistinct := h.collected.distinct
  rw [Distinct, List.map_append, List.nodup_append] at hdistinct
  exact ⟨pruned, retained, rfl, hholds, ⟨hdistinct.2.1, fun entry hmem => h.collected.frames entry (List.mem_append_right _ hmem)⟩,
    fun hnone => by cases hnone⟩

theorem pruneFirst_anchor {d' : Durable} (h : pruneFirst H d = some d') : d'.anchor ≠ none := by
  unfold pruneFirst at h
  split at h
  · cases h
  split at h
  · cases h
  split at h
  · cases h
  · obtain rfl := Option.some.inj h
    simp

/-- Nothing is known of the frames. -/
def anyFrame : Bytes → Prop := fun _ => True

/-- What holds in every state of a history. -/
def Standing (H : Hashes) (c : Config) (world : World) : Prop :=
  match world.process with
  | none => ∃ entries, Resting H c anyFrame world.durable entries
  | some p => Running H c anyFrame p.gateway world.durable

/-- The world stands with these entries in its WAL, or more. -/
def StandsOn (H : Hashes) (c : Config) (entries : List Entry) (world : World) : Prop :=
  match world.process with
  | none => ∃ entries', entries <+: entries' ∧ Resting H c anyFrame world.durable entries'
  | some p => entries <+: p.gateway.wal.entries ∧ Running H c anyFrame p.gateway world.durable

theorem StandsOn.standing {world : World} (h : StandsOn H c entries world) : Standing H c world := by
  unfold StandsOn at h
  unfold Standing
  split at h
  · obtain ⟨entries', -, hrest⟩ := h
    exact ⟨entries', hrest⟩
  · exact h.2

variable {world' : World} {event : Event}

/-- Without a prune a gateway that is down keeps its anchor and its entries. -/
theorem resting_step (h : Resting H c anyFrame d entries) (hstep : Step H c ⟨d, none⟩ event world')
    (hprune : event ≠ .pruned) : world'.durable.anchor = d.anchor ∧ StandsOn H c entries world' := by
  cases hstep with
  | start disk nowS nowMS faults hrun =>
    obtain ⟨hrunning, hanchor, hentries, -⟩ := (meets_startGateway h disk nowS nowMS faults).ok _ _ hrun
    exact ⟨hanchor, hentries ▸ List.prefix_rfl, hrunning⟩
  | startFailed disk nowS nowMS faults hrun =>
    obtain ⟨hrest, hanchor⟩ := (meets_startGateway h disk nowS nowMS faults).error _ _ hrun
    exact ⟨hanchor, entries, List.prefix_rfl, hrest⟩
  | startCrashed disk nowS nowMS faults hcrash =>
    obtain ⟨hrest, hanchor⟩ := (meets_startGateway h disk nowS nowMS faults).crash _ hcrash
    exact ⟨hanchor, entries, List.prefix_rfl, hrest⟩
  | prune => exact absurd rfl hprune

theorem standsOn_of_wal {p p' : Process} (h : Running H c anyFrame p.gateway d) (hwal : p'.gateway.wal = p.gateway.wal) :
    d.anchor = d.anchor ∧ StandsOn H c p.gateway.wal.entries ⟨d, some p'⟩ :=
  ⟨rfl, hwal ▸ List.prefix_rfl, h.of_wal hwal⟩

/-- Nor does a running gateway lose anything, however its calls end. -/
theorem running_step {p : Process} (h : Running H c anyFrame p.gateway d) (hstep : Step H c ⟨d, some p⟩ event world') :
    world'.durable.anchor = d.anchor ∧ StandsOn H c p.gateway.wal.entries world' := by
  cases hstep with
  | hello hello now hrun =>
    exact standsOn_of_wal h ((congrArg (·.1.wal) hrun).symm.trans (startSession_wal _ hello now))
  | helloRefused hello now hrun =>
    exact standsOn_of_wal h ((congrArg (·.1.wal) hrun).symm.trans (startSession_wal _ hello now))
  | accept w _ hdecode hrun => exact (meets_acceptBatch h trivial hdecode w).ok _ _ hrun
  | acceptFailed w _ hdecode hrun => exact (meets_acceptBatch h trivial hdecode w).error _ _ hrun
  | acceptCrashed w _ hdecode hcrash => exact (meets_acceptBatch h trivial hdecode w).crash _ hcrash
  | touch conn now => exact standsOn_of_wal h (touchSession_wal _ _ _)
  | release conn => exact standsOn_of_wal h (releaseSession_wal _ _)
  | rotate now =>
    obtain ⟨hrunning, hanchor, -, hentries⟩ := h.rotated now
    exact ⟨hanchor, hentries ▸ List.prefix_rfl, hrunning⟩
  | rotateCrashed now hcrash => exact (meets_rotate h now).crash _ hcrash
  | stop => exact ⟨rfl, h.resting⟩

theorem standing_step {world : World} (h : Standing H c world)
    (hstep : Step H c world event world') : Standing H c world' := by
  obtain ⟨d, _ | p⟩ := world
  · obtain ⟨entries, hrest⟩ := h
    by_cases hprune : event = .pruned
    · subst hprune
      cases hstep with
      | prune hprune =>
        obtain ⟨-, retained, -, hretained⟩ := hrest.pruned hprune
        exact ⟨retained, hretained⟩
    · exact (resting_step hrest hstep hprune).2.standing
  · exact (running_step h hstep).2.standing

/-- **Every history keeps the log and the journal behind it.** -/
theorem standing_of_run (hid : ValidID c.gatewayInstanceID) {events : List Event} {world : World}
    (h : Run H c events world) : Standing H c world := by
  induction h with
  | refl => exact ⟨[], holds_empty hid trivial, ⟨List.nodup_nil, by simp⟩, fun _ => lags_initial []⟩
  | step _ hstep ih => exact standing_step ih hstep

/-- An anchor is never taken back. -/
theorem anchor_step {world : World} (h : Standing H c world)
    (hstep : Step H c world event world') (hnone : world'.durable.anchor = none) : world.durable.anchor = none := by
  obtain ⟨d, _ | p⟩ := world
  · obtain ⟨entries, hrest⟩ := h
    refine (resting_step hrest hstep ?_).1.symm.trans hnone
    rintro rfl
    cases hstep with
    | prune hprune => exact pruneFirst_anchor hprune hnone
  · exact (running_step h hstep).1.symm.trans hnone

theorem validID_of_start {disk : DiskStateMachine} {nowS : Int64} {nowMS : UInt64} {faults : TxFaults}
    {ops : List DurableOp} (h : (startGateway H c disk nowS nowMS faults).run d = (ops, .ok g)) :
    ValidID c.gatewayInstanceID := by
  unfold startGateway at h
  rw [Prog.read_bind] at h
  obtain ⟨ops₁, wal, -, hwal, -, -⟩ := Prog.bind_eq_ok h
  have hstart : ((start H c.gatewayInstanceID d.anchor nowS).run d.disk).2 = .ok wal :=
    mapError_eq_ok.mp (congrArg Prod.snd hwal)
  exact (inputs_of_start (Prod.ext rfl hstart)).1

theorem validID_of_run {events : List Event} {world : World} (h : Run H c events world)
    (hsome : world.process.isSome = true) : ValidID c.gatewayInstanceID := by
  induction h with
  | refl => cases hsome
  | step _ hstep ih =>
    cases hstep with
    | start disk nowS nowMS faults hrun => exact validID_of_start hrun
    | hello | helloRefused | accept | acceptFailed | touch | release | rotate => exact ih rfl
    | startFailed | startCrashed | acceptCrashed | rotateCrashed | stop | prune => cases hsome

theorem running_of_run {events : List Event} {p : Process} (h : Run H c events ⟨d, some p⟩) :
    Running H c anyFrame p.gateway d :=
  standing_of_run (validID_of_run h rfl) h

theorem StandsOn.of_begins {more : List Entry} {world : World} (h : StandsOn H c more world) (hbegins : entries <+: more) :
    StandsOn H c entries world := by
  unfold StandsOn at h ⊢
  split at h
  · obtain ⟨held, hheld, hrest⟩ := h
    exact ⟨held, hbegins.trans hheld, hrest⟩
  · exact ⟨hbegins.trans h.1, h.2⟩

theorem standsOn_steps {p : Process} {later : List Event} {world : World} (h : Running H c anyFrame p.gateway d)
    (hlater : Steps H c ⟨d, some p⟩ later world) :
    ∃ n, StandsOn H c (p.gateway.wal.entries.drop n) world ∧ (.pruned ∉ later → n = 0) := by
  induction hlater with
  | refl => exact ⟨0, ⟨List.prefix_rfl, h⟩, fun _ => rfl⟩
  | @step later event world world' _ hstep ih =>
    obtain ⟨n, hstands, hzero⟩ := ih
    have hsame : .pruned ∉ event :: later → n = 0 := fun hnone => hzero fun hmem => hnone (List.mem_cons_of_mem _ hmem)
    obtain ⟨d, _ | q⟩ := world
    · obtain ⟨held, hheld, hrest⟩ := hstands
      by_cases hprune : event = .pruned
      · subst hprune
        cases hstep with
        | prune hprune =>
          obtain ⟨pruned, retained, rfl, hretained⟩ := hrest.pruned hprune
          refine ⟨n + pruned.length, ⟨retained, ?_, hretained⟩, fun hnone => absurd List.mem_cons_self hnone⟩
          simpa using List.IsPrefix.drop hheld pruned.length
      · exact ⟨n, (resting_step hrest hstep hprune).2.of_begins hheld, hsame⟩
    · exact ⟨n, (running_step hstands.2 hstep).2.of_begins hstands.1, hsame⟩

end TickPlatform.Ingest
