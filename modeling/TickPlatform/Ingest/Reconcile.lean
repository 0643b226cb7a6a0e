import Mathlib.Data.List.Induction
import TickPlatform.Ingest.Gateway
import TickPlatform.Wal.Serve

/-!
# The journal as a fold over the WAL

What the journal should be for a list of WAL entries, how far behind it may be, and that reconciling brings it
up to date or leaves it behind.
-/

namespace TickPlatform.Ingest

open Bytes Protocol Crash Wal Journal

variable {H : Hashes} {c : Config}

/-! ## WAL calls inside the gateway -/

theorem runAll_wal (ops : List DiskOp) (d : Durable) :
    runAll (ops.map DurableOp.wal) d = { d with disk := runAll ops d.disk } := by
  induction ops generalizing d with
  | nil => rfl
  | cons op ops ih =>
    rw [List.map_cons, runAll_cons, ih]
    rfl

variable {d : Durable}

theorem crashAt_wal {ops : List DiskOp} {t : Durable} (h : CrashAt (ops.map DurableOp.wal) d t) :
    ∃ disk, CrashAt ops d.disk disk ∧ t = { d with disk } := by
  induction ops generalizing d with
  | nil =>
    rw [List.map_nil, crashAt_nil] at h
    exact ⟨d.disk, .before _ _, h⟩
  | cons op ops ih =>
    rw [List.map_cons, crashAt_cons] at h
    rcases h with rfl | ⟨disk, htorn, rfl⟩ | h
    · exact ⟨t.disk, .before _ _, rfl⟩
    · exact ⟨disk, .inside htorn, rfl⟩
    · obtain ⟨disk, hcrash, rfl⟩ := ih h
      exact ⟨disk, .after hcrash, rfl⟩

theorem meets_onWal {err α : Type} {p : WalProg err α} {C : Durable → Prop} {Q : α → Durable → Prop}
    {E : err → Durable → Prop}
    (h : Meets p d.disk (fun disk => C { d with disk }) (fun a disk => Q a { d with disk })
      (fun e disk => E e { d with disk })) : Meets (onWal p) d C Q E := by
  have hcrash : ∀ ops r, p.run d.disk = (ops, r) → ∀ t, CrashAt (ops.map DurableOp.wal) d t → C t := by
    intro ops r hrun t ht
    obtain ⟨disk, hdisk, rfl⟩ := crashAt_wal ht
    exact h.crash disk (by rw [Prog.CrashIn, hrun]; exact hdisk)
  rcases hrun : p.run d.disk with ⟨ops, e | a⟩
  · have hrun' : (onWal p).run d = (ops.map .wal, .error e) := by simp only [onWal, hrun]
    refine meets_of_error hrun' (hcrash ops _ hrun) ?_
    rw [runAll_wal]
    exact h.error ops e hrun
  · have hrun' : (onWal p).run d = (ops.map .wal, .ok a) := by simp only [onWal, hrun]
    refine meets_of_ok hrun' (hcrash ops _ hrun) ?_
    rw [runAll_wal]
    exact h.ok ops a hrun

/-! ## The fold -/

def journalStep (H : Hashes) (c : Config) (db : Db) (entry : Entry) : Db :=
  match decodeBatchFrame H entry.frame with
  | .ok batch => db.push entry batch (outcomeForBatch H db.state batch c)
  | .error _ => db

/-- The journal of a list of WAL entries: `outcomeForBatch` and `Apply`, entry after entry. -/
def journalOf (H : Hashes) (c : Config) (entries : List Entry) : Db :=
  entries.foldl (journalStep H c) (journalStore c).initial

theorem journalOf_append (entries : List Entry) (entry : Entry) :
    journalOf H c (entries ++ [entry]) = journalStep H c (journalOf H c entries) entry := by
  rw [journalOf, List.foldl_append]
  rfl

variable {db : Db}

theorem journalStep_decoded {entry : Entry} {batch : BatchFrameV1} (h : decodeBatchFrame H entry.frame = .ok batch) :
    journalStep H c db entry = db.push entry batch (outcomeForBatch H db.state batch c) := by
  simp only [journalStep, h]

variable {entries : List Entry}

theorem count_journalOf (h : ∀ entry ∈ entries, entry.Sound H) : (journalOf H c entries).count = entries.length := by
  induction entries using List.reverseRecOn with
  | nil => rfl
  | append_singleton entries entry ih =>
    obtain ⟨batch, hbatch⟩ := (h entry (by simp)).decodes
    have hcount := ih fun x hx => h x (by simp [hx])
    rw [journalOf_append, journalStep_decoded hbatch, Db.count, push_rows, List.length_append, List.length_append]
    exact congrArg (· + 1) hcount

/-! ## A journal that lags behind -/

/-- The journal has a row for each entry only if it is the journal of the entries. -/
structure Lags (H : Hashes) (c : Config) (db : Db) (entries : List Entry) : Prop where
  count_le : db.count ≤ entries.length
  eq_of_count : db.count = entries.length → db = journalOf H c entries

theorem lags_initial (entries : List Entry) : Lags H c (journalStore c).initial entries where
  count_le := Nat.zero_le _
  eq_of_count h := by
    obtain rfl : entries = [] := List.length_eq_zero_iff.mp h.symm
    rfl

theorem lags_journalOf (c : Config) {done : List Entry} (h : ∀ entry ∈ done, entry.Sound H) (rest : List Entry) :
    Lags H c (journalOf H c done) (done ++ rest) where
  count_le := by
    rw [count_journalOf h, List.length_append]
    omega
  eq_of_count hcount := by
    rw [count_journalOf h, List.length_append] at hcount
    obtain rfl : rest = [] := List.length_eq_zero_iff.mp (by omega)
    rw [List.append_nil]

theorem lags_self (c : Config) (h : ∀ entry ∈ entries, entry.Sound H) : Lags H c (journalOf H c entries) entries := by
  have hlag := lags_journalOf c h []
  rwa [List.append_nil] at hlag

theorem Lags.append (h : Lags H c db entries) (entry : Entry) : Lags H c db (entries ++ [entry]) where
  count_le := by
    rw [List.length_append]
    exact Nat.le_add_right_of_le h.count_le
  eq_of_count hcount := by
    have hle := h.count_le
    rw [hcount, List.length_append, List.length_singleton] at hle
    omega

theorem Lags.push (h : Lags H c db entries) {entry : Entry} {batch : BatchFrameV1}
    (hbatch : decodeBatchFrame H entry.frame = .ok batch) :
    Lags H c (db.push entry batch (outcomeForBatch H db.state batch c)) (entries ++ [entry]) where
  count_le := by
    have hle := h.count_le
    simp only [Db.count, push_rows, List.length_append, List.length_singleton] at hle ⊢
    omega
  eq_of_count hcount := by
    simp only [Db.count, push_rows, List.length_append, List.length_singleton, Nat.add_right_cancel_iff] at hcount
    rw [journalOf_append, journalStep_decoded hbatch, ← h.eq_of_count hcount]

/-! ## Reconciling -/

structure SameButJournal (d t : Durable) : Prop where
  disk : t.disk = d.disk
  clock : t.clock = d.clock
  anchor : t.anchor = d.anchor

theorem SameButJournal.refl (d : Durable) : SameButJournal d d := ⟨rfl, rfl, rfl⟩

theorem SameButJournal.trans {t u : Durable} (h : SameButJournal d t) (h' : SameButJournal t u) :
    SameButJournal d u := ⟨h'.disk.trans h.disk, h'.clock.trans h.clock, h'.anchor.trans h.anchor⟩

theorem meets_commit {err : Type} {C : Durable → Prop} {Q : Unit → Durable → Prop}
    {E : err → Durable → Prop} (hC : C d) (hC' : C { d with db := some db }) (hQ : Q () { d with db := some db }) :
    Meets (Prog.emit (.commit db) : GatewayProg err Unit) d C Q E :=
  meets_emit hC (fun _ h => h.elim) hC' hQ

theorem mapError_eq_ok {err err' α : Type} {f : err → err'} {x : Except err α} {a : α} :
    x.mapError f = .ok a ↔ x = .ok a := by
  cases x <;> simp [Except.mapError]

theorem meets_rebuild (done : List Entry) (hsound : ∀ entry ∈ done ++ entries, entry.Sound H) (hdb : d.journal c = journalOf H c done) (faults : TxFaults) :
    Meets (rebuildJournal H c entries faults) d
      (fun t => SameButJournal d t ∧ Lags H c (t.journal c) (done ++ entries))
      (fun _ t => SameButJournal d t ∧ t.journal c = journalOf H c (done ++ entries))
      (fun _ t => SameButJournal d t ∧ Lags H c (t.journal c) (done ++ entries)) := by
  induction entries generalizing done d faults with
  | nil =>
    have hlag := lags_journalOf c (fun x hx => hsound x (List.mem_append_left _ hx)) []
    rw [← hdb] at hlag
    refine meets_pure ⟨.refl d, hlag⟩ ⟨.refl d, ?_⟩
    rw [List.append_nil]
    exact hdb
  | cons entry entries ih =>
    have hlag := lags_journalOf c (fun x hx => hsound x (List.mem_append_left _ hx)) (entry :: entries)
    rw [← hdb] at hlag
    obtain ⟨batch, hbatch⟩ := (hsound entry (by simp)).decodes
    unfold rebuildJournal
    refine meets_lift_bind ⟨.refl d, hlag⟩ (fun e _ => ⟨.refl d, hlag⟩) fun batch' hbatch' => ?_
    obtain rfl : batch = batch' := Except.ok.inj (hbatch.symm.trans (mapError_eq_ok.mp hbatch'))
    refine meets_read_bind (meets_lift_bind ⟨.refl d, hlag⟩ (fun e _ => ⟨.refl d, hlag⟩) fun applied happlied => ?_)
    obtain ⟨rfl, -⟩ := apply_eq_ok.mp (mapError_eq_ok.mp happlied)
    have hnext : ({ d with db := some ((d.journal c).push entry batch (outcomeForBatch H (d.journal c).state batch c)) } :
        Durable).journal c = journalOf H c (done ++ [entry]) := by
      rw [journalOf_append, journalStep_decoded hbatch, ← hdb]
      rfl
    have hsplit : done ++ entry :: entries = (done ++ [entry]) ++ entries := by simp
    rw [hsplit] at hsound hlag ⊢
    have hrest := ih (done ++ [entry]) hsound hnext fun i => faults (i + 1)
    have hsame : SameButJournal d { d with db := some ((d.journal c).push entry batch
        (outcomeForBatch H (d.journal c).state batch c)) } := ⟨rfl, rfl, rfl⟩
    refine meets_bind (meets_commit ⟨.refl d, hlag⟩ ⟨hsame, ?_⟩ ?_)
    · rw [hnext]
      exact lags_journalOf c (fun x hx => hsound x (List.mem_append_left _ hx)) entries
    · exact hrest.mono (fun t ht => ⟨hsame.trans ht.1, ht.2⟩) (fun _ t ht => ⟨hsame.trans ht.1, ht.2⟩)
        (fun _ t ht => ⟨hsame.trans ht.1, ht.2⟩)

theorem meets_resetAndRebuild (hsound : ∀ entry ∈ entries, entry.Sound H)
    (hlag : Lags H c (d.journal c) entries) (faults : TxFaults) :
    Meets (resetAndRebuild H c entries faults) d
      (fun t => SameButJournal d t ∧ Lags H c (t.journal c) entries)
      (fun _ t => SameButJournal d t ∧ t.journal c = journalOf H c entries)
      (fun _ t => SameButJournal d t ∧ Lags H c (t.journal c) entries) := by
  unfold resetAndRebuild
  refine meets_lift_bind ⟨.refl d, hlag⟩ (fun e _ => ⟨.refl d, hlag⟩) fun db hdb => ?_
  obtain ⟨rfl, -⟩ := reset_eq_ok.mp (mapError_eq_ok.mp hdb)
  have hsame : SameButJournal d { d with db := some (journalStore c).initial } := ⟨rfl, rfl, rfl⟩
  refine meets_bind (meets_commit ⟨.refl d, hlag⟩ ⟨hsame, lags_initial entries⟩ ?_)
  have hrest := meets_rebuild (c := c) [] hsound (d := { d with db := some (journalStore c).initial }) rfl
    fun i => faults (i + 1)
  exact hrest.mono (fun t ht => ⟨hsame.trans ht.1, ht.2⟩) (fun _ t ht => ⟨hsame.trans ht.1, ht.2⟩)
    (fun _ t ht => ⟨hsame.trans ht.1, ht.2⟩)

/-- **Reconciling brings a lagging journal up to date** while nothing is pruned. -/
theorem meets_reconcile {wal : Wal.Store} (hsound : ∀ entry ∈ wal.entries, entry.Sound H)
    (hpruned : wal.prunedThrough = 0) (hlag : Lags H c (d.journal c) wal.entries) (faults : TxFaults) :
    Meets (reconcileJournal H c wal faults) d
      (fun t => SameButJournal d t ∧ Lags H c (t.journal c) wal.entries)
      (fun _ t => SameButJournal d t ∧ t.journal c = journalOf H c wal.entries)
      (fun _ t => SameButJournal d t ∧ Lags H c (t.journal c) wal.entries) := by
  unfold reconcileJournal
  refine meets_read_bind ?_
  rw [if_neg (not_not_intro hpruned), if_neg (Nat.not_lt.mpr hlag.count_le)]
  split
  · rename_i hcount
    refine meets_lift_bind ⟨.refl d, hlag⟩ (fun e _ => ⟨.refl d, hlag⟩) fun rowsMatch _ => ?_
    split
    · exact meets_pure ⟨.refl d, hlag⟩ ⟨.refl d, hlag.eq_of_count hcount⟩
    · exact meets_resetAndRebuild hsound hlag faults
  · exact meets_resetAndRebuild hsound hlag faults

end TickPlatform.Ingest
