import TickPlatform.Ingest.Reconcile

/-!
# The identity of a batch

A batch is known by its producer session and its sequence there, in the WAL as in the journal.
-/

namespace TickPlatform.Ingest

open Bytes Protocol Crash Wal Journal

variable {H : Hashes} {c : Config} {entries : List Entry} {session : Bytes} {sequence : UInt64}

def frameIdentity (H : Hashes) (frame : Bytes) : Option (Bytes × UInt64) :=
  match decodeBatchFrame H frame with
  | .ok batch => some (batch.producerSessionID, batch.batchSequence)
  | .error _ => none

def identityOf (H : Hashes) (entry : Entry) : Option (Bytes × UInt64) := frameIdentity H entry.frame

def rowIdentity (row : Batch) : Bytes × UInt64 := (row.producerSessionID, row.batchSequence)

/-- No two entries share an identity. -/
def Distinct (H : Hashes) (entries : List Entry) : Prop := (entries.map (identityOf H)).Nodup

/-- The identity of the entry is not one of the list. -/
def Fresh (H : Hashes) (entries : List Entry) (entry : Entry) : Prop := identityOf H entry ∉ entries.map (identityOf H)

variable {entry : Entry}

theorem identityOf_decoded {batch : BatchFrameV1} (h : decodeBatchFrame H entry.frame = .ok batch) :
    identityOf H entry = some (batch.producerSessionID, batch.batchSequence) := by
  simp only [identityOf, frameIdentity, h]

theorem Distinct.append (h : Distinct H entries) (hfresh : Fresh H entries entry) :
    Distinct H (entries ++ [entry]) := by
  rw [Distinct, List.map_append, List.nodup_append]
  refine ⟨h, by simp, fun x hx y hy heq => hfresh ?_⟩
  obtain rfl := List.mem_singleton.mp hy
  exact heq ▸ hx

/-- An entry with a new identity and a frame that `F` allows. -/
structure New (H : Hashes) (F : Bytes → Prop) (entries : List Entry) (entry : Entry) : Prop where
  fresh : Fresh H entries entry
  frame : F entry.frame

/-- Entries with distinct identities and frames that `F` allows. -/
structure Collected (H : Hashes) (F : Bytes → Prop) (entries : List Entry) : Prop where
  distinct : Distinct H entries
  frames : ∀ entry ∈ entries, F entry.frame

theorem Collected.append {F : Bytes → Prop} (h : Collected H F entries)
    (hnew : New H F entries entry) : Collected H F (entries ++ [entry]) where
  distinct := h.distinct.append hnew.fresh
  frames x hx := by
    rcases List.mem_append.mp hx with hx | hx
    · exact h.frames x hx
    · obtain rfl := List.mem_singleton.mp hx
      exact hnew.frame

/-! ## In the WAL -/

theorem findWALIdentity_none {hash : Digest} (h : findWALIdentity H session sequence hash entries = .ok none) :
    some (session, sequence) ∉ entries.map (identityOf H) := by
  induction entries with
  | nil => simp
  | cons entry entries ih =>
    unfold findWALIdentity at h
    rw [List.map_cons, List.mem_cons, not_or]
    split at h
    · rename_i batch hbatch
      split at h
      · cases h
      · rename_i hother
        refine ⟨fun heq => hother ?_, ih h⟩
        rw [identityOf_decoded hbatch, Option.some.injEq, Prod.mk.injEq] at heq
        exact ⟨heq.1.symm, heq.2.symm⟩
    · rename_i hbatch
      refine ⟨?_, ih h⟩
      simp [identityOf, frameIdentity, hbatch]
    · cases h

theorem findWALIdentity_some {hash : Digest} {same : Bool}
    (h : findWALIdentity H session sequence hash entries = .ok (some same)) :
    some (session, sequence) ∈ entries.map (identityOf H) := by
  induction entries with
  | nil => cases h
  | cons entry entries ih =>
    unfold findWALIdentity at h
    split at h
    · rename_i batch hbatch
      split at h
      · rename_i hsame
        rw [List.map_cons, identityOf_decoded hbatch, hsame.1, hsame.2]
        exact List.mem_cons_self
      · exact List.mem_cons_of_mem _ (ih h)
    · exact List.mem_cons_of_mem _ (ih h)
    · cases h

/-! ## In the journal -/

variable {db : Db}

theorem find_eq_none : db.find session sequence = none ↔ (session, sequence) ∉ db.rows.map rowIdentity := by
  simp [Db.find, rowIdentity]

theorem find_eq_some {row : Batch} (h : db.find session sequence = some row) :
    row ∈ db.rows ∧ row.producerSessionID = session ∧ row.batchSequence = sequence :=
  ⟨List.mem_of_find?_eq_some h, by simpa using List.find?_some h⟩

theorem identities_journalOf (h : ∀ entry ∈ entries, entry.Sound H) :
    (journalOf H c entries).rows.map (fun row => some (rowIdentity row)) = entries.map (identityOf H) := by
  induction entries using List.reverseRecOn with
  | nil => rfl
  | append_singleton entries entry ih =>
    obtain ⟨batch, hbatch⟩ := (h entry (by simp)).decodes
    have hrows := ih fun x hx => h x (by simp [hx])
    rw [journalOf_append, journalStep_decoded hbatch, push_rows, List.map_append, hrows, List.map_append]
    simp only [List.map_cons, List.map_nil, identityOf_decoded hbatch]
    rfl

theorem find_journalOf (h : ∀ entry ∈ entries, entry.Sound H) :
    (journalOf H c entries).find session sequence = none ↔ some (session, sequence) ∉ entries.map (identityOf H) := by
  rw [find_eq_none, ← identities_journalOf (c := c) h]
  simp

/-! ## A row that is missing -/

/-- The journal has no row for some entry. -/
def Misses (H : Hashes) (db : Db) (entries : List Entry) : Prop :=
  ∃ entry ∈ entries, ∃ batch, decodeBatchFrame H entry.frame = .ok batch ∧
    db.find batch.producerSessionID batch.batchSequence = none

/-- The answer of a check that fails, by itself or on an error other than that of a transaction. -/
def Rejected (answer : Except IngestError Bool) : Prop :=
  answer = .ok false ∨ ∃ err, answer = .error err ∧ err.isTransaction = false

theorem misses_of_identity (hfind : db.find session sequence = none)
    (h : some (session, sequence) ∈ entries.map (identityOf H)) : Misses H db entries := by
  obtain ⟨entry, hmem, hentry⟩ := List.mem_map.mp h
  unfold identityOf frameIdentity at hentry
  split at hentry
  · rename_i batch hbatch
    obtain ⟨rfl, rfl⟩ := Prod.mk.inj (Option.some.inj hentry)
    exact ⟨entry, hmem, batch, hbatch, hfind⟩
  · cases hentry

theorem retainedRowsMatch_of_misses (h : Misses H db entries) : Rejected (retainedRowsMatch H db entries) := by
  obtain ⟨missing, hmem, batch, hbatch, hfind⟩ := h
  induction entries with
  | nil => cases hmem
  | cons entry entries ih =>
    unfold retainedRowsMatch decodeWALEntry
    rcases hdecode : decodeBatchFrame H entry.frame with err | first
    · exact .inr ⟨.frame err, rfl, rfl⟩
    rcases hlookup : db.lookup first.producerSessionID first.batchSequence with err | stored
    · refine .inr ⟨.lookup err, ?_, rfl⟩
      simp [Except.mapError, hlookup, bind, Except.bind]
    simp only [Except.mapError, hlookup, bind, Except.bind]
    cases stored with
    | none => exact .inl rfl
    | some stored =>
      simp only
      split
      · exact .inl rfl
      · rcases List.mem_cons.mp hmem with rfl | hmem
        · obtain rfl : first = batch := Except.ok.inj (hdecode.symm.trans hbatch)
          rw [(lookup_eq_ok.mp hlookup).2] at hfind
          cases hfind
        · exact ih hmem

theorem journalMatchesRetainedWAL_of_misses {wal : Wal.Store} (h : Misses H db wal.entries)
    (prunedThrough : UInt64) : Rejected (journalMatchesRetainedWAL H c wal db prunedThrough) := by
  unfold journalMatchesRetainedWAL
  split
  · exact .inl rfl
  · rcases retainedRowsMatch_of_misses h with hrows | ⟨err, hrows, herr⟩
    · rw [hrows]
      exact .inl rfl
    · rw [hrows]
      exact .inr ⟨err, rfl, herr⟩

/-- **After a prune a missing row is never repaired.** -/
theorem reconcile_of_misses {wal : Wal.Store} (hpruned : wal.prunedThrough ≠ 0) {d : Durable}
    (h : Misses H (d.journal c) wal.entries) (faults : TxFaults) :
    ∃ err, (reconcileJournal H c wal faults).run d = ([], .error err) ∧ err.isTransaction = false := by
  unfold reconcileJournal
  simp only [Prog.read_bind, if_pos hpruned]
  split
  · exact ⟨_, rfl, rfl⟩
  · rcases journalMatchesRetainedWAL_of_misses (c := c) h wal.prunedThrough with hrows | ⟨err, hrows, herr⟩
    · rw [hrows, Prog.lift_bind_ok]
      exact ⟨_, rfl, rfl⟩
    · rw [hrows, Prog.lift_bind_error]
      exact ⟨err, rfl, herr⟩

end TickPlatform.Ingest
