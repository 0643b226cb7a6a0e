import TickPlatform.Ingest.Cursor
import TickPlatform.Ingest.Durability

/-!
# Resuming

What the RESUME message of a new session tells a producer after any history: the cursor of the batches in the WAL, and
a last batch that no acknowledged one of its session comes after.
-/

namespace TickPlatform.Ingest

open Bytes Protocol Wal Journal

variable {H : Hashes} {c : Config}

theorem lastSequence_append (state : Journal.State) (rows : List Batch) (next : Batch) (session : Bytes) :
    (Db.mk state (rows ++ [next])).lastSequence session =
      if next.producerSessionID = session then
        some (((Db.mk state rows).lastSequence session).elim next.batchSequence (max · next.batchSequence))
      else (Db.mk state rows).lastSequence session := by
  simp only [Db.lastSequence, List.filter_append, List.foldl_append]
  split
  · rename_i h
    cases hbest : List.foldl _ _ (rows.filter _) <;> simp [h]
  · rename_i h
    simp [h]

theorem lastSequence_spec (state : Journal.State) (rows : List Batch) (session : Bytes) :
    ((∀ row ∈ rows, row.producerSessionID ≠ session) ∧ (Db.mk state rows).lastSequence session = none) ∨
    ∃ last ∈ rows, last.producerSessionID = session ∧ (Db.mk state rows).lastSequence session = some last.batchSequence ∧
      ∀ row ∈ rows, row.producerSessionID = session → row.batchSequence ≤ last.batchSequence := by
  induction rows using List.reverseRecOn with
  | nil => exact .inl ⟨by simp, rfl⟩
  | append_singleton rows next ih =>
    rw [lastSequence_append]
    rcases ih with ⟨hnone, hlast⟩ | ⟨last, hmem, hsession, hlast, hle⟩
    · grind
    · rw [hlast, Option.elim_some]
      by_cases hnext : last.batchSequence ≤ next.batchSequence
      · rw [show max last.batchSequence next.batchSequence = next.batchSequence from if_pos hnext]
        grind [UInt64.le_trans]
      · rw [show max last.batchSequence next.batchSequence = last.batchSequence from if_neg hnext]
        grind

/-- The row `LastForSession` finds is not before another row of the session. -/
theorem lastForSession_ge {db : Db} {row : Batch} (hrow : row ∈ db.rows) {found : Option Batch}
    (h : db.lastForSession row.producerSessionID = .ok found) :
    ∃ last, found = some last ∧ row.batchSequence ≤ last.batchSequence := by
  rcases lastSequence_spec db.state db.rows row.producerSessionID with ⟨hnone, -⟩ | ⟨last, hmem, hsession, hlast, hle⟩
  · exact absurd rfl (hnone row hrow)
  · have hlookup : db.lookup row.producerSessionID last.batchSequence = .ok found := by
      simpa only [Db.lastForSession, hlast] using h
    obtain ⟨-, rfl⟩ := lookup_eq_ok.mp hlookup
    have hfound : (db.find row.producerSessionID last.batchSequence).isSome :=
      List.find?_isSome.mpr ⟨last, hmem, by simp [hsession]⟩
    obtain ⟨found, hfind⟩ := Option.isSome_iff_exists.mp hfound
    have hsame := List.find?_some hfind
    rw [decide_eq_true_eq] at hsame
    exact ⟨found, hfind, hsame.2 ▸ hle row hrow rfl⟩

theorem startSession_eq_ok {g g' : Gateway} {db : Db} {hello : HelloV1} {now : Int} {resume : ResumeV1}
    {conn : Connection} (h : startSession H c g db hello now = (g', .ok (resume, conn))) :
    ∃ last, db.lastForSession hello.producerSessionID = .ok last ∧
      resume = makeResume c (leaseOf H hello) db.state last := by
  unfold startSession at h
  split at h
  · cases h
  simp only at h
  split at h
  · cases h
  split at h
  · cases h
  split at h
  · cases h
  · rename_i last hlast
    cases h
    exact ⟨last, hlast, rfl⟩

/-- Where a RESUME message lets the producer go on. -/
def resumeCursor (resume : ResumeV1) : Int64 × Digest × Int64 × UInt32 :=
  (resume.committedCursorMSC, resume.committedBoundaryDigest, resume.nextFromMSC, resume.nextRequestedCount)

/-- **A producer resumes where the WAL ends.** After any history without a prune and without a failed transaction,
whatever crashed on the way, a session starts at the cursor that the batches in the WAL lead to, and at a last batch that
no acknowledged batch of its producer session comes after. -/
theorem resume_covers_history {events : List Event} {d : Durable} {p : Process} (hrun : Run H c events ⟨d, some p⟩)
    (hanchor : d.anchor = none) (hcommitted : ∀ event ∈ events, event.failsTransaction = false) {hello : HelloV1}
    {now : Int} {g : Gateway} {resume : ResumeV1} {conn : Connection}
    (hstart : startSession H c p.gateway (d.journal c) hello now = (g, .ok (resume, conn))) :
    (∃ batches, List.Forall₂ (fun entry batch => decodeBatchFrame H entry.frame = .ok batch) p.gateway.wal.entries
      batches ∧ resumeCursor resume = cursorOf (cursorRun H c batches)) ∧
    ∀ conn raw ack batch, .acked conn raw ack ∈ events → Acknowledged ack → decodeBatchFrame H raw = .ok batch →
      batch.producerSessionID = hello.producerSessionID → batch.batchSequence ≤ resume.lastDurableBatchSequence := by
  obtain ⟨hrunning, hjournal, hall⟩ := inStep_of_run (validID_of_run hrun rfl) hrun hanchor hcommitted
  obtain ⟨last, hlast, rfl⟩ := startSession_eq_ok hstart
  rw [hjournal] at hlast ⊢
  obtain ⟨batches, hdecoded⟩ := exists_forall₂ fun entry hentry => (hrunning.opened.sound entry hentry).decodes
  refine ⟨⟨batches, hdecoded, foldl_journalStep_cursor hdecoded rfl⟩, fun conn raw ack batch hmem hack hdecode hsession => ?_⟩
  obtain ⟨batch', row, hrecorded⟩ := hall conn raw ack hmem hack
  obtain rfl := Except.ok.inj (hdecode.symm.trans hrecorded.decodes)
  obtain ⟨hid, hsequence⟩ := Prod.mk.inj hrecorded.identity
  rw [← hsession, ← hid] at hlast
  obtain ⟨found, rfl, hle⟩ := lastForSession_ge hrecorded.mem hlast
  exact hsequence ▸ hle

/-- A session that starts after the first batch, when the session of that batch has ended. -/
theorem resume_covers_history_first : ∃ events d p g resume conn batches,
    Run Hashes.sample smallConfig events ⟨d, some p⟩ ∧
    startSession Hashes.sample smallConfig p.gateway (d.journal smallConfig) (smallHello (ascii "X")) 0 =
      (g, .ok (resume, conn)) ∧ resumeCursor resume = cursorOf (cursorRun Hashes.sample smallConfig batches) := by
  obtain ⟨events, d, p, hrun, hcheck⟩ := exists_running (H := Hashes.sample) (c := smallConfig)
    (smallFirst ++ [.release (smallConnection (ascii "X") 1)])
    (fun events d p => decide (d.anchor = none ∧ ∀ event ∈ events, event.failsTransaction = false) &&
      (startSession Hashes.sample smallConfig p.gateway (d.journal smallConfig) (smallHello (ascii "X")) 0).2.toOption.any
        fun _ => true)
    (by decide +kernel)
  rw [Bool.and_eq_true, decide_eq_true_eq] at hcheck
  obtain ⟨⟨hanchor, hcommitted⟩, hok⟩ := hcheck
  obtain ⟨⟨resume, conn⟩, hresume, -⟩ := exists_ok_of_any hok
  have hstart : startSession _ _ _ _ _ _ = (_, .ok (resume, conn)) := Prod.ext rfl hresume
  obtain ⟨⟨batches, -, hcursor⟩, -⟩ := resume_covers_history hrun hanchor hcommitted hstart
  exact ⟨events, d, p, _, resume, conn, batches, hrun, hstart, hcursor⟩

end TickPlatform.Ingest
