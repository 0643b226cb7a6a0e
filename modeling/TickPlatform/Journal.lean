import TickPlatform.Wal.Store

/-!
# The ingest journal

The SQLite index over the WAL: one row per batch and one row of gateway state. A transaction commits as a
whole or leaves the database as it was.
-/

namespace TickPlatform.Journal

open Bytes Protocol Wal

structure State where
  gatewayInstanceID : Bytes
  committedCursorMSC : Int64
  committedBoundaryDigest : Digest
  nextFromMSC : Int64
  nextRequestedCount : UInt32
  lastIngestSequence : UInt64
  lastEntryHash : Digest
deriving DecidableEq

structure Outcome where
  status : UInt8
  committedCursorMSC : Int64
  committedBoundaryDigest : Digest
  nextFromMSC : Int64
  nextRequestedCount : UInt32
deriving DecidableEq

structure Batch where
  producerSessionID : Bytes
  batchSequence : UInt64
  gatewayBatchSHA256 : Digest
  gatewayIngestSequence : UInt64
  status : UInt8
  committedCursorMSC : Int64
  committedBoundaryDigest : Digest
  nextFromMSC : Int64
  nextRequestedCount : UInt32
  frame : Bytes
deriving DecidableEq

/-- The tables `gateway_state` and `batches`, the rows in the order in which they were inserted. -/
structure Db where
  state : State
  rows : List Batch
deriving DecidableEq

/-- What `NewStore` is given. -/
structure Store where
  gatewayID : Bytes
  initialFromMSC : Int64
  initialCount : UInt32

/-- Where a transaction fails: at its begin, in one of its statements, or at its commit. -/
inductive TxFault
  | begin
  | statement (index : Nat)
  | commit
deriving DecidableEq

inductive JournalError
  | notInteger (value : UInt64)
  | failed (step : String)
deriving DecidableEq

def JournalError.text : JournalError → String
  | .notInteger value => s!"value {value} does not fit SQLite INTEGER"
  | .failed step => step

def applyStep : TxFault → String
  | .begin => "begin journal transaction"
  | .statement 0 => "insert journal batch"
  | .statement _ => "update journal state"
  | .commit => "commit journal transaction"

def resetStep : TxFault → String
  | .begin => "begin journal reset"
  | .statement 0 => "clear journal batches"
  | .statement 1 => "clear journal state"
  | .statement _ => "reset journal state"
  | .commit => "commit journal reset"

def maxInt64 : UInt64 := 9223372036854775807

def sqliteInt (value : UInt64) : Except JournalError Unit :=
  if value > maxInt64 then .error (.notInteger value) else .ok ()

/-- The database `initialize` makes when there is none, and the one `Reset` commits. -/
def Store.initial (s : Store) : Db where
  state :=
    { gatewayInstanceID := s.gatewayID, committedCursorMSC := s.initialFromMSC,
      committedBoundaryDigest := Digest.zero, nextFromMSC := s.initialFromMSC,
      nextRequestedCount := s.initialCount, lastIngestSequence := 0, lastEntryHash := Digest.zero }
  rows := []

/-- `Start`: the tables are created only if they are missing. -/
def Store.start (s : Store) (db : Option Db) : Db := db.getD s.initial

namespace Db

/-- The row with a primary key. -/
def find (db : Db) (producerSessionID : Bytes) (batchSequence : UInt64) : Option Batch :=
  db.rows.find? fun row => row.producerSessionID = producerSessionID ∧ row.batchSequence = batchSequence

def lookup (db : Db) (producerSessionID : Bytes) (batchSequence : UInt64) : Except JournalError (Option Batch) := do
  sqliteInt batchSequence
  return db.find producerSessionID batchSequence

/-- The greatest batch sequence of a session. -/
def lastSequence (db : Db) (producerSessionID : Bytes) : Option UInt64 :=
  (db.rows.filter fun row => row.producerSessionID = producerSessionID).foldl
    (fun best row => some (match best with
      | some sequence => max sequence row.batchSequence
      | none => row.batchSequence)) none

def lastForSession (db : Db) (producerSessionID : Bytes) : Except JournalError (Option Batch) :=
  match db.lastSequence producerSessionID with
  | none => .ok none
  | some sequence => db.lookup producerSessionID sequence

def count (db : Db) : Nat := db.rows.length

/-- `PRIMARY KEY (producer_session_id, batch_sequence)` and `gateway_ingest_sequence UNIQUE`. -/
def conflicts (db : Db) (row : Batch) : Bool :=
  db.rows.any fun old => decide (old.producerSessionID = row.producerSessionID ∧
    old.batchSequence = row.batchSequence ∨ old.gatewayIngestSequence = row.gatewayIngestSequence)

end Db

def makeRow (entry : Entry) (batch : BatchFrameV1) (outcome : Outcome) : Batch where
  producerSessionID := batch.producerSessionID
  batchSequence := batch.batchSequence
  gatewayBatchSHA256 := entry.batchHash
  gatewayIngestSequence := entry.sequence
  status := outcome.status
  committedCursorMSC := outcome.committedCursorMSC
  committedBoundaryDigest := outcome.committedBoundaryDigest
  nextFromMSC := outcome.nextFromMSC
  nextRequestedCount := outcome.nextRequestedCount
  frame := entry.frame

/-- What a committed `Apply` leaves. -/
def Db.push (db : Db) (entry : Entry) (batch : BatchFrameV1) (outcome : Outcome) : Db where
  state :=
    { db.state with
      committedCursorMSC := outcome.committedCursorMSC
      committedBoundaryDigest := outcome.committedBoundaryDigest
      nextFromMSC := outcome.nextFromMSC
      nextRequestedCount := outcome.nextRequestedCount
      lastIngestSequence := entry.sequence
      lastEntryHash := entry.entryHash }
  rows := db.rows ++ [makeRow entry batch outcome]

def Db.apply (db : Db) (entry : Entry) (batch : BatchFrameV1) (outcome : Outcome) (fault : Option TxFault) :
    Except JournalError (Batch × Db) := do
  sqliteInt batch.batchSequence
  sqliteInt entry.sequence
  let row := makeRow entry batch outcome
  if fault = some .begin then .error (.failed (applyStep .begin))
  else if db.conflicts row then .error (.failed (applyStep (.statement 0)))
  else
    match fault with
    | some fault => .error (.failed (applyStep fault))
    | none => .ok (row, db.push entry batch outcome)

def Store.reset (s : Store) (fault : Option TxFault) : Except JournalError Db :=
  match fault with
  | some fault => .error (.failed (resetStep fault))
  | none => .ok s.initial

/-! ## What a transaction can do -/

variable {value : UInt64}

theorem sqliteInt_eq_ok : sqliteInt value = .ok () ↔ value ≤ maxInt64 := by
  unfold sqliteInt
  split
  · simp_all
  · simp_all

theorem sqliteInt_bind_ok (h : value ≤ maxInt64) {α : Type} (f : Unit → Except JournalError α) :
    (sqliteInt value >>= f) = f () := by
  rw [sqliteInt_eq_ok.mpr h]
  rfl

theorem sqliteInt_of_bind {α : Type} {f : Unit → Except JournalError α} {a : α}
    (h : (sqliteInt value >>= f) = .ok a) : value ≤ maxInt64 ∧ f () = .ok a := by
  unfold sqliteInt at h
  split at h
  · cases h
  · rename_i hle
    exact ⟨UInt64.not_lt.mp hle, h⟩

variable {db : Db}

theorem lookup_eq_ok {session : Bytes} {sequence : UInt64} {found : Option Batch} :
    db.lookup session sequence = .ok found ↔ sequence ≤ maxInt64 ∧ db.find session sequence = found := by
  constructor
  · intro h
    obtain ⟨hle, hfound⟩ := sqliteInt_of_bind h
    exact ⟨hle, Except.ok.inj hfound⟩
  · rintro ⟨hle, rfl⟩
    exact sqliteInt_bind_ok hle _

theorem apply_eq_ok {entry : Entry} {batch : BatchFrameV1} {outcome : Outcome} {fault : Option TxFault}
    {result : Batch × Db} :
    db.apply entry batch outcome fault = .ok result ↔
      result = (makeRow entry batch outcome, db.push entry batch outcome) ∧ fault = none ∧
        db.conflicts (makeRow entry batch outcome) = false ∧ batch.batchSequence ≤ maxInt64 ∧
        entry.sequence ≤ maxInt64 := by
  constructor
  · intro h
    obtain ⟨hbatch, h⟩ := sqliteInt_of_bind h
    obtain ⟨hentry, h⟩ := sqliteInt_of_bind h
    simp only at h
    split at h
    · cases h
    split at h
    · cases h
    rename_i hfree
    split at h
    · cases h
    · exact ⟨(Except.ok.inj h).symm, rfl, by simpa using hfree, hbatch, hentry⟩
  · rintro ⟨rfl, rfl, hfree, hbatch, hentry⟩
    unfold Db.apply
    rw [sqliteInt_bind_ok hbatch, sqliteInt_bind_ok hentry]
    simp [hfree]

@[simp] theorem push_rows (db : Db) (entry : Entry) (batch : BatchFrameV1) (outcome : Outcome) :
    (db.push entry batch outcome).rows = db.rows ++ [makeRow entry batch outcome] := rfl

theorem reset_eq_ok {s : Store} {fault : Option TxFault} : s.reset fault = .ok db ↔ db = s.initial ∧ fault = none := by
  cases fault <;> simp [Store.reset, eq_comm]

end TickPlatform.Journal
