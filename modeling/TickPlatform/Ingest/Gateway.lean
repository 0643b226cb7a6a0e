import TickPlatform.Ingest.Config
import TickPlatform.Journal

/-!
# The gateway

The cursor rule, the producer sessions, `acceptBatch` and the reconciliation of the journal with the WAL,
each as a program over the durable state: the WAL directory, the journal and the wall clock.
-/

namespace TickPlatform.Ingest

open Bytes Protocol Crash Wal Journal

/-! ## The cursor -/

def boundaryRecords (records : List RawMqlTickV1) (cursorMSC : Int64) : List RawMqlTickV1 :=
  records.filter fun record => record.timeMSC = cursorMSC

/-- The greatest time of a batch. -/
def maxMSC (first : RawMqlTickV1) (others : List RawMqlTickV1) : Int64 :=
  others.foldl (fun best record => if record.timeMSC > best then record.timeMSC else best) first.timeMSC

/-- Twice the count, up to the cap. -/
def nextDenseCount (current cap : UInt32) : UInt32 :=
  let next := current * 2
  if next < current ∨ next > cap then cap else next

def outcomeForBatch (H : Hashes) (state : Journal.State) (batch : BatchFrameV1) (config : Config) : Outcome :=
  let c := config.withDefaults
  let outcome : Outcome :=
    { status := ackAcceptedNoAdvance
      committedCursorMSC := state.committedCursorMSC
      committedBoundaryDigest := state.committedBoundaryDigest
      nextFromMSC :=
        if state.nextFromMSC = 0 ∧ state.committedCursorMSC ≠ 0 then state.committedCursorMSC else state.nextFromMSC
      nextRequestedCount := if state.nextRequestedCount = 0 then c.initialBatchCount else state.nextRequestedCount }
  if batch.copyTicksError ≠ 0 ∨ batch.returnedCount < 0 then outcome
  else
    match batch.records with
    | [] => outcome
    | first :: others =>
      let maxMSC := maxMSC first others
      let boundary := boundaryRecords batch.records maxMSC
      if maxMSC > state.committedCursorMSC then
        { status := ackAcceptedAdvanced
          committedCursorMSC := maxMSC
          committedBoundaryDigest := boundaryDigest H maxMSC Digest.zero boundary
          nextFromMSC := maxMSC
          nextRequestedCount := c.initialBatchCount }
      else if maxMSC < state.committedCursorMSC then outcome
      else if batch.requestedCount > 0 ∧ batch.returnedCount = batch.requestedCount.toInt32 then
        let currentCount := max batch.requestedCount outcome.nextRequestedCount
        if currentCount ≥ c.denseBoundaryHardCap then
          { outcome with
            status := ackDenseUnresolved
            nextRequestedCount := c.denseBoundaryHardCap
            nextFromMSC := state.committedCursorMSC }
        else
          { outcome with
            status := ackDenseBoundary
            nextRequestedCount := nextDenseCount currentCount c.denseBoundaryHardCap
            nextFromMSC := state.committedCursorMSC }
      else
        { outcome with
          committedBoundaryDigest :=
            boundaryDigest H state.committedCursorMSC state.committedBoundaryDigest boundary
          nextRequestedCount := c.initialBatchCount
          nextFromMSC := state.committedCursorMSC }

/-! ## Durable state -/

structure Durable where
  disk : Disk
  /-- The journal file, once it exists. -/
  db : Option Db
  /-- The latest durable wall clock, in milliseconds. -/
  clock : Option UInt64
  /-- The boundary of the latest prune checkpoint. -/
  anchor : Option PruneAnchor
deriving DecidableEq

inductive DurableOp
  | wal (op : DiskOp)
  | commit (db : Db)
  | publishClock (observed : UInt64)
deriving DecidableEq

/-- A transaction commits as a whole; only a WAL write can be torn. -/
instance : Device Durable DurableOp where
  run
    | .wal op, d => { d with disk := Device.run op d.disk }
    | .commit db, d => { d with db := some db }
    | .publishClock observed, d => { d with clock := some observed }
  torn
    | .wal op, d, t => ∃ disk, Device.torn op d.disk disk ∧ t = { d with disk }
    | _, _, _ => False

abbrev GatewayProg := Prog Durable DurableOp

/-- A WAL call inside the gateway. -/
def onWal {err α : Type} (p : WalProg err α) : GatewayProg err α :=
  ⟨fun d => ((p.run d.disk).1.map .wal, (p.run d.disk).2)⟩

inductive IngestError
  | protocol (err : ProtocolError)
  /-- `net.ErrClosed`. -/
  | closed
  | frame (err : BatchError)
  | lookup (err : JournalError)
  | apply (err : JournalError)
  | reset (err : JournalError)
  | rebuild (sequence : UInt64) (err : JournalError)
  | wal (err : WalError)
  | clock (detail : String)
deriving DecidableEq

/-- A journal transaction has failed. -/
def IngestError.isTransaction : IngestError → Bool
  | .apply _ => true
  | .reset _ => true
  | .rebuild _ _ => true
  | _ => false

/-! ## Sessions -/

structure Connection where
  hello : HelloV1
  lease : Bytes
  generation : UInt64
deriving DecidableEq

/-- The process: what is lost in a crash. `activeUntil` is `none` for the zero time. -/
structure Gateway where
  wal : Wal.Store
  closed : Bool
  activeLease : Bytes
  activeUntil : Option Int
  activeGeneration : UInt64
  nextGeneration : UInt64
  disk : DiskStateMachine
deriving DecidableEq

def journalStore (c : Config) : Journal.Store := ⟨c.gatewayInstanceID, c.initialFromMSC, c.initialBatchCount⟩

/-- The open journal. -/
def Durable.journal (c : Config) (d : Durable) : Db := (journalStore c).start d.db

def before (now : Int) : Option Int → Bool
  | none => false
  | some limit => now < limit

namespace Gateway

def sessionActive (g : Gateway) (lease : Bytes) (generation : UInt64) (now : Int) : Bool :=
  !g.closed && g.activeLease == lease && g.activeGeneration == generation && before now g.activeUntil

def releaseSession (g : Gateway) (lease : Bytes) (generation : UInt64) : Gateway :=
  if g.activeLease = lease ∧ g.activeGeneration = generation then
    { g with activeLease := [], activeUntil := none, activeGeneration := 0 }
  else g

def touchSession (c : Config) (g : Gateway) (lease : Bytes) (generation : UInt64) (now : Int) : Gateway :=
  if g.closed = false ∧ g.activeLease = lease ∧ g.activeGeneration = generation then
    { g with activeUntil := some (now + c.sessionLeaseTimeout.toInt) }
  else g

end Gateway

def validateHello (c : Config) (hello : HelloV1) : Except IngestError Unit :=
  let checks : List (String × Bytes × Bytes) :=
    [("producer_instance_id", hello.producerInstanceID, c.producerInstanceID),
     ("producer_build_id", hello.producerBuildID, c.producerBuildID),
     ("provider_id", hello.providerID, c.providerID),
     ("stable_feed_id", hello.stableFeedID, c.stableFeedID),
     ("broker_server_fingerprint", hello.brokerServerFingerprint, c.brokerServerFingerprint),
     ("exact_source_symbol", hello.exactSourceSymbol, c.exactSourceSymbol)]
  if hello.producerInstanceID = [] ∨ hello.producerSessionID = [] ∨ hello.exactSourceSymbol = [] then
    .error (.protocol (newError .invalidField "producer identity and exact source symbol are required"))
  else if hello.sourceSchemaID ≠ sourceSchemaMT5 then
    .error (.protocol (newQuotedError .invalidField "unsupported source schema " hello.sourceSchemaID))
  else
    match checks.find? fun check => check.2.2 ≠ [] ∧ check.2.1 ≠ check.2.2 with
    | some (name, _) => .error (.protocol (newError .invalidField s!"{name} does not match configured dataset"))
    | none => .ok ()

def leaseOf (H : Hashes) (hello : HelloV1) : Bytes :=
  deriveSessionLeaseID H hello.producerInstanceID hello.producerSessionID hello.providerID hello.stableFeedID
    hello.brokerServerFingerprint hello.exactSourceSymbol

def makeResume (c : Config) (lease : Bytes) (state : Journal.State) (last : Option Batch) : ResumeV1 where
  acceptedProtocolVersion := protocolVersion
  gatewayInstanceID := c.gatewayInstanceID
  sessionLeaseID := lease
  committedCursorMSC := state.committedCursorMSC
  committedBoundaryDigest := state.committedBoundaryDigest
  lastDurableBatchSequence := (last.map (·.batchSequence)).getD 0
  lastDurableBatchHash := (last.map (·.gatewayBatchSHA256)).getD Digest.zero
  nextFromMSC := state.nextFromMSC
  nextRequestedCount := state.nextRequestedCount
  maximumFrameBytes := c.maxFrameBytes
  maximumRecords := c.maxRecords
  heartbeatIdleTimeoutMS := UInt32.ofInt (c.heartbeatIdleTimeout.toInt.tdiv 1000000)

/-- The gateway after the call, and the answer to the producer. -/
def startSession (H : Hashes) (c : Config) (g : Gateway) (db : Db) (hello : HelloV1) (now : Int) :
    Gateway × Except IngestError (ResumeV1 × Connection) :=
  match validateHello c hello with
  | .error err => (g, .error err)
  | .ok () =>
    let lease := leaseOf H hello
    if g.closed then (g, .error .closed)
    else if g.activeLease ≠ [] ∧ before now g.activeUntil then
      (g, .error (.protocol (newError .sessionLeaseConflict "another producer session is active")))
    else
      let generation := if g.nextGeneration + 1 = 0 then 1 else g.nextGeneration + 1
      let active := { g with nextGeneration := generation, activeLease := lease, activeGeneration := generation,
                             activeUntil := some (now + c.sessionLeaseTimeout.toInt) }
      match db.lastForSession hello.producerSessionID with
      | .error err => (active.releaseSession lease generation, .error (.lookup err))
      | .ok last => (active, .ok (makeResume c lease db.state last, ⟨hello, lease, generation⟩))

/-! ## The journal and the WAL -/

def decodeWALEntry (H : Hashes) (entry : Entry) : Except IngestError BatchFrameV1 :=
  (decodeBatchFrame H entry.frame).mapError .frame

/-- Whether an entry has the identity, and then whether it has the hash. -/
def findWALIdentity (H : Hashes) (session : Bytes) (sequence : UInt64) (hash : Digest) :
    List Entry → Except IngestError (Option Bool)
  | [] => .ok none
  | entry :: entries =>
    match decodeBatchFrame H entry.frame with
    | .ok batch =>
      if batch.producerSessionID = session ∧ batch.batchSequence = sequence then
        .ok (some (decide (entry.batchHash = hash)))
      else findWALIdentity H session sequence hash entries
    | .error .notBatch => findWALIdentity H session sequence hash entries
    | .error err => .error (.frame err)

def journalBatchMatches (stored : Batch) (entry : Entry) (batch : BatchFrameV1) (outcome : Outcome) : Bool :=
  stored == makeRow entry batch outcome

/-- The loop of `journalMatchesWAL` from an expected state on. -/
def journalMatchesFrom (H : Hashes) (c : Config) (db : Db) : Journal.State → List Entry → Except IngestError Bool
  | expected, [] => .ok (db.state == expected)
  | expected, entry :: entries => do
    let batch ← decodeWALEntry H entry
    let outcome := outcomeForBatch H expected batch c
    match db.lookup batch.producerSessionID batch.batchSequence with
    | .error _ => .ok false
    | .ok none => .ok false
    | .ok (some stored) =>
      if journalBatchMatches stored entry batch outcome then
        journalMatchesFrom H c db
          { expected with
            committedCursorMSC := outcome.committedCursorMSC
            committedBoundaryDigest := outcome.committedBoundaryDigest
            nextFromMSC := outcome.nextFromMSC
            nextRequestedCount := outcome.nextRequestedCount
            lastIngestSequence := entry.sequence
            lastEntryHash := entry.entryHash } entries
      else .ok false

def journalMatchesWAL (H : Hashes) (c : Config) (db : Db) (entries : List Entry) : Except IngestError Bool :=
  journalMatchesFrom H c db (journalStore c).initial.state entries

/-- Every retained entry has its row. -/
def retainedRowsMatch (H : Hashes) (db : Db) : List Entry → Except IngestError Bool
  | [] => .ok true
  | entry :: entries => do
    let batch ← decodeWALEntry H entry
    let stored ← (db.lookup batch.producerSessionID batch.batchSequence).mapError .lookup
    match stored with
    | none => .ok false
    | some stored =>
      if stored.gatewayIngestSequence ≠ entry.sequence ∨ stored.gatewayBatchSHA256 ≠ entry.batchHash ∨
          stored.frame ≠ entry.frame then .ok false
      else retainedRowsMatch H db entries

def journalMatchesRetainedWAL (H : Hashes) (c : Config) (wal : Wal.Store) (db : Db) (prunedThrough : UInt64) :
    Except IngestError Bool :=
  if db.state.gatewayInstanceID ≠ c.gatewayInstanceID then .ok false
  else do
    let rows ← retainedRowsMatch H db wal.entries
    if !rows then .ok false
    else
      match wal.entries.getLast? with
      | none => .ok (db.state.lastIngestSequence == prunedThrough && db.state.lastEntryHash == wal.last)
      | some last => .ok (db.state.lastIngestSequence == last.sequence && db.state.lastEntryHash == last.entryHash)

/-- The faults of the transactions of one call, in their order. -/
abbrev TxFaults := Nat → Option TxFault

def noFaults : TxFaults := fun _ => none

/-- The loop of `reconcileJournal`. -/
def rebuildJournal (H : Hashes) (c : Config) : List Entry → TxFaults → GatewayProg IngestError Unit
  | [], _ => pure ()
  | entry :: entries, faults => do
    let batch ← Prog.lift (decodeWALEntry H entry)
    let db ← Prog.read (Durable.journal c)
    let outcome := outcomeForBatch H db.state batch c
    let applied ← Prog.lift ((db.apply entry batch outcome (faults 0)).mapError (.rebuild entry.sequence))
    Prog.emit (.commit applied.2)
    rebuildJournal H c entries fun i => faults (i + 1)

def resetAndRebuild (H : Hashes) (c : Config) (entries : List Entry) (faults : TxFaults) :
    GatewayProg IngestError Unit := do
  let db ← Prog.lift (((journalStore c).reset (faults 0)).mapError .reset)
  Prog.emit (.commit db)
  rebuildJournal H c entries fun i => faults (i + 1)

def reconcileJournal (H : Hashes) (c : Config) (wal : Wal.Store) (faults : TxFaults) :
    GatewayProg IngestError Unit := do
  let entries := wal.entries
  let db ← Prog.read (Durable.journal c)
  if wal.prunedThrough ≠ 0 then
    if db.count < entries.length then
      Prog.fail (.wal (.integrity "journal is missing retained WAL entries after prune anchor"))
    else
      let rowsMatch ← Prog.lift (journalMatchesRetainedWAL H c wal db wal.prunedThrough)
      if rowsMatch then pure ()
      else Prog.fail (.wal (.integrity "journal does not match retained WAL after prune anchor"))
  else if db.count > entries.length then
    Prog.fail (.wal (.integrity s!"journal has {db.count} batches but WAL has {entries.length}"))
  else if db.count = entries.length then
    let rowsMatch ← Prog.lift (journalMatchesWAL H c db entries)
    if rowsMatch then pure () else resetAndRebuild H c entries faults
  else resetAndRebuild H c entries faults

/-! ## `acceptBatch` -/

/-- An acknowledgement without a committed position. -/
def refusal (c : Config) (batch : BatchFrameV1) (hash : Digest) (sequence : UInt64) (status : UInt8) : AckV1 where
  producerSessionID := batch.producerSessionID
  batchSequence := batch.batchSequence
  gatewayBatchSHA256 := hash
  gatewayIngestSequence := sequence
  status := status
  committedCursorMSC := 0
  committedBoundaryDigest := Digest.zero
  nextFromMSC := 0
  nextRequestedCount := c.initialBatchCount
  retryAfterMS := 0

def ackFromBatch (stored : Batch) (status : UInt8) : AckV1 where
  producerSessionID := stored.producerSessionID
  batchSequence := stored.batchSequence
  gatewayBatchSHA256 := stored.gatewayBatchSHA256
  gatewayIngestSequence := stored.gatewayIngestSequence
  status := status
  committedCursorMSC := stored.committedCursorMSC
  committedBoundaryDigest := stored.committedBoundaryDigest
  nextFromMSC := stored.nextFromMSC
  nextRequestedCount := stored.nextRequestedCount
  retryAfterMS := 0

/-- The clocks and the surroundings of one call. -/
structure Surroundings where
  now : Int
  wallS : Int64
  monotonicUS : UInt64
  /-- What the disk reports before the append, after it, and when the gate is poisoned. -/
  usageBefore : Option DiskUsage
  usageAfter : Option DiskUsage
  usagePoisoned : Option DiskUsage
  append : Option AppendFault
  tx : TxFaults

/-- The answer, and whether the connection ends with it. -/
abbrev Reply := Gateway × AckV1 × Bool

/-- The answer to a batch that is in the journal. -/
def answerStored (g : Gateway) (batch : BatchFrameV1) (hash : Digest) (stored : Batch) : Reply :=
  if stored.gatewayBatchSHA256 ≠ hash then
    (g, { ackFromBatch stored ackSourceStateConflict with
          producerSessionID := batch.producerSessionID, batchSequence := batch.batchSequence,
          gatewayBatchSHA256 := hash }, true)
  else (g, ackFromBatch stored ackDuplicate, false)

@[simp] theorem answerStored_gateway (g : Gateway) (batch : BatchFrameV1) (hash : Digest) (stored : Batch) :
    (answerStored g batch hash stored).1 = g := by
  unfold answerStored
  split <;> rfl

/-- The end of `acceptBatch`, for a batch that is new. -/
def appendBatch (H : Hashes) (c : Config) (g : Gateway) (raw : Bytes) (batch : BatchFrameV1) (hash : Digest)
    (w : Surroundings) : GatewayProg (Gateway × IngestError) Reply := do
  let g := { g with disk := g.disk.refresh w.usageBefore }
  if !g.disk.state.ackAllowed then
    return (g, refusal c batch hash 0 ackRetryableError, false)
  else
    let db ← Prog.read (Durable.journal c)
    let outcome := outcomeForBatch H db.state batch c
    let (wal, entry) ← (onWal (g.wal.append H raw w.wallS w.monotonicUS w.append)).mapError fun (wal, err) =>
      ({ g with wal, disk := g.disk.markPoisoned w.usagePoisoned }, .wal err)
    let g := { g with wal }
    let (stored, db) ← Prog.lift ((db.apply entry batch outcome (w.tx 0)).mapError fun err => (g, .apply err))
    Prog.emit (.commit db)
    let g := { g with disk := g.disk.refresh w.usageAfter }
    if !g.disk.state.ackAllowed then
      return (g, refusal c batch entry.batchHash entry.sequence ackRetryableError, false)
    else
      return (g, ackFromBatch stored stored.status,
        decide (stored.status = ackSourceStateConflict ∨ stored.status = ackSessionLeaseConflict))

/-- The answer to a batch that is in the WAL and not in the journal. -/
def answerRetransmitted (H : Hashes) (c : Config) (g : Gateway) (raw : Bytes) (batch : BatchFrameV1) (hash : Digest)
    (w : Surroundings) : GatewayProg (Gateway × IngestError) Reply := do
  (reconcileJournal H c g.wal w.tx).mapError fun err => (g, err)
  let db ← Prog.read (Durable.journal c)
  let stored ← Prog.lift ((db.lookup batch.producerSessionID batch.batchSequence).mapError fun err => (g, .lookup err))
  match stored with
  | some stored => return answerStored g batch hash stored
  | none => appendBatch H c g raw batch hash w

/-- What `acceptBatch` does with a batch of the active session. -/
def placeBatch (H : Hashes) (c : Config) (g : Gateway) (raw : Bytes) (batch : BatchFrameV1) (w : Surroundings) :
    GatewayProg (Gateway × IngestError) Reply := do
  let hash := gatewayBatchSHA256 H raw
  let db ← Prog.read (Durable.journal c)
  let stored ← Prog.lift ((db.lookup batch.producerSessionID batch.batchSequence).mapError fun err => (g, .lookup err))
  match stored with
  | some stored => return answerStored g batch hash stored
  | none =>
    let found ← Prog.lift ((findWALIdentity H batch.producerSessionID batch.batchSequence hash g.wal.entries).mapError
      fun err => (g, err))
    match found with
    | none => appendBatch H c g raw batch hash w
    | some false => return (g, refusal c batch hash 0 ackSourceStateConflict, true)
    | some true => answerRetransmitted H c g raw batch hash w

def acceptBatch (H : Hashes) (c : Config) (g : Gateway) (conn : Connection) (raw : Bytes) (batch : BatchFrameV1)
    (w : Surroundings) : GatewayProg (Gateway × IngestError) Reply :=
  let hash := gatewayBatchSHA256 H raw
  if !g.sessionActive conn.lease conn.generation w.now then
    pure (g, refusal c batch hash 0 ackSessionLeaseConflict, true)
  else if UInt32.ofNat batch.records.length > c.maxRecords ∨ batch.requestedCount > c.maximumBatchCount then
    Prog.fail (g, .protocol (newError .oversizedFrame "batch exceeds configured record or request limit"))
  else if batch.producerSessionID ≠ conn.hello.producerSessionID ∨ batch.sessionLeaseID ≠ conn.lease then
    pure (g, refusal c batch hash 0 ackSessionLeaseConflict, true)
  else placeBatch H c g raw batch w

/-! ## `Recover` -/

/-- `PublishWallClock`: the clock must be set and must not run backwards. -/
def publishWallClock (observed : UInt64) : GatewayProg IngestError Unit := do
  let latest ← Prog.read (·.clock)
  if observed = 0 then Prog.fail (.clock "wall clock root and observation are required")
  else
    match latest with
    | none => Prog.emit (.publishClock observed)
    | some latest =>
      if observed < latest then Prog.fail (.clock "wall clock regressed")
      else if observed = latest then pure ()
      else Prog.emit (.publishClock observed)

def recover (H : Hashes) (c : Config) (wal : Wal.Store) (nowMS : UInt64) (faults : TxFaults) :
    GatewayProg IngestError Unit := do
  publishWallClock nowMS
  reconcileJournal H c wal faults

/-- `Start` of the journal: the tables are made if they are missing. -/
def openJournal (c : Config) : GatewayProg IngestError Unit := do
  let db ← Prog.read (·.db)
  if db.isSome then pure () else Prog.emit (.commit (journalStore c).initial)

/-- `Start` of the WAL, of the journal and `Recover`, in the order of the composition root. -/
def startGateway (H : Hashes) (c : Config) (disk : DiskStateMachine) (nowS : Int64) (nowMS : UInt64)
    (faults : TxFaults) : GatewayProg IngestError Gateway := do
  let anchor ← Prog.read (·.anchor)
  let wal ← (onWal (start H c.gatewayInstanceID anchor nowS)).mapError .wal
  openJournal c
  recover H c wal nowMS faults
  return { wal, closed := false, activeLease := [], activeUntil := none, activeGeneration := 0, nextGeneration := 0,
           disk }

end TickPlatform.Ingest
