import TickPlatform.Ingest.Gateway
import TickPlatform.Protocol.Proofs

/-!
# Gateway histories

One gateway over its whole life: starts, sessions, batches, rotations of the WAL, prunes while it is down, and
crashes inside every call that writes.
-/

namespace TickPlatform.Ingest

open Bytes Protocol Crash Wal Journal

structure Process where
  gateway : Gateway
  /-- The connections that have a session. -/
  connections : List Connection

structure World where
  durable : Durable
  process : Option Process

def World.empty : World := ⟨⟨⟨none, []⟩, none, none, none⟩, none⟩

/-- What can be seen of a step. -/
inductive Event
  | started
  | startFailed (err : IngestError)
  | crashed
  | resumed (resume : ResumeV1)
  | refused (err : IngestError)
  | acked (conn : Connection) (raw : Bytes) (ack : AckV1)
  | failed (raw : Bytes) (err : IngestError)
  | pruned
  | silent
deriving DecidableEq

/-- The frame and its acknowledgement. -/
def Event.ack? : Event → Option (Connection × Bytes × AckV1)
  | .acked conn raw ack => some (conn, raw, ack)
  | _ => none

theorem Event.ack?_eq_some {event : Event} {seen : Connection × Bytes × AckV1} (h : event.ack? = some seen) :
    event = .acked seen.1 seen.2.1 seen.2.2 := by
  cases event with
  | acked conn raw ack =>
    obtain rfl := Option.some.inj h
    rfl
  | _ => cases h

/-- Retention takes the oldest sealed segment away and leaves a checkpoint of its end. It does not touch a segment
that the active file is still a copy of. -/
def pruneFirst (H : Hashes) (d : Durable) : Option Durable :=
  match d.disk.sealed with
  | [] => none
  | (name, data) :: rest =>
    match verifySealedBytes H name data with
    | .error _ => none
    | .ok segment =>
      if d.disk.active = some data then none
      else some { d with disk := { d.disk with sealed := rest }
                         anchor := some ⟨segment.lastSequence, segment.chainRoot⟩ }

inductive Step (H : Hashes) (c : Config) : World → Event → World → Prop
  | start {d : Durable} {ops : List DurableOp} {g : Gateway} (disk : DiskStateMachine) (nowS : Int64) (nowMS : UInt64)
      (faults : TxFaults) (h : (startGateway H c disk nowS nowMS faults).run d = (ops, .ok g)) :
    Step H c ⟨d, none⟩ .started ⟨runAll ops d, some ⟨g, []⟩⟩
  | startFailed {d : Durable} {ops : List DurableOp} {err : IngestError} (disk : DiskStateMachine) (nowS : Int64)
      (nowMS : UInt64) (faults : TxFaults) (h : (startGateway H c disk nowS nowMS faults).run d = (ops, .error err)) :
    Step H c ⟨d, none⟩ (.startFailed err) ⟨runAll ops d, none⟩
  | startCrashed {d d' : Durable} (disk : DiskStateMachine) (nowS : Int64) (nowMS : UInt64) (faults : TxFaults)
      (h : (startGateway H c disk nowS nowMS faults).CrashIn d d') : Step H c ⟨d, none⟩ .crashed ⟨d', none⟩
  | hello {d : Durable} {p : Process} {g : Gateway} {resume : ResumeV1} {conn : Connection} (hello : HelloV1)
      (now : Int) (h : startSession H c p.gateway (d.journal c) hello now = (g, .ok (resume, conn))) :
    Step H c ⟨d, some p⟩ (.resumed resume) ⟨d, some ⟨g, conn :: p.connections⟩⟩
  | helloRefused {d : Durable} {p : Process} {g : Gateway} {err : IngestError} (hello : HelloV1) (now : Int)
      (h : startSession H c p.gateway (d.journal c) hello now = (g, .error err)) :
    Step H c ⟨d, some p⟩ (.refused err) ⟨d, some { p with gateway := g }⟩
  | accept {d : Durable} {p : Process} {conn : Connection} {raw : Bytes} {batch : BatchFrameV1} {ops : List DurableOp}
      {g : Gateway} {ack : AckV1} {terminal : Bool} (w : Surroundings) (hconn : conn ∈ p.connections)
      (hdecode : decodeBatchFrame H raw = .ok batch)
      (h : (acceptBatch H c p.gateway conn raw batch w).run d = (ops, .ok (g, ack, terminal))) :
    Step H c ⟨d, some p⟩ (.acked conn raw ack) ⟨runAll ops d, some { p with gateway := g }⟩
  | acceptFailed {d : Durable} {p : Process} {conn : Connection} {raw : Bytes} {batch : BatchFrameV1}
      {ops : List DurableOp} {g : Gateway} {err : IngestError} (w : Surroundings) (hconn : conn ∈ p.connections)
      (hdecode : decodeBatchFrame H raw = .ok batch)
      (h : (acceptBatch H c p.gateway conn raw batch w).run d = (ops, .error (g, err))) :
    Step H c ⟨d, some p⟩ (.failed raw err) ⟨runAll ops d, some { p with gateway := g }⟩
  | acceptCrashed {d d' : Durable} {p : Process} {conn : Connection} {raw : Bytes} {batch : BatchFrameV1}
      (w : Surroundings) (hconn : conn ∈ p.connections) (hdecode : decodeBatchFrame H raw = .ok batch)
      (h : (acceptBatch H c p.gateway conn raw batch w).CrashIn d d') : Step H c ⟨d, some p⟩ .crashed ⟨d', none⟩
  | touch {d : Durable} {p : Process} (conn : Connection) (now : Int) :
    Step H c ⟨d, some p⟩ .silent
      ⟨d, some { p with gateway := p.gateway.touchSession c conn.lease conn.generation now }⟩
  | release {d : Durable} {p : Process} (conn : Connection) :
    Step H c ⟨d, some p⟩ .silent
      ⟨d, some ⟨p.gateway.releaseSession conn.lease conn.generation, p.connections.erase conn⟩⟩
  | rotate {d : Durable} {p : Process} (now : Int64) :
    Step H c ⟨d, some p⟩ .silent
      ⟨(onWal (p.gateway.wal.sealActive H now)).final d,
        some { p with gateway := { p.gateway with wal := storeAfter ((p.gateway.wal.sealActive H now).run d.disk).2 } }⟩
  | rotateCrashed {d d' : Durable} {p : Process} (now : Int64)
      (h : (onWal (p.gateway.wal.sealActive H now)).CrashIn d d') : Step H c ⟨d, some p⟩ .crashed ⟨d', none⟩
  | stop {d : Durable} {p : Process} : Step H c ⟨d, some p⟩ .silent ⟨d, none⟩
  | prune {d d' : Durable} (h : pruneFirst H d = some d') : Step H c ⟨d, none⟩ .pruned ⟨d', none⟩

/-- What a gateway can get to from a world, with what is seen on the way, the latest first. -/
inductive Steps (H : Hashes) (c : Config) (first : World) : List Event → World → Prop
  | refl : Steps H c first [] first
  | step {events : List Event} {event : Event} {world world' : World} :
    Steps H c first events world → Step H c world event world' → Steps H c first (event :: events) world'

/-- The histories of a gateway. -/
abbrev Run (H : Hashes) (c : Config) : List Event → World → Prop := Steps H c World.empty

/-! ## Histories as data -/

inductive Action
  | start (disk : DiskStateMachine) (nowS : Int64) (nowMS : UInt64) (faults : TxFaults)
  | hello (hello : HelloV1) (now : Int)
  | accept (conn : Connection) (raw : Bytes) (w : Surroundings)
  /-- A crash after this many operations. -/
  | acceptCrash (conn : Connection) (raw : Bytes) (w : Surroundings) (operations : Nat)
  | release (conn : Connection)
  | rotate (now : Int64)
  | stop
  | prune

def act (H : Hashes) (c : Config) : World → Action → Option (Event × World)
  | ⟨d, none⟩, .start disk nowS nowMS faults =>
    match (startGateway H c disk nowS nowMS faults).run d with
    | (ops, .ok g) => some (.started, ⟨runAll ops d, some ⟨g, []⟩⟩)
    | (ops, .error err) => some (.startFailed err, ⟨runAll ops d, none⟩)
  | ⟨d, some p⟩, .hello hello now =>
    match startSession H c p.gateway (d.journal c) hello now with
    | (g, .ok (resume, conn)) => some (.resumed resume, ⟨d, some ⟨g, conn :: p.connections⟩⟩)
    | (g, .error err) => some (.refused err, ⟨d, some { p with gateway := g }⟩)
  | ⟨d, some p⟩, .accept conn raw w =>
    match decodeBatchFrame H raw with
    | .error _ => none
    | .ok batch =>
      if conn ∈ p.connections then
        match (acceptBatch H c p.gateway conn raw batch w).run d with
        | (ops, .ok (g, ack, _)) => some (.acked conn raw ack, ⟨runAll ops d, some { p with gateway := g }⟩)
        | (ops, .error (g, err)) => some (.failed raw err, ⟨runAll ops d, some { p with gateway := g }⟩)
      else none
  | ⟨d, some p⟩, .acceptCrash conn raw w operations =>
    match decodeBatchFrame H raw with
    | .error _ => none
    | .ok batch =>
      if conn ∈ p.connections then
        some (.crashed, ⟨runAll (((acceptBatch H c p.gateway conn raw batch w).run d).1.take operations) d, none⟩)
      else none
  | ⟨d, some p⟩, .release conn =>
    some (.silent, ⟨d, some ⟨p.gateway.releaseSession conn.lease conn.generation, p.connections.erase conn⟩⟩)
  | ⟨d, some p⟩, .rotate now =>
    some (.silent, ⟨(onWal (p.gateway.wal.sealActive H now)).final d,
      some { p with gateway := { p.gateway with wal := storeAfter ((p.gateway.wal.sealActive H now).run d.disk).2 } }⟩)
  | ⟨d, some _⟩, .stop => some (.silent, ⟨d, none⟩)
  | ⟨d, none⟩, .prune => (pruneFirst H d).map fun d' => (.pruned, ⟨d', none⟩)
  | _, _ => none

/-- The actions one after the other, the latest event first. -/
def actAll (H : Hashes) (c : Config) : List Action → List Event × World → Option (List Event × World)
  | [], state => some state
  | action :: actions, (events, world) => do
    let (event, world') ← act H c world action
    actAll H c actions (event :: events, world')

variable {H : Hashes} {c : Config}

theorem act_step {world world' : World} {action : Action} {event : Event}
    (h : act H c world action = some (event, world')) : Step H c world event world' := by
  unfold act at h
  split at h
  · split at h <;> (obtain ⟨rfl, rfl⟩ := Prod.mk.inj (Option.some.inj h); rename_i hrun)
    · exact .start _ _ _ _ hrun
    · exact .startFailed _ _ _ _ hrun
  · split at h <;> (obtain ⟨rfl, rfl⟩ := Prod.mk.inj (Option.some.inj h); rename_i hrun)
    · exact .hello _ _ hrun
    · exact .helloRefused _ _ hrun
  · split at h
    · cases h
    rename_i batch hdecode
    split at h
    · rename_i hconn
      split at h <;> (obtain ⟨rfl, rfl⟩ := Prod.mk.inj (Option.some.inj h); rename_i hrun)
      · exact .accept _ hconn hdecode hrun
      · exact .acceptFailed _ hconn hdecode hrun
    · cases h
  · split at h
    · cases h
    rename_i batch hdecode
    split at h
    · rename_i hconn
      obtain ⟨rfl, rfl⟩ := Prod.mk.inj (Option.some.inj h)
      exact .acceptCrashed _ hconn hdecode (crashAt_take _ _ _)
    · cases h
  · obtain ⟨rfl, rfl⟩ := Prod.mk.inj (Option.some.inj h)
    exact .release _
  · obtain ⟨rfl, rfl⟩ := Prod.mk.inj (Option.some.inj h)
    exact .rotate _
  · obtain ⟨rfl, rfl⟩ := Prod.mk.inj (Option.some.inj h)
    exact .stop
  · obtain ⟨d', hprune, heq⟩ := Option.map_eq_some_iff.mp h
    obtain ⟨rfl, rfl⟩ := Prod.mk.inj heq
    exact .prune hprune
  · cases h

theorem run_of_actAll {actions : List Action} {events events' : List Event}
    {world world' : World} (hrun : Run H c events world)
    (h : actAll H c actions (events, world) = some (events', world')) : Run H c events' world' := by
  induction actions generalizing events world with
  | nil =>
    obtain ⟨rfl, rfl⟩ := Prod.mk.inj (Option.some.inj h)
    exact hrun
  | cons action actions ih =>
    obtain ⟨⟨event, next⟩, hact, hrest⟩ := Option.bind_eq_some_iff.mp h
    exact ih (hrun.step (act_step hact)) hrest

/-- A property of a world with a process. -/
def World.isRunning (world : World) (check : Durable → Process → Bool) : Bool := world.process.any (check world.durable)

theorem exists_run (actions : List Action) (check : List Event × World → Bool)
    (h : (actAll H c actions ([], World.empty)).any check = true) :
    ∃ events world, Run H c events world ∧ check (events, world) = true := by
  obtain ⟨⟨events, world⟩, hact, hcheck⟩ := (Option.any_eq_true _ _).mp h
  exact ⟨events, world, run_of_actAll .refl hact, hcheck⟩

theorem exists_running (actions : List Action) (check : List Event → Durable → Process → Bool)
    (h : ((actAll H c actions ([], World.empty)).any fun r => r.2.isRunning (check r.1)) = true) :
    ∃ events d p, Run H c events ⟨d, some p⟩ ∧ check events d p = true := by
  obtain ⟨events, ⟨d, process⟩, hrun, hcheck⟩ := exists_run actions _ h
  obtain ⟨p, rfl, hp⟩ := (Option.any_eq_true _ _).mp hcheck
  exact ⟨events, d, p, hrun, hp⟩

/-! ## A small gateway -/

/-- A gateway that does not ask who the producer is. -/
def smallConfig : Config := { defaultConfig with walRoot := ascii "wal", journalPath := ascii "journal.db" }

example : smallConfig.validate = .ok () := by decide

/-- The disk gate before the disk was looked at. -/
def smallGate : DiskStateMachine :=
  ⟨smallConfig.watermarks, ⟨.emergency, 0, 0, false, false, false, "disk_usage_unobserved", 0, 0, false⟩, false⟩

example : newDiskStateMachine smallConfig.watermarks = .ok smallGate := by decide

def smallHello (exactSourceSymbol : Bytes) : HelloV1 :=
  ⟨ascii "p", ascii "s", [], [], [], [], [], [], [], [], exactSourceSymbol, sourceSchemaMT5, 0, 0, 0⟩

/-- The session of `smallHello` with a generation. -/
def smallConnection (exactSourceSymbol : Bytes) (generation : UInt64) : Connection :=
  ⟨smallHello exactSourceSymbol, leaseOf Hashes.sample (smallHello exactSourceSymbol), generation⟩

/-- An empty batch of that session. -/
def smallBatch (exactSourceSymbol : Bytes) (batchSequence : UInt64) : BatchFrameV1 :=
  emptyBatch (leaseOf Hashes.sample (smallHello exactSourceSymbol)) (ascii "s") batchSequence

/-- Enough room on the disk and no write that fails. -/
def smallSurroundings (tx : TxFaults) : Surroundings :=
  ⟨0, 0, 0, some ⟨1073741824, 1073741824⟩, some ⟨1073741824, 1073741824⟩, some ⟨1073741824, 1073741824⟩, none, tx⟩

/-- A session and its first batch. -/
def smallFirst : List Action :=
  [.start smallGate 0 1 noFaults, .hello (smallHello (ascii "X")) 0,
      .accept (smallConnection (ascii "X") 1) (batchFrame Hashes.sample (smallBatch (ascii "X") 1))
        (smallSurroundings noFaults)]

end TickPlatform.Ingest
