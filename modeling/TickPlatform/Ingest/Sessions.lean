import TickPlatform.Ingest.World

/-!
# Calls of many connections at once

`startSession` and `acceptBatch` hold `sessionMu` from end to end, but the fields of the session are under `mu`, which
they take for a moment only; `touchSession` and `releaseSession` take no other lock. Here the calls are cut where
another one can come in between. The rotation of the WAL, which writes no batch, is left out.
-/

namespace TickPlatform.Ingest.Interleaved

open Bytes Protocol Crash Wal Journal

/-! ## The sections of the calls -/

/-- What `startSession` does under `mu`, with a clock reading from before. -/
def beginSession (H : Hashes) (c : Config) (g : Gateway) (hello : HelloV1) (now : Int) :
    Except IngestError (Gateway × Connection) :=
  let lease := leaseOf H hello
  if g.closed then .error .closed
  else if g.activeLease ≠ [] ∧ before now g.activeUntil then
    .error (.protocol (newError .sessionLeaseConflict "another producer session is active"))
  else
    let generation := if g.nextGeneration + 1 = 0 then 1 else g.nextGeneration + 1
    .ok ({ g with nextGeneration := generation, activeLease := lease, activeGeneration := generation,
                  activeUntil := some (now + c.sessionLeaseTimeout.toInt) }, ⟨hello, lease, generation⟩)

/-- The call that holds `sessionMu`. -/
inductive Holder
  /-- `startSession` before it takes `mu`. -/
  | starting (hello : HelloV1) (now : Int)
  /-- `startSession` while it reads the journal. -/
  | reading (conn : Connection)
  /-- `acceptBatch` before it asks whether its session is active. -/
  | accepting (conn : Connection) (raw : Bytes) (batch : BatchFrameV1) (w : Surroundings)
  /-- `acceptBatch` after that: the writes still to come, and how the call ends. -/
  | writing (conn : Connection) (ops : List DurableOp) (result : Except (Gateway × IngestError) Reply)

structure Shared where
  gateway : Gateway
  durable : Durable
  clock : Int
  holder : Option Holder
  /-- The sessions that `startSession` has returned. -/
  connections : List Connection
  /-- How many sessions were begun. -/
  begun : Nat

/-- A gateway that has just started. -/
def fresh (wal : Wal.Store) (disk : DiskStateMachine) (durable : Durable) (clock : Int) : Shared where
  gateway := { wal, closed := false, activeLease := [], activeUntil := none, activeGeneration := 0, nextGeneration := 0,
               disk }
  durable := durable
  clock := clock
  holder := none
  connections := []
  begun := 0

inductive Call
  /-- Time passes. -/
  | tick (elapsed : Nat)
  /-- `startSession` takes `sessionMu` and reads the clock. -/
  | hello (hello : HelloV1)
  /-- It takes `mu`. -/
  | begin
  /-- It reads the journal, which may fail, and returns. -/
  | resume (fault : Option IngestError)
  /-- `acceptBatch` takes `sessionMu`. -/
  | batch (conn : Connection) (raw : Bytes) (batch : BatchFrameV1) (w : Surroundings)
  /-- It asks whether its session is active, and goes on. -/
  | check
  /-- It makes its next write. -/
  | write
  /-- It returns. -/
  | finish
  | touch (conn : Connection)
  | release (conn : Connection)
  | close

/-- What can be seen of a call. -/
inductive Seen
  | refused (err : IngestError)
  | begun (conn : Connection)
  | returned (conn : Connection) (resume : ResumeV1)
  | wrote (conn : Connection) (op : DurableOp)
  | answered (conn : Connection)

/-- The gateway that a call ends with. -/
def resultGateway : Except (Gateway × IngestError) Reply → Gateway
  | .error (g, _) => g
  | .ok (g, _) => g

/-- `startSession` after `mu`: a failed read gives the session back. -/
def resumeSession (c : Config) (s : Shared) (conn : Connection) (fault : Option IngestError) : Shared × Option Seen :=
  let free := { s with holder := none }
  match fault with
  | some err => ({ free with gateway := s.gateway.releaseSession conn.lease conn.generation }, some (.refused err))
  | none =>
    match (s.durable.journal c).lastForSession conn.hello.producerSessionID with
    | .error err =>
      ({ free with gateway := s.gateway.releaseSession conn.lease conn.generation }, some (.refused (.lookup err)))
    | .ok last =>
      ({ free with connections := conn :: s.connections },
        some (.returned conn (makeResume c conn.lease (s.durable.journal c).state last)))

/-- One section of one call. A call that cannot go on at this point waits. -/
def step (H : Hashes) (c : Config) (s : Shared) : Call → Shared × Option Seen
  | .tick elapsed => ({ s with clock := s.clock + elapsed }, none)
  | .hello hello =>
    match validateHello c hello with
    | .error err => (s, some (.refused err))
    | .ok () => if s.holder.isNone then ({ s with holder := some (.starting hello s.clock) }, none) else (s, none)
  | .begin =>
    match s.holder with
    | some (.starting hello now) =>
      match beginSession H c s.gateway hello now with
      | .error err => ({ s with holder := none }, some (.refused err))
      | .ok (g, conn) =>
        ({ s with gateway := g, holder := some (.reading conn), begun := s.begun + 1 }, some (.begun conn))
    | _ => (s, none)
  | .resume fault =>
    match s.holder with
    | some (.reading conn) => resumeSession c s conn fault
    | _ => (s, none)
  | .batch conn raw batch w =>
    if s.holder.isNone ∧ conn ∈ s.connections then ({ s with holder := some (.accepting conn raw batch w) }, none)
    else (s, none)
  | .check =>
    match s.holder with
    | some (.accepting conn raw batch w) =>
      -- The rest of the call reads the stores, which only the holder writes, and not the session.
      let (ops, result) := (acceptBatch H c s.gateway conn raw batch { w with now := s.clock }).run s.durable
      ({ s with holder := some (.writing conn ops result) }, none)
    | _ => (s, none)
  | .write =>
    match s.holder with
    | some (.writing conn (op :: ops) result) =>
      ({ s with durable := Device.run op s.durable, holder := some (.writing conn ops result) }, some (.wrote conn op))
    | _ => (s, none)
  | .finish =>
    match s.holder with
    | some (.writing conn [] result) =>
      ({ s with gateway := { s.gateway with wal := (resultGateway result).wal, disk := (resultGateway result).disk },
                holder := none }, some (.answered conn))
    | _ => (s, none)
  | .touch conn =>
    if conn ∈ s.connections then
      ({ s with gateway := s.gateway.touchSession c conn.lease conn.generation s.clock }, none)
    else (s, none)
  | .release conn =>
    if conn ∈ s.connections then ({ s with gateway := s.gateway.releaseSession conn.lease conn.generation }, none)
    else (s, none)
  | .close => ({ s with gateway := { s.gateway with closed := true } }, none)

/-- The sections one after the other, with what is seen in their order. -/
def run (H : Hashes) (c : Config) : Shared → List Call → Shared × List Seen
  | s, [] => (s, [])
  | s, call :: calls =>
    let (next, seen) := step H c s call
    let (final, rest) := run H c next calls
    (final, seen.toList ++ rest)

theorem run_append (H : Hashes) (c : Config) (s : Shared) (calls more : List Call) : run H c s (calls ++ more) =
      ((run H c (run H c s calls).1 more).1, (run H c s calls).2 ++ (run H c (run H c s calls).1 more).2) := by
  induction calls generalizing s with
  | nil => rfl
  | cons call calls ih =>
    simp only [List.cons_append, run, ih, List.append_assoc]

/-! ## What a section keeps -/

def Holder.Ok (s : Shared) : Holder → Prop
  | .starting _ now => now ≤ s.clock
  | .reading conn => 0 < conn.generation.toNat ∧ conn.generation.toNat ≤ s.begun
  | .accepting conn _ _ _ => 0 < conn.generation.toNat
  | .writing conn ops _ => ops ≠ [] → conn.generation.toNat = s.begun

/-- The active session is the last one that was begun, and so is that of a call that has something to write. -/
structure Inv (s : Shared) : Prop where
  next : s.gateway.nextGeneration.toNat = s.begun
  active : s.gateway.activeGeneration.toNat = 0 ∨ s.gateway.activeGeneration.toNat = s.begun
  known : ∀ conn ∈ s.connections, 0 < conn.generation.toNat ∧ conn.generation.toNat ≤ s.begun
  holder : ∀ h, s.holder = some h → h.Ok s

theorem inv_fresh (wal : Wal.Store) (disk : DiskStateMachine) (durable : Durable) (clock : Int) :
    Inv (fresh wal disk durable clock) where
  next := rfl
  active := .inl rfl
  known := by simp [fresh]
  holder := by simp [fresh]

variable {H : Hashes} {c : Config} {conn : Connection} {g : Gateway}

theorem beginSession_eq_ok {g' : Gateway} {hello : HelloV1} {now : Int}
    (h : beginSession H c g hello now = .ok (g', conn)) :
    ¬ (g.activeLease ≠ [] ∧ before now g.activeUntil = true) ∧
      conn.generation = (if g.nextGeneration + 1 = 0 then 1 else g.nextGeneration + 1) ∧
      g'.nextGeneration = conn.generation ∧ g'.activeGeneration = conn.generation := by
  unfold beginSession at h
  obtain ⟨-, h⟩ := ite_error_eq_ok.mp h
  obtain ⟨hfree, h⟩ := ite_error_eq_ok.mp h
  cases h
  exact ⟨hfree, rfl, rfl, rfl⟩

theorem generation_toNat {next : UInt64} {begun : Nat} (hnext : next.toNat = begun)
    (hfew : begun + 1 < 18446744073709551616) :
    (if next + 1 = 0 then 1 else next + 1 : UInt64).toNat = begun + 1 := by
  have hsum : (next + 1).toNat = begun + 1 := by
    rw [UInt64.toNat_add, hnext]
    exact Nat.mod_eq_of_lt hfew
  rw [if_neg, hsum]
  intro hzero
  rw [hzero] at hsum
  simp at hsum

theorem release_active {begun : Nat} (lease : Bytes) (generation : UInt64)
    (h : g.activeGeneration.toNat = 0 ∨ g.activeGeneration.toNat = begun) :
    (g.releaseSession lease generation).activeGeneration.toNat = 0 ∨
      (g.releaseSession lease generation).activeGeneration.toNat = begun := by
  unfold Gateway.releaseSession
  split
  · exact .inl rfl
  · exact h

@[simp] theorem release_next (g : Gateway) (lease : Bytes) (generation : UInt64) :
    (g.releaseSession lease generation).nextGeneration = g.nextGeneration := by
  unfold Gateway.releaseSession
  split <;> rfl

@[simp] theorem touch_next (c : Config) (g : Gateway) (lease : Bytes) (generation : UInt64) (now : Int) :
    (g.touchSession c lease generation now).nextGeneration = g.nextGeneration := by
  unfold Gateway.touchSession
  split <;> rfl

@[simp] theorem touch_active (c : Config) (g : Gateway) (lease : Bytes) (generation : UInt64) (now : Int) :
    (g.touchSession c lease generation now).activeGeneration = g.activeGeneration := by
  unfold Gateway.touchSession
  split <;> rfl

theorem acceptBatch_active {raw : Bytes} {batch : BatchFrameV1}
    {w : Surroundings} {d : Durable} (h : ((acceptBatch H c g conn raw batch w).run d).1 ≠ []) :
    g.activeGeneration = conn.generation := by
  by_contra hother
  have hinactive : g.sessionActive conn.lease conn.generation w.now = false := by
    simp [Gateway.sessionActive, hother]
  apply h
  simp [acceptBatch, hinactive]

variable {s : Shared}

theorem resumeSession_keeps (fault : Option IngestError) (h : Inv s)
    (hconn : 0 < conn.generation.toNat ∧ conn.generation.toNat ≤ s.begun) :
    Inv (resumeSession c s conn fault).1 := by
  have hreleased : Inv { s with holder := none, gateway := s.gateway.releaseSession conn.lease conn.generation } :=
    ⟨by simpa using h.next, release_active _ _ h.active, h.known, by simp⟩
  cases fault with
  | some err => exact hreleased
  | none =>
    unfold resumeSession
    dsimp only
    split
    · exact hreleased
    · refine ⟨h.next, h.active, ?_, by simp⟩
      intro other hother
      rcases List.mem_cons.mp hother with rfl | hother
      · exact hconn
      · exact h.known other hother

/-- **One section** leaves the invariant. -/
theorem step_keeps (call : Call) (h : Inv s)
    (hfew : (step H c s call).1.begun < 18446744073709551616) : Inv (step H c s call).1 := by
  cases call with
  | tick elapsed =>
    refine ⟨h.next, h.active, h.known, ?_⟩
    intro holder hholder
    have hok := h.holder holder hholder
    cases holder with
    | starting hello now => exact Int.le_trans hok (Int.le_add_of_nonneg_right (Int.natCast_nonneg elapsed))
    | _ => exact hok
  | hello hello =>
    dsimp only [step]
    split
    · exact h
    · split
      · refine ⟨h.next, h.active, h.known, ?_⟩
        intro holder hholder
        cases hholder
        exact Int.le_refl _
      · exact h
  | begin =>
    dsimp only [step] at hfew ⊢
    split
    · rename_i hello now hstarting
      rw [hstarting] at hfew
      dsimp only at hfew
      split
      · exact ⟨h.next, h.active, h.known, by simp⟩
      · rename_i g conn hbegin
        rw [hbegin] at hfew
        obtain ⟨-, hgeneration, hnext, hactive⟩ := beginSession_eq_ok hbegin
        have hcount : conn.generation.toNat = s.begun + 1 := by
          rw [hgeneration]
          exact generation_toNat h.next hfew
        refine ⟨by rw [hnext, hcount], .inr (by rw [hactive, hcount]), ?_, ?_⟩
        · intro other hother
          obtain ⟨hpos, hle⟩ := h.known other hother
          exact ⟨hpos, Nat.le_succ_of_le hle⟩
        · intro holder hholder
          cases hholder
          exact ⟨by rw [hcount]; exact Nat.succ_pos _, Nat.le_of_eq hcount⟩
    · exact h
  | resume fault =>
    dsimp only [step]
    split
    · rename_i conn hreading
      exact resumeSession_keeps fault h (h.holder _ hreading)
    · exact h
  | batch conn raw batch w =>
    dsimp only [step]
    split
    · rename_i hfree
      refine ⟨h.next, h.active, h.known, ?_⟩
      intro holder hholder
      cases hholder
      exact (h.known conn hfree.2).1
    · exact h
  | check =>
    dsimp only [step]
    split
    · rename_i conn raw batch w haccepting
      refine ⟨h.next, h.active, h.known, ?_⟩
      intro holder hholder
      cases hholder
      intro hwrites
      have hactive := acceptBatch_active hwrites
      have hpos : 0 < conn.generation.toNat := h.holder _ haccepting
      rcases h.active with hnone | hlast
      · rw [hactive] at hnone
        omega
      · rw [← hactive]
        exact hlast
    · exact h
  | write =>
    dsimp only [step]
    split
    · rename_i conn op ops result hwriting
      refine ⟨h.next, h.active, h.known, ?_⟩
      intro holder hholder
      cases hholder
      intro _
      exact h.holder _ hwriting (List.cons_ne_nil op ops)
    · exact h
  | finish =>
    dsimp only [step]
    split
    · exact ⟨h.next, h.active, h.known, by simp⟩
    · exact h
  | touch conn =>
    dsimp only [step]
    split
    · exact ⟨by simpa using h.next, by simpa using h.active, h.known, h.holder⟩
    · exact h
  | release conn =>
    dsimp only [step]
    split
    · exact ⟨by simpa using h.next, release_active _ _ h.active, h.known, h.holder⟩
    · exact h
  | close => exact ⟨h.next, h.active, h.known, h.holder⟩

/-! ## What is seen -/

/-- The call that holds `sessionMu` is the one that is seen. -/
inductive Shows (H : Hashes) (c : Config) (s : Shared) : Seen → Prop
  | refused (err : IngestError) : Shows H c s (.refused err)
  | begun {hello : HelloV1} {now : Int} {g : Gateway} {conn : Connection} (hholder : s.holder = some (.starting hello now))
      (hbegin : beginSession H c s.gateway hello now = .ok (g, conn)) : Shows H c s (.begun conn)
  | returned {conn : Connection} (resume : ResumeV1) (hholder : s.holder = some (.reading conn)) :
    Shows H c s (.returned conn resume)
  | wrote {conn : Connection} {op : DurableOp} {ops : List DurableOp} {result : Except (Gateway × IngestError) Reply}
      (hholder : s.holder = some (.writing conn (op :: ops) result)) : Shows H c s (.wrote conn op)
  | answered (conn : Connection) : Shows H c s (.answered conn)

variable {call : Call}

theorem shows_of_step {seen : Seen} (h : (step H c s call).2 = some seen) : Shows H c s seen := by
  cases call with
  | hello hello =>
    dsimp only [step] at h
    split at h
    · cases h
      exact .refused _
    · split at h <;> cases h
  | begin =>
    dsimp only [step] at h
    split at h
    · rename_i hello now hholder
      split at h
      · cases h
        exact .refused _
      · rename_i g conn hbegin
        cases h
        exact .begun hholder hbegin
    · cases h
  | resume fault =>
    dsimp only [step] at h
    split at h
    · rename_i conn hholder
      unfold resumeSession at h
      dsimp only at h
      split at h
      · cases h
        exact .refused _
      · split at h
        · cases h
          exact .refused _
        · cases h
          exact .returned _ hholder
    · cases h
  | write =>
    dsimp only [step] at h
    split at h
    · rename_i conn op ops result hholder
      cases h
      exact .wrote hholder
    · cases h
  | finish =>
    dsimp only [step] at h
    split at h
    · cases h
      exact .answered _
    · cases h
  | tick elapsed => cases h
  | close => cases h
  | _ =>
    dsimp only [step] at h
    split at h <;> cases h

theorem returned_le {resume : ResumeV1} (h : Inv s)
    (hseen : (step H c s call).2 = some (.returned conn resume)) : conn.generation.toNat ≤ s.begun := by
  cases shows_of_step hseen with
  | returned _ hholder => exact (h.holder _ hholder).2

theorem wrote_eq {op : DurableOp} (h : Inv s)
    (hseen : (step H c s call).2 = some (.wrote conn op)) : conn.generation.toNat = s.begun := by
  cases shows_of_step hseen with
  | wrote hholder => exact h.holder _ hholder (List.cons_ne_nil _ _)

/-- The active session, if it has not expired. -/
def Shared.Unexpired (s : Shared) : Prop := s.gateway.activeLease ≠ [] ∧ before s.clock s.gateway.activeUntil = true

theorem before_mono {now later : Int} {limit : Option Int} (h : now ≤ later) (hbefore : before later limit = true) :
    before now limit = true := by
  cases limit with
  | none => cases hbefore
  | some limit =>
    simp only [before, decide_eq_true_eq] at hbefore ⊢
    omega

theorem begun_free (h : Inv s) (hseen : (step H c s call).2 = some (.begun conn)) : ¬ s.Unexpired := by
  cases shows_of_step hseen with
  | begun hholder hbegin =>
    rintro ⟨hlease, hbefore⟩
    apply (beginSession_eq_ok hbegin).1
    exact ⟨hlease, before_mono (h.holder _ hholder) hbefore⟩

/-! ## Runs -/

/-- Whoever writes after a session was returned is not older than that session. -/
def Seen.Fenced : Seen → Seen → Prop
  | .returned newer _, .wrote older _ => newer.generation ≤ older.generation
  | _, _ => True

theorem resumeSession_begun (c : Config) (s : Shared) (conn : Connection) (fault : Option IngestError) :
    (resumeSession c s conn fault).1.begun = s.begun := by
  unfold resumeSession
  cases fault with
  | some err => rfl
  | none =>
    dsimp only
    split <;> rfl

theorem step_begun (H : Hashes) (c : Config) (s : Shared) (call : Call) : s.begun ≤ (step H c s call).1.begun := by
  cases call with
  | hello hello =>
    dsimp only [step]
    split
    · exact Nat.le_refl _
    · split <;> exact Nat.le_refl _
  | begin =>
    dsimp only [step]
    split
    · split
      · exact Nat.le_refl _
      · exact Nat.le_succ _
    · exact Nat.le_refl _
  | resume fault =>
    dsimp only [step]
    split
    · exact Nat.le_of_eq (resumeSession_begun c s _ fault).symm
    · exact Nat.le_refl _
  | tick elapsed => exact Nat.le_refl _
  | close => exact Nat.le_refl _
  | _ =>
    dsimp only [step]
    split <;> exact Nat.le_refl _

theorem run_begun (H : Hashes) (c : Config) (s : Shared) (calls : List Call) : s.begun ≤ (run H c s calls).1.begun := by
  induction calls generalizing s with
  | nil => exact Nat.le_refl _
  | cons call calls ih => exact Nat.le_trans (step_begun H c s call) (ih _)

variable {calls : List Call}

theorem run_keeps (h : Inv s) (hfew : (run H c s calls).1.begun < 18446744073709551616) : Inv (run H c s calls).1 := by
  induction calls generalizing s with
  | nil => exact h
  | cons call calls ih =>
    exact ih (step_keeps call h (Nat.lt_of_le_of_lt (run_begun H c _ calls) hfew)) hfew

theorem run_wrote (h : Inv s) (hfew : (run H c s calls).1.begun < 18446744073709551616) {op : DurableOp}
    (hseen : .wrote conn op ∈ (run H c s calls).2) : s.begun ≤ conn.generation.toNat := by
  induction calls generalizing s with
  | nil => cases hseen
  | cons call calls ih =>
    rcases List.mem_append.mp hseen with hfirst | hrest
    · exact Nat.le_of_eq (wrote_eq h (Option.mem_toList.mp hfirst)).symm
    · have hnext := step_keeps call h (Nat.lt_of_le_of_lt (run_begun H c _ calls) hfew)
      exact Nat.le_trans (step_begun H c s call) (ih hnext hfew hrest)

theorem run_fenced (h : Inv s)
    (hfew : (run H c s calls).1.begun < 18446744073709551616) : (run H c s calls).2.Pairwise Seen.Fenced := by
  induction calls generalizing s with
  | nil => exact .nil
  | cons call calls ih =>
    have hnext := step_keeps call h (Nat.lt_of_le_of_lt (run_begun H c _ calls) hfew)
    refine List.pairwise_append.mpr ⟨?_, ih hnext hfew, ?_⟩
    · cases (step H c s call).2 <;> simp
    · intro seen hseen later hlater
      cases seen with
      | returned newer resume =>
        cases later with
        | wrote older op =>
          have hreturned := returned_le h (Option.mem_toList.mp hseen)
          have hwrote := run_wrote hnext hfew hlater
          have hbegun := step_begun H c s call
          exact UInt64.le_iff_toNat_le.mpr (by omega)
        | _ => trivial
      | _ => trivial

/-- **One writer.** Whatever calls run between each other's sections: once `startSession` has returned a session, no
session before it writes again; and a session is begun only when no unexpired one is active. -/
theorem sessions_fenced (H : Hashes) (c : Config) (wal : Wal.Store) (disk : DiskStateMachine) (durable : Durable) (clock : Int)
    (calls : List Call) (hfew : (run H c (fresh wal disk durable clock) calls).1.begun < 18446744073709551616) :
    (run H c (fresh wal disk durable clock) calls).2.Pairwise Seen.Fenced ∧
      ∀ earlier call later conn, calls = earlier ++ call :: later →
        (step H c (run H c (fresh wal disk durable clock) earlier).1 call).2 = some (.begun conn) →
          ¬ (run H c (fresh wal disk durable clock) earlier).1.Unexpired := by
  have hfresh := inv_fresh wal disk durable clock
  refine ⟨run_fenced hfresh hfew, ?_⟩
  rintro earlier call later conn rfl hseen
  rw [run_append] at hfew
  have hearlier := Nat.lt_of_le_of_lt (run_begun H c _ (call :: later)) hfew
  exact begun_free (run_keeps hfresh hearlier) hseen

/-! ## A session taken over -/

/-- `startSession` and `acceptBatch` with nothing in between. -/
def helloCalls : List Call := [.hello (smallHello (ascii "X")), .begin, .resume none]

def batchCalls (generation batchSequence : UInt64) : List Call :=
  [.batch (smallConnection (ascii "X") generation) (batchFrame Hashes.sample (smallBatch (ascii "X") batchSequence))
    (smallBatch (ascii "X") batchSequence) (smallSurroundings noFaults), .check, .write, .write, .finish]

/-- The first session writes, expires and is followed by a second one; its late touch and its batch come to nothing. -/
def takeover : List Call :=
  helloCalls ++ batchCalls 1 1 ++ [.tick 1000000000000] ++ helloCalls ++ [.touch (smallConnection (ascii "X") 1)] ++
    batchCalls 1 2 ++ batchCalls 2 2

def Seen.writer? : Seen → Option UInt64
  | .wrote conn _ => some conn.generation
  | _ => none

theorem sessions_fenced_takeover :
    ∃ wal disk durable, (run Hashes.sample smallConfig (fresh wal disk durable 0) takeover).2.filterMap Seen.writer? = [1, 1, 2, 2] ∧
      (run Hashes.sample smallConfig (fresh wal disk durable 0) takeover).1.begun = 2 ∧
      (run Hashes.sample smallConfig (fresh wal disk durable 0) takeover).2.Pairwise Seen.Fenced := by
  obtain ⟨g, -, hcheck⟩ := exists_ok_of_any (x := ((startGateway Hashes.sample smallConfig smallGate 0 1 noFaults).run
      World.empty.durable).2) (p := fun g =>
    let start := fresh g.wal g.disk ((startGateway Hashes.sample smallConfig smallGate 0 1 noFaults).final World.empty.durable) 0
    decide ((run Hashes.sample smallConfig start takeover).2.filterMap Seen.writer? = [1, 1, 2, 2] ∧
      (run Hashes.sample smallConfig start takeover).1.begun = 2)) (by decide +kernel)
  rw [decide_eq_true_eq] at hcheck
  refine ⟨g.wal, g.disk, _, hcheck.1, hcheck.2, ?_⟩
  exact (sessions_fenced Hashes.sample smallConfig g.wal g.disk _ 0 takeover (by rw [hcheck.2]; decide)).1

end TickPlatform.Ingest.Interleaved
