import TickPlatform.Ingest.World

/-!
# The disk gate under concurrent calls

The calls of the gate as sequences of critical sections. The usage is read outside the lock, so a refresh may apply a
value that is older than what other calls have done since, and an update is followed by a refresh in a section of its
own. Whatever the order, an acknowledgement is allowed only on what the section itself saw.
-/

namespace TickPlatform.Ingest

/-! ## Calls -/

inductive GateCall
  | refresh
  | setPendingPublication (segments bytes : UInt64)
  | markPoisoned
  | clearPoisonedAfterVerification
  | readyForACK
deriving DecidableEq

/-- The first critical section of a call, for the calls that have one before their refresh. -/
def GateCall.update : GateCall → Option (DiskStateMachine → DiskStateMachine)
  | .setPendingPublication segments bytes =>
    some fun m => { m with state := { m.state with pendingSegments := segments, pendingBytes := bytes } }
  | .markPoisoned => some fun m => { m with poisoned := true }
  | .clearPoisonedAfterVerification => some fun m => { m with poisoned := false }
  | .refresh => none
  | .readyForACK => none

-- without interruption the sections make up the calls of the sequential gate
example (m : DiskStateMachine) (segments bytes : UInt64) (usage : Option DiskUsage) :
    ((GateCall.setPendingPublication segments bytes).update.map fun f => (f m).refresh usage) =
      some (m.setPendingPublication segments bytes usage) := rfl

/-- What a call has left to do. -/
inductive GatePhase
  /-- The first section. -/
  | updating
  /-- To ask for the usage. -/
  | reading
  /-- To apply the usage it has read. -/
  | applying (usage : Option DiskUsage)
deriving DecidableEq

def GateCall.begin (call : GateCall) : GatePhase := if call.update.isSome then .updating else .reading

structure GateWorld where
  machine : DiskStateMachine
  /-- The calls under way. -/
  active : List (GateCall × GatePhase)

inductive GateEvent
  | called (call : GateCall)
  | updated (call : GateCall)
  | read (call : GateCall) (usage : Option DiskUsage)
  /-- The last section, with the usage it applied and the state it returned from. -/
  | returned (call : GateCall) (usage : Option DiskUsage) (state : DiskState)
deriving DecidableEq

/-- Any call may take its next step, with any usage. -/
inductive GateStep : GateWorld → GateEvent → GateWorld → Prop
  | call {m : DiskStateMachine} {active : List (GateCall × GatePhase)} (call : GateCall) :
    GateStep ⟨m, active⟩ (.called call) ⟨m, (call, call.begin) :: active⟩
  | update {m : DiskStateMachine} {left right : List (GateCall × GatePhase)} (call : GateCall)
      {f : DiskStateMachine → DiskStateMachine} (h : call.update = some f) :
    GateStep ⟨m, left ++ (call, .updating) :: right⟩ (.updated call) ⟨f m, left ++ (call, .reading) :: right⟩
  | read {m : DiskStateMachine} {left right : List (GateCall × GatePhase)} (call : GateCall) (usage : Option DiskUsage) :
    GateStep ⟨m, left ++ (call, .reading) :: right⟩ (.read call usage) ⟨m, left ++ (call, .applying usage) :: right⟩
  | apply {m : DiskStateMachine} {left right : List (GateCall × GatePhase)} (call : GateCall) (usage : Option DiskUsage) :
    GateStep ⟨m, left ++ (call, .applying usage) :: right⟩ (.returned call usage (m.refresh usage).state)
      ⟨m.refresh usage, left ++ right⟩

/-- The interleavings of calls on a new gate, the latest event first. -/
inductive GateRun (policy : DiskWatermarks) : List GateEvent → GateWorld → Prop
  | start {m : DiskStateMachine} (h : newDiskStateMachine policy = .ok m) : GateRun policy [] ⟨m, []⟩
  | step {events : List GateEvent} {world next : GateWorld} {event : GateEvent} (h : GateRun policy events world)
      (hstep : GateStep world event next) : GateRun policy (event :: events) next

variable {policy : DiskWatermarks} {events : List GateEvent} {world next : GateWorld} {event : GateEvent}

/-! ## One section -/

/-- What a refresh allows an acknowledgement on. -/
structure Allows (policy : DiskWatermarks) (usage : Option DiskUsage) (state : DiskState) : Prop where
  sound : state.poisoned = false
  space : ∃ reading, usage = some reading ∧ policy.criticalFreeBytes ≤ reading.freeBytes
  backlog : policy.maxPendingSegments ≠ 0 →
    state.pendingSegments < policy.maxPendingSegments ∧ state.pendingBytes < policy.maxPendingBytes

theorem refresh_keeps (m : DiskStateMachine) (usage : Option DiskUsage) :
    (m.refresh usage).policy = m.policy ∧ (m.refresh usage).poisoned = m.poisoned := by
  cases usage with
  | none => exact ⟨rfl, rfl⟩
  | some reading =>
    unfold DiskStateMachine.refresh
    simp only
    split
    · exact ⟨rfl, rfl⟩
    · exact ⟨rfl, rfl⟩

theorem classifyDisk_ready {free : UInt64} (hpolicy : policy.validate = .ok ())
    (h : classifyDisk free policy = .normal ∨ classifyDisk free policy = .high) : policy.criticalFreeBytes ≤ free := by
  unfold DiskWatermarks.validate at hpolicy
  obtain ⟨-, hpolicy⟩ := ite_error_eq_ok.mp hpolicy
  obtain ⟨hdescend, -⟩ := ite_error_eq_ok.mp hpolicy
  rw [not_or, UInt64.not_le] at hdescend
  unfold classifyDisk at h
  split at h
  · next hhigh => exact UInt64.le_trans (UInt64.le_of_lt hdescend.1) hhigh
  · split at h
    · next hcritical => exact hcritical
    · split at h <;> simp at h

theorem allows_of_refresh {m : DiskStateMachine} {usage : Option DiskUsage} (hpolicy : m.policy.validate = .ok ())
    (h : (m.refresh usage).state.ackAllowed = true) : Allows m.policy usage (m.refresh usage).state := by
  cases usage with
  | none => cases h
  | some reading =>
    unfold DiskStateMachine.refresh at h ⊢
    simp only at h ⊢
    split at h
    · cases h
    · next hreading =>
      rw [if_neg hreading]
      simp only [decide_eq_true_eq] at h
      obtain ⟨hclass, hlimit, hpoisoned⟩ := h
      refine ⟨hpoisoned, ⟨reading, rfl, classifyDisk_ready hpolicy hclass⟩, fun hset => ?_⟩
      simpa [DiskStateMachine.pendingOverLimit, hset] using hlimit

theorem refused_of_poisoned {m : DiskStateMachine} (usage : Option DiskUsage) (h : m.poisoned = true) :
    (m.refresh usage).state.ackAllowed = false := by
  cases usage with
  | none => rfl
  | some reading =>
    unfold DiskStateMachine.refresh
    simp only [h]
    split
    · rfl
    · simp

/-! ## Interleavings -/

theorem policy_step (h : GateStep world event next) : next.machine.policy = world.machine.policy := by
  cases h with
  | call => rfl
  | @update m left right call f hupdate => cases call <;> cases hupdate <;> rfl
  | read => rfl
  | apply => exact (refresh_keeps _ _).1

theorem policy_run (h : GateRun policy events world) : world.machine.policy = policy ∧ policy.validate = .ok () := by
  induction h with
  | start hnew =>
    simp only [newDiskStateMachine, bind_eq_ok, pure_eq_ok] at hnew
    obtain ⟨_, hvalid, rfl⟩ := hnew
    exact ⟨rfl, hvalid⟩
  | step _ hstep ih => exact ⟨(policy_step hstep).trans ih.1, ih.2⟩

theorem poisoned_step (h : GateStep world event next) (hevent : event ≠ .updated .clearPoisonedAfterVerification)
    (hpoisoned : world.machine.poisoned = true) : next.machine.poisoned = true := by
  cases h with
  | call => exact hpoisoned
  | @update m left right call f hupdate =>
    cases call with
    | clearPoisonedAfterVerification => exact absurd rfl hevent
    | setPendingPublication => cases hupdate; exact hpoisoned
    | markPoisoned => cases hupdate; rfl
    | refresh => cases hupdate
    | readyForACK => cases hupdate
  | read => exact hpoisoned
  | apply => exact (refresh_keeps _ _).2.trans hpoisoned

theorem poisoned_since {later earlier : List GateEvent}
    (h : GateRun policy (later ++ .updated .markPoisoned :: earlier) world)
    (hclear : .updated .clearPoisonedAfterVerification ∉ later) : world.machine.poisoned = true := by
  induction later generalizing world with
  | nil =>
    cases h with
    | step _ hstep =>
      cases hstep with
      | update _ hupdate =>
        cases hupdate
        rfl
  | cons event later ih =>
    rw [List.mem_cons, not_or] at hclear
    cases h with
    | step hrun hstep => exact poisoned_step hstep (Ne.symm hclear.1) (ih hrun hclear.2)

/-- **The disk gate.** In every interleaving, where `ReadyForACK` returns true its own section saw a WAL that is not
poisoned, enough space in the usage it applied and a backlog below the limits, and once the WAL was marked poisoned it
returns false until the mark is cleared. -/
theorem gate_never_opens_wrongly (policy : DiskWatermarks) (usage : Option DiskUsage) (state : DiskState)
    (events : List GateEvent) (world : GateWorld)
    (h : GateRun policy (.returned .readyForACK usage state :: events) world) :
    (state.ackAllowed = true → world.machine.state = state ∧ world.machine.poisoned = false ∧ Allows policy usage state) ∧
    ∀ later earlier, events = later ++ .updated .markPoisoned :: earlier →
      .updated .clearPoisonedAfterVerification ∉ later → state.ackAllowed = false := by
  cases h with
  | @step _ before _ _ hrun hstep =>
    obtain ⟨hsame, hvalid⟩ := policy_run hrun
    cases hstep with
    | @apply m left right =>
      refine ⟨fun hallowed => ?_, fun later earlier hevents hclear => ?_⟩
      · have hallows := allows_of_refresh (hsame ▸ hvalid) hallowed
        rw [hsame] at hallows
        refine ⟨rfl, ?_, hallows⟩
        cases hpoisoned : m.poisoned with
        | false => exact (refresh_keeps m usage).2.trans hpoisoned
        | true =>
          rw [refused_of_poisoned usage hpoisoned] at hallowed
          cases hallowed
      · exact refused_of_poisoned usage (poisoned_since (hevents ▸ hrun) hclear)

/-- Room for everything. -/
def roomyUsage : Option DiskUsage := some ⟨1073741824, 1073741824⟩

/-- A call that runs alone is allowed; one that read the same usage before the WAL was poisoned is refused. -/
theorem gate_never_opens_wrongly_stale :
    (∃ state events world, GateRun smallConfig.watermarks (.returned .readyForACK roomyUsage state :: events) world ∧
      state.ackAllowed = true ∧ Allows smallConfig.watermarks roomyUsage state) ∧
    ∃ state earlier world, GateRun smallConfig.watermarks
        (.returned .readyForACK roomyUsage state :: ([] ++ .updated .markPoisoned :: .called .markPoisoned ::
          .read .readyForACK roomyUsage :: earlier)) world ∧ state.ackAllowed = false := by
  have hnew : newDiskStateMachine smallConfig.watermarks = .ok smallGate := by decide
  have hread : GateRun smallConfig.watermarks [.read .readyForACK roomyUsage, .called .readyForACK]
      ⟨smallGate, [(.readyForACK, .applying roomyUsage)]⟩ :=
    ((GateRun.start hnew).step (.call .readyForACK)).step (@GateStep.read smallGate [] [] .readyForACK roomyUsage)
  have halone := hread.step (@GateStep.apply smallGate [] [] .readyForACK roomyUsage)
  have hpoisoned := ((hread.step (.call .markPoisoned)).step (@GateStep.update smallGate []
    [(.readyForACK, .applying roomyUsage)] .markPoisoned _ rfl)).step
      (@GateStep.apply _ [(.markPoisoned, .reading)] [] .readyForACK roomyUsage)
  have hallowed : (smallGate.refresh roomyUsage).state.ackAllowed = true := by decide
  exact ⟨⟨_, _, _, halone, hallowed, ((gate_never_opens_wrongly _ _ _ _ _ halone).1 hallowed).2.2⟩,
    _, _, _, hpoisoned, (gate_never_opens_wrongly _ _ _ _ _ hpoisoned).2 [] _ rfl (by simp)⟩

end TickPlatform.Ingest
