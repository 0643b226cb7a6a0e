import TickPlatform.Protocol.Spec

/-!
# Gateway configuration and the disk gate

The runtime configuration with its defaults and checks, and the state machine that decides from free space,
backlog and poisoning whether a batch may be acknowledged.
-/

open TickPlatform.Bytes TickPlatform.Protocol

namespace TickPlatform.Retention

inductive DiskClass
  | normal
  | high
  | critical
  | emergency
deriving DecidableEq, Repr

end TickPlatform.Retention

namespace TickPlatform.Ingest

open TickPlatform.Retention (DiskClass)

/-! ## Watermarks -/

structure DiskWatermarks where
  highFreeBytes : UInt64
  criticalFreeBytes : UInt64
  emergencyFreeBytes : UInt64
  maxPendingSegments : UInt64
  maxPendingBytes : UInt64
deriving DecidableEq

def DiskWatermarks.validate (w : DiskWatermarks) : Except String Unit :=
  if w.highFreeBytes = 0 ∨ w.criticalFreeBytes = 0 ∨ w.emergencyFreeBytes = 0 then
    .error "disk free-space watermarks must be nonzero"
  else if w.highFreeBytes ≤ w.criticalFreeBytes ∨ w.criticalFreeBytes ≤ w.emergencyFreeBytes then
    .error "disk free-space watermarks must descend high > critical > emergency"
  else if (w.maxPendingSegments == 0) != (w.maxPendingBytes == 0) then
    .error "pending publication limits must be both configured or both disabled"
  else .ok ()

/-! ## Configuration -/

/-- Durations are in nanoseconds, as in `time.Duration`. -/
structure Config where
  listenAddress : Bytes
  gatewayInstanceID : Bytes
  walRoot : Bytes
  journalPath : Bytes
  maxFrameBytes : UInt32
  maxRecords : UInt32
  initialFromMSC : Int64
  initialBatchCount : UInt32
  maximumBatchCount : UInt32
  denseBoundaryHardCap : UInt32
  sessionLeaseTimeout : Int64
  heartbeatIdleTimeout : Int64
  diskHighFreeBytes : UInt64
  diskCriticalFreeBytes : UInt64
  diskEmergencyFreeBytes : UInt64
  maxPendingSegments : UInt64
  maxPendingBytes : UInt64
  producerInstanceID : Bytes
  producerBuildID : Bytes
  providerID : Bytes
  stableFeedID : Bytes
  brokerServerFingerprint : Bytes
  exactSourceSymbol : Bytes
deriving DecidableEq

def defaultConfig : Config where
  listenAddress := ascii "127.0.0.1:17001"
  gatewayInstanceID := ascii "gateway-local-01"
  walRoot := []
  journalPath := []
  maxFrameBytes := maxFrameBytes
  maxRecords := maxRecords
  initialFromMSC := 0
  initialBatchCount := 128
  maximumBatchCount := maxRecords
  denseBoundaryHardCap := maxRecords
  sessionLeaseTimeout := 30000000000
  heartbeatIdleTimeout := 60000000000
  diskHighFreeBytes := (512 : UInt64) <<< 20
  diskCriticalFreeBytes := (256 : UInt64) <<< 20
  diskEmergencyFreeBytes := (64 : UInt64) <<< 20
  maxPendingSegments := 0
  maxPendingBytes := 0
  producerInstanceID := []
  producerBuildID := []
  providerID := []
  stableFeedID := []
  brokerServerFingerprint := []
  exactSourceSymbol := []

namespace Config

def orDefault {α : Type} [DecidableEq α] (zero value default : α) : α := if value = zero then default else value

def withDefaults (c : Config) : Config :=
  let d := defaultConfig
  let maxRecords := orDefault 0 c.maxRecords d.maxRecords
  let maximumBatchCount := orDefault 0 c.maximumBatchCount maxRecords
  { c with
    listenAddress := orDefault [] c.listenAddress d.listenAddress
    gatewayInstanceID := orDefault [] c.gatewayInstanceID d.gatewayInstanceID
    maxFrameBytes := orDefault 0 c.maxFrameBytes d.maxFrameBytes
    maxRecords := maxRecords
    initialBatchCount := orDefault 0 c.initialBatchCount d.initialBatchCount
    maximumBatchCount := maximumBatchCount
    denseBoundaryHardCap := orDefault 0 c.denseBoundaryHardCap maximumBatchCount
    sessionLeaseTimeout := orDefault 0 c.sessionLeaseTimeout d.sessionLeaseTimeout
    heartbeatIdleTimeout := orDefault 0 c.heartbeatIdleTimeout d.heartbeatIdleTimeout
    diskHighFreeBytes := orDefault 0 c.diskHighFreeBytes d.diskHighFreeBytes
    diskCriticalFreeBytes := orDefault 0 c.diskCriticalFreeBytes d.diskCriticalFreeBytes
    diskEmergencyFreeBytes := orDefault 0 c.diskEmergencyFreeBytes d.diskEmergencyFreeBytes }

def watermarks (c : Config) : DiskWatermarks :=
  ⟨c.diskHighFreeBytes, c.diskCriticalFreeBytes, c.diskEmergencyFreeBytes, c.maxPendingSegments, c.maxPendingBytes⟩

def validate (config : Config) : Except String Unit :=
  let c := config.withDefaults
  if c.listenAddress = [] ∨ c.walRoot = [] ∨ c.journalPath = [] then
    .error "listen address, WAL root, and journal path are required"
  else if c.gatewayInstanceID = [] ∨ c.gatewayInstanceID.length > 255 then
    .error "gateway instance id must be 1..255 bytes"
  else if c.maxFrameBytes < minFrameBytes ∨ c.maxFrameBytes > Protocol.maxFrameBytes then
    .error s!"max frame bytes must be between {minFrameBytes} and {Protocol.maxFrameBytes}"
  else if c.maxRecords = 0 ∨ c.maxRecords > Protocol.maxRecords then
    .error s!"max records must be between 1 and {Protocol.maxRecords}"
  else if c.initialBatchCount = 0 ∨ c.initialBatchCount > c.maxRecords then
    .error "initial batch count is outside max records"
  else if c.maximumBatchCount < c.initialBatchCount ∨ c.maximumBatchCount > c.maxRecords then
    .error "maximum batch count is outside configured range"
  else if c.denseBoundaryHardCap < c.initialBatchCount ∨ c.denseBoundaryHardCap > c.maximumBatchCount then
    .error "dense boundary hard cap is outside configured range"
  else if c.sessionLeaseTimeout ≤ 0 ∨ c.heartbeatIdleTimeout ≤ 0 then
    .error "timeouts must be positive"
  else c.watermarks.validate

end Config

/-! ## The disk gate -/

structure DiskUsage where
  freeBytes : UInt64
  totalBytes : UInt64
deriving DecidableEq

structure DiskState where
  diskClass : DiskClass
  freeBytes : UInt64
  totalBytes : UInt64
  ready : Bool
  ackAllowed : Bool
  poisoned : Bool
  blockedReason : String
  pendingSegments : UInt64
  pendingBytes : UInt64
  workerPriority : Bool
deriving DecidableEq

structure DiskStateMachine where
  policy : DiskWatermarks
  state : DiskState
  poisoned : Bool
deriving DecidableEq

def newDiskStateMachine (policy : DiskWatermarks) : Except String DiskStateMachine := do
  policy.validate
  return { policy, poisoned := false,
           state := { diskClass := .emergency, freeBytes := 0, totalBytes := 0, ready := false, ackAllowed := false,
                      poisoned := false, blockedReason := "disk_usage_unobserved", pendingSegments := 0,
                      pendingBytes := 0, workerPriority := false } }

def classifyDisk (free : UInt64) (policy : DiskWatermarks) : DiskClass :=
  if free ≥ policy.highFreeBytes then .normal
  else if free ≥ policy.criticalFreeBytes then .high
  else if free ≥ policy.emergencyFreeBytes then .critical
  else .emergency

def classReason : DiskClass → String
  | .normal => ""
  | .high => "disk_high_watermark"
  | .critical => "disk_critical_watermark"
  | .emergency => "disk_emergency_watermark"

namespace DiskStateMachine

def pendingOverLimit (m : DiskStateMachine) (segments bytes : UInt64) : Bool :=
  decide (m.policy.maxPendingSegments ≠ 0 ∧
    (segments ≥ m.policy.maxPendingSegments ∨ bytes ≥ m.policy.maxPendingBytes))

/-- `Refresh` with what the provider reports, `none` for an error. -/
def refresh (m : DiskStateMachine) (usage : Option DiskUsage) : DiskStateMachine :=
  let segments := m.state.pendingSegments
  let bytes := m.state.pendingBytes
  let unavailable : DiskStateMachine :=
    { m with state := { diskClass := .emergency, freeBytes := 0, totalBytes := 0, ready := false,
                        ackAllowed := false, poisoned := m.poisoned, blockedReason := "disk_usage_unavailable",
                        pendingSegments := segments, pendingBytes := bytes, workerPriority := true } }
  match usage with
  | none => unavailable
  | some usage =>
    if usage.totalBytes = 0 ∨ usage.freeBytes > usage.totalBytes then unavailable
    else
      let diskClass := classifyDisk usage.freeBytes m.policy
      let overLimit := m.pendingOverLimit segments bytes
      let ready := (diskClass = .normal ∨ diskClass = .high) ∧ overLimit = false ∧ m.poisoned = false
      let reason :=
        if m.poisoned then "wal_poisoned_reopen_required"
        else if overLimit then "publication_backlog_limit"
        else classReason diskClass
      { m with state := { diskClass, freeBytes := usage.freeBytes, totalBytes := usage.totalBytes, ready := ready,
                          ackAllowed := ready, poisoned := m.poisoned, blockedReason := reason,
                          pendingSegments := segments, pendingBytes := bytes,
                          workerPriority := diskClass ≠ .normal ∨ overLimit } }

def setPendingPublication (m : DiskStateMachine) (segments bytes : UInt64) (usage : Option DiskUsage) :
    DiskStateMachine :=
  { m with state := { m.state with pendingSegments := segments, pendingBytes := bytes } }.refresh usage

def markPoisoned (m : DiskStateMachine) (usage : Option DiskUsage) : DiskStateMachine :=
  { m with poisoned := true }.refresh usage

def clearPoisonedAfterVerification (m : DiskStateMachine) (usage : Option DiskUsage) : DiskStateMachine :=
  { m with poisoned := false }.refresh usage

end DiskStateMachine

end TickPlatform.Ingest
