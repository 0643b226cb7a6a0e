import TickPlatform.Crash
import TickPlatform.Wal.Segment

/-!
# The WAL store

The active file and the `sealed/` directory, and what `Start`, `Append` and `Seal` do to them.
Fsyncs are not operations of their own: an operation that has run is durable.
-/

namespace TickPlatform.Wal

open Bytes Protocol Crash

/-! ## The directory -/

/-- `active.wal`, and the files of `sealed/` by name. -/
structure Disk where
  active : Option Bytes
  sealed : List (String × Bytes)
deriving DecidableEq

inductive DiskOp
  | createActive
  | appendActive (data : Bytes)
  | truncateActive (size : Nat)
  /-- `os.Link` of the active file to a free name under `sealed/`. -/
  | linkSealed (name : String)
  | removeActive
deriving DecidableEq

/-- A write can stop after any of its bytes; the other operations are atomic. -/
instance : Device Disk DiskOp where
  run
    | .createActive, d => { d with active := some [] }
    | .appendActive data, d => { d with active := d.active.map (· ++ data) }
    | .truncateActive size, d => { d with active := d.active.map (·.take size) }
    | .linkSealed name, d =>
      match d.active with
      | some data => { d with sealed := d.sealed ++ [(name, data)] }
      | none => d
    | .removeActive, d => { d with active := none }
  torn
    | .appendActive data, d, t =>
      ∃ written, written ≤ data.length ∧ t = { d with active := d.active.map (· ++ data.take written) }
    | _, _, _ => False

abbrev WalProg := Prog Disk DiskOp

/-- Go's `%020d`. -/
def zeroPad20 (v : UInt64) : String :=
  String.ofList ((List.range 20).map fun i => Nat.digitChar (v.toNat / 10 ^ (19 - i) % 10))

def segmentName (startSequence lastSequence : UInt64) : String :=
  "segment-" ++ zeroPad20 startSequence ++ "-" ++ zeroPad20 lastSequence ++ ".wal"

def hasSuffix (s suffix : String) : Bool := suffix.toList.isSuffixOf s.toList

/-! ## The store -/

/-- The durable chain boundary that retention leaves behind. -/
structure PruneAnchor where
  endSequence : UInt64
  chainRoot : Digest
deriving DecidableEq

structure Store where
  gatewayID : Bytes
  /-- The active file is open. -/
  file : Bool
  entries : List Entry
  sealed : List VerifiedSegment
  last : Digest
  next : UInt64
  start : UInt64
  /-- Where the entries of the active file begin in `entries`. -/
  activeAt : Nat
  sealedBytes : Nat
  fileBytes : Nat
  poisoned : Bool
  prunedThrough : UInt64
deriving DecidableEq

def maxUint64 : UInt64 := 18446744073709551615

def newStoreWithAnchor (gatewayID : Bytes) (anchor : Option PruneAnchor) : Except WalError Store :=
  let store : Store :=
    { gatewayID, file := false, entries := [], sealed := [], last := Digest.zero, next := 1, start := 1,
      activeAt := 0, sealedBytes := 0, fileBytes := 0, poisoned := false, prunedThrough := 0 }
  if gatewayID = [] ∨ !utf8Valid gatewayID ∨ gatewayID.length > 255 then
    .error (.other "invalid gateway instance id")
  else
    match anchor with
    | none => .ok store
    | some anchor =>
      if anchor.endSequence = 0 ∨ anchor.endSequence = maxUint64 ∨ anchor.chainRoot = Digest.zero then
        .error (.other "invalid WAL prune anchor")
      else
        .ok { store with prunedThrough := anchor.endSequence, last := anchor.chainRoot,
                         start := anchor.endSequence + 1, next := anchor.endSequence + 1 }

namespace Store

/-- Opens a new active file; `O_EXCL` refuses an existing one. -/
def createActive (s : Store) (now : Int64) : WalProg WalError Store := do
  let active ← Prog.read Disk.active
  if active.isSome then
    Prog.fail (.other "create active WAL")
  else
    let header := encodeHeader s.gatewayID s.next now
    Prog.emit .createActive
    Prog.emit (.appendActive header)
    return { s with file := true, start := s.next, activeAt := s.entries.length, poisoned := false,
                    fileBytes := s.sealedBytes + header.length }

def validateNextSegment (s : Store) (segment : VerifiedSegment) : Except WalError Unit :=
  let start := segment.startSequence
  let want := s.next
  if segment.gatewayInstanceID ≠ s.gatewayID then
    .error (.integrity "sealed WAL gateway identity mismatch")
  else if start ≠ want then
    .error (.integrity s!"sealed WAL starts at sequence {start}, want {want}")
  else if segment.chainStart ≠ s.last then
    .error (.integrity s!"sealed WAL chain start mismatch at sequence {start}")
  else if segment.lastSequence = maxUint64 then
    .error (.integrity "WAL sequence space exhausted")
  else .ok ()

def acceptLoadedSegment (s : Store) (segment : VerifiedSegment) : Store :=
  let entries := s.entries ++ segment.entries
  { s with entries, sealed := s.sealed ++ [{ segment with entries := [] }],
           sealedBytes := s.sealedBytes + segment.fileBytes,
           fileBytes := s.sealedBytes + segment.fileBytes,
           last := segment.chainRoot, next := segment.lastSequence + 1, activeAt := entries.length }

def acceptSegments (s : Store) : List VerifiedSegment → Except WalError Store
  | [] => .ok s
  | segment :: segments => do
    s.validateNextSegment segment
    (s.acceptLoadedSegment segment).acceptSegments segments

/-- Verifies the `.wal` files of `sealed/` and chains them in sequence order. -/
def loadSealedSegments (H : Hashes) (s : Store) (files : List (String × Bytes)) : Except WalError Store := do
  let walFiles := files.filter fun file => hasSuffix file.1 ".wal"
  let segments ← walFiles.mapM fun file => verifySealedBytes H file.1 file.2
  s.acceptSegments (segments.mergeSort fun a b => a.startSequence ≤ b.startSequence)

def loadActive (H : Hashes) (s : Store) (data : Bytes) : WalProg WalError Store := do
  let header ← Prog.lift (parseHeader data s.gatewayID)
  let (entries, entriesEnd, torn) ← Prog.lift (parseEntries H data header none true)
  let start := header.startSequence
  let want := s.next
  let loaded :=
    { s with start, activeAt := s.entries.length, entries := s.entries ++ entries,
             fileBytes := s.sealedBytes + entriesEnd }
  if start ≠ want then
    Prog.fail (.integrity s!"active WAL starts at sequence {start}, want {want}")
  else
    match entries.head?, entries.getLast? with
    | some first, some final =>
      let sequence := first.sequence
      if first.previousEntryHash ≠ s.last then
        Prog.fail (.integrity s!"active WAL chain start mismatch at sequence {sequence}")
      else do
        if torn then Prog.emit (.truncateActive entriesEnd)
        if final.sequence = maxUint64 then
          Prog.fail (.integrity "WAL sequence space exhausted")
        else
          return { loaded with last := final.entryHash, next := final.sequence + 1 }
    | _, _ => do
      if torn then Prog.emit (.truncateActive entriesEnd)
      return loaded

/-- Links the active file under its sealed name without replacing a file, then removes it. -/
def installActiveAsSealed (H : Hashes) (segment : VerifiedSegment) : WalProg WalError VerifiedSegment := do
  let name := segmentName segment.startSequence segment.lastSequence
  let active ← Prog.read Disk.active
  match ← Prog.read (fun d => d.sealed.lookup name) with
  | none => do
    Prog.emit (.linkSealed name)
    Prog.emit .removeActive
    return { segment with path := name }
  | some data => do
    let existing ← Prog.lift (verifySealedBytes H name data)
    if existing.objectSHA256 ≠ segment.objectSHA256 ∨ existing.fileBytes ≠ segment.fileBytes then
      Prog.fail (.integrity "sealed WAL destination already has different bytes")
    else if active ≠ some data then
      Prog.fail (.integrity "sealed WAL destination byte mismatch")
    else
      Prog.emit .removeActive
      return { existing with path := name }

/-- The active file carries a trailer: it is the next sealed segment, or a copy of the last one. -/
def recoverSealedActive (H : Hashes) (s : Store) (segment : VerifiedSegment) : WalProg WalError Store := do
  if segment.startSequence = s.next then
    Prog.lift (s.validateNextSegment segment)
    let installed ← installActiveAsSealed H segment
    return s.acceptLoadedSegment installed
  else
    match s.sealed.getLast? with
    | none => Prog.fail (.integrity "active WAL contains an unexpected sealed segment")
    | some last =>
      if segment.startSequence ≠ last.startSequence ∨ segment.lastSequence ≠ last.lastSequence ∨
          segment.objectSHA256 ≠ last.objectSHA256 then
        Prog.fail (.integrity "active WAL duplicates a different sealed segment")
      else do
        let active ← Prog.read Disk.active
        match ← Prog.read (fun d => d.sealed.lookup last.path) with
        | none => Prog.fail (.other "read sealed WAL segment")
        | some data =>
          if active ≠ some data then
            Prog.fail (.integrity "active WAL duplicate bytes differ")
          else
            Prog.emit .removeActive
            return s

/-- The active file after a crash of `Seal`: the trailer is complete. -/
def recoverSeal (H : Hashes) (s : Store) (data : Bytes) (now : Int64) : WalProg WalError Store := do
  let segment ← Prog.lift (verifySealedBytes H "active.wal" data)
  let s ← s.recoverSealedActive H segment
  s.createActive now

/-- The second half of `initialize`: what it does with the active file. -/
def openActive (H : Hashes) (s : Store) (now : Int64) : WalProg WalError Store := do
  match ← Prog.read Disk.active with
  | none => s.createActive now
  | some data =>
    if data.length < 30 + s.gatewayID.length then
      if !matchesIncompleteHeader data s.gatewayID s.next then
        Prog.fail (.integrity "invalid incomplete active WAL header")
      else do
        let header := encodeHeader s.gatewayID s.next now
        Prog.emit (.truncateActive 0)
        Prog.emit (.appendActive header)
        return { s with file := true, start := s.next, activeAt := s.entries.length,
                        fileBytes := s.sealedBytes + header.length }
    else
      ({ s with file := true }.loadActive H data).handle fun
        | .sealedTrailerAtEntryBoundary => s.recoverSeal H data now
        | err => Prog.fail err

def initializeStore (H : Hashes) (s : Store) (now : Int64) : WalProg WalError Store := do
  let files ← Prog.read Disk.sealed
  let s ← Prog.lift (s.loadSealedSegments H files)
  s.openActive H now

end Store

/-- `NewStoreWithAnchor` and `Start`. -/
def start (H : Hashes) (gatewayID : Bytes) (anchor : Option PruneAnchor) (now : Int64) :
    WalProg WalError Store := do
  let s ← Prog.lift (newStoreWithAnchor gatewayID anchor)
  s.initializeStore H now

/-- What can fail in `Append` once the entry is encoded. -/
inductive AppendFault
  | write (written : Nat)
  | sync
  | stat
deriving DecidableEq

/-- The bytes of the entry that are in the file when the call fails. -/
def AppendFault.leaves : AppendFault → Bytes → Bytes
  | .write written, entryBytes => entryBytes.take written
  | .sync, entryBytes => entryBytes
  | .stat, entryBytes => entryBytes

def AppendFault.text : AppendFault → String
  | .write _ => "append WAL entry"
  | .sync => "sync WAL entry"
  | .stat => "stat WAL after append"

namespace Store

def append (H : Hashes) (s : Store) (frame : Bytes) (receiveWallS : Int64) (receiveMonotonicUS : UInt64)
    (fault : Option AppendFault) : WalProg (Store × WalError) (Store × Entry) := do
  let size := frame.length
  match decodeBatchFrame H frame with
  | .error err => Prog.fail (s, .frame err)
  | .ok _ =>
    if size < minFrameBytes.toNat ∨ size > maxFrameBytes.toNat then
      Prog.fail (s, .other s!"invalid batch frame length {size}")
    else if !s.file ∨ s.poisoned then
      Prog.fail (s, .unavailable "")
    else
      let offset ← Prog.read fun d => (d.active.getD []).length
      let entry := makeEntry H offset s.next s.last frame receiveWallS receiveMonotonicUS
      let entryBytes := encodeEntry H entry
      match fault with
      | some fault =>
        Prog.emit (.appendActive (fault.leaves entryBytes))
        Prog.fail ({ s with poisoned := true }, .unavailable fault.text)
      | none =>
        Prog.emit (.appendActive entryBytes)
        return ({ s with entries := s.entries ++ [entry], last := entry.entryHash, next := s.next + 1,
                         fileBytes := s.sealedBytes + offset + entryBytes.length }, entry)

/-- The trailer `Seal` writes after the active bytes `data`. -/
def sealTrailer (H : Hashes) (s : Store) (first final : Entry) (data : Bytes) : Bytes :=
  encodeTrailer H first.sequence final.sequence (UInt32.ofNat (s.entries.length - s.activeAt))
    final.entryHash (H.sha256 data)

/-- The store once its active segment is in the inventory and its file is gone. -/
def addSealed (s : Store) (segment : VerifiedSegment) : Store :=
  { s with sealed := s.sealed ++ [{ segment with entries := [] }], file := false,
           sealedBytes := s.sealedBytes + segment.fileBytes,
           fileBytes := s.sealedBytes + segment.fileBytes }

/-- The end of `Seal`: the verified segment joins the inventory and a new active file opens. -/
def rotate (H : Hashes) (s : Store) (segment : VerifiedSegment) (now : Int64) :
    WalProg (Store × WalError) (Store × VerifiedSegment) := do
  let broken : Store := { s with poisoned := true, file := false }
  let segment ← (installActiveAsSealed H segment).mapError fun e => (broken, e)
  let created ← ((s.addSealed segment).createActive now).mapError
    fun e => ({ s.addSealed segment with poisoned := true }, e)
  return (created, segment)

def sealActive (H : Hashes) (s : Store) (now : Int64) :
    WalProg (Store × WalError) (Store × VerifiedSegment) := do
  let activeCount := s.entries.length - s.activeAt
  let broken : Store := { s with poisoned := true, file := false }
  if !s.file ∨ s.poisoned then
    Prog.fail (s, .unavailable "")
  else
    match s.entries[s.activeAt]?, s.entries.getLast? with
    | some first, some final =>
      if activeCount > 4294967295 then
        Prog.fail (s, .integrity "active WAL has too many entries to seal")
      else if final.sequence = maxUint64 then
        Prog.fail (s, .integrity "WAL sequence space exhausted")
      else
        let data ← Prog.read fun d => d.active.getD []
        Prog.emit (.appendActive (s.sealTrailer H first final data))
        let sealedData ← Prog.read fun d => d.active.getD []
        let segment ← Prog.lift ((verifySealedBytes H "active.wal" sealedData).mapError fun e => (broken, e))
        if segment.gatewayInstanceID ≠ s.gatewayID ∨ segment.startSequence ≠ s.start ∨
            segment.lastSequence ≠ final.sequence ∨ segment.entryCount.toNat ≠ activeCount ∨
            segment.chainStart ≠ first.previousEntryHash ∨ segment.chainRoot ≠ final.entryHash then
          Prog.fail (broken, .integrity "sealed WAL metadata changed during rotation")
        else s.rotate H segment now
    | _, _ => Prog.fail (s, .emptySegment)

end Store

/-- The store that a call leaves behind, whether or not it fails. -/
def storeAfter {α : Type} : Except (Store × WalError) (Store × α) → Store
  | .ok (s, _) => s
  | .error (s, _) => s

end TickPlatform.Wal
