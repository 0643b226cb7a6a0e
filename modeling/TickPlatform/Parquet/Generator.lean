import Mathlib.Data.UInt
import TickPlatform.Files
import TickPlatform.Parquet.Row

/-!
# The part generator

The conversion spec, and the streaming sink that buffers rows, writes a part when the next row does not fit, verifies
the file and promotes it to its content-addressed path.
-/

namespace TickPlatform.Parquet

open Bytes Protocol Replay Files Crash

/-! ## Conversion specs -/

def writerApplication : Bytes := ascii "utaki-tick-data-platform"
def writerVersion : Bytes := ascii "ticks-parquet-v1"
def writerConfigDomain : Bytes := ascii "tick-data-platform/writer-config/v1\x00"
def dependencyLockDomain : Bytes := ascii "tick-data-platform/dependency-lock/v1\x00"

structure ConversionSpec where
  replayContractID : Bytes
  formatID : Bytes
  conversionID : Bytes
  converterBuildID : Bytes
  targetPlatformContract : Bytes
  maxRowsPerPart : UInt64
  maxCanonicalBytesPerPart : UInt64
  maxRowsPerRowGroup : UInt64
  dependencyLockHash : Digest
  writerConfigurationHash : Digest
deriving DecidableEq

def maxInt64 : UInt64 := 9223372036854775807

def deriveDependencyLockHash (H : Hashes) : Except String Digest := do
  let value ← canonicalJSON (jsonObject
    [("go_version", .string (ascii "go1.24.9")), ("module", .string (ascii "github.com/parquet-go/parquet-go")),
      ("module_checksum", .string (ascii "h1:Oy6ganNrAdFiVwy7wNmWagfPTWA2X9Z3tVHBc7JtuX8=")),
      ("version", .string (ascii "v0.30.1"))])
  return H.sha256 (dependencyLockDomain ++ value)

def checkRequired (field : String × Bytes) : Except String Unit :=
  let name := field.1
  reject (field.2 = []) s!"{name} is required"

namespace ConversionSpec

def validateTuple (s : ConversionSpec) : Except String Unit := do
  each checkRequired
    [("replay_contract_id", s.replayContractID), ("format_id", s.formatID), ("conversion_id", s.conversionID),
      ("converter_build_id", s.converterBuildID), ("target_platform_contract", s.targetPlatformContract)]
  reject (s.formatID ≠ replayFormatID) "unsupported format id"
  reject (s.maxRowsPerPart = 0 ∨ s.maxCanonicalBytesPerPart = 0 ∨ s.maxRowsPerRowGroup = 0)
    "conversion limits must be nonzero"
  reject (s.maxRowsPerPart > maxInt64 ∨ s.maxRowsPerRowGroup > maxInt64 ∨ s.maxCanonicalBytesPerPart > maxInt64)
    "conversion limits exceed implementation bounds"

def deriveWriterConfigurationHash (H : Hashes) (s : ConversionSpec) : Except String Digest := do
  s.validateTuple
  let value ← canonicalJSON (jsonObject
    [("application", .string writerApplication), ("compression", .string (ascii "UNCOMPRESSED")),
      ("data_page_statistics", .bool true), ("data_page_version", .int 1), ("format_id", .string s.formatID),
      ("max_rows_per_row_group", jsonUint s.maxRowsPerRowGroup), ("page_buffer_size", .int 262144),
      ("schema_id", .string (ascii "ticks-parquet-v1-fixed-schema")), ("write_buffer_size", .int 32768)])
  return H.sha256 (writerConfigDomain ++ value)

def validate (H : Hashes) (s : ConversionSpec) : Except String Unit := do
  s.validateTuple
  let dependency ← deriveDependencyLockHash H
  reject (s.dependencyLockHash ≠ dependency) "dependency lock hash does not match pinned parquet-go"
  let writer ← s.deriveWriterConfigurationHash H
  reject (s.writerConfigurationHash ≠ writer) "writer configuration hash does not match fixed writer"

def createdBy (s : ConversionSpec) : Bytes :=
  writerApplication ++ ascii " version " ++ writerVersion ++ ascii " (build " ++ s.converterBuildID ++ ascii ")"

end ConversionSpec

/-! ## The output root -/

/-- The files of `.replay-tmp/` by number, and the promoted parts by key. -/
structure OutputRoot where
  temporary : Tree Nat Bytes
  objects : Tree Bytes Bytes

def OutputRoot.empty : OutputRoot := ⟨∅, ∅⟩

inductive OutputOp
  | createTemporary (name : Nat)
  | writeTemporary (name : Nat) (data : Bytes)
  | removeTemporary (name : Nat)
  /-- `O_CREATE|O_EXCL`: an empty file. -/
  | createObject (key : Bytes)
  | writeObject (key data : Bytes)

/-- A write can stop after any of its bytes. -/
instance : Device OutputRoot OutputOp where
  run
    | .createTemporary name, d => { d with temporary := d.temporary.insert name [] }
    | .writeTemporary name data, d => { d with temporary := d.temporary.insert name data }
    | .removeTemporary name, d => { d with temporary := d.temporary.erase name }
    | .createObject key, d => { d with objects := d.objects.insert key [] }
    | .writeObject key data, d => { d with objects := d.objects.insert key data }
  torn
    | .writeTemporary name data, d, t => ∃ k, t = { d with temporary := d.temporary.insert name (data.take k) }
    | .writeObject key data, d, t => ∃ k, t = { d with objects := d.objects.insert key (data.take k) }
    | _, _, _ => False

/-- `os.CreateTemp`: a name that is not in use. -/
def freshTemporary (d : OutputRoot) : Nat := d.temporary.keys.sum + 1

abbrev OutputProg := Prog OutputRoot OutputOp String

/-! ## Parts -/

/-- Its path is that of its key below the output root. -/
structure PartArtifact where
  partSequence : UInt32
  partKey : Bytes
  partSHA256 : Digest
  partBytes : UInt64
  rowCount : UInt64
  canonicalRowBytes : UInt64
  firstStreamSequence : UInt64
  lastStreamSequence : UInt64
  previousRowChainHash : Digest
  firstRowChainHash : Digest
  lastRowChainHash : Digest
deriving DecidableEq

/-- One round of the verification loop; the result is the canonical row. -/
def verifyPartRow (H : Hashes) (scope : ReplayScope) (first : UInt64) (index : Nat) (previous : Digest)
    (expected : Option ReplayRow) (physical : ParquetRow) : Except String Bytes := do
  reject (index > (Wal.maxUint64 - first).toNat ∨ physical.streamSequence ≠ first + UInt64.ofNat index)
    "parquet stream sequence is not contiguous"
  reject (physical.previousRowChainHash ≠ previous) "parquet previous row-chain anchor mismatch"
  let row ← physical.replayRow
  reject (row.scope ≠ scope) "parquet row scope mismatch"
  let canonical ← row.canonicalBytes H
  match expected with
  | none => .ok ()
  | some wanted =>
    reject ((wanted.canonicalBytes H).toOption ≠ some canonical)
      "parquet canonical row value differs from streaming input"
  reject (physical.rowChainHash ≠ rowChainStep H physical.streamSequence previous canonical)
    "parquet row-chain hash mismatch"
  return canonical

/-- The loop from an index on, with the chain hash before it: the last chain hash and the canonical bytes. -/
def verifyPartRows (H : Hashes) (scope : ReplayScope) (first : UInt64) :
    Nat → Digest → Option (List ReplayRow) → List ParquetRow → Except String (Digest × Nat)
  | _, previous, _, [] => .ok (previous, 0)
  | index, previous, expected, physical :: rows => do
    let canonical ← verifyPartRow H scope first index previous (expected.bind (·.head?)) physical
    let (last, total) ← verifyPartRows H scope first (index + 1)
      (rowChainStep H physical.streamSequence previous canonical) (expected.map (·.tail)) rows
    return (last, canonical.length + total)

/-- The metadata of the part is that of its first and last row. -/
def checkBoundary (artifact : PartArtifact) (rows : List ParquetRow) (last : Digest) (total : Nat) : Except String Unit :=
  match rows.head?, rows.getLast? with
  | some first, some final =>
    reject (first.streamSequence ≠ artifact.firstStreamSequence ∨ final.streamSequence ≠ artifact.lastStreamSequence ∨
        last ≠ artifact.lastRowChainHash ∨ first.rowChainHash ≠ artifact.firstRowChainHash ∨
        UInt64.ofNat total ≠ artifact.canonicalRowBytes)
      "parquet row boundary metadata mismatch"
  | _, _ => .error "parquet verifier panic"

def verifyPartFile (F : FileFormat) (H : Hashes) (data : Bytes) (artifact : PartArtifact) (scope : ReplayScope)
    (expectedRows : Option (List ReplayRow)) : Except String Unit := do
  scope.validate
  reject ((replayPartObjectKey H scope artifact.firstStreamSequence artifact.lastStreamSequence
        (H.sha256 data)).toOption ≠ some artifact.partKey ∨
      H.sha256 data ≠ artifact.partSHA256 ∨ UInt64.ofNat data.length ≠ artifact.partBytes)
    "parquet artifact hash, size, or key mismatch"
  let rows ← (F.read data).elim (.error "open parquet footer") .ok
  reject (rows.length ≠ artifact.rowCount.toNat) "parquet row count mismatch"
  reject (expectedRows.any fun wanted => wanted.length ≠ rows.length)
    "expected replay row count does not match parquet row count"
  reject (artifact.partSequence = 0 ∧ artifact.previousRowChainHash ≠ Digest.zero)
    "first parquet part has a nonzero predecessor row-chain hash"
  let (last, total) ← verifyPartRows H scope artifact.firstStreamSequence 0 artifact.previousRowChainHash expectedRows rows
  checkBoundary artifact rows last total

/-- Copies the temporary file to its path unless the part is there already. -/
def promoteNoClobber (H : Hashes) (temporary : Nat) (key : Bytes) (digest : Digest) (size : UInt64) : OutputProg Unit := do
  let existing ← .read (·.objects.lookup key)
  match existing with
  | some found => do
    .lift (reject (H.sha256 found ≠ digest ∨ UInt64.ofNat found.length ≠ size)
      "existing parquet object collides with content-addressed key")
    .emit (.removeTemporary temporary)
  | none => do
    let data ← .read fun d => (d.temporary.lookup temporary).getD []
    .emit (.createObject key)
    .emit (.writeObject key data)
    .emit (.removeTemporary temporary)

def rowBytes (rows : List BufferedRow) : Nat := (rows.map fun row => row.canonical.length).sum

/-- The summary of a part, from the rows and the bytes of its file. -/
def partArtifact (H : Hashes) (sequence : UInt32) (first final : BufferedRow) (rows : List BufferedRow) (data partKey : Bytes) :
    PartArtifact where
  partSequence := sequence
  partKey := partKey
  partSHA256 := H.sha256 data
  partBytes := UInt64.ofNat data.length
  rowCount := UInt64.ofNat rows.length
  canonicalRowBytes := UInt64.ofNat (rowBytes rows)
  firstStreamSequence := first.physical.streamSequence
  lastStreamSequence := final.physical.streamSequence
  previousRowChainHash := first.physical.previousRowChainHash
  firstRowChainHash := first.chain
  lastRowChainHash := final.chain

/-- The part of the temporary file, once it is hashed and verified. -/
def summarizePart (F : FileFormat) (H : Hashes) (sequence : UInt32) (scope : ReplayScope) (rows : List BufferedRow)
    (data : Bytes) : Except String PartArtifact :=
  match rows.head?, rows.getLast? with
  | some first, some final => do
    let partKey ← replayPartObjectKey H scope first.physical.streamSequence final.physical.streamSequence (H.sha256 data)
    let artifact := partArtifact H sequence first final rows data partKey
    verifyPartFile F H data artifact scope (some (rows.map (·.row)))
    return artifact
  | _, _ => .error "parquet generator panic"

/-- The work on the temporary file of a part: written, summarized, promoted. -/
def stagePart (F : FileFormat) (H : Hashes) (temporary : Nat) (sequence : UInt32) (scope : ReplayScope)
    (spec : ConversionSpec) (rows : List BufferedRow) : OutputProg PartArtifact := do
  let data ← .lift ((F.write spec.createdBy spec.maxRowsPerRowGroup (rows.map (·.physical))).elim
    (.error "write parquet rows") .ok)
  .emit (.writeTemporary temporary data)
  let written ← .read fun d => (d.temporary.lookup temporary).getD []
  let artifact ← .lift (summarizePart F H sequence scope rows written)
  promoteNoClobber H temporary artifact.partKey artifact.partSHA256 artifact.partBytes
  return artifact

/-- The temporary file is removed whenever the part is not promoted. -/
def writeAndVerifyPart (F : FileFormat) (H : Hashes) (sequence : UInt32) (scope : ReplayScope) (spec : ConversionSpec)
    (rows : List BufferedRow) : OutputProg PartArtifact := do
  let temporary ← .read freshTemporary
  .emit (.createTemporary temporary)
  let artifact ← (stagePart F H temporary sequence scope spec rows).handle fun err => do
    .emit (.removeTemporary temporary)
    .fail err
  let promoted ← .read fun d => (d.objects.lookup artifact.partKey).getD []
  .lift (verifyPartFile F H promoted artifact scope none)
  return artifact

/-! ## The generator -/

structure Generator where
  spec : ConversionSpec
  scope : ReplayScope
  rows : List BufferedRow
  rowCount : UInt64
  canonicalBytes : Nat
  rowChainRoot : Digest
  parts : List PartArtifact
  closed : Bool
deriving DecidableEq

structure GenerationResult where
  scope : ReplayScope
  parts : List PartArtifact
  rowCount : UInt64
  canonicalRowBytes : UInt64
  rowChainRoot : Digest
deriving DecidableEq

def newGenerator (H : Hashes) (spec : ConversionSpec) (scope : ReplayScope) : Except String Generator := do
  spec.validate H
  scope.validate
  reject (scope.replayContractID ≠ spec.replayContractID ∨ scope.conversionID ≠ spec.conversionID)
    "conversion spec does not match replay scope"
  return ⟨spec, scope, [], 0, 0, Digest.zero, [], false⟩

namespace Generator

/-- The part is written and the buffer is empty. -/
def addPart (g : Generator) (artifact : PartArtifact) : Generator :=
  { g with parts := g.parts ++ [artifact], rows := [], canonicalBytes := 0 }

def flushPart (F : FileFormat) (H : Hashes) (g : Generator) : OutputProg Generator :=
  if g.rows = [] then pure g
  else do
    .lift (reject (g.parts.length > 4294967295) "too many replay parts")
    let artifact ← writeAndVerifyPart F H (UInt32.ofNat g.parts.length) g.scope g.spec g.rows
    return g.addPart artifact

/-- The row joins the buffer. -/
def addRow (g : Generator) (row : BufferedRow) : Generator :=
  { g with rows := g.rows ++ [row], canonicalBytes := g.canonicalBytes + row.canonical.length,
           rowChainRoot := row.chain, rowCount := g.rowCount + 1 }

/-- The buffered part cannot take the row. -/
def isFull (g : Generator) (row : BufferedRow) : Bool :=
  g.rows ≠ [] ∧ (g.rows.length ≥ g.spec.maxRowsPerPart.toNat ∨
    g.canonicalBytes > g.spec.maxCanonicalBytesPerPart.toNat - row.canonical.length)

/-- What is checked of a row before the part is touched. -/
def checkRow (H : Hashes) (g : Generator) (row : ReplayRow) : Except String BufferedRow := do
  reject g.closed "parquet generator is closed"
  reject (row.scope ≠ g.scope) "replay row scope does not match generator scope"
  reject (row.streamSequence ≠ g.rowCount) "replay stream sequence is not the next one"
  let buffered ← (makeParquetRow H row g.rowChainRoot).mapError fun err => s!"canonicalize replay row: {err}"
  reject (buffered.canonical.length > g.spec.maxCanonicalBytesPerPart.toNat) "row exceeds MaxCanonicalBytesPerPart"
  return buffered

/-- A full part is written before the row is taken. -/
def makeRoom (F : FileFormat) (H : Hashes) (g : Generator) (row : BufferedRow) : OutputProg Generator :=
  if g.isFull row then g.flushPart F H else pure g

def writeRow (F : FileFormat) (H : Hashes) (g : Generator) (row : ReplayRow) : OutputProg Generator := do
  let buffered ← .lift (g.checkRow H row)
  let g ← g.makeRoom F H buffered
  .lift (reject (g.rows.length ≥ g.spec.maxRowsPerPart.toNat) "part row limit is not representable")
  return g.addRow buffered

def writeRows (F : FileFormat) (H : Hashes) (g : Generator) : List ReplayRow → OutputProg Generator
  | [] => pure g
  | row :: rows => do
    let g ← g.writeRow F H row
    g.writeRows F H rows

def totalCanonicalBytes (g : Generator) : UInt64 := (g.parts.map (·.canonicalRowBytes)).sum

def result (g : Generator) : GenerationResult :=
  ⟨g.scope, g.parts, g.rowCount, g.totalCanonicalBytes, g.rowChainRoot⟩

def close (F : FileFormat) (H : Hashes) (g : Generator) : OutputProg GenerationResult := do
  .lift (reject g.closed "parquet generator is closed")
  let g ← { g with closed := true }.flushPart F H
  return g.result

end Generator

/-- A whole conversion: a new generator, all rows, and `Close`. -/
def generate (F : FileFormat) (H : Hashes) (spec : ConversionSpec) (scope : ReplayScope) (rows : List ReplayRow) :
    OutputProg GenerationResult := do
  let g ← .lift (newGenerator H spec scope)
  let g ← g.writeRows F H rows
  g.close F H

/-! ## A conversion of one row -/

/-- A format that knows one table. -/
def singleFormat (table : List ParquetRow) : FileFormat where
  write _ _ rows := if rows = table then some [1, 2] else none
  read data := if data = [1, 2] then some table else none
  read_write := by
    intro _ _ rows data h
    split at h
    · next hrows =>
      cases h
      rw [if_pos rfl, hrows]
    · cases h
  size_write := by
    intro _ _ rows data h
    split at h
    · cases h
      decide
    · cases h

def sampleScope : ReplayScope where
  datasetID := ascii "dataset"
  dayDefinitionID := ascii "utc-day"
  date := ascii "2024-01-02"
  replayContractID := ascii "contract"
  conversionID := ascii "conversion"
  rawDayManifestKey := ascii "raw/day"
  rawDayManifestSHA256 := sampleHashes.sha256 []

def sampleRow : ReplayRow := .marker
  { scope := sampleScope
    streamSequence := 0
    continuitySegmentID := ascii "segment"
    rawObjectKey := []
    rawObjectSHA256 := Digest.zero
    markerCode := .segmentStart
    reason := .initial
    detail := []
    referenceGatewayIngestSequence := 1
    referenceRecordOrdinal := 0
    predecessorRowChainHash := Digest.zero
    continuitySegmentStartHash := Digest.zero }

def sampleTable : List ParquetRow := ((makeParquetRow sampleHashes sampleRow Digest.zero).toOption.map (·.physical)).toList

/-- A spec for the scope, with a name for the converter build. -/
def sampleSpec (converterBuildID : Bytes) : ConversionSpec :=
  let spec : ConversionSpec :=
    { replayContractID := sampleScope.replayContractID
      formatID := replayFormatID
      conversionID := sampleScope.conversionID
      converterBuildID := converterBuildID
      targetPlatformContract := ascii "linux-amd64"
      maxRowsPerPart := 1000
      maxCanonicalBytesPerPart := 100000
      maxRowsPerRowGroup := 100
      dependencyLockHash := (deriveDependencyLockHash sampleHashes).toOption.getD Digest.zero
      writerConfigurationHash := Digest.zero }
  { spec with writerConfigurationHash := (spec.deriveWriterConfigurationHash sampleHashes).toOption.getD Digest.zero }

/-- The conversion of one row with a name for the converter build. -/
def sampleConversion (converterBuildID : Bytes) : OutputProg GenerationResult :=
  generate (singleFormat sampleTable) sampleHashes (sampleSpec converterBuildID) sampleScope [sampleRow]

end TickPlatform.Parquet
