import TickPlatform.Archive.Manifest

/-!
# Where the objects of a scope live

The keys below an immutable root.
-/

namespace TickPlatform.Remote

open Bytes Protocol Replay Archive

/-! ## Keys -/

/-- The bytes that stay as they are in a path component. -/
def isPlain (b : UInt8) : Bool :=
  (65 ≤ b ∧ b ≤ 90) ∨ (97 ≤ b ∧ b ≤ 122) ∨ (48 ≤ b ∧ b ≤ 57) ∨ b = 45 ∨ b = 95 ∨ b = 46 ∨ b = 42 ∨ b = 39 ∨ b = 40 ∨ b = 41

def upperHexDigit (n : Nat) : UInt8 := if n < 10 then UInt8.ofNat (48 + n) else UInt8.ofNat (55 + n)

/-- Every other byte is written as `!XX`. -/
def exactPathComponent (value : Bytes) : Bytes :=
  value.flatMap fun b => if isPlain b then [b] else [33, upperHexDigit (b.toNat / 16), upperHexDigit (b.toNat % 16)]

/-- No component of the path is empty or a dot segment, so `path.Join` leaves it as it is. -/
def scopePrefix (scope : ScopeConfig) : Bytes :=
  utf8 "source=" ++ exactPathComponent scope.providerID ++ utf8 "/symbol=" ++ exactPathComponent scope.exactSourceSymbol ++
    utf8 "/"

def trimLeft (value : Bytes) : Bytes := value.dropWhile (· = 47)

def trimRight (value : Bytes) : Bytes := (trimLeft value.reverse).reverse

def joinRemoteKey (root scope relative : Bytes) : Bytes :=
  trimRight root ++ [47] ++ trimRight (trimLeft scope) ++ [47] ++ trimLeft relative

def containsText (text value : Bytes) : Bool := (List.range (value.length + 1)).any fun i => text.isPrefixOf (value.drop i)

def forbiddenByte (b : UInt8) : Bool := b = 92 ∨ b = 13 ∨ b = 10

def isDrivePath (root : Bytes) : Bool :=
  root[1]? = some 58 ∧ root.head?.any fun b => (65 ≤ b ∧ b ≤ 90) ∨ (97 ≤ b ∧ b ≤ 122)

def validateRemoteRoot (root : Bytes) : Except String Unit := do
  reject (root = [] ∨ root.any forbiddenByte ∨ (utf8 "//").isPrefixOf root)
    "remote root is empty or contains forbidden characters"
  reject ((utf8 "/").isPrefixOf root ∨ containsText (utf8 "/../") root ∨ (utf8 "/..").isSuffixOf root ∨
      containsText (utf8 "/./") root ∨ (utf8 "/.").isSuffixOf root)
    "remote root is not canonical"
  reject (isDrivePath root) "remote root must not be a drive path"

def validateRelativeKey (key : Bytes) : Except String Unit := do
  reject (key = [] ∨ key.head? = some 47 ∨ key.any forbiddenByte) "remote relative key is not canonical"
  reject ((components key).any fun part => part = [] ∨ part = utf8 "." ∨ part = utf8 "..")
    "remote relative key contains an empty or dot segment"

structure Layout where
  immutableRoot : Bytes
  scope : ScopeConfig
deriving DecidableEq

def newLayout (H : Hashes) (immutableRoot : Bytes) (scope : ScopeConfig) : Except String Layout := do
  let _ ← scope.configHash H
  validateRemoteRoot immutableRoot
  return ⟨trimRight immutableRoot, scope⟩

namespace Layout

def remoteKey (l : Layout) (relative : Bytes) : Except String Bytes := do
  validateRelativeKey relative
  return joinRemoteKey l.immutableRoot (scopePrefix l.scope) relative

def scopeDescriptorKey (l : Layout) : Except String Bytes := l.remoteKey (utf8 "scope-descriptor-v1.json")

def claimKey (l : Layout) (epoch : UInt64) : Except String Bytes :=
  l.remoteKey (utf8 s!"publisher-claims/epoch={epoch}.json")

/-- `snapshots/raw/day-definition=<key>/date=<date>`. -/
def dayFolder (H : Hashes) (l : Layout) (date : Bytes) : Bytes :=
  utf8 "snapshots/raw/day-definition=" ++ identityPathKey H l.scope.dayDefinitionID ++ utf8 "/date=" ++ date

def manifestPrefix (H : Hashes) (l : Layout) (date : Bytes) : Except String Bytes := do
  reject (parseDate date).isNone "manifest date is not YYYY-MM-DD"
  return joinRemoteKey l.immutableRoot (scopePrefix l.scope) (l.dayFolder H date) ++ [47]

def manifestRelativeKey (H : Hashes) (l : Layout) (m : RawDayManifest) : Except String Bytes := do
  reject (parseDate m.date).isNone "manifest date is not UTC YYYY-MM-DD"
  let digest ← manifestDigest H m
  reject (m.manifestSHA256 ≠ Digest.zero ∧ m.manifestSHA256 ≠ digest)
    "manifest key digest does not match canonical manifest"
  return l.dayFolder H m.date ++ utf8 s!"/raw-day-{m.revision}-" ++ encodeHashHex digest ++ utf8 ".json"

def manifestKey (H : Hashes) (l : Layout) (m : RawDayManifest) : Except String Bytes := do
  let relative ← l.manifestRelativeKey H m
  l.remoteKey relative

/-- The full-key prefix of the scope without its slash. -/
def immutableScopePrefix (l : Layout) : Bytes :=
  (joinRemoteKey l.immutableRoot (scopePrefix l.scope) (utf8 "_")).dropLast.dropLast

end Layout

end TickPlatform.Remote
