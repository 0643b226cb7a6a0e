import TickPlatform.Remote.Layout
import TickPlatform.Replay.DayManifest

/-!
# Scopes share no keys

A component of a path has no slash and tells the identity it was written from, so every key of a scope lies under
that scope's prefix and under no other.
-/

namespace TickPlatform.Remote

open Bytes Protocol Replay Archive

/-! ## The replay keys of a layout -/

namespace Layout

def validateDerivativeScope (l : Layout) (datasetID dayDefinitionID : Bytes) : Except String Unit :=
  reject (datasetID ≠ l.scope.datasetID ∨ dayDefinitionID ≠ l.scope.dayDefinitionID)
    "derivative scope does not match trusted layout"

variable (H : Hashes) (l : Layout)

def replayPartObjectKey (part : PartManifest) : Except String Bytes := do
  part.validate H
  l.validateDerivativeScope part.datasetID part.dayDefinitionID
  let relative := (Replay.replayPartObjectKey H part.scope part.firstStreamSequence part.lastStreamSequence
    part.partSHA256).toOption
  reject (relative ≠ some part.partKey) "part object key is not the exact Protocol V1 key"
  l.remoteKey part.partKey

def replayPartManifestKey (part : PartManifest) : Except String Bytes := do
  part.validate H
  l.validateDerivativeScope part.datasetID part.dayDefinitionID
  let relative ← partManifestKey H part
  l.remoteKey relative

def replayDayManifestKey (m : ReplayDayManifest) : Except String Bytes := do
  m.validate H
  l.validateDerivativeScope m.datasetID m.dayDefinitionID
  let relative ← Replay.replayDayManifestKey H m
  l.remoteKey relative

def replayDerivativePrefix (scope : ReplayScope) : Except String Bytes := do
  scope.validate
  l.validateDerivativeScope scope.datasetID scope.dayDefinitionID
  let base ← replayDerivativeBaseKey H scope
  let full ← l.remoteKey base
  return full ++ [47]

/-- The keys a layout can produce. -/
inductive Produces (key : Bytes) : Prop
  | remote (relative : Bytes) (h : l.remoteKey relative = .ok key)
  | claim (epoch : UInt64) (h : l.claimKey epoch = .ok key)
  | manifest (m : RawDayManifest) (h : l.manifestKey H m = .ok key)
  | partObject (part : PartManifest) (h : l.replayPartObjectKey H part = .ok key)
  | partManifest (part : PartManifest) (h : l.replayPartManifestKey H part = .ok key)
  | dayManifest (m : ReplayDayManifest) (h : l.replayDayManifestKey H m = .ok key)
  | derivatives (scope : ReplayScope) (h : l.replayDerivativePrefix H scope = .ok key)

end Layout

/-! ## Components of a path -/

theorem upperHexDigit_inj : ∀ m < 16, ∀ n < 16, upperHexDigit m = upperHexDigit n → m = n := by
  decide

theorem upperHexDigit_ne_slash : ∀ n < 16, upperHexDigit n ≠ 47 := by
  decide

theorem exactPathComponent_cons (b : UInt8) (value : Bytes) : exactPathComponent (b :: value) =
    (if isPlain b then [b] else [33, upperHexDigit (b.toNat / 16), upperHexDigit (b.toNat % 16)]) ++
      exactPathComponent value := rfl

theorem slash_not_mem (value : Bytes) : 47 ∉ exactPathComponent value := by
  induction value with
  | nil => simp [exactPathComponent]
  | cons b value ih =>
    have hb := b.toNat_lt
    have hhigh := upperHexDigit_ne_slash (b.toNat / 16) (by omega)
    have hlow := upperHexDigit_ne_slash (b.toNat % 16) (by omega)
    rw [exactPathComponent_cons, List.mem_append, not_or]
    refine ⟨?_, ih⟩
    split
    · rename_i hplain
      rw [List.mem_singleton]
      rintro rfl
      cases hplain
    · simp [hhigh.symm, hlow.symm]

theorem exactPathComponent_inj {left right : Bytes} (h : exactPathComponent left = exactPathComponent right) :
    left = right := by
  induction left generalizing right with
  | nil =>
    cases right with
    | nil => rfl
    | cons b right =>
      rw [exactPathComponent_cons] at h
      split at h <;> cases h
  | cons a left ih =>
    cases right with
    | nil =>
      rw [exactPathComponent_cons] at h
      split at h <;> cases h
    | cons b right =>
      have ha := a.toNat_lt
      have hb := b.toNat_lt
      simp only [exactPathComponent_cons] at h
      split at h <;> split at h <;> simp only [List.cons_append, List.nil_append, List.cons.injEq] at h
      · rw [h.1, ih h.2]
      · -- `!` is not plain itself
        rename_i hplain _
        rw [h.1] at hplain
        cases hplain
      · rename_i hplain
        rw [← h.1] at hplain
        cases hplain
      · have hhigh := upperHexDigit_inj _ (by omega) _ (by omega) h.2.1
        have hlow := upperHexDigit_inj _ (by omega) _ (by omega) h.2.2.1
        rw [ih h.2.2.2, show a = b from UInt8.toNat_inj.mp (by omega)]

theorem component_prefix {x y u v : Bytes} (hx : 47 ∉ x) (hy : 47 ∉ y) (h : x ++ 47 :: u <+: y ++ 47 :: v) :
    x = y ∧ u <+: v := by
  induction x generalizing y with
  | nil =>
    cases y with
    | nil => exact ⟨rfl, (List.cons_prefix_cons.mp h).2⟩
    | cons b y =>
      rw [(List.cons_prefix_cons.mp h).1] at hy
      exact absurd List.mem_cons_self hy
  | cons a x ih =>
    cases y with
    | nil =>
      rw [(List.cons_prefix_cons.mp h).1] at hx
      exact absurd List.mem_cons_self hx
    | cons b y =>
      obtain ⟨rfl, hrest⟩ := List.cons_prefix_cons.mp h
      rw [List.mem_cons, not_or] at hx hy
      obtain ⟨rfl, hsuffix⟩ := ih hx.2 hy.2 hrest
      exact ⟨rfl, hsuffix⟩

/-! ## Scopes -/

/-- The prefix of the scope without the slash at its end. -/
def scopePath (scope : ScopeConfig) : Bytes :=
  utf8 "source=" ++ (exactPathComponent scope.providerID ++
    47 :: (utf8 "symbol=" ++ exactPathComponent scope.exactSourceSymbol))

theorem trimRight_slash {x y : Bytes} (hne : y ≠ []) (hy : 47 ∉ y) : trimRight (x ++ (y ++ [47])) = x ++ y := by
  obtain ⟨front, last, rfl⟩ := List.eq_nil_or_concat y |>.resolve_left hne
  have hlast : last ≠ 47 := fun heq => hy (by simp [heq])
  simp [trimRight, trimLeft, hlast]

theorem trimmed_scopePrefix (scope : ScopeConfig) : trimRight (trimLeft (scopePrefix scope)) = scopePath scope := by
  have hleft : trimLeft (scopePrefix scope) = scopePrefix scope := rfl
  have hslash : utf8 "/symbol=" = 47 :: utf8 "symbol=" := by decide
  have hsymbol : 47 ∉ utf8 "symbol=" ++ exactPathComponent scope.exactSourceSymbol := by
    rw [List.mem_append, not_or]
    exact ⟨by decide, slash_not_mem _⟩
  have htrim := trimRight_slash (x := utf8 "source=" ++ (exactPathComponent scope.providerID ++ [47]))
    (by simp [show utf8 "symbol=" ≠ [] by decide]) hsymbol
  rw [hleft, scopePrefix, hslash, show utf8 "/" = [47] by decide]
  simpa [scopePath] using htrim

variable {l r : Layout}

theorem Layout.immutableScopePrefix_eq (l : Layout) :
    l.immutableScopePrefix = trimRight l.immutableRoot ++ 47 :: scopePath l.scope := by
  have hname : trimLeft (utf8 "_") = [95] := by decide
  rw [immutableScopePrefix, joinRemoteKey, trimmed_scopePrefix, hname, List.dropLast_concat, List.dropLast_concat]
  simp

theorem Layout.remoteKey_under {relative key : Bytes} (h : l.remoteKey relative = .ok key) :
    ∃ rest, key = l.immutableScopePrefix ++ 47 :: rest := by
  simp only [remoteKey, bind_eq_ok, pure_eq_ok] at h
  obtain ⟨_, -, rfl⟩ := h
  exact ⟨trimLeft relative, by simp [joinRemoteKey, trimmed_scopePrefix, immutableScopePrefix_eq]⟩

/-- Every key of a layout lies under its own prefix. -/
theorem Layout.Produces.under {H : Hashes} {key : Bytes} (h : l.Produces H key) :
    ∃ rest, key = l.immutableScopePrefix ++ 47 :: rest := by
  cases h with
  | remote _ h | claim _ h => exact remoteKey_under h
  | manifest _ h =>
    obtain ⟨_, -, h⟩ := bind_eq_ok.mp h
    exact remoteKey_under h
  | partObject _ h =>
    simp only [replayPartObjectKey, bind_eq_ok] at h
    obtain ⟨_, -, _, -, _, -, h⟩ := h
    exact remoteKey_under h
  | partManifest _ h | dayManifest _ h =>
    simp only [replayPartManifestKey, replayDayManifestKey, bind_eq_ok] at h
    obtain ⟨_, -, _, -, _, -, h⟩ := h
    exact remoteKey_under h
  | derivatives _ h =>
    simp only [replayDerivativePrefix, bind_eq_ok, pure_eq_ok] at h
    obtain ⟨_, -, _, -, _, -, _, hfull, rfl⟩ := h
    obtain ⟨rest, rfl⟩ := remoteKey_under hfull
    exact ⟨rest ++ [47], by simp⟩

theorem scopePath_prefix {left right : ScopeConfig} {u v : Bytes}
    (h : scopePath left ++ 47 :: u <+: scopePath right ++ 47 :: v) :
    left.providerID = right.providerID ∧ left.exactSourceSymbol = right.exactSourceSymbol := by
  simp only [scopePath, List.append_assoc, List.cons_append, List.prefix_append_right_inj] at h
  obtain ⟨hprovider, h⟩ := component_prefix (slash_not_mem _) (slash_not_mem _) h
  rw [List.prefix_append_right_inj] at h
  obtain ⟨hsymbol, -⟩ := component_prefix (slash_not_mem _) (slash_not_mem _) h
  exact ⟨exactPathComponent_inj hprovider, exactPathComponent_inj hsymbol⟩

/-- **Scopes never share remote keys.** Below one immutable root, a key of one scope is neither the prefix of another
scope, of another provider or symbol, nor anything below it. -/
theorem scopes_share_no_key (H : Hashes) (root : Bytes) {left right : ScopeConfig} (hl : newLayout H root left = .ok l)
    (hr : newLayout H root right = .ok r)
    (hdiffer : left.providerID ≠ right.providerID ∨ left.exactSourceSymbol ≠ right.exactSourceSymbol) {key : Bytes}
    (hkey : l.Produces H key) :
    key ≠ r.immutableScopePrefix ∧ ¬ r.immutableScopePrefix ++ [47] <+: key := by
  simp only [newLayout, bind_eq_ok, pure_eq_ok] at hl hr
  obtain ⟨_, -, _, -, rfl⟩ := hl
  obtain ⟨_, -, _, -, rfl⟩ := hr
  obtain ⟨rest, rfl⟩ := hkey.under
  have hapart : ∀ u v : Bytes, ¬ scopePath right ++ 47 :: u <+: scopePath left ++ 47 :: v := by
    intro u v h
    obtain ⟨hprovider, hsymbol⟩ := scopePath_prefix h
    exact hdiffer.elim (· hprovider.symm) (· hsymbol.symm)
  simp only [Layout.immutableScopePrefix_eq, List.append_assoc, List.cons_append]
  refine ⟨fun heq => ?_, fun h => ?_⟩
  · rw [List.append_cancel_left_eq, List.cons.injEq] at heq
    refine hapart [] (rest ++ [47]) ?_
    rw [← heq.2]
    simp
  · rw [List.prefix_append_right_inj, List.cons_prefix_cons] at h
    exact hapart [] rest h.2

def plainScope (providerID : Bytes) : ScopeConfig :=
  ⟨[97], providerID, [97], [97], [97], [97], [97], [97], [97], [97], 1, 0, ⟨0, 0, 0⟩⟩

/-- A provider whose name begins with the other's name and a slash. -/
theorem scopes_share_no_key_slash : ∃ l r key, newLayout Hashes.sample (ascii "root") (plainScope (ascii "a")) = .ok l ∧
    newLayout Hashes.sample (ascii "root") (plainScope (ascii "a/b")) = .ok r ∧ l.claimKey 1 = .ok key ∧
    key ≠ r.immutableScopePrefix := by
  have hl : newLayout Hashes.sample (ascii "root") (plainScope (ascii "a")) =
      .ok ⟨ascii "root", plainScope (ascii "a")⟩ := by decide +kernel
  have hr : newLayout Hashes.sample (ascii "root") (plainScope (ascii "a/b")) =
      .ok ⟨ascii "root", plainScope (ascii "a/b")⟩ := by decide +kernel
  obtain ⟨key, hkey, -⟩ : ∃ key, (⟨ascii "root", plainScope (ascii "a")⟩ : Layout).claimKey 1 = .ok key ∧ true = true :=
    exists_ok_of_any (p := fun _ => true) (by decide +kernel)
  exact ⟨_, _, key, hl, hr, hkey, (scopes_share_no_key Hashes.sample (ascii "root") hl hr (.inl (by decide)) (.claim 1 hkey)).1⟩

end TickPlatform.Remote
