import TickPlatform.Parquet.Generator
import TickPlatform.Script

/-!
# What the generator leaves on the disk

A part that is written is decided by the rows alone; the disk decides only whether it can be placed. So a conversion
that ends well is a list of parts to place, and it ends well in the same way wherever they can all be placed.
-/

namespace TickPlatform.Parquet

open Bytes Protocol Replay Files Crash

variable {F : FileFormat} {H : Hashes}

/-! ## Verification -/

variable {scope : ReplayScope}

theorem verifyPartRow_expected {first : UInt64} {index : Nat} {previous : Digest}
    {expected : Option ReplayRow} {physical : ParquetRow} {canonical : Bytes}
    (h : verifyPartRow H scope first index previous expected physical = .ok canonical) :
    verifyPartRow H scope first index previous none physical = .ok canonical := by
  cases expected with
  | none => exact h
  | some wanted =>
    simp only [verifyPartRow, bind_eq_ok, reject_eq_ok, pure_eq_ok] at h ⊢
    obtain ⟨_, hplace, _, hanchor, row, hrow, _, hscope, found, hfound, _, -, _, hchain, rfl⟩ := h
    exact ⟨(), hplace, (), hanchor, row, hrow, (), hscope, found, hfound, (), trivial, (), hchain, rfl⟩

variable {expected : Option (List ReplayRow)}

theorem verifyPartRows_expected {first : UInt64} {rows : List ParquetRow} {index : Nat}
    {previous : Digest} {result : Digest × Nat}
    (h : verifyPartRows H scope first index previous expected rows = .ok result) :
    verifyPartRows H scope first index previous none rows = .ok result := by
  induction rows generalizing index previous expected result with
  | nil => exact h
  | cons physical rows ih =>
    simp only [verifyPartRows, bind_eq_ok, pure_eq_ok] at h ⊢
    obtain ⟨canonical, hrow, ⟨last, total⟩, hrest, rfl⟩ := h
    exact ⟨canonical, verifyPartRow_expected hrow, (last, total), ih hrest, rfl⟩

theorem verifyPartFile_expected {data : Bytes} {artifact : PartArtifact} (h : verifyPartFile F H data artifact scope expected = .ok ()) :
    verifyPartFile F H data artifact scope none = .ok () := by
  simp only [verifyPartFile, bind_eq_ok, reject_eq_ok] at h ⊢
  obtain ⟨_, hscope, _, hidentity, rows, hrows, _, hcount, _, -, _, hfirst, result, hverified, hboundary⟩ := h
  exact ⟨(), hscope, (), hidentity, rows, hrows, (), hcount, (), by simp, (), hfirst, result,
    verifyPartRows_expected hverified, hboundary⟩

theorem verifyPartFile_identity {data : Bytes} {artifact : PartArtifact} (h : verifyPartFile F H data artifact scope expected = .ok ()) :
    H.sha256 data = artifact.partSHA256 ∧ UInt64.ofNat data.length = artifact.partBytes := by
  simp only [verifyPartFile, bind_eq_ok, reject_eq_ok] at h
  obtain ⟨_, -, _, hidentity, -⟩ := h
  simp only [not_or, not_not] at hidentity
  exact hidentity.2

/-! ## One part -/

/-- A part and the bytes of its file. -/
structure PlannedPart where
  artifact : PartArtifact
  data : Bytes
deriving DecidableEq

/-- What the rows of a part make of it. -/
def planPart (F : FileFormat) (H : Hashes) (sequence : UInt32) (scope : ReplayScope) (spec : ConversionSpec)
    (rows : List BufferedRow) : Except String PlannedPart := do
  let data ← (F.write spec.createdBy spec.maxRowsPerRowGroup (rows.map (·.physical))).elim
    (.error "write parquet rows") .ok
  let artifact ← summarizePart F H sequence scope rows data
  return ⟨artifact, data⟩

/-- A file at the key of a part that the generator takes for the part. -/
def Admits (F : FileFormat) (H : Hashes) (scope : ReplayScope) (artifact : PartArtifact) (found : Bytes) : Prop :=
  verifyPartFile F H found artifact scope none = .ok ()

/-- Nothing stands at the key of the part, or a file that is taken for it. -/
def Ready (F : FileFormat) (H : Hashes) (scope : ReplayScope) (d : OutputRoot) (part : PlannedPart) : Prop :=
  ∀ found, d.objects.lookup part.artifact.partKey = some found → Admits F H scope part.artifact found

/-- The operations that place a part. -/
def placeOps (d : OutputRoot) (part : PlannedPart) : List OutputOp :=
  let temporary := freshTemporary d
  let promote := if (d.objects.lookup part.artifact.partKey).isSome then []
    else [.createObject part.artifact.partKey, .writeObject part.artifact.partKey part.data]
  [.createTemporary temporary, .writeTemporary temporary part.data] ++ promote ++ [.removeTemporary temporary]

variable {spec : ConversionSpec}

theorem admits_of_plan {sequence : UInt32} {rows : List BufferedRow}
    {part : PlannedPart} (h : planPart F H sequence scope spec rows = .ok part) :
    Admits F H scope part.artifact part.data := by
  simp only [planPart, bind_eq_ok, pure_eq_ok] at h
  obtain ⟨data, -, artifact, hartifact, rfl⟩ := h
  unfold summarizePart at hartifact
  split at hartifact
  · simp only [bind_eq_ok, pure_eq_ok] at hartifact
    obtain ⟨_, -, _, hverified, rfl⟩ := hartifact
    exact verifyPartFile_expected hverified
  · cases hartifact

/-! ### Runs -/

section
variable {d : OutputRoot} {sequence : UInt32} {scope : ReplayScope} {spec : ConversionSpec} {rows : List BufferedRow}
  {temporary : Nat} {key data found : Bytes} {digest : Digest} {size : UInt64} {part : PlannedPart}

theorem promoteNoClobber_absent (hkey : d.objects.lookup key = none) (hdata : d.temporary.lookup temporary = some data) :
    (promoteNoClobber H temporary key digest size).run d =
      ([.createObject key, .writeObject key data, .removeTemporary temporary], .ok ()) := by
  rw [promoteNoClobber, Prog.read_bind, hkey]
  dsimp only
  rw [Prog.read_bind, hdata]
  rfl

theorem promoteNoClobber_found (hkey : d.objects.lookup key = some found)
    (hsame : H.sha256 found = digest ∧ UInt64.ofNat found.length = size) :
    (promoteNoClobber H temporary key digest size).run d = ([.removeTemporary temporary], .ok ()) := by
  have hgood : ¬ (H.sha256 found ≠ digest ∨ UInt64.ofNat found.length ≠ size) := by
    rw [not_or, not_not, not_not]
    exact hsame
  rw [promoteNoClobber, Prog.read_bind, hkey]
  dsimp only
  rw [reject, if_neg hgood]
  rfl

variable {ops : List OutputOp}

theorem stagePart_of_promote (hplan : planPart F H sequence scope spec rows = .ok part)
    (hpromote : (promoteNoClobber H temporary part.artifact.partKey part.artifact.partSHA256 part.artifact.partBytes).run
      (Device.run (OutputOp.writeTemporary temporary part.data) d) = (ops, .ok ())) :
    (stagePart F H temporary sequence scope spec rows).run d =
      (.writeTemporary temporary part.data :: ops, .ok part.artifact) := by
  simp only [planPart, bind_eq_ok, pure_eq_ok] at hplan
  obtain ⟨data, hdata, artifact, hartifact, rfl⟩ := hplan
  have hwritten : ((Device.run (OutputOp.writeTemporary temporary data) d).temporary.lookup temporary).getD [] = data := by
    show ((d.temporary.insert temporary data).lookup temporary).getD [] = data
    rw [AList.lookup_insert]
    rfl
  rw [stagePart, hdata, Prog.lift_bind_ok, Prog.emit_bind, Prog.read_bind, hwritten, hartifact, Prog.lift_bind_ok,
    Prog.bind_ok hpromote, Prog.pure_run, List.append_nil]

variable {artifact : PartArtifact}

theorem writeAndVerifyPart_of_stage
    (hstage : (stagePart F H (freshTemporary d) sequence scope spec rows).run
      (Device.run (OutputOp.createTemporary (freshTemporary d)) d) = (ops, .ok artifact))
    (hfound : (runAll ops (Device.run (OutputOp.createTemporary (freshTemporary d)) d)).objects.lookup artifact.partKey =
      some found)
    (hadmits : Admits F H scope artifact found) :
    (writeAndVerifyPart F H sequence scope spec rows).run d =
      (.createTemporary (freshTemporary d) :: ops, .ok artifact) := by
  have hverify : verifyPartFile F H found artifact scope none = .ok () := hadmits
  rw [writeAndVerifyPart, Prog.read_bind, Prog.emit_bind, Prog.bind_ok (Prog.handle_ok _ hstage), Prog.read_bind, hfound,
    Option.getD_some, hverify, Prog.lift_bind_ok, Prog.pure_run, List.append_nil]

/-- A part that the rows make is placed wherever its key is free or taken by a file that passes for it. -/
theorem writeAndVerifyPart_of_ready (hplan : planPart F H sequence scope spec rows = .ok part)
    (hready : Ready F H scope d part) :
    (writeAndVerifyPart F H sequence scope spec rows).run d = (placeOps d part, .ok part.artifact) := by
  cases hkey : d.objects.lookup part.artifact.partKey with
  | none =>
    have hpromote : (promoteNoClobber H (freshTemporary d) part.artifact.partKey part.artifact.partSHA256
        part.artifact.partBytes).run (Device.run (OutputOp.writeTemporary (freshTemporary d) part.data)
          (Device.run (OutputOp.createTemporary (freshTemporary d)) d)) = _ :=
      promoteNoClobber_absent hkey (AList.lookup_insert _)
    rw [writeAndVerifyPart_of_stage (stagePart_of_promote hplan hpromote) (AList.lookup_insert _) (admits_of_plan hplan)]
    simp [placeOps, hkey]
  | some found =>
    have hadmits := hready found hkey
    have hpromote : (promoteNoClobber H (freshTemporary d) part.artifact.partKey part.artifact.partSHA256
        part.artifact.partBytes).run (Device.run (OutputOp.writeTemporary (freshTemporary d) part.data)
          (Device.run (OutputOp.createTemporary (freshTemporary d)) d)) = _ :=
      promoteNoClobber_found hkey (verifyPartFile_identity hadmits)
    rw [writeAndVerifyPart_of_stage (stagePart_of_promote hplan hpromote) hkey hadmits]
    simp [placeOps, hkey]

theorem promoteNoClobber_keeps (hkey : d.objects.lookup key = some found)
    (h : (promoteNoClobber H temporary key digest size).run d = (ops, .ok ())) :
    (runAll ops d).objects.lookup key = some found := by
  rw [promoteNoClobber, Prog.read_bind, hkey] at h
  obtain ⟨_, -, hremove⟩ := Prog.lift_bind_eq_ok h
  rw [Prog.emit_run, Prod.mk.injEq] at hremove
  rw [← hremove.1]
  exact hkey

theorem plan_of_stagePart (h : (stagePart F H temporary sequence scope spec rows).run d = (ops, .ok artifact)) :
    (∃ data, planPart F H sequence scope spec rows = .ok ⟨artifact, data⟩) ∧
      ∀ found, d.objects.lookup artifact.partKey = some found →
        (runAll ops d).objects.lookup artifact.partKey = some found := by
  obtain ⟨data, hdata, hrest⟩ := Prog.lift_bind_eq_ok h
  obtain ⟨_, rfl, hwritten⟩ := Prog.emit_bind_eq_ok hrest
  have hread : ((Device.run (OutputOp.writeTemporary temporary data) d).temporary.lookup temporary).getD [] = data := by
    show ((d.temporary.insert temporary data).lookup temporary).getD [] = data
    rw [AList.lookup_insert]
    rfl
  rw [Prog.read_bind, hread] at hwritten
  obtain ⟨_, hartifact, hpromoted⟩ := Prog.lift_bind_eq_ok hwritten
  obtain ⟨_, _, _, hpromote, hreturn, rfl⟩ := Prog.bind_eq_ok hpromoted
  rw [Prog.pure_run, Prod.mk.injEq, Except.ok.injEq] at hreturn
  obtain ⟨rfl, rfl⟩ := hreturn
  refine ⟨⟨data, ?_⟩, fun found hfound => ?_⟩
  · rw [planPart, hdata]
    simp only [bind_eq_ok, pure_eq_ok]
    exact ⟨data, rfl, _, hartifact, rfl⟩
  · rw [List.append_nil, runAll_cons]
    exact promoteNoClobber_keeps hfound hpromote

theorem plan_of_writeAndVerifyPart (h : (writeAndVerifyPart F H sequence scope spec rows).run d = (ops, .ok artifact)) :
    ∃ data, planPart F H sequence scope spec rows = .ok ⟨artifact, data⟩ ∧ Ready F H scope d ⟨artifact, data⟩ := by
  rw [writeAndVerifyPart, Prog.read_bind] at h
  obtain ⟨_, -, hhandled⟩ := Prog.emit_bind_eq_ok h
  obtain ⟨ops', _, _, hstage, hverified, -⟩ := Prog.bind_eq_ok hhandled
  rw [Prog.read_bind] at hverified
  obtain ⟨_, hadmits, hreturn⟩ := Prog.lift_bind_eq_ok hverified
  rw [Prog.pure_run, Prod.mk.injEq, Except.ok.injEq] at hreturn
  obtain ⟨-, rfl⟩ := hreturn
  obtain ⟨⟨data, hplan⟩, hkeeps⟩ := plan_of_stagePart (Prog.ok_of_handle hstage fun err t ops₁ => by simp)
  refine ⟨data, hplan, fun found hfound => ?_⟩
  rw [hkeeps found hfound, Option.getD_some] at hadmits
  exact hadmits

end

def placing (F : FileFormat) (H : Hashes) (scope : ReplayScope) : Action OutputRoot OutputOp PlannedPart :=
  ⟨Ready F H scope, placeOps⟩

theorem follows_reject_bind {α : Type} {A : Action OutputRoot OutputOp PlannedPart} {c : Prop} [Decidable c] {text : String}
    {f : Unit → OutputProg α} {parts : List PlannedPart} {a : α} (hc : ¬ c) (hf : Follows A (f ()) parts a) :
    Follows A (Prog.lift (reject c text) >>= f) parts a :=
  follows_lift_bind (reject_eq_ok.mpr hc) hf

theorem writeAndVerifyPart_follows {sequence : UInt32}
    {rows : List BufferedRow} {part : PlannedPart} (hplan : planPart F H sequence scope spec rows = .ok part) :
    Follows (placing F H scope) (writeAndVerifyPart F H sequence scope spec rows) [part] part.artifact := by
  refine follows_single (fun d hready => writeAndVerifyPart_of_ready hplan hready) fun {d ops artifact} hrun => ?_
  obtain ⟨data, hplan', hready⟩ := plan_of_writeAndVerifyPart hrun
  rw [hplan, Except.ok.injEq] at hplan'
  rw [hplan']
  exact hready

/-! ## The generator -/

namespace Generator

/-- What a flush makes of the generator. -/
inductive Flushes (F : FileFormat) (H : Hashes) (g : Generator) : List PlannedPart → Generator → Prop
  | empty : g.rows = [] → Flushes F H g [] g
  | part {part : PlannedPart} : g.rows ≠ [] → g.parts.length ≤ 4294967295 →
      planPart F H (UInt32.ofNat g.parts.length) g.scope g.spec g.rows = .ok part →
      Flushes F H g [part] (g.addPart part.artifact)

/-- What a row makes of the generator. -/
inductive Takes (F : FileFormat) (H : Hashes) (g : Generator) (row : ReplayRow) : List PlannedPart → Generator → Prop
  | fits {buffered : BufferedRow} : g.checkRow H row = .ok buffered → g.isFull buffered = false →
      g.rows.length < g.spec.maxRowsPerPart.toNat → Takes F H g row [] (g.addRow buffered)
  | starts {buffered : BufferedRow} {parts : List PlannedPart} {flushed : Generator} :
      g.checkRow H row = .ok buffered → g.isFull buffered = true → Flushes F H g parts flushed →
      flushed.rows.length < flushed.spec.maxRowsPerPart.toNat → Takes F H g row parts (flushed.addRow buffered)

inductive TakesAll (F : FileFormat) (H : Hashes) : Generator → List ReplayRow → List PlannedPart → Generator → Prop
  | nil (g : Generator) : TakesAll F H g [] [] g
  | cons {g g₁ g₂ : Generator} {row : ReplayRow} {rows : List ReplayRow} {parts parts' : List PlannedPart} :
      Takes F H g row parts g₁ → TakesAll F H g₁ rows parts' g₂ → TakesAll F H g (row :: rows) (parts ++ parts') g₂

variable {g g' : Generator} {d : OutputRoot} {ops : List OutputOp} {row : ReplayRow} {rows : List ReplayRow}
  {parts : List PlannedPart}

theorem Flushes.binding (h : Flushes F H g parts g') : g'.spec = g.spec ∧ g'.scope = g.scope := by
  cases h <;> exact ⟨rfl, rfl⟩

theorem Takes.binding (h : Takes F H g row parts g') : g'.spec = g.spec ∧ g'.scope = g.scope := by
  cases h with
  | fits => exact ⟨rfl, rfl⟩
  | starts _ _ hflush => exact hflush.binding

theorem flushes_of_run (h : (g.flushPart F H).run d = (ops, .ok g')) : ∃ parts, Flushes F H g parts g' := by
  by_cases hrows : g.rows = []
  · rw [flushPart, if_pos hrows, Prog.pure_run, Prod.mk.injEq, Except.ok.injEq] at h
    obtain ⟨-, rfl⟩ := h
    exact ⟨[], .empty hrows⟩
  · rw [flushPart, if_neg hrows] at h
    obtain ⟨_, hcount, hwrite⟩ := Prog.lift_bind_eq_ok h
    obtain ⟨_, artifact, _, hpart, hreturn, -⟩ := Prog.bind_eq_ok hwrite
    rw [Prog.pure_run, Prod.mk.injEq, Except.ok.injEq] at hreturn
    obtain ⟨-, rfl⟩ := hreturn
    obtain ⟨data, hplan, -⟩ := plan_of_writeAndVerifyPart hpart
    rw [reject_eq_ok, not_lt] at hcount
    exact ⟨_, .part hrows hcount hplan⟩

theorem flushPart_follows (h : Flushes F H g parts g') : Follows (placing F H g.scope) (g.flushPart F H) parts g' := by
  cases h with
  | empty hrows =>
    rw [flushPart, if_pos hrows]
    exact follows_pure g
  | part hrows hcount hplan =>
    rw [flushPart, if_neg hrows]
    exact follows_reject_bind (not_lt.mpr hcount) (follows_bind (writeAndVerifyPart_follows hplan) (follows_pure _))

theorem takes_of_run (h : (g.writeRow F H row).run d = (ops, .ok g')) : ∃ parts, Takes F H g row parts g' := by
  obtain ⟨buffered, hcheck, hroom⟩ := Prog.lift_bind_eq_ok h
  obtain ⟨_, flushed, _, hflush, hlimit, -⟩ := Prog.bind_eq_ok hroom
  obtain ⟨_, hspace, hreturn⟩ := Prog.lift_bind_eq_ok hlimit
  rw [Prog.pure_run, Prod.mk.injEq, Except.ok.injEq] at hreturn
  obtain ⟨-, rfl⟩ := hreturn
  rw [reject_eq_ok, not_le] at hspace
  cases hfull : g.isFull buffered with
  | false =>
    rw [makeRoom, hfull, if_neg Bool.false_ne_true, Prog.pure_run, Prod.mk.injEq, Except.ok.injEq] at hflush
    obtain ⟨-, rfl⟩ := hflush
    exact ⟨[], .fits hcheck hfull hspace⟩
  | true =>
    rw [makeRoom, hfull, if_pos rfl] at hflush
    obtain ⟨parts, hflushes⟩ := flushes_of_run hflush
    exact ⟨parts, .starts hcheck hfull hflushes hspace⟩

theorem writeRow_follows (h : Takes F H g row parts g') :
    Follows (placing F H g.scope) (g.writeRow F H row) parts g' := by
  cases h with
  | @fits buffered hcheck hfull hspace =>
    have hroom : Follows (placing F H g.scope) (g.makeRoom F H buffered) [] g := by
      rw [makeRoom, hfull, if_neg Bool.false_ne_true]
      exact follows_pure g
    exact follows_lift_bind hcheck (follows_bind hroom (follows_reject_bind (not_le.mpr hspace) (follows_pure _)))
  | @starts buffered _ flushed hcheck hfull hflush hspace =>
    have hroom : Follows (placing F H g.scope) (g.makeRoom F H buffered) parts flushed := by
      rw [makeRoom, hfull, if_pos rfl]
      exact flushPart_follows hflush
    rw [← List.append_nil parts]
    exact follows_lift_bind hcheck (follows_bind hroom (follows_reject_bind (not_le.mpr hspace) (follows_pure _)))

theorem takesAll_of_run (h : (g.writeRows F H rows).run d = (ops, .ok g')) : ∃ parts, TakesAll F H g rows parts g' := by
  induction rows generalizing g d ops with
  | nil =>
    rw [writeRows, Prog.pure_run, Prod.mk.injEq, Except.ok.injEq] at h
    obtain ⟨-, rfl⟩ := h
    exact ⟨[], .nil g⟩
  | cons row rows ih =>
    obtain ⟨_, _, _, hrow, hrows, -⟩ := Prog.bind_eq_ok h
    obtain ⟨parts, htakes⟩ := takes_of_run hrow
    obtain ⟨parts', hall⟩ := ih hrows
    exact ⟨parts ++ parts', .cons htakes hall⟩

theorem writeRows_follows (h : TakesAll F H g rows parts g') :
    Follows (placing F H g.scope) (g.writeRows F H rows) parts g' := by
  induction h with
  | nil g => exact follows_pure g
  | cons htakes _ ih =>
    rw [htakes.binding.2] at ih
    exact follows_bind (writeRow_follows htakes) ih

theorem close_follows (hopen : g.closed = false) (h : Flushes F H { g with closed := true } parts g') :
    Follows (placing F H g.scope) (g.close F H) parts g'.result := by
  have hcheck : ¬ g.closed = true := by
    rw [hopen]
    exact Bool.false_ne_true
  rw [← List.append_nil parts]
  exact follows_reject_bind hcheck (follows_bind (flushPart_follows h) (follows_pure _))

theorem TakesAll.binding (h : TakesAll F H g rows parts g') : g'.spec = g.spec ∧ g'.scope = g.scope := by
  induction h with
  | nil g => exact ⟨rfl, rfl⟩
  | cons htakes _ ih => exact ⟨ih.1.trans htakes.binding.1, ih.2.trans htakes.binding.2⟩

end Generator

/-- The parts and the result that a conversion comes to, whatever stands on the disk. -/
def Converts (F : FileFormat) (H : Hashes) (spec : ConversionSpec) (scope : ReplayScope) (rows : List ReplayRow)
    (parts : List PlannedPart) (result : GenerationResult) : Prop :=
  ∃ start filled closed written rest, newGenerator H spec scope = .ok start ∧
    Generator.TakesAll F H start rows written filled ∧ filled.closed = false ∧
    Generator.Flushes F H { filled with closed := true } rest closed ∧ parts = written ++ rest ∧ result = closed.result

theorem newGenerator_eq_ok {g : Generator} (h : newGenerator H spec scope = .ok g) :
    spec.validate H = .ok () ∧ scope.validate = .ok () ∧ scope.replayContractID = spec.replayContractID ∧
      scope.conversionID = spec.conversionID ∧ g = ⟨spec, scope, [], 0, 0, Digest.zero, [], false⟩ := by
  simp only [newGenerator, bind_eq_ok, reject_eq_ok, pure_eq_ok, not_or, not_not] at h
  obtain ⟨_, hspec, _, hscope, _, hmatch, rfl⟩ := h
  exact ⟨hspec, hscope, hmatch.1, hmatch.2, rfl⟩

section
variable {spec : ConversionSpec} {scope : ReplayScope} {rows : List ReplayRow} {parts : List PlannedPart}
  {result : GenerationResult} {d : OutputRoot} {ops : List OutputOp}

theorem converts_of_run (h : (generate F H spec scope rows).run d = (ops, .ok result)) :
    ∃ parts, Converts F H spec scope rows parts result := by
  obtain ⟨start, hstart, hwrite⟩ := Prog.lift_bind_eq_ok h
  obtain ⟨_, filled, _, hrows, hclose, -⟩ := Prog.bind_eq_ok hwrite
  obtain ⟨_, hopen, hflush⟩ := Prog.lift_bind_eq_ok hclose
  obtain ⟨_, closed, _, hlast, hreturn, -⟩ := Prog.bind_eq_ok hflush
  rw [Prog.pure_run, Prod.mk.injEq, Except.ok.injEq] at hreturn
  obtain ⟨written, htakes⟩ := Generator.takesAll_of_run hrows
  obtain ⟨rest, hflushes⟩ := Generator.flushes_of_run hlast
  rw [reject_eq_ok, Bool.not_eq_true] at hopen
  exact ⟨_, start, filled, closed, written, rest, hstart, htakes, hopen, hflushes, rfl, hreturn.2.symm⟩

theorem generate_follows (h : Converts F H spec scope rows parts result) :
    Follows (placing F H scope) (generate F H spec scope rows) parts result := by
  obtain ⟨start, filled, closed, written, rest, hstart, htakes, hopen, hflushes, rfl, rfl⟩ := h
  have hscope : start.scope = scope := by rw [(newGenerator_eq_ok hstart).2.2.2.2]
  have hrows := Generator.writeRows_follows htakes
  have hclose := Generator.close_follows hopen hflushes
  rw [hscope] at hrows
  rw [htakes.binding.2, hscope] at hclose
  exact follows_lift_bind hstart (follows_bind hrows hclose)

end

end TickPlatform.Parquet
