import Mathlib.Analysis.SpecialFunctions.Log.Base
import TickPlatform.Ingest.Reconcile
import TickPlatform.Ingest.World

/-!
# The cursor over a run of batches

What one batch can do to the cursor, the boundary digest and the advertised count, and what therefore holds after any
run of batches. A run of full batches at the boundary doubles the count until it is at the cap.
-/

namespace TickPlatform.Ingest

open Bytes Protocol Wal Journal

variable {H : Hashes} {c : Config} {state : Journal.State} {batch : BatchFrameV1}

/-! ## Counts -/

def initialCount (c : Config) : UInt32 := c.withDefaults.initialBatchCount

def hardCap (c : Config) : UInt32 := c.withDefaults.denseBoundaryHardCap

/-- The counts of a valid configuration. -/
structure Counts (c : Config) : Prop where
  pos : 0 < (initialCount c).toNat
  initial_le : (initialCount c).toNat ≤ (hardCap c).toNat
  cap_le : (hardCap c).toNat ≤ 4096

theorem counts_of_validate (h : c.validate = .ok ()) : Counts c := by
  unfold Config.validate at h
  simp only [ite_error_eq_ok] at h
  obtain ⟨-, -, -, hrecords, hinitial, hmaximum, hcap, -⟩ := h
  simp only [not_or, gt_iff_lt, UInt32.not_lt, UInt32.le_iff_toNat_le] at hrecords hinitial hmaximum hcap
  have hlimit : Protocol.maxRecords.toNat = 4096 := rfl
  refine ⟨Nat.pos_of_ne_zero fun hzero => hinitial.1 (UInt32.toNat_inj.mp hzero), hcap.1, ?_⟩
  exact hlimit ▸ (hcap.2.trans hmaximum.2).trans hrecords.2

theorem toNat_max (a b : UInt32) : (max a b).toNat = max a.toNat b.toNat := by
  change (if a ≤ b then b else a).toNat = _
  simp only [UInt32.le_iff_toNat_le]
  split
  · omega
  · omega

theorem nextDenseCount_toNat {current cap : UInt32} (hlt : current.toNat < cap.toNat) (hcap : cap.toNat ≤ 4096) :
    (nextDenseCount current cap).toNat = min (2 * current.toNat) cap.toNat := by
  have hdouble : (current * 2).toNat = 2 * current.toNat := by
    rw [UInt32.toNat_mul]
    change current.toNat * 2 % 2 ^ 32 = _
    omega
  unfold nextDenseCount
  simp only [gt_iff_lt, UInt32.lt_iff_toNat_lt, hdouble]
  split
  · omega
  · omega

/-! ## One batch -/

/-- The batch reports no error, and this is the greatest time of its records. -/
def Newest (batch : BatchFrameV1) (time : Int64) : Prop :=
  batch.copyTicksError = 0 ∧ ¬ batch.returnedCount < 0 ∧
    ∃ first others, batch.records = first :: others ∧ maxMSC first others = time

theorem Newest.unique {time other : Int64} (h : Newest batch time) (h' : Newest batch other) : time = other := by
  obtain ⟨-, -, first, others, hrecords, rfl⟩ := h
  obtain ⟨-, -, head, tail, hcons, rfl⟩ := h'
  rw [hrecords, List.cons.injEq] at hcons
  rw [hcons.1, hcons.2]

/-- As many records as were asked for. -/
def Full (batch : BatchFrameV1) : Prop :=
  batch.requestedCount > 0 ∧ batch.returnedCount = batch.requestedCount.toInt32

theorem Full.requested_ne (h : Full batch) : batch.requestedCount ≠ 0 := by
  intro hzero
  have hpos := h.1
  rw [hzero] at hpos
  exact absurd hpos (by decide)

/-- The count of a state, which is the initial one before any batch set it. -/
def countOf (c : Config) (state : Journal.State) : UInt32 :=
  if state.nextRequestedCount = 0 then initialCount c else state.nextRequestedCount

def resumeFrom (state : Journal.State) : Int64 :=
  if state.nextFromMSC = 0 ∧ state.committedCursorMSC ≠ 0 then state.committedCursorMSC else state.nextFromMSC

/-- What a batch can do. -/
inductive Outcomes (H : Hashes) (c : Config) (state : Journal.State) (batch : BatchFrameV1) : Outcome → Prop
  | kept (h : ∀ time, Newest batch time → time < state.committedCursorMSC) :
    Outcomes H c state batch
      ⟨ackAcceptedNoAdvance, state.committedCursorMSC, state.committedBoundaryDigest, resumeFrom state, countOf c state⟩
  | advanced (time : Int64) (h : Newest batch time) (hlt : state.committedCursorMSC < time) :
    Outcomes H c state batch
      ⟨ackAcceptedAdvanced, time, boundaryDigest H time Digest.zero (boundaryRecords batch.records time), time, initialCount c⟩
  | unresolved (h : Newest batch state.committedCursorMSC) (hfull : Full batch)
      (hcap : hardCap c ≤ max batch.requestedCount (countOf c state)) :
    Outcomes H c state batch
      ⟨ackDenseUnresolved, state.committedCursorMSC, state.committedBoundaryDigest, state.committedCursorMSC, hardCap c⟩
  | dense (h : Newest batch state.committedCursorMSC) (hfull : Full batch)
      (hcap : max batch.requestedCount (countOf c state) < hardCap c) :
    Outcomes H c state batch
      ⟨ackDenseBoundary, state.committedCursorMSC, state.committedBoundaryDigest, state.committedCursorMSC,
        nextDenseCount (max batch.requestedCount (countOf c state)) (hardCap c)⟩
  | boundary (h : Newest batch state.committedCursorMSC) (hpart : ¬ Full batch) :
    Outcomes H c state batch
      ⟨ackAcceptedNoAdvance, state.committedCursorMSC,
        boundaryDigest H state.committedCursorMSC state.committedBoundaryDigest
          (boundaryRecords batch.records state.committedCursorMSC), state.committedCursorMSC, initialCount c⟩

theorem outcomes_of_batch (H : Hashes) (c : Config) (state : Journal.State) (batch : BatchFrameV1) :
    Outcomes H c state batch (outcomeForBatch H state batch c) := by
  unfold outcomeForBatch
  by_cases herror : batch.copyTicksError ≠ 0 ∨ batch.returnedCount < 0
  · simp only [if_pos herror]
    exact .kept fun time hnewest => absurd herror (by simp [hnewest.1, hnewest.2.1])
  · simp only [if_neg herror]
    rw [not_or, not_not] at herror
    cases hrecords : batch.records with
    | nil =>
      refine .kept fun time hnewest => ?_
      obtain ⟨-, -, first, others, hcons, -⟩ := hnewest
      rw [hrecords] at hcons
      cases hcons
    | cons first others =>
      have hnewest : Newest batch (maxMSC first others) := ⟨herror.1, herror.2, first, others, hrecords, rfl⟩
      simp only
      split
      · next hadvance => exact hrecords ▸ .advanced _ hnewest hadvance
      · next hadvance =>
        split
        · next hbehind => exact .kept fun time h => h.unique hnewest ▸ hbehind
        · next hbehind =>
          have heq : maxMSC first others = state.committedCursorMSC :=
            Int64.le_antisymm (Int64.not_lt.mp hadvance) (Int64.not_lt.mp hbehind)
          rw [heq] at hnewest
          rw [heq, ← hrecords]
          split
          · next hfull =>
            have hcount : (if state.nextRequestedCount = 0 then c.withDefaults.initialBatchCount
                else state.nextRequestedCount) = countOf c state := rfl
            rw [hcount]
            split
            · next hcap => exact .unresolved hnewest hfull hcap
            · next hcap => exact .dense hnewest hfull (UInt32.not_le.mp hcap)
          · next hpart => exact .boundary hnewest hpart

/-! ## Runs -/

/-- What a committed outcome leaves of a state. -/
def advance (state : Journal.State) (outcome : Outcome) : Journal.State :=
  { state with
    committedCursorMSC := outcome.committedCursorMSC
    committedBoundaryDigest := outcome.committedBoundaryDigest
    nextFromMSC := outcome.nextFromMSC
    nextRequestedCount := outcome.nextRequestedCount }

def cursorStep (H : Hashes) (c : Config) (state : Journal.State) (batch : BatchFrameV1) : Journal.State :=
  advance state (outcomeForBatch H state batch c)

def cursorRun (H : Hashes) (c : Config) (batches : List BatchFrameV1) : Journal.State :=
  batches.foldl (cursorStep H c) (journalStore c).initial.state

/-- The advertised count lies between the initial count and the cap. -/
def CountOk (c : Config) (count : UInt32) : Prop :=
  (initialCount c).toNat ≤ count.toNat ∧ count.toNat ≤ (hardCap c).toNat

/-- A state whose cursor is where the producer goes on, with a count that is in its bounds once it was set. -/
structure CursorOk (c : Config) (state : Journal.State) : Prop where
  next : state.nextFromMSC = state.committedCursorMSC
  count : state.nextRequestedCount ≠ 0 → CountOk c state.nextRequestedCount

theorem Counts.countOk (hcounts : Counts c) (h : CursorOk c state) : CountOk c (countOf c state) := by
  unfold countOf
  split
  · exact ⟨Nat.le_refl _, hcounts.initial_le⟩
  · next hne => exact h.count hne

theorem CursorOk.resumeFrom (h : CursorOk c state) : resumeFrom state = state.committedCursorMSC := by
  unfold Ingest.resumeFrom
  split
  · rfl
  · exact h.next

theorem outcome_ok (hcounts : Counts c) (h : CursorOk c state) {outcome : Outcome}
    (hstep : Outcomes H c state batch outcome) :
    outcome.nextFromMSC = outcome.committedCursorMSC ∧ CountOk c outcome.nextRequestedCount := by
  have hcount := hcounts.countOk h
  cases hstep with
  | kept => exact ⟨h.resumeFrom, hcount⟩
  | advanced time => exact ⟨rfl, Nat.le_refl _, hcounts.initial_le⟩
  | unresolved => exact ⟨rfl, hcounts.initial_le, Nat.le_refl _⟩
  | dense _ _ hcap =>
    have hcap := UInt32.lt_iff_toNat_lt.mp hcap
    refine ⟨rfl, ?_⟩
    rw [CountOk, nextDenseCount_toNat hcap hcounts.cap_le]
    rw [toNat_max] at hcap ⊢
    have := hcount.1
    have := hcounts.initial_le
    omega
  | boundary => exact ⟨rfl, Nat.le_refl _, hcounts.initial_le⟩

theorem cursorStep_ok (hcounts : Counts c) (h : CursorOk c state) (batch : BatchFrameV1) :
    CursorOk c (cursorStep H c state batch) ∧ CountOk c (cursorStep H c state batch).nextRequestedCount := by
  obtain ⟨hnext, hcount⟩ := outcome_ok hcounts h (outcomes_of_batch H c state batch)
  exact ⟨⟨hnext, fun _ => hcount⟩, hcount⟩

theorem cursorOk_initial (hcounts : Counts c) : CursorOk c (journalStore c).initial.state := by
  refine ⟨rfl, fun hne => ?_⟩
  have hsame : (journalStore c).initial.state.nextRequestedCount = initialCount c :=
    (if_neg hne : Config.orDefault 0 c.initialBatchCount defaultConfig.initialBatchCount = c.initialBatchCount).symm
  rw [hsame]
  exact ⟨Nat.le_refl _, hcounts.initial_le⟩

theorem cursorOk_run (hcounts : Counts c) (batches : List BatchFrameV1) : CursorOk c (cursorRun H c batches) := by
  induction batches using List.reverseRecOn with
  | nil => exact cursorOk_initial hcounts
  | append_singleton batches batch ih =>
    rw [cursorRun, List.foldl_append]
    exact (cursorStep_ok hcounts ih batch).1

theorem cursorStep_forward : state.committedCursorMSC ≤ (cursorStep H c state batch).committedCursorMSC ∧
      ((cursorStep H c state batch).committedBoundaryDigest ≠ state.committedBoundaryDigest →
        state.committedCursorMSC < (cursorStep H c state batch).committedCursorMSC ∨
          Newest batch state.committedCursorMSC ∧ ¬ Full batch) := by
  unfold cursorStep
  generalize houtcome : outcomeForBatch H state batch c = outcome
  have hstep := outcomes_of_batch H c state batch
  rw [houtcome] at hstep
  cases hstep with
  | kept => exact ⟨Int64.le_refl _, fun hne => absurd rfl hne⟩
  | advanced time _ hlt => exact ⟨Int64.le_of_lt hlt, fun _ => .inl hlt⟩
  | unresolved => exact ⟨Int64.le_refl _, fun hne => absurd rfl hne⟩
  | dense => exact ⟨Int64.le_refl _, fun hne => absurd rfl hne⟩
  | boundary h hpart => exact ⟨Int64.le_refl _, fun _ => .inr ⟨h, hpart⟩⟩

/-! ## The journal -/

/-- The part of a state that the cursor rule reads and writes. -/
def cursorOf (state : Journal.State) : Int64 × Digest × Int64 × UInt32 :=
  (state.committedCursorMSC, state.committedBoundaryDigest, state.nextFromMSC, state.nextRequestedCount)

theorem outcomeForBatch_congr {other : Journal.State} (h : cursorOf state = cursorOf other) (batch : BatchFrameV1) :
    outcomeForBatch H state batch c = outcomeForBatch H other batch c := by
  simp only [cursorOf, Prod.mk.injEq] at h
  obtain ⟨hcursor, hdigest, hnext, hcount⟩ := h
  simp only [outcomeForBatch, hcursor, hdigest, hnext, hcount]

theorem foldl_journalStep_cursor {entries : List Entry} {batches : List BatchFrameV1} {db : Db}
    (h : List.Forall₂ (fun entry batch => decodeBatchFrame H entry.frame = .ok batch) entries batches)
    (hsame : cursorOf db.state = cursorOf state) :
    cursorOf (entries.foldl (journalStep H c) db).state = cursorOf (batches.foldl (cursorStep H c) state) := by
  induction h generalizing db state with
  | nil => exact hsame
  | @cons entry batch entries batches hdecode _ ih =>
    refine ih ?_
    rw [journalStep_decoded hdecode, cursorStep, outcomeForBatch_congr hsame]
    rfl

/-! ## Runs at the boundary -/

/-- Full batches at the cursor, each asked for with the count advertised before it. -/
def DenseRun (H : Hashes) (c : Config) : Journal.State → List BatchFrameV1 → Prop
  | _, [] => True
  | state, batch :: later =>
    Newest batch state.committedCursorMSC ∧ Full batch ∧ batch.requestedCount = state.nextRequestedCount ∧
      DenseRun H c (cursorStep H c state batch) later

def statuses (H : Hashes) (c : Config) : Journal.State → List BatchFrameV1 → List UInt8
  | _, [] => []
  | state, batch :: later =>
    (outcomeForBatch H state batch c).status :: statuses H c (cursorStep H c state batch) later

/-- A full batch at the cursor either ends the run or doubles the count. -/
theorem dense_step (hcounts : Counts c) (hnewest : Newest batch state.committedCursorMSC) (hfull : Full batch)
    (hrequested : batch.requestedCount = state.nextRequestedCount) :
    (outcomeForBatch H state batch c).status = ackDenseUnresolved ∨
      state.nextRequestedCount.toNat < (hardCap c).toNat ∧
      (cursorStep H c state batch).nextRequestedCount.toNat = min (2 * state.nextRequestedCount.toNat) (hardCap c).toNat := by
  have hne : state.nextRequestedCount ≠ 0 := hrequested ▸ hfull.requested_ne
  have hcount : max batch.requestedCount (countOf c state) = state.nextRequestedCount := by
    rw [hrequested, countOf, if_neg hne]
    exact UInt32.toNat_inj.mp (by rw [toNat_max, Nat.max_self])
  have hirrefl : ∀ time : Int64, ¬ time < time := fun _ => Int64.lt_irrefl
  unfold cursorStep
  generalize houtcome : outcomeForBatch H state batch c = outcome
  have hstep := outcomes_of_batch H c state batch
  rw [houtcome] at hstep
  cases hstep with
  | kept h => exact absurd (h _ hnewest) (hirrefl _)
  | advanced time h hlt => exact absurd (Newest.unique h hnewest ▸ hlt) (hirrefl _)
  | unresolved => exact .inl rfl
  | dense _ _ hcap =>
    rw [hcount] at hcap ⊢
    have hcap := UInt32.lt_iff_toNat_lt.mp hcap
    exact .inr ⟨hcap, nextDenseCount_toNat hcap hcounts.cap_le⟩
  | boundary _ hpart => exact absurd hfull hpart

/-- With the count within so many doublings of the cap, one more batch is unresolved. -/
theorem dense_run_unresolved (hcounts : Counts c) {doublings : Nat} {batches : List BatchFrameV1}
    (hrun : DenseRun H c state batches) (hlength : doublings + 1 ≤ batches.length)
    (hcap : (hardCap c).toNat ≤ state.nextRequestedCount.toNat * 2 ^ doublings) :
    ackDenseUnresolved ∈ (statuses H c state batches).take (doublings + 1) := by
  induction doublings generalizing state batches with
  | zero =>
    cases batches with
    | nil => simp at hlength
    | cons batch later =>
      obtain ⟨hnewest, hfull, hrequested, -⟩ := hrun
      rcases dense_step hcounts hnewest hfull hrequested (H := H) with hdone | ⟨hlt, -⟩
      · simp [statuses, hdone]
      · rw [Nat.pow_zero, Nat.mul_one] at hcap
        omega
  | succ doublings ih =>
    cases batches with
    | nil => simp at hlength
    | cons batch later =>
      obtain ⟨hnewest, hfull, hrequested, hlater⟩ := hrun
      rw [statuses, List.take_succ_cons]
      rcases dense_step hcounts hnewest hfull hrequested (H := H) with hdone | ⟨-, hdoubled⟩
      · exact hdone ▸ List.mem_cons_self
      · refine List.mem_cons_of_mem _ (ih hlater (by simpa using hlength) ?_)
        rw [hdoubled]
        rcases Nat.le_total (2 * state.nextRequestedCount.toNat) (hardCap c).toNat with hle | hle
        · rw [Nat.min_eq_left hle]
          calc (hardCap c).toNat ≤ state.nextRequestedCount.toNat * 2 ^ (doublings + 1) := hcap
            _ = 2 * state.nextRequestedCount.toNat * 2 ^ doublings := by ring
        · rw [Nat.min_eq_right hle]
          exact Nat.le_mul_of_pos_right _ (Nat.two_pow_pos _)

/-- The doublings from the initial count to the cap. -/
noncomputable def doublings (c : Config) : Nat :=
  ⌈Real.logb 2 ((hardCap c).toNat / (initialCount c).toNat : ℝ)⌉₊

theorem hardCap_le_doubled (hcounts : Counts c) : (hardCap c).toNat ≤ (initialCount c).toNat * 2 ^ doublings c := by
  have hpos : (0 : ℝ) < (initialCount c).toNat := Nat.cast_pos.mpr hcounts.pos
  have hcap : (0 : ℝ) < (hardCap c).toNat := Nat.cast_pos.mpr (hcounts.pos.trans_le hcounts.initial_le)
  have hlog : Real.logb 2 ((hardCap c).toNat / (initialCount c).toNat : ℝ) ≤ (doublings c : ℝ) := Nat.le_ceil _
  rw [Real.logb_le_iff_le_rpow (by norm_num) (div_pos hcap hpos), Real.rpow_natCast, div_le_iff₀ hpos] at hlog
  rw [mul_comm]
  exact_mod_cast hlog

/-! ## The cursor -/

/-- **The cursor.** After any run of batches the producer goes on at the cursor, the advertised count is in its bounds,
the next batch moves the cursor forward only, the boundary digest changes only with the cursor or on a batch at the
cursor that is not full, and full batches at the cursor end in an unresolved one. -/
theorem cursor_invariants (hvalid : c.validate = .ok ()) (batches : List BatchFrameV1) :
    let state := cursorRun H c batches
    state.nextFromMSC = state.committedCursorMSC ∧
    (c.initialBatchCount ≠ 0 ∨ batches ≠ [] → CountOk c state.nextRequestedCount) ∧
    (∀ batch, state.committedCursorMSC ≤ (cursorStep H c state batch).committedCursorMSC ∧
      ((cursorStep H c state batch).committedBoundaryDigest ≠ state.committedBoundaryDigest →
        state.committedCursorMSC < (cursorStep H c state batch).committedCursorMSC ∨
          Newest batch state.committedCursorMSC ∧ ¬ Full batch)) ∧
    ∀ dense, DenseRun H c state dense → doublings c + 1 ≤ dense.length →
      ackDenseUnresolved ∈ (statuses H c state dense).take (doublings c + 1) := by
  have hcounts := counts_of_validate hvalid
  have hok := cursorOk_run (H := H) hcounts batches
  have hcount : c.initialBatchCount ≠ 0 ∨ batches ≠ [] → CountOk c (cursorRun H c batches).nextRequestedCount := by
    intro hset
    cases batches using List.reverseRecOn with
    | nil => exact hok.count (hset.resolve_right fun hne => hne rfl)
    | append_singleton batches batch =>
      rw [cursorRun, List.foldl_append]
      exact (cursorStep_ok hcounts (cursorOk_run hcounts batches) batch).2
  refine ⟨hok.next, hcount, fun batch => cursorStep_forward, fun dense hdense hlength => ?_⟩
  -- a batch that was asked for with the advertised count shows that the count was set
  have hne : (cursorRun H c batches).nextRequestedCount ≠ 0 := by
    cases dense with
    | nil => simp at hlength
    | cons batch later =>
      obtain ⟨-, hfull, hrequested, -⟩ := hdense
      exact hrequested ▸ hfull.requested_ne
  refine dense_run_unresolved hcounts hdense hlength ((hardCap_le_doubled hcounts).trans ?_)
  exact Nat.mul_le_mul_right _ (hok.count hne).1

/-- Counts of 1 and 2. -/
def ladderConfig : Config := { smallConfig with initialBatchCount := 1, denseBoundaryHardCap := 2 }

/-- A batch of one record at time 5, asked for with the given count and full. -/
def ladderBatch (count : UInt32) : BatchFrameV1 :=
  { smallBatch (ascii "X") 1 with
    requestedCount := count, returnedCount := count.toInt32
    records := [⟨0, 0, 0, 0, 0, 5, 0, 0, 0⟩] }

/-- One batch moves the cursor to 5, and of two full ones there the second is unresolved. -/
theorem cursor_invariants_ladder : ladderConfig.validate = .ok () ∧
    (cursorRun Hashes.sample ladderConfig [ladderBatch 1]).committedCursorMSC = 5 ∧
    DenseRun Hashes.sample ladderConfig (cursorRun Hashes.sample ladderConfig [ladderBatch 1]) [ladderBatch 1, ladderBatch 2] ∧
    ackDenseUnresolved ∈ (statuses Hashes.sample ladderConfig (cursorRun Hashes.sample ladderConfig [ladderBatch 1])
      [ladderBatch 1, ladderBatch 2]).take (doublings ladderConfig + 1) := by
  have hvalid : ladderConfig.validate = .ok () := by decide
  have hdense : DenseRun Hashes.sample ladderConfig (cursorRun Hashes.sample ladderConfig [ladderBatch 1])
      [ladderBatch 1, ladderBatch 2] := by
    have hnewest : ∀ count, ¬ count.toInt32 < 0 → Newest (ladderBatch count) 5 := fun count hcount =>
      ⟨rfl, hcount, _, _, rfl, rfl⟩
    exact ⟨hnewest 1 (by decide), ⟨by decide, rfl⟩, by decide, hnewest 2 (by decide), ⟨by decide, rfl⟩, by decide, trivial⟩
  have hdoublings : doublings ladderConfig = 1 := by
    have hratio : ((hardCap ladderConfig).toNat / (initialCount ladderConfig).toNat : ℝ) = 2 := by
      have hcap : (hardCap ladderConfig).toNat = 2 := by decide
      have hinitial : (initialCount ladderConfig).toNat = 1 := by decide
      rw [hcap, hinitial]
      norm_num
    rw [doublings, hratio, Real.logb_self_eq_one (by norm_num), Nat.ceil_one]
  refine ⟨hvalid, by decide, hdense, ?_⟩
  exact (cursor_invariants hvalid [ladderBatch 1]).2.2.2 _ hdense (by rw [hdoublings]; decide)

end TickPlatform.Ingest
