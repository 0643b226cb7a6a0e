import TickPlatform.Retention.Contract

/-!
# Observation budgets

The two budgets that bound what an observation reads: one for a publication, one for a retention run.
-/

namespace TickPlatform.Remote

open Protocol Retention

/-! ## Counters with limits -/

section Counters

variable {σ κ ι : Type} {step : σ → κ → σ × Bool} {count limit : ι → σ → UInt64} {amount : ι → κ → Nat}

/-- The state after some calls. -/
def after (step : σ → κ → σ × Bool) (s : σ) (calls : List κ) : σ := calls.foldl (fun s call => (step s call).1) s

/-- The amounts of the calls that succeed, in all. -/
def spent (step : σ → κ → σ × Bool) (amount : κ → Nat) : σ → List κ → Nat
  | _, [] => 0
  | s, call :: calls => (step s call).2.toNat * amount call + spent step amount (step s call).1 calls

/-- Below its limit, a counter stays there and grows by what a successful call spends. -/
def Counts (step : σ → κ → σ × Bool) (count limit : ι → σ → UInt64) (amount : ι → κ → Nat) : Prop :=
  ∀ s call, (∀ i, count i s ≤ limit i s) → ∀ i, limit i (step s call).1 = limit i s ∧
    count i (step s call).1 ≤ limit i s ∧
    (count i s).toNat + (step s call).2.toNat * amount i call ≤ (count i (step s call).1).toNat

theorem Counts.run (h : Counts step count limit amount) (calls : List κ) {s : σ} (hs : ∀ i, count i s ≤ limit i s) (i : ι) :
    limit i (after step s calls) = limit i s ∧ count i (after step s calls) ≤ limit i s ∧
      (count i s).toNat + spent step (amount i) s calls ≤ (count i (after step s calls)).toNat := by
  unfold after
  induction calls generalizing s with
  | nil => simp [spent, hs]
  | cons call calls ih =>
    have hstep := h s call hs
    have hrest := ih fun i => (hstep i).1 ▸ (hstep i).2.1
    rw [(hstep i).1] at hrest
    simp only [spent, List.foldl_cons, hrest, true_and]
    have := (hstep i).2.2
    omega

/-- No counter passes its limit, none falls, and no limit is overspent. -/
def Kept (step : σ → κ → σ × Bool) (count limit : ι → σ → UInt64) (amount : ι → κ → Nat) (s : σ) (calls : List κ) : Prop :=
  ∀ i, count i (after step s calls) ≤ limit i s ∧
    (∀ call, count i (after step s calls) ≤ count i (step (after step s calls) call).1) ∧
    spent step (amount i) s calls ≤ (limit i s).toNat

theorem Counts.kept (h : Counts step count limit amount) {s : σ} (hs : ∀ i, count i s ≤ limit i s) (calls : List κ) :
    Kept step count limit amount s calls := by
  intro i
  have hrun := h.run calls hs
  refine ⟨(hrun i).2.1, fun call => ?_, ?_⟩
  · have hstep := (h _ call (fun i => (hrun i).1 ▸ (hrun i).2.1) i).2.2
    rw [UInt64.le_iff_toNat_le]
    omega
  · have hbound := UInt64.le_iff_toNat_le.mp (hrun i).2.1
    have := (hrun i).2.2
    omega

end Counters

/-! ## The budget of a publication -/

/-- The limits that the budget reads. -/
structure ReplayPublicationLimits where
  maxObservationBytes : UInt64
  maxObservationRequests : UInt64
  maxTotalMetadataBytes : UInt64
  maxTotalParquetBytes : UInt64

structure ReplayObservationBudget where
  limits : ReplayPublicationLimits
  requests : UInt64 := 0
  metadataBytes : UInt64 := 0
  parquetBytes : UInt64 := 0
  observationBytes : UInt64 := 0

/-- `unknown` stands for every other value of the source's byte. -/
inductive ReplayBudgetByteKind
  | metadata
  | parquet
  | observation
  | unknown

def checkedReplayBudgetAdd (current increment limit : UInt64) : Option UInt64 :=
  if increment > limit ∨ current > limit - increment then none else some (current + increment)

def saturatingReplayBudgetAdd (current increment limit : UInt64) : UInt64 :=
  (checkedReplayBudgetAdd current increment limit).getD limit

def minReplayBudgetValue (first : UInt64) (others : List UInt64) : UInt64 :=
  others.foldl (fun minimum value => if value < minimum then value else minimum) first

section

variable (b : ReplayObservationBudget)

def chargeRequest : ReplayObservationBudget × Bool :=
  match checkedReplayBudgetAdd b.requests 1 b.limits.maxObservationRequests with
  | some next => ({ b with requests := next }, true)
  | none => (b, false)

def categoryRemaining : ReplayBudgetByteKind → Except String UInt64
  | .metadata => .ok (b.limits.maxTotalMetadataBytes - b.metadataBytes)
  | .parquet => .ok (b.limits.maxTotalParquetBytes - b.parquetBytes)
  | .observation => .ok (b.limits.maxObservationBytes - b.observationBytes)
  | .unknown => .error "unknown observation byte category"

def readCap (kind : ReplayBudgetByteKind) (objectLimit : UInt64) : Except String UInt64 := do
  reject (objectLimit = 0) "zero object read limit"
  let observationRemaining := b.limits.maxObservationBytes - b.observationBytes
  let categoryRemaining ← categoryRemaining b kind
  let capBytes := minReplayBudgetValue objectLimit [categoryRemaining, observationRemaining]
  reject (capBytes = 0) "observation byte budget exhausted"
  return capBytes

/-- A charge on the total of a category and on the observation: the two counters and the success. -/
def chargeBody (total limit bytes : UInt64) : UInt64 × UInt64 × Bool :=
  match checkedReplayBudgetAdd total bytes limit with
  | none => (saturatingReplayBudgetAdd total bytes limit,
      saturatingReplayBudgetAdd b.observationBytes bytes b.limits.maxObservationBytes, false)
  | some next =>
    match checkedReplayBudgetAdd b.observationBytes bytes b.limits.maxObservationBytes with
    | none => (next, b.limits.maxObservationBytes, false)
    | some observation => (next, observation, true)

def chargeMetadata (bytes : UInt64) : ReplayObservationBudget × Bool :=
  let charged := chargeBody b b.metadataBytes b.limits.maxTotalMetadataBytes bytes
  ({ b with metadataBytes := charged.1, observationBytes := charged.2.1 }, charged.2.2)

def chargeParquet (bytes : UInt64) : ReplayObservationBudget × Bool :=
  let charged := chargeBody b b.parquetBytes b.limits.maxTotalParquetBytes bytes
  ({ b with parquetBytes := charged.1, observationBytes := charged.2.1 }, charged.2.2)

def chargeObservation (bytes : UInt64) : ReplayObservationBudget × Bool :=
  match checkedReplayBudgetAdd b.observationBytes bytes b.limits.maxObservationBytes with
  | none => ({ b with observationBytes := b.limits.maxObservationBytes }, false)
  | some next => ({ b with observationBytes := next }, true)

def chargeReplayReadBytes (kind : ReplayBudgetByteKind) (consumed : UInt64) : ReplayObservationBudget × Bool :=
  match kind with
  | .metadata => chargeMetadata b consumed
  | .parquet => chargeParquet b consumed
  | .observation => chargeObservation b consumed
  | .unknown => (b, false)

end

inductive BudgetCall
  | request
  | readCap (kind : ReplayBudgetByteKind) (objectLimit : UInt64)
  | bytes (kind : ReplayBudgetByteKind) (count : UInt64)

def budgetStep (b : ReplayObservationBudget) : BudgetCall → ReplayObservationBudget × Bool
  | .request => chargeRequest b
  | .readCap kind objectLimit => (b, (readCap b kind objectLimit).isOk)
  | .bytes kind count => chargeReplayReadBytes b kind count

inductive Counter
  | requests
  | metadata
  | parquet
  | observation

def Counter.count : Counter → ReplayObservationBudget → UInt64
  | .requests, b => b.requests
  | .metadata, b => b.metadataBytes
  | .parquet, b => b.parquetBytes
  | .observation, b => b.observationBytes

def Counter.limit : Counter → ReplayObservationBudget → UInt64
  | .requests, b => b.limits.maxObservationRequests
  | .metadata, b => b.limits.maxTotalMetadataBytes
  | .parquet, b => b.limits.maxTotalParquetBytes
  | .observation, b => b.limits.maxObservationBytes

/-- What a successful call spends; all bytes count for the observation. -/
def Counter.amount : Counter → BudgetCall → Nat
  | .requests, .request => 1
  | .metadata, .bytes .metadata count => count.toNat
  | .parquet, .bytes .parquet count => count.toNat
  | .observation, .bytes _ count => count.toNat
  | _, _ => 0

theorem checkedReplayBudgetAdd_cases (current increment limit : UInt64) :
    (checkedReplayBudgetAdd current increment limit = none ∧ limit.toNat < current.toNat + increment.toNat) ∨
      (checkedReplayBudgetAdd current increment limit = some (current + increment) ∧
        (current + increment).toNat = current.toNat + increment.toNat ∧
        current.toNat + increment.toNat ≤ limit.toNat) := by
  unfold checkedReplayBudgetAdd
  have := limit.toNat_lt
  simp only [gt_iff_lt, UInt64.lt_iff_toNat_lt, UInt64.toNat_add]
  by_cases h : increment.toNat ≤ limit.toNat
  · rw [UInt64.toNat_sub_of_le _ _ (UInt64.le_iff_toNat_le.mpr h)]
    split <;> simp <;> omega
  · simp [show limit.toNat < increment.toNat by omega]
    omega

theorem minReplayBudgetValue_le (a b c : UInt64) :
    minReplayBudgetValue a [b, c] ≤ b ∧ minReplayBudgetValue a [b, c] ≤ c := by
  simp only [minReplayBudgetValue, List.foldl, UInt64.le_iff_toNat_le, UInt64.lt_iff_toNat_lt]
  split <;> split <;> omega

theorem counts_budget : Counts budgetStep Counter.count Counter.limit Counter.amount := by
  intro b call h
  have hrequests := h .requests
  have hmetadata := h .metadata
  have hparquet := h .parquet
  have hobservation := h .observation
  simp only [Counter.count, Counter.limit, UInt64.le_iff_toNat_le] at hrequests hmetadata hparquet hobservation ⊢
  cases call with
  | request =>
    unfold budgetStep chargeRequest
    rcases checkedReplayBudgetAdd_cases b.requests 1 b.limits.maxObservationRequests with ⟨hsum, _⟩ | ⟨hsum, _⟩
    all_goals
      intro counter
      cases counter <;> simp [Counter.amount, hsum, -UInt64.toNat_add] at * <;> omega
  | readCap kind objectLimit =>
    intro counter
    cases counter <;> simp [budgetStep, Counter.amount] <;> assumption
  | bytes kind bytes =>
    have hsum := checkedReplayBudgetAdd_cases b.observationBytes bytes b.limits.maxObservationBytes
    have hmeta := checkedReplayBudgetAdd_cases b.metadataBytes bytes b.limits.maxTotalMetadataBytes
    have hbody := checkedReplayBudgetAdd_cases b.parquetBytes bytes b.limits.maxTotalParquetBytes
    intro counter
    unfold budgetStep chargeReplayReadBytes
    rcases hsum with ⟨hsum, _⟩ | ⟨hsum, _⟩ <;> rcases hmeta with ⟨hmeta, _⟩ | ⟨hmeta, _⟩ <;>
      rcases hbody with ⟨hbody, _⟩ | ⟨hbody, _⟩ <;> cases kind <;> cases counter <;>
      simp [chargeMetadata, chargeParquet, chargeObservation, chargeBody, saturatingReplayBudgetAdd, Counter.amount, hsum,
        hmeta, hbody, -UInt64.toNat_add] <;> omega

/-- What is read within the cap can be charged. -/
theorem charge_of_readCap {b : ReplayObservationBudget} (h : ∀ counter : Counter, counter.count b ≤ counter.limit b)
    {kind : ReplayBudgetByteKind} {objectLimit cap bytes : UInt64} (hcap : readCap b kind objectLimit = .ok cap)
    (hbytes : bytes ≤ cap) : (chargeReplayReadBytes b kind bytes).2 = true := by
  have hfits : ∀ {limit used : UInt64}, used ≤ limit → bytes ≤ limit - used →
      checkedReplayBudgetAdd used bytes limit = some (used + bytes) := by
    intro limit used hused hle
    rw [UInt64.le_iff_toNat_le, UInt64.toNat_sub_of_le _ _ hused] at hle
    rw [UInt64.le_iff_toNat_le] at hused
    rcases checkedReplayBudgetAdd_cases used bytes limit with ⟨_, hover⟩ | ⟨hsum, _⟩
    · omega
    · exact hsum
  simp only [readCap, bind_eq_ok, pure_eq_ok, reject_eq_ok] at hcap
  obtain ⟨-, -, category, hcategory, -, -, rfl⟩ := hcap
  obtain ⟨hcategory', hobservation⟩ := minReplayBudgetValue_le objectLimit category
    (b.limits.maxObservationBytes - b.observationBytes)
  have hown := UInt64.le_trans hbytes hcategory'
  have hsum := hfits (h .observation) (UInt64.le_trans hbytes hobservation)
  simp only [Counter.count, Counter.limit] at hsum
  cases kind with
  | metadata =>
    cases hcategory
    have hnext := hfits (h .metadata) hown
    simp only [Counter.count, Counter.limit] at hnext
    simp [chargeReplayReadBytes, chargeMetadata, chargeBody, hnext, hsum]
  | parquet =>
    cases hcategory
    have hnext := hfits (h .parquet) hown
    simp only [Counter.count, Counter.limit] at hnext
    simp [chargeReplayReadBytes, chargeParquet, chargeBody, hnext, hsum]
  | observation => simp [chargeReplayReadBytes, chargeObservation, hsum]
  | unknown => cases hcategory

/-! ## The budget of a retention run -/

structure ProofObservationBudget where
  limits : ProofLimits
  objects : UInt64 := 0
  bytes : UInt64 := 0
  manifestNodes : UInt64 := 0

section

variable (b : ProofObservationBudget) (count : UInt64)

def chargeObjects : ProofObservationBudget × Bool :=
  if count > b.limits.maxProofObjects - b.objects then (b, false) else ({ b with objects := b.objects + count }, true)

def consumeBytes : ProofObservationBudget × Bool :=
  if count > b.limits.maxProofBytes - b.bytes then ({ b with bytes := b.limits.maxProofBytes }, false)
  else ({ b with bytes := b.bytes + count }, true)

def chargeManifestNodes : ProofObservationBudget × Bool :=
  if count > b.limits.maxManifestNodes - b.manifestNodes then (b, false)
  else ({ b with manifestNodes := b.manifestNodes + count }, true)

end

inductive ProofCounter
  | objects
  | bytes
  | manifestNodes
deriving DecidableEq

def ProofCounter.count : ProofCounter → ProofObservationBudget → UInt64
  | .objects, b => b.objects
  | .bytes, b => b.bytes
  | .manifestNodes, b => b.manifestNodes

def ProofCounter.limit : ProofCounter → ProofObservationBudget → UInt64
  | .objects, b => b.limits.maxProofObjects
  | .bytes, b => b.limits.maxProofBytes
  | .manifestNodes, b => b.limits.maxManifestNodes

/-- A call charges a count to one counter. -/
def proofStep (b : ProofObservationBudget) : ProofCounter × UInt64 → ProofObservationBudget × Bool
  | (.objects, count) => chargeObjects b count
  | (.bytes, count) => consumeBytes b count
  | (.manifestNodes, count) => chargeManifestNodes b count

def ProofCounter.amount (counter : ProofCounter) (call : ProofCounter × UInt64) : Nat :=
  if call.1 = counter then call.2.toNat else 0

theorem counts_proof : Counts proofStep ProofCounter.count ProofCounter.limit ProofCounter.amount := by
  rintro b ⟨kind, count⟩ h counter
  have hcharged := h kind
  have hother := h counter
  have := (kind.limit b).toNat_lt
  have hsub := UInt64.toNat_sub_of_le _ _ hcharged
  rw [UInt64.le_iff_toNat_le] at hcharged hother
  cases kind <;> cases counter
  all_goals
    simp only [proofStep, chargeObjects, consumeBytes, chargeManifestNodes, gt_iff_lt, UInt64.lt_iff_toNat_lt]
    simp only [ProofCounter.count, ProofCounter.limit] at *
    rw [hsub]
    split <;> simp [ProofCounter.amount, UInt64.le_iff_toNat_le] <;> omega

/-- **Observation budgets are never exceeded**, from a new budget through any calls. -/
theorem budgets_never_exceeded (limits : ReplayPublicationLimits) (calls : List BudgetCall) (proofLimits : ProofLimits)
    (charges : List (ProofCounter × UInt64)) :
    Kept budgetStep Counter.count Counter.limit Counter.amount { limits } calls ∧
    (∀ kind objectLimit cap bytes, readCap (after budgetStep { limits } calls) kind objectLimit = .ok cap → bytes ≤ cap →
      (chargeReplayReadBytes (after budgetStep { limits } calls) kind bytes).2 = true) ∧
    Kept proofStep ProofCounter.count ProofCounter.limit ProofCounter.amount { limits := proofLimits } charges := by
  have hnew : ∀ counter : Counter, counter.count { limits } ≤ counter.limit { limits } := by
    intro counter
    cases counter <;> simp [Counter.count]
  refine ⟨counts_budget.kept hnew calls, fun kind objectLimit cap bytes hcap hbytes => ?_, counts_proof.kept ?_ charges⟩
  · have hrun := counts_budget.run calls hnew
    exact charge_of_readCap (fun counter => (hrun counter).1 ▸ (hrun counter).2.1) hcap hbytes
  · intro counter
    cases counter <;> simp [ProofCounter.count]

end TickPlatform.Remote
