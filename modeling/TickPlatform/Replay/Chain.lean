import TickPlatform.HashChain
import TickPlatform.Replay.Row

/-!
# The row chain of a stream

The root of a stream row by row, and what a stream without hash collisions cannot repeat.
-/

namespace TickPlatform.Replay

open Bytes Protocol

variable {H : Hashes}

/-! ## The root, row by row -/

variable {root : Digest}

theorem rowChainFrom_append {index : Nat} {start : Digest} {front back : List ReplayRow} :
    rowChainFrom H index start (front ++ back) = .ok root ↔
      ∃ mid, rowChainFrom H index start front = .ok mid ∧
        rowChainFrom H (index + front.length) mid back = .ok root := by
  induction front generalizing index start with
  | nil => simp [rowChainFrom]
  | cons row front ih =>
    simp only [List.cons_append, rowChainFrom, bind_eq_ok, ih, List.length_cons]
    rw [show index + (front.length + 1) = index + 1 + front.length by omega]
    constructor
    · rintro ⟨_, hsequence, canonical, hcanonical, mid, hfront, hback⟩
      exact ⟨mid, ⟨(), hsequence, canonical, hcanonical, hfront⟩, hback⟩
    · rintro ⟨mid, ⟨_, hsequence, canonical, hcanonical, hfront⟩, hback⟩
      exact ⟨(), hsequence, canonical, hcanonical, mid, hfront, hback⟩

theorem rowChainFrom_singleton {index : Nat} {start : Digest} {row : ReplayRow} :
    rowChainFrom H index start [row] = .ok root ↔
      row.streamSequence = UInt64.ofNat index ∧
        ∃ canonical, row.canonicalBytes H = .ok canonical ∧
          rowChainStep H row.streamSequence start canonical = root := by
  simp only [rowChainFrom, bind_eq_ok, reject_eq_ok, not_not, Except.ok.injEq, exists_unit]

variable {rows : List ReplayRow}

theorem rowChainRoot_snoc {row : ReplayRow} {canonical : Bytes}
    (h : rowChainRoot H rows = .ok root) (hsequence : row.streamSequence = UInt64.ofNat rows.length)
    (hcanonical : row.canonicalBytes H = .ok canonical) :
    rowChainRoot H (rows ++ [row]) = .ok (rowChainStep H row.streamSequence root canonical) := by
  unfold rowChainRoot
  rw [rowChainFrom_append]
  refine ⟨root, h, ?_⟩
  rw [rowChainFrom_singleton, Nat.zero_add]
  exact ⟨hsequence, canonical, hcanonical, rfl⟩

/-- The root of the first `i` rows. -/
def rootAt (H : Hashes) (rows : List ReplayRow) (i : Nat) : Digest :=
  (rowChainRoot H (rows.take i)).toOption.getD Digest.zero

theorem rowChainRoot_take (h : rowChainRoot H rows = .ok root)
    (i : Nat) : rowChainRoot H (rows.take i) = .ok (rootAt H rows i) := by
  unfold rootAt
  rw [← List.take_append_drop i rows] at h
  unfold rowChainRoot at h
  obtain ⟨mid, hfront, -⟩ := rowChainFrom_append.mp h
  unfold rowChainRoot
  rw [hfront]
  rfl

variable {i : Nat}

theorem rootAt_succ (h : rowChainRoot H rows = .ok root)
    (hi : i < rows.length) : ∃ canonical, rows[i].canonicalBytes H = .ok canonical ∧
      rootAt H rows (i + 1) = H.sha256 (chainInput rows[i].streamSequence (rootAt H rows i) canonical) := by
  have hnext := rowChainRoot_take h (i + 1)
  have htake : rows.take (i + 1) = rows.take i ++ [rows[i]] := by simp
  rw [htake] at hnext
  unfold rowChainRoot at hnext
  obtain ⟨mid, hfront, hlast⟩ := rowChainFrom_append.mp hnext
  obtain ⟨-, canonical, hcanonical, hstep⟩ := rowChainFrom_singleton.mp hlast
  have hmid : mid = rootAt H rows i := by
    have hprev := rowChainRoot_take h i
    unfold rowChainRoot at hprev
    rw [hfront] at hprev
    injection hprev
  refine ⟨canonical, hcanonical, ?_⟩
  rw [← hstep, hmid]
  rfl

/-! ## Inputs that hash alike are alike -/

variable {d : Digest}

theorem digest_eq_of_bytes {e : Digest} (h : d.bytes = e.bytes) : d = e := by
  cases d
  cases e
  simpa using h

theorem chainInput_previous {s t : UInt64} {e : Digest} {a b : Bytes}
    (h : chainInput s d a = chainInput t e b) : d = e := by
  unfold chainInput at h
  simp only [List.append_assoc] at h
  have hrest := List.append_cancel_left h
  have hdigest := (List.append_inj hrest (by simp)).2
  exact digest_eq_of_bytes (List.append_inj hdigest (by simp)).1

theorem segmentInput_predecessor {scope scope' : ReplayScope} {g g' : UInt64} {o o' : UInt32}
    {c c' : MarkerCode} {d' : Digest} {input : Bytes}
    (h : segmentInput scope g o c d = .ok input) (h' : segmentInput scope' g' o' c' d' = .ok input) :
    d = d' := by
  simp only [segmentInput, bind_eq_ok, pure_eq_ok] at h h'
  obtain ⟨-, -, fields, -, code, -, hinput⟩ := h
  obtain ⟨-, -, fields', -, code', -, hinput'⟩ := h'
  -- The predecessor is the last field, and 32 bytes long.
  have heq := hinput.trans hinput'.symm
  exact digest_eq_of_bytes (List.append_inj' heq (by simp)).2

theorem digitChar_code_inj : ∀ i < 16, ∀ j < 16,
    UInt8.ofNat (Nat.digitChar i).toNat = UInt8.ofNat (Nat.digitChar j).toNat → i = j := by
  decide

theorem hexBytes_injective {a b : Bytes} (h : hexBytes a = hexBytes b) : a = b := by
  induction a generalizing b with
  | nil =>
    cases b with
    | nil => rfl
    | cons y b => simp [hexBytes, hexByte] at h
  | cons x a ih =>
    cases b with
    | nil => simp [hexBytes, hexByte] at h
    | cons y b =>
      simp only [hexBytes, hexByte, List.flatMap_cons, List.map_cons, List.map_nil, List.cons_append,
        List.nil_append, List.cons.injEq] at h
      obtain ⟨hhigh, hlow, hrest⟩ := h
      have hx := x.toNat_lt
      have hy := y.toNat_lt
      have hdiv := digitChar_code_inj _ (by omega) _ (by omega) hhigh
      have hmod := digitChar_code_inj _ (by omega) _ (by omega) hlow
      have hxy : x = y := UInt8.toNat_inj.mp (by omega)
      rw [hxy, ih hrest]

/-! ## A stream without collisions -/

def markers (rows : List ReplayRow) : List ReplayMarkerRow := rows.filterMap ReplayRow.marker?

@[simp] theorem markers_append (a b : List ReplayRow) : markers (a ++ b) = markers a ++ markers b :=
  List.filterMap_append

def chainInputAt (H : Hashes) (rows : List ReplayRow) (i : Nat) : Option Bytes := do
  let row ← rows[i]?
  let canonical ← (row.canonicalBytes H).toOption
  return chainInput row.streamSequence (rootAt H rows i) canonical

def markerInput (m : ReplayMarkerRow) : Option Bytes :=
  (segmentInput m.scope m.referenceGatewayIngestSequence m.referenceRecordOrdinal m.markerCode
    m.predecessorRowChainHash).toOption

/-- Every input of SHA-256 behind the row chain and the segment ids of a stream. -/
def hashedInputs (H : Hashes) (rows : List ReplayRow) : List Bytes :=
  (List.range rows.length).filterMap (chainInputAt H rows) ++ (markers rows).filterMap markerInput

/-- SHA-256 is injective on some inputs, and none of them has the digest zero. -/
def CollisionFree (H : Hashes) (inputs : List Bytes) : Prop :=
  (∀ x ∈ inputs, ∀ y ∈ inputs, H.sha256 x = H.sha256 y → x = y) ∧ ∀ x ∈ inputs, H.sha256 x ≠ Digest.zero

instance (H : Hashes) (inputs : List Bytes) : Decidable (CollisionFree H inputs) :=
  inferInstanceAs (Decidable ((∀ x ∈ inputs, ∀ y ∈ inputs, H.sha256 x = H.sha256 y → x = y) ∧
    ∀ x ∈ inputs, H.sha256 x ≠ Digest.zero))

theorem chainInput_mem (hi : i < rows.length) {canonical : Bytes} (h : rows[i].canonicalBytes H = .ok canonical) :
    chainInput rows[i].streamSequence (rootAt H rows i) canonical ∈ hashedInputs H rows := by
  unfold hashedInputs
  apply List.mem_append_left
  rw [List.mem_filterMap]
  refine ⟨i, List.mem_range.mpr hi, ?_⟩
  simp [chainInputAt, List.getElem?_eq_getElem hi, h, Except.toOption]

theorem rootAt_unique (h : rowChainRoot H rows = .ok root)
    (hfree : CollisionFree H (hashedInputs H rows)) {j : Nat} (hi : i ≤ rows.length)
    (hj : j ≤ rows.length) (heq : rootAt H rows i = rootAt H rows j) : i = j := by
  apply @HashChain.index_unique _ (rootAt H rows) _ ?_ ?_ i j hi hj heq
  · intro i j hi hj hnext
    obtain ⟨canonical, hcanonical, hi'⟩ := rootAt_succ h hi
    obtain ⟨canonical', hcanonical', hj'⟩ := rootAt_succ h hj
    rw [hi', hj'] at hnext
    exact chainInput_previous (hfree.1 _ (chainInput_mem hi hcanonical) _ (chainInput_mem hj hcanonical') hnext)
  · intro i hi
    obtain ⟨canonical, hcanonical, hi'⟩ := rootAt_succ h hi
    rw [hi']
    exact hfree.2 _ (chainInput_mem hi hcanonical)

end TickPlatform.Replay
