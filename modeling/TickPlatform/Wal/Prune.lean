import TickPlatform.Wal.Serve

/-!
# A log without its oldest segment

What is left when the first sealed segment is taken away is again a log, and starts at the end of that segment.
-/

namespace TickPlatform.Wal

open Bytes Protocol Crash

variable {H : Hashes} {gatewayID : Bytes}

theorem Sealable.end_ne_zero {p : Position} {seg : SegmentData} (h : Sealable H gatewayID p seg) :
    (p.advance seg.entries).next ≠ 0 := by
  have hnext := h.next_toNat
  have hpos := List.length_pos_of_ne_nil h.nonempty
  intro hzero
  rw [hzero] at hnext
  simp at hnext
  omega

/-- The position at the end of a segment, as an anchor. -/
def endOf (p : Position) (seg : SegmentData) : PruneAnchor := ⟨lastSequence p seg, (p.advance seg.entries).last⟩

theorem anchorPosition_endOf (p : Position) (seg : SegmentData) :
    anchorPosition (some (endOf p seg)) = p.advance seg.entries := by
  simp [anchorPosition, endOf, lastSequence]

section
variable {seg : SegmentData} {segs : List SegmentData}

/-- The log after its first sealed segment. -/
def Log.dropFirst (l : Log H gatewayID) (h : l.sealed = seg :: segs) : Log H gatewayID where
  base := l.base.advance seg.entries
  sealed := segs
  active := l.active
  validID := l.validID
  base_start := by
    have hok := l.sealed_ok
    rw [h] at hok
    exact hok.1.end_ne_zero
  sealed_ok := by
    have hok := l.sealed_ok
    rw [h] at hok
    exact hok.2
  active_ok := by
    have hok := l.active_ok
    rwa [h, sealedEntries, List.flatMap_cons, Position.advance_append] at hok

variable {l : Log H gatewayID} (h : l.sealed = seg :: segs)

theorem dropFirst_entries : l.entries = seg.entries ++ (l.dropFirst h).entries := by
  simp [Log.entries, Log.dropFirst, h, sealedEntries]

theorem dropFirst_activeStart : (l.dropFirst h).activeStart = l.activeStart := by
  show (l.base.advance seg.entries).advance (sealedEntries segs) = l.base.advance (sealedEntries l.sealed)
  rw [h, ← Position.advance_append]
  rfl

theorem dropFirst_withActive (active : Option Bytes) :
    (l.dropFirst h).withActive active = { l.withActive active with sealed := (l.withActive active).sealed.tail } := by
  simp [Log.withActive, Log.disk, Log.dropFirst, h, sealedFiles]

/-- **A directory at rest stays one without its first segment**, unless the active file is still a copy of it. -/
theorem atRest_dropFirst {d : Disk} (hrest : AtRest l d) {data : Bytes} (hdata : data = sealedBytes H gatewayID l.base seg)
    (hcopy : d.active ≠ some data) : AtRest (l.dropFirst h) { d with sealed := d.sealed.tail } := by
  have hstart := dropFirst_activeStart h
  cases hrest with
  | tail _ tail htail =>
    have hnew := AtRest.tail (l.dropFirst h) tail (by rw [hstart]; exact htail)
    rw [hstart, dropFirst_withActive] at hnew
    exact hnew
  | missing _ hnil =>
    have hnew := AtRest.missing (l.dropFirst h) hnil
    rw [dropFirst_withActive] at hnew
    exact hnew
  | header _ hnil created k hk =>
    have hnew := AtRest.header (l.dropFirst h) hnil created k hk
    rw [hstart, dropFirst_withActive] at hnew
    exact hnew
  | trailer _ hcan =>
    have hnew := AtRest.trailer (l.dropFirst h) (by rw [Log.CanSeal, hstart]; exact hcan)
    rw [hstart, dropFirst_withActive] at hnew
    exact hnew
  | unverified _ hcount err herr =>
    have hnew := AtRest.unverified (l.dropFirst h) (by rw [hstart]; exact hcount) err (by rw [hstart]; exact herr)
    rw [hstart, dropFirst_withActive] at hnew
    exact hnew
  | linked l₀ hcan created =>
    -- the segment that was linked last is the first one only if there was no other
    cases hsealed : l₀.sealed with
    | nil =>
      have hlist : l₀.sealed ++ [l₀.active] = seg :: segs := h
      rw [hsealed, List.nil_append, List.cons.injEq] at hlist
      refine absurd ?_ hcopy
      rw [hdata, ← hlist.1, Log.withActive, Log.activeStart, hsealed]
      rfl
    | cons seg₀ segs₀ =>
      have hlist : l₀.sealed ++ [l₀.active] = seg :: segs := h
      rw [hsealed, List.cons_append, List.cons.injEq] at hlist
      obtain ⟨rfl, rfl⟩ := hlist
      have hcan' : (l₀.dropFirst hsealed).CanSeal := by
        rw [Log.CanSeal, dropFirst_activeStart]
        exact hcan
      have hsame : (l₀.dropFirst hsealed).sealActive hcan' created = (l₀.sealActive hcan created).dropFirst h := rfl
      have hnew := AtRest.linked (l₀.dropFirst hsealed) hcan' created
      rw [dropFirst_activeStart, hsame, dropFirst_withActive] at hnew
      exact hnew

end

theorem AtRest.sealed_eq {l : Log H gatewayID} {d : Disk} (h : AtRest l d) :
    d.sealed = sealedFiles H gatewayID l.base l.sealed := by
  cases h <;> rfl

/-- **What is held after a prune** are the entries after the segment that was taken away. -/
theorem Holds.dropFirst {anchor : Option PruneAnchor} {entries : List Entry} {d : Disk}
    (h : Holds H gatewayID anchor entries d) {name : String} {data : Bytes} {rest : List (String × Bytes)}
    (hsealed : d.sealed = (name, data) :: rest) {segment : VerifiedSegment}
    (hverified : verifySealedBytes H name data = .ok segment) (hcopy : d.active ≠ some data) :
    ∃ pruned retained, entries = pruned ++ retained ∧
      Holds H gatewayID (some ⟨segment.lastSequence, segment.chainRoot⟩) retained { d with sealed := rest } := by
  obtain ⟨l, -, rfl, hrest⟩ := h
  have hfiles := hrest.sealed_eq
  rw [hsealed] at hfiles
  cases hsegs : l.sealed with
  | nil =>
    rw [hsegs] at hfiles
    cases hfiles
  | cons seg segs =>
    rw [hsegs, sealedFiles, List.cons.injEq, Prod.mk.injEq] at hfiles
    obtain ⟨⟨rfl, rfl⟩, hfiles⟩ := hfiles
    have hok := l.sealed_ok
    rw [hsegs] at hok
    rw [verifySealedBytes_sealed l.validID hok.1] at hverified
    obtain rfl := Except.ok.inj hverified
    have hnew := atRest_dropFirst hsegs hrest rfl hcopy
    rw [hsealed, List.tail_cons] at hnew
    exact ⟨seg.entries, (l.dropFirst hsegs).entries, dropFirst_entries hsegs, l.dropFirst hsegs,
      anchorPosition_endOf l.base seg, rfl, hnew⟩

end TickPlatform.Wal
