import TickPlatform.Protocol.Messages
import TickPlatform.Wal.Rest

/-!
# Appending to the active segment

`Append` adds one entry to the log. A crash or a failed write leaves a prefix of that entry, and
`Start` keeps the entry exactly when all of its bytes are there.
-/

namespace TickPlatform.Wal

open Bytes Protocol Crash

variable {H : Hashes} {gatewayID : Bytes}

/-! ## One call -/

/-- A frame that `Append` takes. -/
structure Appendable (H : Hashes) (frame : Bytes) : Prop where
  decodes : ∃ batch, decodeBatchFrame H frame = .ok batch
  lower : 20 ≤ frame.length
  upper : frame.length ≤ 1048576

theorem appendable_batchFrame {value : BatchFrameV1} (h : value.Encodable)
    (hschema : value.sourceSchemaID = sourceSchemaMT5) : Appendable H (batchFrame H value) where
  decodes := ⟨value, decodeBatchFrame_eq_ok.mpr ⟨h, hschema, rfl⟩⟩
  lower := by
    rw [length_batchFrame]
    omega
  upper := by
    have := length_batchPayload h
    rw [length_batchFrame]
    omega

variable {frame : Bytes}

theorem makeEntry_sound (h : Appendable H frame) (offset : Nat) (sequence : UInt64)
    (previous : Digest) (wall : Int64) (mono : UInt64) :
    (makeEntry H offset sequence previous frame wall mono).Sound H where
  batchHash := rfl
  entryHash := rfl
  decodes := h.decodes
  lower := h.lower
  upper := h.upper

/-- The entry `Append` makes of a frame at the end of a log. -/
def Log.nextEntry (l : Log H gatewayID) (frame : Bytes) (wall : Int64) (mono : UInt64) : Entry :=
  makeEntry H (openBytes H gatewayID l.activeStart l.active).length l.head.next l.head.last frame wall mono

theorem Log.nextEntry_chained (l : Log H gatewayID) (h : Appendable H frame) (wall : Int64) (mono : UInt64) :
    Chained H l.head l.openFile.length [l.nextEntry frame wall mono] :=
  ⟨makeEntry_sound h _ _ _ _ _, rfl, rfl, rfl, trivial⟩

/-- The log after `Append`. -/
def Log.append (l : Log H gatewayID) {frame : Bytes} (h : Appendable H frame) (wall : Int64) (mono : UInt64) :
    Log H gatewayID :=
  l.push (l.nextEntry frame wall mono) (l.nextEntry_chained h wall mono)

@[simp] theorem Log.append_entries (l : Log H gatewayID) (h : Appendable H frame) (wall : Int64) (mono : UInt64) :
    (l.append h wall mono).entries = l.entries ++ [l.nextEntry frame wall mono] :=
  l.push_entries _ _

theorem Log.append_openBytes (l : Log H gatewayID) (h : Appendable H frame) (wall : Int64) (mono : UInt64) :
    openBytes H gatewayID (l.append h wall mono).activeStart (l.append h wall mono).active =
      l.openFile ++ encodeEntry H (l.nextEntry frame wall mono) := by
  show openBytes H gatewayID l.activeStart ⟨l.active.createdWallS, l.active.entries ++ [_]⟩ = _
  simp [openBytes, encodeEntries_append]

theorem appendable_iff : Appendable H frame ↔ (∃ batch, decodeBatchFrame H frame = .ok batch) ∧
    ¬ (frame.length < minFrameBytes.toNat ∨ frame.length > maxFrameBytes.toNat) := by
  simp only [minFrameBytes, maxFrameBytes, UInt32.reduceToNat, not_or, not_lt]
  exact ⟨fun h => ⟨h.decodes, h.lower, h.upper⟩, fun h => ⟨h.1, h.2.1, h.2.2⟩⟩

theorem append_run (l : Log H gatewayID) (h : Appendable H frame) (wall : Int64) (mono : UInt64) :
    (l.store.append H frame wall mono none).run l.disk =
      ([.appendActive (encodeEntry H (l.nextEntry frame wall mono))],
        .ok ((l.append h wall mono).store, l.nextEntry frame wall mono)) := by
  obtain ⟨⟨batch, hbatch⟩, hsize⟩ := appendable_iff.mp h
  have hopen : ¬ ((!l.store.file) = true ∨ l.store.poisoned = true) := by simp [Log.store]
  unfold Store.append
  simp only [hbatch, if_neg hsize, if_neg hopen]
  rw [Prog.read_bind, Prog.emit_bind, Prog.pure_run]
  have hbytes := Log.append_openBytes l h wall mono
  have hstore : (l.append h wall mono).store = { l.store with
      entries := l.store.entries ++ [l.nextEntry frame wall mono]
      last := (l.nextEntry frame wall mono).entryHash
      next := l.store.next + 1
      fileBytes := l.store.sealedBytes + l.openFile.length +
        (encodeEntry H (l.nextEntry frame wall mono)).length } := by
    have hhead : (l.append h wall mono).head = l.head.after (l.nextEntry frame wall mono) := by
      rw [Log.head, Log.append_entries, Position.advance_append]
      rfl
    simp only [Log.store, hhead, Log.append_entries, hbytes, List.length_append, Nat.add_assoc]
    rfl
  rw [hstore]
  rfl

theorem append_fault_run (l : Log H gatewayID) (h : Appendable H frame) (wall : Int64)
    (mono : UInt64) (fault : AppendFault) :
    (l.store.append H frame wall mono (some fault)).run l.disk =
      ([.appendActive (fault.leaves (encodeEntry H (l.nextEntry frame wall mono)))],
        .error ({ l.store with poisoned := true }, .unavailable fault.text)) := by
  obtain ⟨⟨batch, hbatch⟩, hsize⟩ := appendable_iff.mp h
  have hopen : ¬ ((!l.store.file) = true ∨ l.store.poisoned = true) := by simp [Log.store]
  unfold Store.append
  simp only [hbatch, if_neg hsize, if_neg hopen]
  rw [Prog.read_bind, Prog.emit_bind, Prog.fail_run]
  rfl

variable {d : Disk}

theorem appendable_of_run {s s' : Store} {wall : Int64} {mono : UInt64}
    {ops : List DiskOp} {entry : Entry} {fault : Option AppendFault}
    (h : (s.append H frame wall mono fault).run d = (ops, .ok (s', entry))) : Appendable H frame := by
  unfold Store.append at h
  simp only at h
  split at h
  · simp at h
  · rename_i batch hdecode
    split at h
    · simp at h
    · rename_i hsize
      exact appendable_iff.mpr ⟨⟨batch, hdecode⟩, hsize⟩

theorem Log.append_disk (l : Log H gatewayID) (h : Appendable H frame) (wall : Int64) (mono : UInt64) :
    Device.run (DiskOp.appendActive (encodeEntry H (l.nextEntry frame wall mono))) l.disk =
      (l.append h wall mono).disk := by
  simp only [Log.disk, Log.append_openBytes]
  rfl

theorem append_refused (s : Store) (h : ¬ Appendable H frame) (wall : Int64) (mono : UInt64)
    (fault : Option AppendFault) (d : Disk) :
    ∃ err, (s.append H frame wall mono fault).run d = ([], .error (s, err)) := by
  unfold Store.append
  simp only
  split
  · exact ⟨_, rfl⟩
  · rename_i batch hdecode
    split
    · exact ⟨_, rfl⟩
    · rename_i hsize
      exact absurd (appendable_iff.mpr ⟨⟨_, hdecode⟩, hsize⟩) h

theorem append_poisoned {s : Store} (h : s.poisoned = true) (frame : Bytes) (wall : Int64) (mono : UInt64)
    (fault : Option AppendFault) (d : Disk) :
    ∃ err, (s.append H frame wall mono fault).run d = ([], .error (s, err)) := by
  unfold Store.append
  simp only
  split
  · exact ⟨_, rfl⟩
  · split
    · exact ⟨_, rfl⟩
    · rw [if_pos (.inr h)]
      exact ⟨_, rfl⟩

theorem AppendFault.leaves_eq_take (fault : AppendFault) (entryBytes : Bytes) :
    ∃ written, fault.leaves entryBytes = entryBytes.take written := by
  cases fault with
  | write written => exact ⟨written, rfl⟩
  | sync => exact ⟨entryBytes.length, List.take_length.symm⟩
  | stat => exact ⟨entryBytes.length, List.take_length.symm⟩

theorem atRest_written (l : Log H gatewayID) (h : Appendable H frame) (wall : Int64) (mono : UInt64) (written : Nat)
    (hd : d = Device.run
      (DiskOp.appendActive ((encodeEntry H (l.nextEntry frame wall mono)).take written)) l.disk) :
    AtRest l d ∨ AtRest (l.append h wall mono) d := by
  rcases Nat.lt_or_ge written (entrySize (l.nextEntry frame wall mono)) with hcut | hfull
  · subst hd
    exact .inl (.tail l _
      (.inr (parseFront_torn_entry H _ written _ (l.nextEntry_chained h wall mono).1 hcut)))
  · rw [List.take_of_length_le (by rw [length_encodeEntry]; exact hfull), l.append_disk h] at hd
    subst hd
    exact .inr (atRest_disk _)

/-! ## Successive calls -/

structure AppendCall where
  frame : Bytes
  receiveWallS : Int64
  receiveMonotonicUS : UInt64

/-- Successive `Append` calls and the entries they return. -/
def Store.appendAll (H : Hashes) (s : Store) : List AppendCall → WalProg (Store × WalError) (Store × List Entry)
  | [] => pure (s, [])
  | call :: calls => do
    let (s, entry) ← s.append H call.frame call.receiveWallS call.receiveMonotonicUS none
    let (s, entries) ← s.appendAll H calls
    return (s, entry :: entries)

theorem appendAll_run (l : Log H gatewayID) (calls : List AppendCall) {ops : List DiskOp} {s' : Store}
    {entries : List Entry} (h : (l.store.appendAll H calls).run l.disk = (ops, .ok (s', entries))) :
    ∃ l' : Log H gatewayID, l'.activeStart = l.activeStart ∧ l'.active.createdWallS = l.active.createdWallS ∧
      l'.active.entries = l.active.entries ++ entries ∧ s' = l'.store ∧ runAll ops l.disk = l'.disk := by
  induction calls generalizing l ops entries with
  | nil =>
    simp only [Store.appendAll, Prog.pure_run, Prod.mk.injEq, Except.ok.injEq] at h
    obtain ⟨rfl, rfl, rfl⟩ := h
    exact ⟨l, rfl, rfl, by simp, rfl, rfl⟩
  | cons call calls ih =>
    simp only [Store.appendAll] at h
    obtain ⟨ops₁, ⟨s₁, entry⟩, ops₂, hfirst, hrest, rfl⟩ := Prog.bind_eq_ok h
    obtain ⟨ops₃, ⟨s₂, others⟩, ops₄, hothers, hend, rfl⟩ := Prog.bind_eq_ok hrest
    simp only [Prog.pure_run, Prod.mk.injEq, Except.ok.injEq] at hend
    obtain ⟨rfl, rfl, rfl⟩ := hend
    have happ := appendable_of_run hfirst
    rw [append_run l happ] at hfirst
    simp only [Prod.mk.injEq, Except.ok.injEq] at hfirst
    obtain ⟨rfl, rfl, rfl⟩ := hfirst
    have hdisk : runAll [.appendActive (encodeEntry H
        (l.nextEntry call.frame call.receiveWallS call.receiveMonotonicUS))] l.disk =
        (l.append happ call.receiveWallS call.receiveMonotonicUS).disk := l.append_disk happ _ _
    rw [hdisk] at hothers
    obtain ⟨l', hstart, hcreated, hentries, hs, hd⟩ := ih _ hothers
    refine ⟨l', hstart, hcreated, ?_, hs, ?_⟩
    · rw [hentries]
      show (l.active.entries ++ [_]) ++ _ = _
      simp
    · rw [List.append_nil, runAll_append, hdisk, hd]

/-! ## Torn tails -/

/-- The header of an image and the entries that end in its first `k` bytes. -/
theorem scan_truncated (l : Log H gatewayID) (k : Nat)
    (hk : k ≤ l.openFile.length) (hheader : 30 + gatewayID.length ≤ k) :
    let image := l.openFile.take k
    let whole := l.active.entries.filter fun entry => entryEnd entry ≤ k
    parseHeader image gatewayID = .ok ⟨30 + gatewayID.length, l.activeStart.next, gatewayID⟩ ∧
      parseEntries H image ⟨30 + gatewayID.length, l.activeStart.next, gatewayID⟩ none true =
        .ok (whole, lastEnd (30 + gatewayID.length) whole,
          decide (lastEnd (30 + gatewayID.length) whole < k)) := by
  have htake : l.openFile.take k =
      encodeHeader gatewayID l.activeStart.next l.active.createdWallS ++
        (encodeEntries H l.active.entries).take (k - (30 + gatewayID.length)) := by
    rw [Log.openFile, openBytes, List.take_append, length_encodeHeader,
      List.take_of_length_le (by rw [length_encodeHeader]; exact hheader)]
  have hdrop : (l.openFile.take k).drop (30 + gatewayID.length) =
      (encodeEntries H l.active.entries).take (k - (30 + gatewayID.length)) := by
    rw [htake]
    exact List.drop_left' (by simp)
  have hsum : 30 + gatewayID.length + (k - (30 + gatewayID.length)) = k := by omega
  have hsize : k - (30 + gatewayID.length) ≤ (encodeEntries H l.active.entries).length := by
    simp [openBytes] at hk
    omega
  refine ⟨?_, ?_⟩
  · rw [htake]
    exact parseHeader_encodeHeader l.validID _ _ _ _ l.activeStart_next (.inr rfl)
  · have hloop := parseEntriesLoop_truncated (k - (30 + gatewayID.length)) [] l.active_chained (.inl rfl) hsize
    rw [hsum] at hloop
    simp only [parseEntries, hdrop]
    rw [hloop]
    rfl

theorem sealTrailer_magic (s : Store) (first final : Entry) (data : Bytes) :
    ∃ rest, s.sealTrailer H first final data = trailerMagic ++ rest :=
  encodeTrailer_magic H _ _ _ _ _

/-- **The active WAL survives a torn tail.** The image is what successive `Append` calls wrote to a
new active file: cut anywhere, or followed by a cut trailer, it gives back its whole entries. -/
theorem torn_tail_recovered (H : Hashes) (gatewayID : Bytes) (hid : ValidID gatewayID) (start : UInt64)
    (hstart : start ≠ 0) (root : Digest) (created : Int64) (calls : List AppendCall) (ops : List DiskOp)
    (s : Store) (entries : List Entry)
    (hrun : ((Log.fresh hid ⟨start, root⟩ hstart created : Log H gatewayID).store.appendAll H calls).run
      (Log.fresh hid ⟨start, root⟩ hstart created : Log H gatewayID).disk = (ops, .ok (s, entries))) :
    let header : WalHeader := ⟨30 + gatewayID.length, start, gatewayID⟩
    let image := encodeHeader gatewayID start created ++ encodeEntries H entries
    (runAll ops (Log.fresh hid ⟨start, root⟩ hstart created : Log H gatewayID).disk).active = some image ∧
      (∀ k ≤ image.length, header.length ≤ k →
        let whole := entries.filter fun entry => entryEnd entry ≤ k
        parseHeader (image.take k) gatewayID = .ok header ∧
          parseEntries H (image.take k) header none true =
            .ok (whole, lastEnd header.length whole, decide (lastEnd header.length whole < k))) ∧
      (∀ k < header.length, matchesIncompleteHeader (image.take k) gatewayID start = true) ∧
      (∀ first final j, j < trailerBytes →
        let torn := image ++ (s.sealTrailer H first final image).take j
        parseHeader torn gatewayID = .ok header ∧
          parseEntries H torn header none true = .ok (entries, image.length, decide (0 < j))) := by
  obtain ⟨l, hactive, hcreated, hentries, -, hdisk⟩ := appendAll_run _ calls hrun
  have hnext : l.activeStart.next = start := by rw [hactive]; rfl
  have himage : l.openFile = encodeHeader gatewayID start created ++ encodeEntries H entries := by
    rw [Log.openFile, openBytes, hnext, hcreated, hentries]
    rfl
  have hlist : l.active.entries = entries := by rw [hentries]; rfl
  rw [hdisk]
  refine ⟨congrArg some himage, ?_, ?_, ?_⟩
  · intro k hk hheader
    have h := scan_truncated l k (by rw [himage]; exact hk) hheader
    rw [himage, hnext, hlist] at h
    exact h
  · intro k hk
    rw [List.take_append_of_le_length (by rw [length_encodeHeader]; exact Nat.le_of_lt hk)]
    exact matchesIncompleteHeader_take gatewayID start created k
  · intro first final j hj
    obtain ⟨rest, hrest⟩ := sealTrailer_magic (H := H) s first final
      (encodeHeader gatewayID start created ++ encodeEntries H entries)
    have hlen : (trailerMagic ++ rest).length = 96 := by rw [← hrest]; simp [Store.sealTrailer]
    have htail : (trailerMagic ++ rest).take j = [] ∨
        parseFront H true ((trailerMagic ++ rest).take j) l.openFile.length = .ok none :=
      .inr (parseFront_torn_trailer H rest j _ hj)
    have hheader := parseHeader_active l ((trailerMagic ++ rest).take j)
    have hscan := scan_active l _ htail
    have hpos : decide ((trailerMagic ++ rest).take j ≠ []) = decide (0 < j) := by
      have hne : trailerMagic ++ rest ≠ [] := List.ne_nil_of_length_pos (by omega)
      rw [decide_eq_decide, ne_eq, List.take_eq_nil_iff]
      simp only [hne, or_false]
      omega
    rw [himage, hnext] at hheader
    rw [himage, hnext, hlist, hpos] at hscan
    simp only [hrest]
    exact ⟨hheader, hscan⟩

/-- One appended batch: its image is on disk. -/
theorem torn_tail_recovered_one_batch :
    let H := Hashes.sample
    let hid : ValidID (ascii "g") := ⟨by decide, by decide, by decide⟩
    let l : Log H (ascii "g") := Log.fresh hid ⟨1, Digest.zero⟩ (by decide) 0
    let frame := batchFrame H (emptyBatch (ascii "l") (ascii "s") 1)
    ∃ ops s entries, (l.store.appendAll H [⟨frame, 0, 0⟩]).run l.disk = (ops, .ok (s, entries)) ∧
      entries.length = 1 ∧
      (runAll ops l.disk).active = some (encodeHeader (ascii "g") 1 0 ++ encodeEntries H entries) := by
  intro H hid l frame
  have happ : Appendable H frame :=
    appendable_batchFrame (emptyBatch_encodable ⟨by decide, by decide⟩ ⟨by decide, by decide⟩ 1) rfl
  have hrun : (l.store.appendAll H [⟨frame, 0, 0⟩]).run l.disk =
      ([.appendActive (encodeEntry H (l.nextEntry frame 0 0))],
        .ok ((l.append happ 0 0).store, [l.nextEntry frame 0 0])) := by
    rw [Store.appendAll, Prog.bind_ok (append_run l happ 0 0)]
    rfl
  exact ⟨_, _, _, hrun, rfl,
    (torn_tail_recovered H (ascii "g") hid 1 (by decide) Digest.zero 0 _ _ _ _ hrun).1⟩

end TickPlatform.Wal
