import TickPlatform.Retention.Recovery

/-!
# Interrupted prunes

Wherever an execution stops, by a crash or by an injected fault, the WAL root is recoverable, and a segment
that is gone from `sealed/` is covered by a checkpoint.
-/

namespace TickPlatform.Retention

open Bytes Protocol Replay Wal Files Crash

variable {H : Hashes} {disk : PruneDisk H} {chain : List CheckpointRecord} {segments : List VerifiedSegment}

/-! ## What an action that was checked is about -/

theorem makePruneAction_eq_ok {artifact : LocalArtifact} {proof : RetentionProof} {action : PruneAction} :
    makePruneAction H artifact proof = .ok action ↔ ∃ id digest, artifact.stableID H = .ok id ∧
      proof.digest H = .ok digest ∧
      action = { artifactID := id, artifactKind := artifact.kind, trustedPath := artifact.trustedPath,
                 bytes := artifact.bytes, contentSHA256 := encodeHashHex artifact.contentSHA256,
                 proofDigest := encodeHashHex digest,
                 walStartSequence := (artifact.walRange.map (·.startSequence)).getD 0,
                 walEndSequence := (artifact.walRange.map (·.endSequence)).getD 0 } := by
  simp only [makePruneAction, bind_eq_ok, pure_eq_ok, exists_and_left, eq_comm (a := action)]

variable {content : Content H}

theorem trustedArtifactPath_eq_ok {kind : ArtifactKind} {path : Bytes} {name : PruneName} :
    trustedArtifactPath disk kind path = .ok (name, content) ↔
      validateRelativePath path = .ok () ∧ artifactName kind path = some name ∧ disk.lookup name = some content := by
  simp only [trustedArtifactPath, bind_eq_ok, pure_eq_ok, mapError_eq_ok, elim_eq_ok, Prod.mk.injEq]
  constructor
  · rintro ⟨_, hpath, _, hname, _, hcontent, rfl, rfl⟩
    exact ⟨hpath, hname, hcontent⟩
  · rintro ⟨hpath, hname, hcontent⟩
    exact ⟨(), hpath, _, hname, _, hcontent, rfl, rfl⟩

theorem resolveArtifact_eq_ok {artifact : LocalArtifact} {text : String} {file : PruneName × Content H} :
    resolveArtifact disk artifact text = .ok file ↔
      trustedArtifactPath disk artifact.kind artifact.trustedPath = .ok file :=
  mapError_eq_ok

/-- The facts `validateAction` establishes before a file is touched. -/
structure Validated (roots : PruneRoots) (plan : PrunePlan) (known : List Identified) (disk : PruneDisk H)
    (action : PruneAction) (artifact : LocalArtifact) (proof : RetentionProof) : Prop where
  candidate : ∃ candidate, known.lookup action.artifactID = some candidate ∧ candidate.artifact = artifact ∧
    deletionProof plan candidate = .ok proof
  made : makePruneAction H artifact proof = .ok action
  valid : proof.validate = .ok ()
  bound : proofMatchesArtifact proof artifact = true
  root : roots.rootFor action.artifactKind = true
  file : ∃ name content, trustedArtifactPath disk artifact.kind artifact.trustedPath = .ok (name, content) ∧
    verifyLocalArtifact content artifact = .ok ()

variable {fault : FaultInjector} {roots : PruneRoots} {plan : PrunePlan} {known : List Identified} {action : PruneAction}
  {artifact : LocalArtifact} {proof : RetentionProof}

theorem validateAction_eq_ok : validateAction roots plan known disk action = .ok (artifact, proof) ↔
      Validated roots plan known disk action artifact proof := by
  simp only [validateAction, checkRoot, bind_eq_ok, pure_eq_ok, reject_eq_ok, elim_eq_ok, resolveArtifact_eq_ok,
    Prod.mk.injEq, not_not, not_or, toOption_eq_some, Bool.not_eq_false, ← ne_eq, Bool.not_eq_eq_eq_not, Bool.not_true]
  constructor
  · rintro ⟨candidate, hlookup, proof', hproof, _, haction, _, ⟨hvalid, hbound⟩, _, hroot, ⟨name, content⟩, hfile, _,
      hverify, rfl, rfl⟩
    refine ⟨⟨candidate, hlookup, rfl, hproof⟩, haction, ?_, hbound, hroot, name, content, hfile, hverify⟩
    cases hcheck : proof'.validate with
    | error err => simp [hcheck, Except.toOption] at hvalid
    | ok u => rfl
  · rintro ⟨⟨candidate, hlookup, rfl, hproof⟩, haction, hvalid, hbound, hroot, name, content, hfile, hverify⟩
    refine ⟨candidate, hlookup, proof, hproof, (), haction, (), ⟨?_, hbound⟩, (), hroot, (name, content), hfile, (),
      hverify, rfl, rfl⟩
    rw [hvalid]
    simp [Except.toOption]

theorem verifySegmentOf_eq_ok {data : Bytes} {text : String} : verifySegmentOf (H := H) artifact data text = .ok () ↔
      ∃ segment, verifySealedSegment H data = .ok segment ∧ segment.objectSHA256 = artifact.contentSHA256 ∧
        UInt64.ofNat segment.fileBytes = artifact.bytes ∧ artifact.walRange = some (rangeOf segment) := by
  simp only [verifySegmentOf, bind_eq_ok, mapError_eq_ok, segmentMatches]
  simp

theorem verifyLocalArtifact_segment (h : verifyLocalArtifact content artifact = .ok ())
    (hkind : artifact.kind = .walSegment ∨ artifact.kind = .rawOutbox) :
    ∃ segment, verifySealedSegment H content.bytes = .ok segment ∧ segment.objectSHA256 = artifact.contentSHA256 ∧
      UInt64.ofNat segment.fileBytes = artifact.bytes ∧ artifact.walRange = some (rangeOf segment) := by
  simp only [verifyLocalArtifact, bind_eq_ok, if_pos hkind] at h
  obtain ⟨_, -, _, -, _, -, h⟩ := h
  exact verifySegmentOf_eq_ok.mp h

theorem artifactName_sealed {path : Bytes} {name : PruneName} (h : artifactName .walSegment path = some name) :
    ∃ file, name = .sealed file ∧ path = sealedPath file := by
  simp only [artifactName] at h
  split at h
  · next hprefix =>
    obtain ⟨rest, hrest⟩ := List.isPrefixOf_iff_prefix.mp hprefix
    refine ⟨path.drop 7, (Option.some.inj h).symm, ?_⟩
    rw [← hrest]
    rfl
  · cases h

theorem sealedPath_inj {a b : Bytes} (h : sealedPath a = sealedPath b) : a = b := List.append_cancel_left h

/-! ## Publishing -/

section
variable {C : PruneDisk H → Prop} {Q : Unit → PruneDisk H → Prop} {E : PruneError → PruneDisk H → Prop}

theorem meets_inject_bind {call : Nat} {point : FaultPoint} {id : Bytes} {f : Unit → PruneProg H Unit} (hC : C disk)
    (hE : ∀ err, E err disk) (h : Meets (f ()) disk C Q E) : Meets (inject fault call point id >>= f) disk C Q E :=
  meets_lift_bind hC (fun err _ => hE err) fun _ _ => h

theorem meets_inject {call : Nat} {point : FaultPoint} {id : Bytes} (hC : C disk) (hE : ∀ err, E err disk)
    (hQ : Q () disk) : Meets (inject fault call point id) disk C Q E :=
  meets_lift hC (fun err _ => hE err) fun _ _ => hQ

theorem meets_publishFile {temporary target : PruneName} {content : Content H} (hC : C disk)
    (hpart : ∀ part, C (disk.insert temporary part))
    (hlinked : C ((disk.insert temporary content).insert target content))
    (hdone : C (((disk.insert temporary content).insert target content).erase temporary))
    (hQ : Q () (((disk.insert temporary content).insert target content).erase temporary)) :
    Meets (publishFile temporary target content) disk C Q E := by
  have hlink : Device.run (.link temporary target) (disk.insert temporary content) =
      (disk.insert temporary content).insert target content := run_link (AList.lookup_insert _)
  refine meets_bind (meets_emit hC ?_ (hpart content) ?_)
  · rintro t ⟨part, rfl⟩
    exact hpart part
  refine meets_bind (meets_emit (hpart content) (fun t h => absurd h torn_link) (by rw [run_write, hlink]; exact hlinked) ?_)
  rw [run_write, hlink]
  exact meets_emit hlinked (fun t h => absurd h torn_remove) hdone hQ

end

variable {checkpoint : PruneCheckpoint}

theorem sealCheckpoint_value {document : CheckpointDocument H}
    (h : sealCheckpoint H checkpoint = .ok document) : document.value = checkpoint := by
  unfold sealCheckpoint at h
  split at h
  · cases h
    rfl
  · cases h

theorem checkPredecessor_ok {genesis broken genesis' broken' : String}
    (h : checkPredecessor chain checkpoint genesis broken = .ok ()) :
    checkPredecessor chain checkpoint genesis' broken' = .ok () := by
  unfold checkPredecessor at h ⊢
  split at h
  · exact reject_eq_ok.mpr (reject_eq_ok.mp h)
  · exact reject_eq_ok.mpr (reject_eq_ok.mp h)

/-- The chain with one more checkpoint behind the others. -/
theorem chainOf_publish (h : chainOf disk = .ok chain) {document : CheckpointDocument H} {genesis broken : String}
    (hpredecessor : checkPredecessor chain document.value genesis broken = .ok ())
    (hnew : lastEnd chain < document.value.endSequence) :
    chainOf (disk.insert (.checkpoint document.value.endSequence) (.checkpoint document)) =
      .ok (chain ++ [recordOf document]) := by
  have hends := chain_ends h
  have hlist : checkpointFolder.list (fun a b : UInt64 => a ≤ b)
      (disk.insert (checkpointFolder.place document.value.endSequence) (.checkpoint document)) =
      checkpointFolder.list (fun a b : UInt64 => a ≤ b) disk ++ [(document.value.endSequence, .checkpoint document)] := by
    refine checkpointFolder.list_insert_last _ fun endSequence content hmem => ?_
    rw [checkpointFolder.mem_list] at hmem
    have hin : endSequence ∈ chain.map (·.checkpoint.endSequence) := by
      rw [hends.2]
      intro hnone
      exact absurd (hnone.symm.trans hmem) (by simp)
    obtain ⟨record, hrecord, rfl⟩ := List.mem_map.mp hin
    have hlt := UInt64.lt_of_le_of_lt (le_lastEnd hends.1 hrecord) hnew
    exact ⟨UInt64.le_of_lt hlt, UInt64.ne_of_lt hlt⟩
  show (checkpointFolder.list _ (disk.insert (checkpointFolder.place document.value.endSequence) _)).foldlM _ _ = _
  rw [hlist, List.foldlM_append, bind_eq_ok]
  refine ⟨chain, h, foldlM_cons_eq_ok.mpr ⟨_, ?_, foldlM_nil_eq_ok.mpr rfl⟩⟩
  exact addCheckpoint_eq_ok.mpr ⟨document, rfl, rfl, checkPredecessor_ok hpredecessor, rfl⟩

/-! ## The stages of a prune -/

/-- What the segments of a WAL have come to: each is still retained or covered by the last checkpoint. -/
def Progress (chain : List CheckpointRecord) (segments : List VerifiedSegment) (chain' : List CheckpointRecord)
    (segments' : List VerifiedSegment) : Prop :=
  lastEnd chain ≤ lastEnd chain' ∧
    ∀ segment ∈ segments, segment ∈ segments' ∨ segment.lastSequence ≤ lastEnd chain'

theorem Progress.refl (chain : List CheckpointRecord) (segments : List VerifiedSegment) :
    Progress chain segments chain segments :=
  ⟨UInt64.le_refl _, fun _ hmem => .inl hmem⟩

theorem Progress.trans {chain' chain'' : List CheckpointRecord} {segments' segments'' : List VerifiedSegment}
    (h : Progress chain segments chain' segments') (h' : Progress chain' segments' chain'' segments'') :
    Progress chain segments chain'' segments'' := by
  refine ⟨UInt64.le_trans h.1 h'.1, fun segment hmem => ?_⟩
  rcases h.2 segment hmem with hmem' | hle
  · exact h'.2 segment hmem'
  · exact .inr (UInt64.le_trans hle h'.1)

/-- The directory is recoverable and no segment was lost. -/
def Safe (chain : List CheckpointRecord) (segments : List VerifiedSegment) (disk : PruneDisk H) : Prop :=
  ∃ chain' segments', Recoverable disk chain' segments' ∧ Progress chain segments chain' segments'

theorem Safe.congr {other : PruneDisk H} (h : Safe chain segments disk) (hsame : SameWAL disk other) :
    Safe chain segments other := by
  obtain ⟨chain', segments', hrecoverable, hprogress⟩ := h
  exact ⟨chain', segments', hrecoverable.congr hsame, hprogress⟩

theorem Retained.safe (h : Retained disk chain segments) : Safe chain segments disk :=
  ⟨chain, segments, h.recoverable, Progress.refl chain segments⟩

section
variable {segment : VerifiedSegment} {rest : List VerifiedSegment} {document : CheckpointDocument H}

/-- The checkpoint releases the segment. -/
structure Releases (document : CheckpointDocument H) (segment : VerifiedSegment) : Prop where
  endSequence : document.value.endSequence = segment.lastSequence
  root : document.value.retainedChainRoot = segment.chainRoot
  sha256 : document.value.lastSegmentSHA256 = segment.objectSHA256

theorem Retained.head_after (h : Retained disk chain (segment :: rest)) : lastEnd chain < segment.startSequence :=
  (follows_starts h.follows fun _ hmem => h.recoverable.rangeOk hmem).1 segment List.mem_cons_self

theorem Retained.release_progress (h : Retained disk chain (segment :: rest)) (hreleases : Releases document segment) :
    Progress chain (segment :: rest) (chain ++ [recordOf document]) rest := by
  have hrange := h.recoverable.rangeOk List.mem_cons_self
  have hend : lastEnd (chain ++ [recordOf document]) = segment.lastSequence := by
    rw [lastEnd_append]
    exact hreleases.endSequence
  rw [Progress, hend]
  refine ⟨UInt64.le_of_lt (UInt64.lt_of_lt_of_le h.head_after hrange.2), fun other hmem => ?_⟩
  rcases List.mem_cons.mp hmem with rfl | hmem
  · exact .inr (UInt64.le_refl _)
  · exact .inl hmem

/-- Once its checkpoint is there, the first retained segment is a released one. -/
theorem Retained.publish (h : Retained disk chain (segment :: rest)) (hreleases : Releases document segment)
    {genesis broken : String} (hpredecessor : checkPredecessor chain document.value genesis broken = .ok ()) :
    Recoverable (disk.insert (.checkpoint document.value.endSequence) (.checkpoint document))
      (chain ++ [recordOf document]) rest := by
  have hfollows := h.follows
  have hrange := h.recoverable.rangeOk List.mem_cons_self
  have hsame : ∀ file, (∀ endSequence, file ≠ .checkpoint endSequence) →
      (disk.insert (.checkpoint document.value.endSequence) (.checkpoint document)).lookup file = disk.lookup file := by
    intro file hfile
    rw [lookup_insert_of, if_neg (hfile _)]
  have hlt : lastEnd chain < document.value.endSequence := by
    rw [hreleases.endSequence]
    exact UInt64.lt_of_lt_of_le h.head_after hrange.2
  refine ⟨?_, chainOf_publish h.checkpoints hpredecessor hlt, ?_, ?_, ?_, ?_, ?_⟩
  · intro name
    rw [hsame _ (by simp)]
    exact h.known name
  · have hnext := hfollows.2.2
    rw [← hreleases.endSequence, ← hreleases.root] at hnext
    rw [boundaryOf, lastEnd_append, lastRoot_append]
    exact hnext
  · intro other hmem
    obtain ⟨content, hlookup, hverified⟩ := h.held other (List.mem_cons_of_mem _ hmem)
    exact ⟨content, by rw [hsame _ (by simp), hlookup], hverified⟩
  · intro name content hsealed hsuffix
    rw [hsame _ (by simp)] at hsealed
    obtain ⟨other, hmem, hname⟩ := h.sealed name content hsealed hsuffix
    rcases List.mem_cons.mp hmem with rfl | hmem
    · obtain ⟨content', hlookup, hverified⟩ := h.held other List.mem_cons_self
      rw [← hname, hsealed, Option.some.injEq] at hlookup
      rw [← hlookup] at hverified
      refine .inr ⟨chain, recordOf document, rfl, ?_, other, hverified, hreleases.endSequence.symm,
        hreleases.sha256.symm, hreleases.root.symm⟩
      rw [hname, nameOf, hfollows.1]
      exact congrArg _ hreleases.endSequence.symm
    · exact .inl ⟨other, hmem, hname⟩
  · intro name content htrash
    rw [hsame _ (by simp), h.trash name] at htrash
    cases htrash
  · intro name _
    rw [hsame _ (by simp)]
    exact h.trash name

end

/-- The released file moves to the trash. -/
theorem Recoverable.moved {front : List CheckpointRecord} {record : CheckpointRecord}
    (h : Recoverable disk (front ++ [record]) segments) {name : Bytes}
    (hname : name = segmentNameFromRange (lastEnd front + 1) record.checkpoint.endSequence)
    (hsealed : disk.lookup (.sealed name) = some content) :
    Recoverable ((disk.erase (.sealed name)).insert (.trash name) content) (front ++ [record]) segments := by
  have hreleased : Released (front ++ [record]) name content := by
    rcases h.sealed name content hsealed (hname ▸ walSuffix_segmentName _ _) with ⟨segment, hmem, heq⟩ | hreleased
    · exact absurd (hname.symm.trans heq) (h.name_ne rfl hmem)
    · exact hreleased
  have hbase : Retained ((disk.erase (.sealed name)).erase (.trash name)) (front ++ [record]) segments := by
    refine h.settled hname ?_ (AList.lookup_erase _ _) fun file _ hne hne' => ?_
    · rw [lookup_erase_of, if_neg (by simp), AList.lookup_erase]
    · rw [lookup_erase_of, if_neg hne', lookup_erase_of, if_neg hne]
  have hsame : ∀ file, file ≠ .trash name →
      ((disk.erase (.sealed name)).insert (.trash name) content).lookup file =
        ((disk.erase (.sealed name)).erase (.trash name)).lookup file := by
    intro file hne
    rw [AList.lookup_insert_ne hne, AList.lookup_erase_ne hne]
  refine ⟨?_, ?_, h.follows, ?_, ?_, ?_, ?_⟩
  · intro file
    rw [hsame _ (by simp)]
    exact hbase.known file
  · rw [← hbase.checkpoints, chainOf, chainOf, checkpointFolder.list_congr (fun a b : UInt64 => a ≤ b) fun endSequence =>
      hsame (.checkpoint endSequence) (by simp)]
  · intro segment hmem
    obtain ⟨content', hlookup, hverified⟩ := hbase.held segment hmem
    exact ⟨content', by rw [hsame _ (by simp), hlookup], hverified⟩
  · intro file content' hfile hsuffix
    rw [hsame _ (by simp)] at hfile
    exact .inl (hbase.sealed file content' hfile hsuffix)
  · intro file content' hfile
    by_cases hne : file = name
    · rw [hne, AList.lookup_insert, Option.some.injEq] at hfile
      rw [hne, ← hfile]
      exact hreleased
    · rw [hsame _ (by simpa using hne), hbase.trash file] at hfile
      cases hfile
  · intro file hfile
    have hne : file ≠ name := by
      rintro rfl
      rw [hsame _ (by simp), lookup_erase_of, if_neg (by simp), AList.lookup_erase] at hfile
      exact hfile rfl
    rw [hsame _ (by simpa using hne)]
    exact hbase.trash file

/-! ## One segment -/

theorem checkpointAnchor_eq_ok {anchor : Digest × WALBoundary} (h : checkpointAnchor chain = .ok anchor) :
    anchor.2 = boundaryOf chain := by
  rw [checkpointAnchor] at h
  cases hlast : chain.getLast? with
  | none =>
    rw [hlast] at h
    cases h
    simp [boundaryOf, lastEnd, lastRoot, hlast, genesisBoundary]
  | some previous =>
    simp only [hlast, bind_eq_ok, pure_eq_ok] at h
    obtain ⟨_, -, rfl⟩ := h
    simp [boundaryOf, lastEnd, lastRoot, hlast]

theorem checkAnchor_eq_ok {boundary : WALBoundary} {range : WALRange} :
    checkAnchor plan action artifact boundary = .ok range ↔
      artifact.walRange = some range ∧ plan.walExpectedStart = boundary.expectedStart ∧
        action.walStartSequence = boundary.expectedStart ∧ range.startChainRoot = boundary.chainRoot ∧
        artifact.trustedPath = sealedPath (segmentNameFromRange action.walStartSequence action.walEndSequence) ∧
        range.startSequence ≤ action.walEndSequence := by
  simp only [checkAnchor, bind_eq_ok, pure_eq_ok, elim_eq_ok, reject_eq_ok, not_or, not_not, UInt64.not_lt, ne_eq]
  constructor
  · rintro ⟨found, hrange, _, ⟨hplan, hstart, hroot⟩, _, hpath, _, hend, rfl⟩
    exact ⟨hrange, hplan, hstart, hroot, hpath, hend⟩
  · rintro ⟨hrange, hplan, hstart, hroot, hpath, hend⟩
    exact ⟨range, hrange, (), ⟨hplan, hstart, hroot⟩, (), hpath, (), hend, rfl⟩

/-- A WAL action that passes its checks is about the first retained segment. -/
structure ActsOn (disk : PruneDisk H) (action : PruneAction) (artifact : LocalArtifact) (range : WALRange)
    (segment : VerifiedSegment) : Prop where
  held : Held disk segment
  name : segmentNameFromRange action.walStartSequence action.walEndSequence = nameOf segment
  path : artifactName artifact.kind artifact.trustedPath = some (.sealed (nameOf segment))
  endSequence : action.walEndSequence = segment.lastSequence
  root : range.endChainRoot = segment.chainRoot
  sha256 : artifact.contentSHA256 = segment.objectSHA256

theorem Validated.kind_eq (h : Validated roots plan known disk action artifact proof) :
    action.artifactKind = artifact.kind := by
  obtain ⟨id, digest, -, -, rfl⟩ := makePruneAction_eq_ok.mp h.made
  rfl

theorem Retained.actsOn (h : Retained disk chain segments)
    (hvalidated : Validated roots plan known disk action artifact proof) (hkind : action.artifactKind = .walSegment)
    {range : WALRange} (hanchor : checkAnchor plan action artifact (boundaryOf chain) = .ok range) :
    ∃ segment rest, segments = segment :: rest ∧ ActsOn disk action artifact range segment := by
  obtain ⟨hrange, -, hstart, -, hpath, -⟩ := checkAnchor_eq_ok.mp hanchor
  rw [hvalidated.kind_eq] at hkind
  obtain ⟨name, content, hfile, hverify⟩ := hvalidated.file
  obtain ⟨segment, hverified, hsha, -, hwal⟩ := verifyLocalArtifact_segment hverify (.inl hkind)
  rw [hrange, Option.some.injEq] at hwal
  obtain ⟨-, hname, hlookup⟩ := trustedArtifactPath_eq_ok.mp hfile
  rw [hkind] at hname
  obtain ⟨file, rfl, hfilePath⟩ := artifactName_sealed hname
  obtain ⟨id, digest, -, -, rfl⟩ := makePruneAction_eq_ok.mp hvalidated.made
  simp only [hrange, Option.map_some, Option.getD_some, hwal, rangeOf] at hstart hpath
  have hfileName : file = nameOf segment := sealedPath_inj (hfilePath.symm.trans hpath)
  subst hfileName
  -- the file is one of the retained ones, and the one that starts at the boundary is the first
  obtain ⟨other, hmem, hsame⟩ := h.sealed _ content hlookup (walSuffix_segmentName _ _)
  have hother := segmentNameFromRange_inj hsame
  cases segments with
  | nil => cases hmem
  | cons first rest =>
    have hfirst : first.startSequence = (boundaryOf chain).expectedStart := h.follows.1
    have heq : other = first := by
      rcases List.mem_cons.mp hmem with heq | hlater
      · exact heq
      · have hlt := (List.pairwise_cons.mp h.sorted).1 other hlater
        rw [hfirst, ← hstart, hother] at hlt
        exact absurd hlt (UInt64.lt_irrefl _)
    subst heq
    obtain ⟨content', hlookup', hverified'⟩ := h.held other List.mem_cons_self
    rw [← hsame, hlookup, Option.some.injEq] at hlookup'
    rw [← hlookup', hverified, Except.ok.injEq] at hverified'
    subst hverified'
    refine ⟨segment, rest, rfl, ⟨content, hlookup, hverified⟩, ?_, ?_, ?_, ?_, hsha.symm⟩
    · simp [hrange, hwal, rangeOf, nameOf]
    · rw [hkind, hname]
    · simp [hrange, hwal, rangeOf]
    · rw [hwal]
      rfl

theorem sameWAL_published (disk : PruneDisk H) (temporary target : PruneName) (h : PruneName.inWAL temporary = false)
    (content : Content H) :
    SameWAL (disk.insert target content) ((disk.insert temporary content).insert target content) := by
  intro name hname
  rw [lookup_insert_of, lookup_insert_of, lookup_insert_of, if_neg (fun heq : name = temporary => ?_)]
  rw [heq, h] at hname
  cases hname

theorem publishCheckpoint_meets {segment : VerifiedSegment} {rest : List VerifiedSegment}
    (h : Retained disk chain (segment :: rest))
    (hend : checkpoint.endSequence = segment.lastSequence) (hroot : checkpoint.retainedChainRoot = segment.chainRoot)
    (hsha : checkpoint.lastSegmentSHA256 = segment.objectSHA256) :
    Meets (publishCheckpoint checkpoint) disk (Safe chain (segment :: rest))
      (fun _ t => ∃ document : CheckpointDocument H, document.value = checkpoint ∧ Releases document segment ∧
        Recoverable t (chain ++ [recordOf document]) rest ∧
        SameWAL (disk.insert (.checkpoint document.value.endSequence) (.checkpoint document)) t)
      (fun _ t => Safe chain (segment :: rest) t) := by
  refine meets_lift_bind h.safe (fun _ _ => h.safe) fun document hdocument => ?_
  have hvalue := sealCheckpoint_value (mapError_eq_ok.mp hdocument)
  have hreleases : Releases document segment := ⟨hvalue ▸ hend, hvalue ▸ hroot, hvalue ▸ hsha⟩
  have hfree : disk.lookup (.checkpoint checkpoint.endSequence) = none := by
    by_contra hne
    rw [← ne_eq, ← (chain_ends h.checkpoints).2, hend] at hne
    obtain ⟨record, hmem, heq⟩ := List.mem_map.mp hne
    have hle := heq ▸ le_lastEnd (chain_ends h.checkpoints).1 hmem
    have hlt := UInt64.lt_of_lt_of_le h.head_after (h.recoverable.rangeOk List.mem_cons_self).2
    exact UInt64.not_le.mpr hlt hle
  refine meets_read_bind ?_
  rw [hfree]
  refine meets_read_bind (meets_lift_bind h.safe (fun _ _ => h.safe) fun chain' hchain => ?_)
  have hsame : chain' = chain := by
    have := (loadCheckpointChain_eq_ok.mp hchain).2.2
    rw [h.checkpoints, Except.ok.injEq] at this
    exact this.symm
  subst hsame
  refine meets_lift_bind h.safe (fun _ _ => h.safe) fun _ hpredecessor => ?_
  refine meets_read_bind ?_
  have hpublished := h.publish hreleases hpredecessor
  have hsafe : ∀ t, SameWAL (disk.insert (.checkpoint document.value.endSequence) (.checkpoint document)) t →
      Safe chain' (segment :: rest) t := fun t hsame =>
    ⟨_, _, hpublished.congr hsame, h.release_progress hreleases⟩
  have hlinked := sameWAL_published disk (.checkpointTemporary (freshNonce disk))
    (.checkpoint document.value.endSequence) rfl (.checkpoint document)
  have hdone := hlinked.trans (sameWAL_erase _ (.checkpointTemporary (freshNonce disk)) rfl)
  exact meets_publishFile h.safe (fun part => h.safe.congr (sameWAL_insert disk _ rfl part)) (hsafe _ hlinked) (hsafe _ hdone)
    ⟨document, hvalue, hreleases, hpublished.congr hdone, hdone⟩

theorem unlinkSegment_meets {front : List CheckpointRecord} {record : CheckpointRecord} {rest : List VerifiedSegment}
    (h : Recoverable disk (front ++ [record]) rest) {name id : Bytes}
    (hname : name = segmentNameFromRange (lastEnd front + 1) record.checkpoint.endSequence)
    (hsealed : disk.lookup (.sealed name) = some content) (hprogress : Progress chain segments (front ++ [record]) rest) :
    Meets (unlinkSegment fault artifact id name) disk (Safe chain segments)
      (fun _ t => Retained t (front ++ [record]) rest) (fun _ t => Safe chain segments t) := by
  have hsafe : Safe chain segments disk := ⟨_, _, h, hprogress⟩
  have hmoved := h.moved hname hsealed
  have hsafe' : Safe chain segments ((disk.erase (.sealed name)).insert (.trash name) content) :=
    ⟨_, _, hmoved, hprogress⟩
  have hgone : Retained (((disk.erase (.sealed name)).insert (.trash name) content).erase (.trash name))
      (front ++ [record]) rest := by
    refine hmoved.settled hname ?_ (AList.lookup_erase _ _) fun file _ _ hne' => ?_
    · rw [lookup_erase_of, if_neg (by simp), lookup_insert_of, if_neg (by simp), AList.lookup_erase]
    · rw [lookup_erase_of, if_neg hne']
  have hsafe'' : Safe chain segments (((disk.erase (.sealed name)).insert (.trash name) content).erase (.trash name)) :=
    ⟨_, _, hgone.recoverable, hprogress⟩
  refine meets_bind (meets_read_bind ?_)
  rw [h.once name (by simp [hsealed])]
  refine meets_inject_bind hsafe (fun _ => hsafe) ?_
  refine meets_bind (meets_emit hsafe (fun t ht => absurd ht torn_rename) ?_ ?_) <;> rw [run_rename hsealed]
  · exact hsafe'
  refine meets_inject_bind hsafe' (fun _ => hsafe') (meets_inject hsafe' (fun _ => hsafe') ?_)
  refine meets_inject_bind hsafe' (fun _ => hsafe') ?_
  refine meets_bind (meets_emit hsafe' (fun t ht => absurd ht torn_remove) hsafe'' ?_)
  exact meets_inject_bind hsafe'' (fun _ => hsafe'') (meets_inject hsafe'' (fun _ => hsafe'') hgone)

/-- **One WAL action**: wherever it stops the root is recoverable, and where it succeeds the plan and the action
start behind the last checkpoint and the WAL is retained again behind a later one. -/
theorem executeWAL_meets (h : Retained disk chain segments)
    (hvalidated : Validated roots plan known disk action artifact proof) (hkind : action.artifactKind = .walSegment) :
    Meets (executeWAL fault plan action artifact proof) disk (Safe chain segments)
      (fun _ t => plan.walExpectedStart = lastEnd chain + 1 ∧ action.walStartSequence = lastEnd chain + 1 ∧
        ∃ chain' segments', Retained t chain' segments' ∧ Progress chain segments chain' segments' ∧
          lastEnd chain < lastEnd chain')
      (fun _ t => Safe chain segments t) := by
  refine meets_read_bind (meets_lift_bind h.safe (fun _ _ => h.safe) fun chain' hchain => ?_)
  have hsame : chain' = chain := by
    have := (loadCheckpointChain_eq_ok.mp hchain).2.2
    rw [h.checkpoints, Except.ok.injEq] at this
    exact this.symm
  subst hsame
  refine meets_lift_bind h.safe (fun _ _ => h.safe) fun anchor hanchor => ?_
  refine meets_lift_bind h.safe (fun _ _ => h.safe) fun range hrange => ?_
  rw [checkpointAnchor_eq_ok hanchor] at hrange
  obtain ⟨-, hplan, hstart, -⟩ := checkAnchor_eq_ok.mp hrange
  obtain ⟨segment, rest, rfl, hacts⟩ := h.actsOn hvalidated hkind hrange
  refine meets_inject_bind h.safe (fun _ => h.safe) (meets_bind ?_)
  refine (publishCheckpoint_meets h hacts.endSequence hacts.root hacts.sha256).mono (fun _ ht => ht) ?_ (fun _ _ ht => ht)
  rintro _ t ⟨document, -, hreleases, hrecoverable, hsame⟩
  have hprogress := h.release_progress hreleases
  have hsafe : Safe chain' (segment :: rest) t := ⟨_, _, hrecoverable, hprogress⟩
  refine meets_inject_bind hsafe (fun _ => hsafe) (meets_inject_bind hsafe (fun _ => hsafe) ?_)
  refine meets_read_bind (meets_lift_bind hsafe (fun _ _ => hsafe) fun _ _ => ?_)
  obtain ⟨content, hlookup, -⟩ := hacts.held
  have hsealed : t.lookup (.sealed (nameOf segment)) = some content := by
    rw [hsame _ rfl, lookup_insert_of, if_neg (by simp), hlookup]
  have hname : nameOf segment =
      segmentNameFromRange (lastEnd chain' + 1) (recordOf document).checkpoint.endSequence := by
    rw [nameOf, h.follows.1]
    exact congrArg _ hreleases.endSequence.symm
  rw [hacts.name]
  refine (unlinkSegment_meets hrecoverable hname hsealed hprogress).mono (fun _ ht => ht) ?_ (fun _ _ ht => ht)
  have hlater : lastEnd chain' < lastEnd (chain' ++ [recordOf document]) := by
    rw [lastEnd_append]
    exact UInt64.lt_of_lt_of_le h.head_after
      (hreleases.endSequence ▸ (h.recoverable.rangeOk List.mem_cons_self).2)
  exact fun _ t' hretained => ⟨hplan, hstart, _, _, hretained, hprogress, hlater⟩

/-! ## A whole execution -/

theorem Safe.mono {chain' : List CheckpointRecord} {segments' : List VerifiedSegment}
    (h : Safe chain' segments' disk) (hprogress : Progress chain segments chain' segments') : Safe chain segments disk := by
  obtain ⟨chain'', segments'', hrecoverable, hprogress'⟩ := h
  exact ⟨chain'', segments'', hrecoverable, hprogress.trans hprogress'⟩

theorem executeWALActions_meets {actions : List PruneAction} (hkind : ∀ action ∈ actions, action.artifactKind = .walSegment)
    (h : Retained disk chain segments) :
    Meets (executeWALActions fault roots plan known actions) disk (Safe chain segments)
      (fun _ t => ∃ chain' segments', Retained t chain' segments' ∧ Progress chain segments chain' segments')
      (fun _ t => Safe chain segments t) := by
  induction actions generalizing disk chain segments with
  | nil => exact meets_pure h.safe ⟨chain, segments, h, Progress.refl chain segments⟩
  | cons action later ih =>
    refine meets_read_bind (meets_lift_bind h.safe (fun _ _ => h.safe) ?_)
    rintro ⟨artifact, proof⟩ hvalidated
    rw [validateAction_eq_ok] at hvalidated
    refine meets_bind ((executeWAL_meets h hvalidated (hkind action List.mem_cons_self)).mono (fun _ ht => ht) ?_
      (fun _ _ ht => ht))
    rintro _ t ⟨-, -, chain', segments', hretained, hprogress, -⟩
    have hlater := ih (fun other hother => hkind other (List.mem_cons_of_mem _ hother)) hretained
    refine meets_bind (hlater.mono (fun _ ht => ht.mono hprogress) ?_ (fun _ _ ht => ht.mono hprogress))
    rintro completed t' ⟨chain'', segments'', hretained', hprogress'⟩
    have hprogress'' := hprogress.trans hprogress'
    exact meets_pure ⟨chain'', segments'', hretained'.recoverable, hprogress''⟩ ⟨chain'', segments'', hretained', hprogress''⟩

/-- An action on the outbox leaves the WAL root alone. -/
theorem executeOther_meets (hkind : action.artifactKind ≠ .walSegment)
    (hvalidated : Validated roots plan known disk action artifact proof) :
    Meets (executeOther fault roots plan action artifact proof) disk (SameWAL disk) (fun _ t => SameWAL disk t)
      (fun _ t => SameWAL disk t) := by
  have hrefl := SameWAL.refl disk
  refine meets_lift_bind hrefl (fun _ _ => hrefl) fun _ _ => ?_
  refine meets_read_bind (meets_lift_bind hrefl (fun _ _ => hrefl) fun file hfile => ?_)
  refine meets_lift_bind hrefl (fun _ _ => hrefl) fun digest _ => meets_bind ?_
  obtain ⟨name, content⟩ := file
  obtain ⟨-, hname, -⟩ := trustedArtifactPath_eq_ok.mp (resolveArtifact_eq_ok.mp hfile)
  have houtside : PruneName.inWAL name = false := by
    rw [hvalidated.kind_eq] at hkind
    cases hcase : artifact.kind with
    | walSegment => exact absurd hcase hkind
    | rawOutbox =>
      rw [hcase] at hname
      rw [← Option.some.inj hname]
      rfl
    | replayOutbox => rw [hcase] at hname; cases hname
    | cache => rw [hcase] at hname; cases hname
  have hrest : ∀ t, SameWAL disk t → Meets (do
      inject fault 0 .beforeUnlink action.artifactID
      .emit (.remove name)
      inject fault 1 .afterUnlink action.artifactID
      inject fault 2 .outboxDirectorySync action.artifactID : PruneProg H Unit) t (SameWAL disk)
      (fun _ t => SameWAL disk t) (fun _ t => SameWAL disk t) := by
    intro t ht
    have hremoved := ht.trans (sameWAL_erase t name houtside)
    refine meets_inject_bind ht (fun _ => ht) (meets_bind ?_)
    refine meets_emit ht (fun t' h => absurd h torn_remove) hremoved ?_
    exact meets_inject_bind hremoved (fun _ => hremoved) (meets_inject hremoved (fun _ => hremoved) hremoved)
  refine meets_lift_bind hrefl (fun _ _ => hrefl) fun document _ => ?_
  refine meets_lift_bind hrefl (fun _ _ => hrefl) fun _ _ => meets_read_bind ?_
  cases disk.lookup (.completion (completionOf plan action artifact proof digest).artifactID) with
  | some existing => exact meets_lift hrefl (fun _ _ => hrefl) fun _ _ => hrest _ hrefl
  | none =>
    refine meets_read_bind ?_
    have hwritten : ∀ part, SameWAL disk (disk.insert (.completionTemporary (freshNonce disk)) part) :=
      fun part => sameWAL_insert disk _ rfl part
    have hlinked := (hwritten (.completion document)).trans
      (sameWAL_insert _ (.completion (completionOf plan action artifact proof digest).artifactID) rfl
        (.completion document))
    have hdone := hlinked.trans (sameWAL_erase _ (.completionTemporary (freshNonce disk)) rfl)
    exact meets_publishFile hrefl hwritten hlinked hdone (hrest _ hdone)

theorem executeOtherActions_meets {actions : List PruneAction}
    (hkind : ∀ action ∈ actions, action.artifactKind ≠ .walSegment) :
    Meets (executeOtherActions fault roots plan known actions) disk (SameWAL disk) (fun _ t => SameWAL disk t)
      (fun _ t => SameWAL disk t) := by
  induction actions generalizing disk with
  | nil => exact meets_pure (SameWAL.refl disk) (SameWAL.refl disk)
  | cons action later ih =>
    have hrefl := SameWAL.refl disk
    have hnext : ∀ t, SameWAL disk t → Meets (do
        let completed ← executeOtherActions fault roots plan known later
        return action.artifactID :: completed : PruneProg H (List Bytes)) t (SameWAL disk) (fun _ t => SameWAL disk t)
        (fun _ t => SameWAL disk t) := by
      intro t ht
      have hlater := @ih t fun other hother => hkind other (List.mem_cons_of_mem _ hother)
      refine meets_bind (hlater.mono (fun _ h => ht.trans h) ?_ (fun _ _ h => ht.trans h))
      exact fun _ t' h => meets_pure (ht.trans h) (ht.trans h)
    refine meets_bind ?_
    refine meets_read_bind (meets_lift_bind hrefl (fun _ _ => hrefl) fun skip _ => ?_)
    cases skip with
    | true => exact meets_pure hrefl (hnext disk hrefl)
    | false =>
      refine meets_read_bind (meets_lift_bind hrefl (fun _ _ => hrefl) ?_)
      rintro ⟨artifact, proof⟩ hvalidated
      rw [validateAction_eq_ok] at hvalidated
      exact (executeOther_meets (hkind action List.mem_cons_self) hvalidated).mono (fun _ h => h)
        (fun _ t h => hnext t h) (fun _ _ h => h)

theorem mem_walActions {plan : PrunePlan} {action : PruneAction} :
    action ∈ walActions plan ↔ action ∈ plan.actions ∧ action.artifactKind = .walSegment := by
  simp [walActions]

theorem mem_otherActions {plan : PrunePlan} {action : PruneAction} :
    action ∈ otherActions plan ↔ action ∈ plan.actions ∧ action.artifactKind ≠ .walSegment := by
  simp [otherActions]

/-- **A whole execution**, of any plan: wherever it stops the root is recoverable and no segment is lost. -/
theorem execute_meets {candidates : List CandidateFact} (h : Retained disk chain segments) :
    Meets (execute fault roots plan candidates) disk (Safe chain segments) (fun _ t => Safe chain segments t)
      (fun _ t => Safe chain segments t) := by
  refine meets_lift_bind h.safe (fun _ _ => h.safe) fun known _ => meets_bind ?_
  refine (executeWALActions_meets (fun action hmem => (mem_walActions.mp hmem).2) h).mono (fun _ ht => ht) ?_
    (fun _ _ ht => ht)
  rintro completed t ⟨chain', segments', hretained, hprogress⟩
  have hsafe : ∀ t', SameWAL t t' → Safe chain segments t' := fun t' hsame =>
    ⟨chain', segments', hretained.recoverable.congr hsame, hprogress⟩
  refine meets_bind ?_
  refine (executeOtherActions_meets fun action hmem => (mem_otherActions.mp hmem).2).mono hsafe ?_
    (fun _ t' hsame => hsafe t' hsame)
  exact fun _ t' hsame => meets_pure (hsafe t' hsame) (hsafe t' hsame)

/-- The sealed file of one batch at the given place of a chain. -/
def sampleSegment (sequence : UInt64) (previous : Digest) : Bytes :=
  let frame := batchFrame sampleHashes (emptyBatch (ascii "l") (ascii "s") sequence)
  sealedBytes sampleHashes (ascii "g") ⟨sequence, previous⟩
    { entries := [makeEntry sampleHashes 31 sequence previous frame 0 0], createdWallS := 0 }

def oneSegment : PruneDisk sampleHashes :=
  AList.insert (.sealed (segmentNameFromRange 1 1)) (.data (sampleSegment 1 Digest.zero)) ∅

def oneCandidate : List CandidateFact :=
  (((inventoryWALSegments oneSegment 8 65536).toOption).getD []).map sampleCandidate

/-- The segment after its checkpoint was published and its file moved. -/
def trashedSegment : PruneDisk sampleHashes :=
  runAll (((execute noFault ⟨true, true⟩ (samplePlan oneCandidate) oneCandidate).run oneSegment).1.take 4) oneSegment

instance oneSegment_loads : Fact (loadCheckpointChain oneSegment = .ok []) := ⟨by decide +kernel⟩

instance oneSegment_verifies : Fact ((verifySealedSegment sampleHashes (sampleSegment 1 Digest.zero)).toOption.any (fun segment =>
      segment.startSequence = 1 ∧ segment.lastSequence = 1 ∧ segment.chainStart = Digest.zero) = true) := ⟨by decide +kernel⟩

theorem oneSegment_retained : ∃ segment, Retained oneSegment [] [segment] ∧
    nameOf segment = segmentNameFromRange 1 1 := by
  obtain ⟨segment, hverified, hfields⟩ := exists_ok_of_any oneSegment_verifies.out
  simp only [decide_eq_true_eq] at hfields
  obtain ⟨hstart, hlast, hroot⟩ := hfields
  have hname : nameOf segment = segmentNameFromRange 1 1 := by rw [nameOf, hstart, hlast]
  have hlookup : ∀ name, oneSegment.lookup name = if name = .sealed (segmentNameFromRange 1 1) then
      some (.data (sampleSegment 1 Digest.zero)) else none := by
    intro name
    rw [oneSegment, lookup_insert_of, AList.lookup_empty]
  refine ⟨segment, ⟨?_, oneSegment_loads.out, ⟨hstart, hroot, trivial⟩, ?_, ?_, ?_⟩, hname⟩
  · intro name
    simp [hlookup]
  · intro other hmem
    rw [List.mem_singleton.mp hmem]
    refine ⟨.data (sampleSegment 1 Digest.zero), ?_, hverified⟩
    rw [hname]
    exact (hlookup _).trans (if_pos rfl)
  · intro name content hsealed _
    rw [hlookup] at hsealed
    split at hsealed
    · next heq => exact ⟨segment, List.mem_singleton_self _, by rw [hname]; simpa using heq⟩
    · cases hsealed
  · intro name
    simp [hlookup]

instance trashedSegment_state : Fact (trashedSegment.lookup (.trash (segmentNameFromRange 1 1)) ≠ none ∧
      trashedSegment.lookup (.sealed (segmentNameFromRange 1 1)) = none ∧
      (trashedSegment.keys.filter PruneName.inCheckpoints).length ≤ maxCheckpointFiles ∧
      (sealedSegments trashedSegment).length ≤ (8 : UInt64).toNat ∧
      ((sealedSegments trashedSegment).map fileSize).sum ≤ (65536 : UInt64).toNat) := ⟨by decide +kernel⟩

end TickPlatform.Retention
