import TickPlatform.Parquet.Summaries

/-!
# A conversion after a crash

A crash leaves temporary files, parts that are complete, and at most one part that is cut short: the final path is
created and then filled. A second conversion takes the first two kinds as they are, and it is stopped by the third.
-/

namespace TickPlatform.Parquet

open Bytes Protocol Replay Files Crash

variable {F : FileFormat} {H : Hashes} {spec : ConversionSpec} {scope : ReplayScope} {d t : OutputRoot}
  {part : PlannedPart} {parts : List PlannedPart}

/-! ## One part -/

theorem lookup_refilled (files : Tree Bytes Bytes) (name other created content : Bytes) :
    ((files.insert name created).insert name content).lookup other =
      if other = name then some content else files.lookup other := by
  rw [lookup_insert_of, lookup_insert_of]
  split <;> rfl

theorem lookup_placeOps (d : OutputRoot) (part : PlannedPart) (key : Bytes) :
    (runAll (placeOps d part) d).objects.lookup key =
      if key = part.artifact.partKey then some ((d.objects.lookup key).getD part.data) else d.objects.lookup key := by
  cases hkey : d.objects.lookup part.artifact.partKey with
  | none =>
    simp only [placeOps, hkey, Option.isSome_none, Bool.false_eq_true, if_false, List.cons_append, List.nil_append,
      runAll_cons, runAll_nil]
    refine (lookup_refilled d.objects part.artifact.partKey key [] part.data).trans ?_
    split
    · next h => rw [h, hkey, Option.getD_none]
    · rfl
  | some found =>
    simp only [placeOps, hkey, Option.isSome_some, if_true, List.append_nil, List.cons_append, List.nil_append, runAll_cons,
      runAll_nil]
    show d.objects.lookup key = _
    split
    · next h => rw [h, hkey, Option.getD_some]
    · rfl

/-- Inside the placing of a part, its key may hold any beginning of it. -/
theorem crash_placeOps (h : CrashAt (placeOps d part) d t) (key : Bytes) : t.objects.lookup key = d.objects.lookup key ∨
      key = part.artifact.partKey ∧ d.objects.lookup key = none ∧ ∃ n, t.objects.lookup key = some (part.data.take n) := by
  cases hkey : d.objects.lookup part.artifact.partKey with
  | none =>
    -- what stands at the key after its creation, during the copy and after it
    have hinsert : ∀ n, t.objects.lookup key =
          (if key = part.artifact.partKey then some (part.data.take n) else d.objects.lookup key) →
        t.objects.lookup key = d.objects.lookup key ∨ key = part.artifact.partKey ∧ d.objects.lookup key = none ∧
          ∃ n, t.objects.lookup key = some (part.data.take n) := by
      intro n hlookup
      by_cases hsame : key = part.artifact.partKey
      · rw [if_pos hsame] at hlookup
        exact .inr ⟨hsame, hsame ▸ hkey, n, hlookup⟩
      · rw [if_neg hsame] at hlookup
        exact .inl hlookup
    have hwhole : part.data = part.data.take part.data.length := List.take_length.symm
    simp only [placeOps, hkey, Option.isSome_none, Bool.false_eq_true, if_false, List.cons_append, List.nil_append,
      crashAt_cons, crashAt_nil] at h
    rcases h with rfl | h | rfl | ⟨_, rfl⟩ | rfl | h | rfl | ⟨n, rfl⟩ | rfl | h | rfl
    · exact .inl rfl
    · exact h.elim
    · exact .inl rfl
    · exact .inl rfl
    · exact .inl rfl
    · exact h.elim
    · exact hinsert 0 (lookup_insert_of _ _ _ _)
    · exact hinsert n (lookup_refilled _ _ _ _ _)
    · exact hinsert part.data.length (by rw [← hwhole]; exact lookup_refilled _ _ _ _ _)
    · exact h.elim
    · exact hinsert part.data.length (by rw [← hwhole]; exact lookup_refilled _ _ _ _ _)
  | some found =>
    simp only [placeOps, hkey, Option.isSome_some, if_true, List.append_nil, List.cons_append, List.nil_append,
      crashAt_cons, crashAt_nil] at h
    rcases h with rfl | h | rfl | ⟨_, rfl⟩ | rfl | h | rfl
    · exact .inl rfl
    · exact h.elim
    · exact .inl rfl
    · exact .inl rfl
    · exact .inl rfl
    · exact h.elim
    · exact .inl rfl

/-! ## All parts -/

/-- The keys of the parts. -/
def partKeysOf (parts : List PlannedPart) : List Bytes := parts.map (·.artifact.partKey)

/-- The parts are placed where nothing stands, and what stands elsewhere stays. -/
theorem lookup_opsAll (hkeys : (partKeysOf parts).Nodup) (d : OutputRoot) :
    (∀ part ∈ parts, (runAll ((placing F H scope).opsAll d parts) d).objects.lookup part.artifact.partKey =
        some ((d.objects.lookup part.artifact.partKey).getD part.data)) ∧
      ∀ key ∉ partKeysOf parts, (runAll ((placing F H scope).opsAll d parts) d).objects.lookup key = d.objects.lookup key := by
  induction parts generalizing d with
  | nil => exact ⟨by simp, fun _ _ => rfl⟩
  | cons part parts ih =>
    rw [partKeysOf, List.map_cons, List.nodup_cons] at hkeys
    obtain ⟨hplaced, hother⟩ := ih hkeys.2 (runAll (placeOps d part) d)
    have hops : (placing F H scope).opsAll d (part :: parts) =
        placeOps d part ++ (placing F H scope).opsAll (runAll (placeOps d part) d) parts := rfl
    rw [hops, runAll_append]
    refine ⟨List.forall_mem_cons.mpr ⟨?_, fun later hlater => ?_⟩, fun key hkey => ?_⟩
    · rw [hother _ hkeys.1, lookup_placeOps, if_pos rfl]
    · have hne : later.artifact.partKey ≠ part.artifact.partKey := fun heq =>
        hkeys.1 (List.mem_map.mpr ⟨later, hlater, heq⟩)
      rw [hplaced later hlater, lookup_placeOps, if_neg hne]
    · rw [partKeysOf, List.map_cons, List.mem_cons, not_or] at hkey
      rw [hother key hkey.2, lookup_placeOps, if_neg hkey.1]

theorem guardAll_iff (hkeys : (partKeysOf parts).Nodup) (d : OutputRoot) :
    (placing F H scope).GuardAll d parts ↔ ∀ part ∈ parts, Ready F H scope d part := by
  induction parts generalizing d with
  | nil => simp [Action.GuardAll]
  | cons part parts ih =>
    rw [partKeysOf, List.map_cons, List.nodup_cons] at hkeys
    have hsame : ∀ later ∈ parts, (Ready F H scope (runAll (placeOps d part) d) later ↔ Ready F H scope d later) := by
      intro later hlater
      have hne : later.artifact.partKey ≠ part.artifact.partKey := fun heq =>
        hkeys.1 (List.mem_map.mpr ⟨later, hlater, heq⟩)
      rw [Ready, Ready, lookup_placeOps, if_neg hne]
    rw [List.forall_mem_cons, Action.GuardAll]
    exact and_congr Iff.rfl ((ih hkeys.2 _).trans (forall₂_congr hsame))

/-- A crash leaves what stood before, or any beginning of a part at its own key where nothing stood. -/
theorem crash_opsAll (h : CrashAt ((placing F H scope).opsAll d parts) d t) (key : Bytes) :
    t.objects.lookup key = d.objects.lookup key ∨
      d.objects.lookup key = none ∧ ∃ part ∈ parts, part.artifact.partKey = key ∧
        ∃ n, t.objects.lookup key = some (part.data.take n) := by
  induction parts generalizing d with
  | nil =>
    rw [crashAt_nil.mp h]
    exact .inl rfl
  | cons part parts ih =>
    have hops : (placing F H scope).opsAll d (part :: parts) =
        placeOps d part ++ (placing F H scope).opsAll (runAll (placeOps d part) d) parts := rfl
    rw [hops, crashAt_append] at h
    rcases h with hhead | htail
    · rcases crash_placeOps hhead key with hsame | ⟨rfl, hnone, hpart⟩
      · exact .inl hsame
      · exact .inr ⟨hnone, part, List.mem_cons_self, rfl, hpart⟩
    · rcases ih htail with hsame | ⟨hnone, later, hlater, hkey, hpart⟩
      · rw [lookup_placeOps] at hsame
        split at hsame
        · next heq =>
          cases hfound : d.objects.lookup key with
          | none =>
            rw [hfound, Option.getD_none] at hsame
            exact .inr ⟨rfl, part, List.mem_cons_self, heq.symm, part.data.length, by rw [List.take_length]; exact hsame⟩
          | some found =>
            rw [hfound, Option.getD_some] at hsame
            exact .inl hsame
        · exact .inl hsame
      · rw [lookup_placeOps] at hnone
        split at hnone
        · cases hnone
        · exact .inr ⟨hnone, later, List.mem_cons_of_mem _ hlater, hkey, hpart⟩

/-! ## Keys -/

variable {artifacts : List PartArtifact} {groups : List (List ReplayRow)} {index : Nat} {previous root : Digest}
  {start : Nat}

theorem Summarized.start_le (h : Summarized H scope index start previous groups artifacts root) :
    ∀ artifact ∈ artifacts, start ≤ artifact.firstStreamSequence.toNat := by
  induction h with
  | nil => simp
  | cons hpart _ ih =>
    refine List.forall_mem_cons.mpr ⟨hpart.first.ge, fun artifact hartifact => ?_⟩
    exact (Nat.le_add_right _ _).trans (ih artifact hartifact)

theorem Summarized.key (h : Summarized H scope index start previous groups artifacts root) :
    ∀ artifact ∈ artifacts, replayPartObjectKey H scope artifact.firstStreamSequence artifact.lastStreamSequence
      artifact.partSHA256 = .ok artifact.partKey := by
  induction h with
  | nil => simp
  | cons hpart _ ih => exact List.forall_mem_cons.mpr ⟨hpart.key, ih⟩

theorem Summarized.keys_nodup (h : Summarized H scope index start previous groups artifacts root) :
    (artifacts.map (·.partKey)).Nodup := by
  induction h with
  | nil => exact List.nodup_nil
  | @cons _ _ _ _ _ group _ artifact _ hpart hrest ih =>
    rw [List.map_cons, List.nodup_cons]
    refine ⟨fun hmem => ?_, ih⟩
    obtain ⟨later, hlater, hkey⟩ := List.mem_map.mp hmem
    have hlaterKey := hrest.key later hlater
    rw [hkey] at hlaterKey
    have hfirst := congrArg UInt64.toNat (replayPartObjectKey_first hpart.key hlaterKey)
    have hstart := hrest.start_le later hlater
    have hlength := hpart.length_pos
    have hown := hpart.first
    omega

/-! ## The second conversion -/

theorem admits_take {sequence : UInt32} {group : List BufferedRow} {n : Nat}
    (hplan : planPart F H sequence scope spec group = .ok part) :
    Admits F H scope part.artifact (part.data.take n) ↔ part.data.take n = part.data := by
  have hown := admits_of_plan hplan
  refine ⟨fun h => ?_, fun h => by rw [h]; exact hown⟩
  obtain ⟨_, _, _, -, -, hwrite, -⟩ := planPart_eq_ok hplan
  have hdata := (F.size_write hwrite).2
  have hsize := (verifyPartFile_identity h).2.trans (verifyPartFile_identity hown).2.symm
  have htake : (part.data.take n).length ≤ part.data.length := List.length_take_le' _ _
  have hword : UInt64.size = 18446744073709551616 := rfl
  have hlength := congrArg UInt64.toNat hsize
  rw [UInt64.toNat_ofNat_of_lt' (by omega), UInt64.toNat_ofNat_of_lt' (by omega)] at hlength
  exact (List.take_prefix n part.data).eq_of_length hlength

/-- **A conversion that was cut off by a crash can be run again exactly where no part is left cut short: each key is
free or holds what the uninterrupted run leaves there. The parts are then the same.** -/
theorem retry_iff_no_part_cut_short {rows : List ReplayRow} {s : OutputRoot} {ops : List OutputOp}
    {result : GenerationResult} (hrun : (generate F H spec scope rows).run s = (ops, .ok result)) (hcrash : CrashAt ops s t) :
    (∃ ops' again, (generate F H spec scope rows).run t = (ops', .ok again) ∧ again.parts = result.parts) ↔
      ∀ part ∈ result.parts, t.objects.lookup part.partKey = none ∨
        t.objects.lookup part.partKey = (runAll ops s).objects.lookup part.partKey := by
  obtain ⟨parts, hconverts⟩ := converts_of_run hrun
  have hfollows := generate_follows hconverts
  obtain ⟨groups, -, -, hsummarized, hparts, -⟩ := summarized_of_converts hconverts
  have hkeys : (partKeysOf parts).Nodup := by
    have hnodup := hsummarized.keys_nodup
    rw [hparts, List.map_map] at hnodup
    exact hnodup
  have hready := (guardAll_iff hkeys s).mp (hfollows.guarded hrun)
  obtain ⟨rfl, -⟩ := hfollows.eq_of_run hrun
  have hagain : (∃ ops' again, (generate F H spec scope rows).run t = (ops', .ok again) ∧ again.parts = result.parts) ↔
      ∀ part ∈ parts, Ready F H scope t part := by
    rw [← guardAll_iff hkeys t]
    constructor
    · rintro ⟨_, _, hagain, -⟩
      exact hfollows.guarded hagain
    · intro hguard
      exact ⟨_, result, hfollows.run t hguard, rfl⟩
  rw [hagain, hparts, List.forall_mem_map]
  refine forall₂_congr fun part hpart => ?_
  obtain ⟨sequence, group, hplan⟩ := planned_of_converts hconverts part hpart
  rw [(lookup_opsAll hkeys s).1 part hpart]
  rcases crash_opsAll hcrash part.artifact.partKey with hsame | ⟨hnone, cut, hcut, hkey, n, hfound⟩
  · rw [Ready, hsame]
    cases hstood : s.objects.lookup part.artifact.partKey with
    | none => simp
    | some found => simp [hready part hpart found hstood]
  · have hpartCut : cut = part := List.inj_on_of_nodup_map hkeys hcut hpart hkey
    rw [Ready, hfound, hnone, hpartCut]
    simp [admits_take hplan]

instance oneRow_unfinished : Fact (((sampleConversion (ascii "build-1")).run OutputRoot.empty).2.toOption.any (fun result =>
      decide (result.parts.length = 1) && result.parts.all fun part => decide ((runAll
        (((sampleConversion (ascii "build-1")).run OutputRoot.empty).1.take 2) OutputRoot.empty).objects.lookup part.partKey = none)) =
      true) := ⟨by decide +kernel⟩

/-- A crash before the final path is created: the conversion of one row can be run again. -/
theorem retry_iff_no_part_cut_short_one_row :
    ∃ ops result, (sampleConversion (ascii "build-1")).run OutputRoot.empty = (ops, .ok result) ∧ result.parts.length = 1 ∧
      CrashAt ops OutputRoot.empty (runAll (ops.take 2) OutputRoot.empty) ∧
      ∃ ops' again, (sampleConversion (ascii "build-1")).run (runAll (ops.take 2) OutputRoot.empty) = (ops', .ok again) ∧
        again.parts = result.parts := by
  obtain ⟨result, hok, hcheck⟩ := exists_ok_of_any oneRow_unfinished.out
  have hresult := toOption_eq_some.mpr hok
  rw [Bool.and_eq_true, decide_eq_true_eq, List.all_eq_true] at hcheck
  unfold sampleConversion at hresult hcheck ⊢
  have hgenerate := Prog.run_eq_ok hresult
  have hcrash := crashAt_take (((generate (singleFormat sampleTable) sampleHashes (sampleSpec (ascii "build-1")) sampleScope
    [sampleRow]).run OutputRoot.empty).1) 2 OutputRoot.empty
  refine ⟨_, result, hgenerate, hcheck.1, hcrash, ?_⟩
  exact (retry_iff_no_part_cut_short hgenerate hcrash).mpr fun part hpart => .inl (of_decide_eq_true (hcheck.2 part hpart))

instance oneRow_cutShort : Fact (((sampleConversion (ascii "build-1")).run OutputRoot.empty).2.toOption.any (fun _ =>
      ((sampleConversion (ascii "build-1")).run (runAll (((sampleConversion (ascii "build-1")).run OutputRoot.empty).1.take 3)
        OutputRoot.empty)).2.toOption.isNone) = true) := ⟨by decide +kernel⟩

/-- A crash between the creation of the final path and the end of the copy: every further conversion fails. -/
theorem cut_short_part_stops_retry :
    ∃ ops result, (sampleConversion (ascii "build-1")).run OutputRoot.empty = (ops, .ok result) ∧
      CrashAt ops OutputRoot.empty (runAll (ops.take 3) OutputRoot.empty) ∧
      ((sampleConversion (ascii "build-1")).run (runAll (ops.take 3) OutputRoot.empty)).2.toOption = none := by
  obtain ⟨result, hok, hcheck⟩ := exists_ok_of_any oneRow_cutShort.out
  exact ⟨_, result, Prog.run_eq_ok (toOption_eq_some.mpr hok), crashAt_take _ _ _, Option.isNone_iff_eq_none.mp hcheck⟩

end TickPlatform.Parquet
