import TickPlatform.Ingest.History
import TickPlatform.Ingest.Sessions

/-!
# Crashes between the sections of many calls

The process can die between any two sections, or inside a write. The next start serves every entry that was served at
that moment.
-/

namespace TickPlatform.Ingest.Interleaved

open Bytes Protocol Crash Wal Journal

/-- What the calls share of the stores: the WAL that is served, the writes still to come of the call under way, and the
WAL that it ends with. -/
structure Stores where
  wal : Wal.Store
  durable : Durable
  pending : List DurableOp
  settled : Wal.Store

def Shared.stores (s : Shared) : Stores :=
  match s.holder with
  | some (.writing _ ops result) => ⟨s.gateway.wal, s.durable, ops, (resultGateway result).wal⟩
  | _ => ⟨s.gateway.wal, s.durable, [], s.gateway.wal⟩

/-- The batch of the call is that of its frame. -/
def Call.Decodes (H : Hashes) : Call → Prop
  | .batch _ raw decoded _ => decodeBatchFrame H raw = .ok decoded
  | _ => True

def Decoded (H : Hashes) : Option Holder → Prop
  | some (.accepting _ raw batch _) => decodeBatchFrame H raw = .ok batch
  | _ => True

/-- The entries are held wherever the process dies, and the call under way can only add to them. -/
structure Stores.Kept (H : Hashes) (c : Config) (stores : Stores) : Prop where
  held : ∀ t, CrashAt stores.pending stores.durable t →
    ∃ entries, stores.wal.entries <+: entries ∧ Resting H c anyFrame t entries
  grows : stores.wal.entries <+: stores.settled.entries
  running : ∃ g : Gateway, g.wal = stores.settled ∧ Running H c anyFrame g (runAll stores.pending stores.durable)

variable {H : Hashes} {c : Config} {s : Shared}

theorem kept_of_running {g : Gateway} {d : Durable} (h : Running H c anyFrame g d) :
    Stores.Kept H c ⟨g.wal, d, [], g.wal⟩ where
  held t ht := by
    rw [crashAt_nil.mp ht]
    exact h.resting
  grows := List.prefix_rfl
  running := ⟨g, rfl, h⟩

theorem resumeSession_stores (conn : Connection) (fault : Option IngestError) :
    (resumeSession c s conn fault).1.stores = ⟨s.gateway.wal, s.durable, [], s.gateway.wal⟩ ∧
      Decoded H (resumeSession c s conn fault).1.holder := by
  unfold resumeSession
  dsimp only
  repeat' split
  all_goals exact ⟨by simp [Shared.stores, releaseSession_wal], trivial⟩

theorem beginSession_wal {g g' : Gateway} {hello : HelloV1} {now : Int} {conn : Connection}
    (h : beginSession H c g hello now = .ok (g', conn)) : g'.wal = g.wal := by
  unfold beginSession at h
  obtain ⟨-, h⟩ := ite_error_eq_ok.mp h
  obtain ⟨-, h⟩ := ite_error_eq_ok.mp h
  cases h
  rfl

/-- **One section** keeps the entries. -/
theorem step_kept {call : Call} (hcall : call.Decodes H) (h : s.stores.Kept H c) (hdecoded : Decoded H s.holder) :
    ((step H c s call).1.stores.Kept H c ∧ Decoded H (step H c s call).1.holder) ∧
      s.stores.wal.entries <+: (step H c s call).1.stores.wal.entries := by
  have hsame : ∀ s' : Shared, s'.stores = s.stores → Decoded H s'.holder →
      (s'.stores.Kept H c ∧ Decoded H s'.holder) ∧ s.stores.wal.entries <+: s'.stores.wal.entries :=
    fun s' hstores hdecoded' => ⟨⟨hstores ▸ h, hdecoded'⟩, hstores ▸ List.prefix_rfl⟩
  fun_cases step H c s call
  -- The sections of `startSession`, and the start of `acceptBatch`.
  case case3 hfree => exact hsame _ (by simp [Shared.stores, Option.isNone_iff_eq_none.mp hfree]) trivial
  case case5 hholder _ _ => exact hsame _ (by simp [Shared.stores, hholder]) trivial
  case case6 hholder _ _ hbegin => exact hsame _ (by simp [Shared.stores, hholder, beginSession_wal hbegin]) trivial
  case case8 fault conn hholder =>
    obtain ⟨hstores, hdecoded'⟩ := @resumeSession_stores H c s conn fault
    exact hsame _ (by rw [hstores, Shared.stores, hholder]) hdecoded'
  case case10 hfree => exact hsame _ (by simp [Shared.stores, Option.isNone_iff_eq_none.mp hfree.1]) hcall
  -- The rest of `acceptBatch`.
  case case12 conn raw batch w hholder ops result hrun =>
    rw [hholder] at hdecoded
    have hstores : s.stores = ⟨s.gateway.wal, s.durable, [], s.gateway.wal⟩ := by simp only [Shared.stores, hholder]
    rw [hstores] at h ⊢
    obtain ⟨g, hwal, hrunning⟩ := h.running
    have hmeets := @meets_acceptBatch H c anyFrame s.gateway s.durable conn raw batch (hrunning.of_wal hwal.symm) trivial
      hdecoded { w with now := s.clock }
    have hends : s.gateway.wal.entries <+: (resultGateway result).wal.entries ∧
        Running H c anyFrame (resultGateway result) (runAll ops s.durable) := by
      cases result with
      | error result => exact (hmeets.error _ _ hrun).2
      | ok result => exact (hmeets.ok _ _ hrun).2
    have hheld := fun t ht => (hmeets.crash t (by rwa [Prog.CrashIn, hrun])).2
    exact ⟨⟨⟨hheld, hends.1, _, rfl, hends.2⟩, trivial⟩, List.prefix_rfl⟩
  case case14 op ops result hholder =>
    simp only [Shared.stores, hholder] at h ⊢
    exact ⟨⟨⟨fun t ht => h.held t (.after ht), h.grows, h.running⟩, trivial⟩, List.prefix_rfl⟩
  case case16 result hholder =>
    simp only [Shared.stores, hholder] at h ⊢
    obtain ⟨g, hwal, hrunning⟩ := h.running
    exact ⟨⟨@kept_of_running H c (resultGateway result) _ (hrunning.of_wal hwal.symm), trivial⟩, h.grows⟩
  case case18 => exact hsame _ (by simp only [Shared.stores, touchSession_wal]) hdecoded
  case case20 => exact hsame _ (by simp only [Shared.stores, releaseSession_wal]) hdecoded
  -- Nothing but the clock, or nothing at all.
  all_goals exact hsame _ rfl hdecoded

theorem run_kept {calls : List Call} (hcalls : ∀ call ∈ calls, call.Decodes H) (h : s.stores.Kept H c)
    (hdecoded : Decoded H s.holder) :
    (run H c s calls).1.stores.Kept H c ∧ s.stores.wal.entries <+: (run H c s calls).1.stores.wal.entries := by
  induction calls generalizing s with
  | nil => exact ⟨h, List.prefix_rfl⟩
  | cons call calls ih =>
    rw [List.forall_mem_cons] at hcalls
    obtain ⟨⟨hstep, hnext⟩, hgrows⟩ := step_kept hcalls.1 h hdecoded
    obtain ⟨hrun, hmore⟩ := ih hcalls.2 hstep hnext
    exact ⟨hrun, hgrows.trans hmore⟩

end TickPlatform.Ingest.Interleaved
