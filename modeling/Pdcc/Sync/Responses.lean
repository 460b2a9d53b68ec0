import Pdcc.Sync.Processor

/-!
# Block responses that end in a panic

A block response is walked twice, by the scheduler and, if it is handed over, by the
processor. Both reach its blocks through headers that decoding may leave out.
-/

set_option autoImplicit false

namespace Pdcc.Sync

open Ledger Library

variable {Body RwSet : Type}

namespace Scheduler

theorem update_returns_iff (msgFrom : Bytes) (headers : List (Option BlockHeader)) (needToProcess : Bool) (s : Scheduler) :
    (∃ result, updateSchedulerBySyncBlockBatch msgFrom headers needToProcess s = .ok result) ↔ ∀ header ∈ headers, header.isSome = true := by
  induction headers generalizing needToProcess s with
  | nil => simp [updateSchedulerBySyncBlockBatch]
  | cons header headers ih =>
    cases header with
    | none => simp [updateSchedulerBySyncBlockBatch]
    | some header =>
      rw [update_cons, ih]
      simp

variable (conf : SchedulerConf) (s : Scheduler)

/-- The scheduler, and the processor with what is handed over to it, get to the end of a
response, whatever the processor holds and the ledger has reached. -/
def Survives (payload : Except String (SyncBlockBatch Body RwSet)) (sender : Bytes) : Prop :=
  ∃ result after, s.handleSyncedBlockMsg conf payload sender = .ok (result, after) ∧
    ∀ msg, result = .ok (some msg) → ∀ (pro : Processor Body RwSet) (lastCommit : UInt64),
      ∃ after, pro.handleReceivedBlockInfos lastCommit msg = .ok after

/-- The scheduler is full or stopped. -/
def Drops : Prop :=
  (s.receivedBlocks.size : Int) > conf.maxPendingInt ∨ s.stopSyncBlock = true

theorem handleSyncedBlockMsg_of_drops (drops : s.Drops conf) (payload : Except String (SyncBlockBatch Body RwSet)) (sender : Bytes) :
    s.handleSyncedBlockMsg conf payload sender = .ok (.ok none, s) := by
  unfold handleSyncedBlockMsg
  split
  · rfl
  · next few => rw [if_pos (drops.resolve_left few)]

theorem handleSyncedBlockMsg_of_not_drops (takes : ¬ s.Drops conf) (batch : SyncBlockBatch Body RwSet) (sender : Bytes) :
    s.handleSyncedBlockMsg conf (.ok batch) sender = (do
      let (needToProcess, s) ← updateSchedulerBySyncBlockBatch sender batch.headers false s
      return (.ok (if needToProcess then some ⟨batch, sender⟩ else none), s)) := by
  obtain ⟨few, running⟩ := not_or.mp takes
  rw [handleSyncedBlockMsg, if_neg few, if_neg running]

/-- A response is survived exactly when it is dropped, or each of its blocks has a header. -/
theorem survives_iff (batch : SyncBlockBatch Body RwSet) (sender : Bytes) : s.Survives conf (.ok batch) sender ↔
      s.Drops conf ∨ ∀ header ∈ batch.headers, header.isSome = true := by
  by_cases drops : s.Drops conf
  · refine iff_of_true ⟨_, _, s.handleSyncedBlockMsg_of_drops conf drops _ _, ?_⟩ (.inl drops)
    intro msg same
    cases same
  · rw [or_iff_right drops, Survives, s.handleSyncedBlockMsg_of_not_drops conf drops,
      ← update_returns_iff sender batch.headers false s]
    constructor
    · rintro ⟨result, after, walked, _⟩
      obtain ⟨value, returned, _⟩ := bind_eq_ok.mp walked
      exact ⟨value, returned⟩
    · intro returns
      have headed := (update_returns_iff sender batch.headers false s).mp returns
      obtain ⟨⟨needToProcess, after⟩, walked⟩ := returns
      refine ⟨_, _, bind_eq_ok.mpr ⟨_, walked, rfl⟩, ?_⟩
      intro msg handedOver pro lastCommit
      refine (pro.handleReceivedBlockInfos_returns_iff lastCommit msg).mpr ?_
      cases needToProcess with
      | false => cases handedOver
      | true =>
        cases handedOver
        exact headed

/-- A batch with one empty block, and a batch with one empty block info, stop a new
scheduler. -/
theorem headless_block_panics : ¬ (newScheduler 0).Survives ⟨3, 1, 30, 1, 0, 3, 5, none⟩
        (.ok ⟨some (.blockBatch [⟨none, ()⟩]), false⟩ : Except String (SyncBlockBatch Unit Unit)) [1] ∧
      ¬ (newScheduler 0).Survives ⟨3, 1, 30, 1, 0, 3, 5, none⟩
        (.ok ⟨some (.blockinfoBatch [⟨none, []⟩]), false⟩ : Except String (SyncBlockBatch Unit Unit)) [1] := by
  constructor
  · rintro ⟨result, after, walked, _⟩
    cases walked
  · rintro ⟨result, after, walked, _⟩
    cases walked

end Scheduler

end Pdcc.Sync
