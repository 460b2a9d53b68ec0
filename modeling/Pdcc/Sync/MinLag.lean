import Pdcc.Sync.RequestTargets

/-!
# The minimum-lag signal

When a status of another node comes in, the scheduler may offer the signal that the local
chain is close enough to the highest recorded one. The test is made before the status is
recorded, and with the subtraction of unsigned integers.
-/

set_option autoImplicit false

namespace Pdcc.Sync

open Ledger Library

namespace Scheduler

variable {conf : SchedulerConf} {s : Scheduler} {moment : Moment} {sender : Bytes}
  {blockHeight archivedHeight : UInt64}

/-- The status is of a preference node that has the next blocks, and not lower than before. -/
structure Accepts (conf : SchedulerConf) (s : Scheduler) (moment : Moment) (sender : Bytes)
    (blockHeight archivedHeight : UInt64) : Prop where
  preferred : conf.isPreferenceNode sender = true
  available : isPeerArchivedTooHeight moment.committed archivedHeight = false
  notLower : ∀ old, s.peers.lookup sender = some old → old ≤ blockHeight

/-- The signal may be sent: syncing runs, for long enough. -/
structure Signals (conf : SchedulerConf) (s : Scheduler) (moment : Moment) : Prop where
  late : ¬ moment.now - conf.startTime < conf.thresholdTime
  running : s.stopSyncBlock = false

def recordPeer (s : Scheduler) (sender : Bytes) (blockHeight : UInt64) : Scheduler :=
  { s with peers := s.peers.insert sender blockHeight }

theorem handleNodeStatus_of_accepts (accepts : Accepts conf s moment sender blockHeight archivedHeight) :
    s.handleNodeStatus conf moment sender blockHeight archivedHeight = (s.receiveMajorityBlocks conf moment,
        (s.recordPeer sender blockHeight).addPendingBlocksAndUpdatePendingHeight conf moment blockHeight) := by
  have kept : ¬ ((s.peers.lookup sender).any fun old => decide (old > blockHeight) ||
      isPeerArchivedTooHeight moment.committed archivedHeight) = true := by
    rw [accepts.available]
    cases found : s.peers.lookup sender with
    | none => simp
    | some old => simpa using accepts.notLower old found
  rw [handleNodeStatus, accepts.preferred, if_neg (by simp)]
  dsimp only
  rw [if_neg kept, accepts.available, if_neg Bool.false_ne_true, recordPeer]

theorem maxHeight_recordPeer (notLower : ∀ old, s.peers.lookup sender = some old → old ≤ blockHeight) :
    (s.recordPeer sender blockHeight).maxHeight.toNat = max s.maxHeight.toNat blockHeight.toNat := by
  have recorded (peer : Bytes) : (s.recordPeer sender blockHeight).peers.lookup peer =
      if peer = sender then some blockHeight else s.peers.lookup peer :=
    Table.lookup_insert_eq _ _ _ _
  have here : blockHeight.toNat ≤ (s.recordPeer sender blockHeight).maxHeight.toNat :=
    UInt64.le_iff_toNat_le.mp (le_maxHeight ((recorded sender).trans (if_pos rfl)))
  refine Nat.le_antisymm ?_ (Nat.max_le.mpr ⟨?_, here⟩)
  · rcases (s.recordPeer sender blockHeight).maxHeight_attained with zero | ⟨peer, found⟩
    · rw [zero]
      exact Nat.zero_le _
    · rw [recorded] at found
      split at found
      · rw [← Option.some.inj found]
        exact Nat.le_max_right _ _
      · exact (UInt64.le_iff_toNat_le.mp (le_maxHeight found)).trans (Nat.le_max_left _ _)
  · rcases s.maxHeight_attained with zero | ⟨peer, found⟩
    · rw [zero]
      exact Nat.zero_le _
    · by_cases same : peer = sender
      · subst same
        exact (UInt64.le_iff_toNat_le.mp (notLower _ found)).trans here
      · exact UInt64.le_iff_toNat_le.mp (le_maxHeight ((recorded peer).trans ((if_neg same).trans found)))

/-- The highest recorded height is at most the threshold ahead. -/
def WithinLag (conf : SchedulerConf) (s : Scheduler) (localHeight : UInt64) : Prop :=
  s.maxHeight ≤ localHeight ∨ s.maxHeight - localHeight ≤ conf.thresholdBlocks

theorem withinLag_iff (localHeight : UInt64) : WithinLag conf s localHeight ↔
      s.maxHeight.toNat ≤ localHeight.toNat + conf.thresholdBlocks.toNat := by
  have small := s.maxHeight.toNat_lt
  have difference := UInt64.toNat_sub s.maxHeight localHeight
  rw [WithinLag, UInt64.le_iff_toNat_le, UInt64.le_iff_toNat_le]
  omega

/-- When the test, which sees the heights recorded before the status, gives the answer that
holds with the status. If the local chain is not ahead of them, the status must not exceed
the threshold, unless they do already. If it is ahead, the subtraction wraps and no signal
is offered (but for thresholds close to the largest integer), so the status has to exceed
the threshold. -/
def LagKnown (conf : SchedulerConf) (s : Scheduler) (localHeight blockHeight : UInt64) : Prop :=
  let threshold := localHeight.toNat + conf.thresholdBlocks.toNat
  (localHeight.toNat ≤ s.maxHeight.toNat ∧
    (blockHeight.toNat ≤ threshold ∨ threshold < s.maxHeight.toNat)) ∨
  (s.maxHeight.toNat < localHeight.toNat ∧
    (threshold < blockHeight.toNat ∨ 2 ^ 64 + s.maxHeight.toNat ≤ threshold))

/-- Once the signal may be sent, an accepted status offers it exactly when the highest height
recorded with it is within the threshold, if and only if the lag was known before. -/
theorem minLag_truthful_iff (signals : Signals conf s moment)
    (accepts : Accepts conf s moment sender blockHeight archivedHeight) :
    ((s.handleNodeStatus conf moment sender blockHeight archivedHeight).1 = true ↔
        WithinLag conf (s.handleNodeStatus conf moment sender blockHeight archivedHeight).2 moment.committed) ↔
      LagKnown conf s moment.committed blockHeight := by
  have highest := s.maxHeight.toNat_lt
  have ledger := moment.committed.toNat_lt
  have limit := conf.thresholdBlocks.toNat_lt
  have status := blockHeight.toNat_lt
  have difference := UInt64.toNat_sub s.maxHeight moment.committed
  have offered : s.receiveMajorityBlocks conf moment = true ↔
      (s.maxHeight - moment.committed).toNat ≤ conf.thresholdBlocks.toNat := by
    simp [receiveMajorityBlocks, signals.late, signals.running, UInt64.le_iff_toNat_le]
  have recorded : ((s.recordPeer sender blockHeight).addPendingBlocksAndUpdatePendingHeight conf
      moment blockHeight).maxHeight = (s.recordPeer sender blockHeight).maxHeight := by
    rw [maxHeight, (addPending_rest conf _ moment blockHeight).1, maxHeight]
  rw [handleNodeStatus_of_accepts accepts, withinLag_iff, recorded,
    maxHeight_recordPeer accepts.notLower, offered, LagKnown]
  omega

/-- One peer is recorded, and the status of a higher one is within the threshold. -/
theorem minLag_truthful_within : ∃ s, SyncRun Unit Unit oneByOne (fun _ _ => True) 0 s ∧
      s.scheduler.maxHeight = 4 ∧ Signals oneByOne s.scheduler ⟨0, 9, 0⟩ ∧
      Accepts oneByOne s.scheduler ⟨0, 9, 0⟩ [65] 5 0 ∧
      ((s.scheduler.handleNodeStatus oneByOne ⟨0, 9, 0⟩ [65] 5 0).1 = true ↔
        WithinLag oneByOne (s.scheduler.handleNodeStatus oneByOne ⟨0, 9, 0⟩ [65] 5 0).2 0) := by
  have run : SyncRun Unit Unit oneByOne (fun _ _ => True) 0 _ :=
    Run.refl.tail ⟨.nodeStatus [66] 4 0, ⟨0, 0, 0⟩⟩ trivial rfl
  refine ⟨_, run, by decide, ⟨by decide, rfl⟩, ⟨rfl, by decide, fun _ found => by cases found⟩,
    (minLag_truthful_iff ⟨by decide, rfl⟩ ⟨rfl, by decide, fun _ found => by cases found⟩).mpr ?_⟩
  exact .inl ⟨by decide, .inl (by decide)⟩

/-- The first status offers the signal whatever its height, and a chain that is ahead of
all peers does not offer it. -/
theorem minLag_misleads : (∃ s, SyncRun Unit Unit oneByOne (fun _ _ => True) 0 s ∧
      Signals oneByOne s.scheduler ⟨0, 9, 0⟩ ∧
      Accepts oneByOne s.scheduler ⟨0, 9, 0⟩ [65] 100 0 ∧
      (s.scheduler.handleNodeStatus oneByOne ⟨0, 9, 0⟩ [65] 100 0).1 = true ∧
      ¬ WithinLag oneByOne (s.scheduler.handleNodeStatus oneByOne ⟨0, 9, 0⟩ [65] 100 0).2 0) ∧
    ∃ s, SyncRun Unit Unit oneByOne (fun _ _ => True) 10 s ∧ Signals oneByOne s.scheduler ⟨10, 9, 0⟩ ∧
      Accepts oneByOne s.scheduler ⟨10, 9, 0⟩ [65] 7 0 ∧
      (s.scheduler.handleNodeStatus oneByOne ⟨10, 9, 0⟩ [65] 7 0).1 = false ∧
      WithinLag oneByOne (s.scheduler.handleNodeStatus oneByOne ⟨10, 9, 0⟩ [65] 7 0).2 10 := by
  constructor
  · refine ⟨_, .refl, ⟨by decide, rfl⟩, ⟨rfl, by decide, fun _ found => by cases found⟩, by decide, ?_⟩
    rintro (below | lags)
    · exact absurd below (by decide)
    · exact absurd lags (by decide)
  · exact ⟨_, .refl, ⟨by decide, rfl⟩, ⟨rfl, by decide, fun _ found => by cases found⟩,
      by decide, .inl (by decide)⟩

end Scheduler

end Pdcc.Sync
