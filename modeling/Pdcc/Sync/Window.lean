import Pdcc.Sync.RequestTargets

/-!
# The window of tracked heights

The heights that the scheduler tracks are meant to lie in a window of `maxPendingBlocks`
heights above the window base, which bounds their number. Several handlers add heights
without looking at the window, and the height of the ledger itself is not dropped when the
base moves past it.
-/

set_option autoImplicit false

namespace Pdcc.Sync

open Ledger Library

namespace Scheduler

variable {conf : SchedulerConf} {s : Scheduler} {moment : Moment} {height : UInt64}

def Tracks (s : Scheduler) (height : UInt64) : Prop := (s.record height).state.isSome = true

def Windowed (conf : SchedulerConf) (s : Scheduler) : Prop :=
  ∀ height, s.Tracks height → s.pendingRecvHeight.toNat ≤ height.toNat ∧
    height.toNat < s.pendingRecvHeight.toNat + conf.maxPendingBlocks.toNat

theorem Windowed.size_le (windowed : Windowed conf s) : s.blockStates.size ≤ conf.maxPendingBlocks.toNat := by
  have bound := s.blockStates.size_le_of_keys ((List.range' s.pendingRecvHeight.toNat conf.maxPendingBlocks.toNat).map UInt64.ofNat)
    fun height tracked => List.mem_map.mpr ⟨height.toNat, List.mem_range'_1.mpr (windowed height tracked), UInt64.ofNat_toNat⟩
  simpa using bound

/-- The base may follow the ledger. -/
structure Follows (s : Scheduler) (committed : UInt64) : Prop where
  notLast : committed ≠ maxUint64
  notAhead : s.pendingRecvHeight.toNat ≤ committed.toNat + 1
  passed : ¬ s.Tracks committed

theorem Windowed.clearLaggingRequest (positive : 0 < conf.maxPendingBlocks.toNat)
    (windowed : Windowed conf s) {committed : UInt64} (follows : s.Follows committed) :
    Windowed conf (s.clearLaggingRequest committed) := by
  have base := toNat_succ follows.notLast
  have ahead := follows.notAhead
  intro height tracked
  rw [(s.clearLaggingRequest_rest committed).2.2.2, base]
  rw [Tracks, record_clearLaggingRequest] at tracked
  split at tracked
  · next here =>
    rw [here.1, base]
    omega
  · rw [keptRecord] at tracked
    split at tracked
    · cases tracked
    · next kept =>
      have before := windowed height tracked
      have different : height ≠ committed := fun same => follows.passed (same ▸ tracked)
      have notBelow : ¬ height < committed := fun below => kept ⟨below, tracked⟩
      rw [UInt64.lt_iff_toNat_lt] at notBelow
      have apart : height.toNat ≠ committed.toNat := fun same =>
        different (UInt64.toNat_inj.mp same)
      omega

theorem Windowed.isNeedSync (positive : 0 < conf.maxPendingBlocks.toNat) (windowed : Windowed conf s)
    (follows : s.stopSyncBlock = false → s.pendingRecvHeight ≤ moment.committed → s.Follows moment.committed) :
    Windowed conf (s.isNeedSync conf moment).2 := by
  rw [isNeedSync_state]
  split
  · next passed => exact windowed.clearLaggingRequest positive (follows passed.1 passed.2)
  · exact windowed

theorem Windowed.nodeStatus (windowed : Windowed conf s) (sender : Bytes) (blockHeight archivedHeight : UInt64) :
    Windowed conf (s.handleNodeStatus conf moment sender blockHeight archivedHeight).2 := by
  rw [handleNodeStatus]
  split
  · exact windowed
  dsimp only
  split
  · exact windowed
  split
  · exact windowed
  · intro height tracked
    rw [(addPending_rest conf _ moment blockHeight).2]
    rcases record_addPending conf { s with peers := s.peers.insert sender blockHeight } moment blockHeight height with same | ⟨_, member, _⟩
    · rw [Tracks, same] at tracked
      exact windowed height tracked
    · obtain ⟨above, _, below⟩ := mem_loopHeights.mp member
      have wraps := UInt64.toNat_add s.pendingRecvHeight conf.maxPendingBlocks
      rw [UInt64.le_iff_toNat_le] at above
      rw [UInt64.lt_iff_toNat_lt, wraps] at below
      exact ⟨above, below.trans_le (Nat.mod_le _ _)⟩

theorem Windowed.liveness (positive : 0 < conf.maxPendingBlocks.toNat)
    (windowed : Windowed conf s) : Windowed conf (s.handleLivinessMsg conf moment) := by
  intro height tracked
  rw [handleLivinessMsg_base]
  rw [Tracks, record_handleLivinessMsg] at tracked
  split at tracked
  · next here =>
    rw [here.2]
    omega
  · exact windowed height tracked

def BatchFits (conf : SchedulerConf) (t : Scheduler) : Prop :=
  ∀ height ∈ loopHeights t.leastNew t.maxHeight (conf.batchesizeInEachReq + t.leastNew),
    height.toNat < t.pendingRecvHeight.toNat + conf.maxPendingBlocks.toNat

instance (conf : SchedulerConf) (t : Scheduler) : Decidable (t.BatchFits conf) :=
  List.decidableBAll _ _

theorem Windowed.schedule (positive : 0 < conf.maxPendingBlocks.toNat) (windowed : Windowed conf s)
    (follows : s.stopSyncBlock = false → s.pendingRecvHeight ≤ moment.committed → s.Follows moment.committed)
    (fits : (s.isNeedSync conf moment).1 = true → (s.isNeedSync conf moment).2.BatchFits conf) :
    Windowed conf (s.handleScheduleMsg conf moment).2 := by
  have looked := windowed.isNeedSync positive follows
  have ended := handleScheduleMsg_scheduled conf s moment
  generalize s.handleScheduleMsg conf moment = outcome at ended ⊢
  generalize (s.isNeedSync conf moment).2 = t at ended looked fits
  cases ended with
  | unchanged => exact looked
  | dropped needed _ =>
    intro height tracked
    rw [Tracks, record_eraseState] at tracked
    split at tracked
    · cases tracked
    · exact looked height tracked
  | requested peer needed found above selected chosen =>
    intro height tracked
    rw [(requestBatch_rest conf t peer t.leastNew moment.now).2]
    rw [Tracks, record_requestBatch] at tracked
    split at tracked
    · next member =>
      obtain ⟨from_, upto, below⟩ := mem_loopHeights.mp member
      refine ⟨?_, fits needed height (mem_loopHeights.mpr ?_)⟩
      · exact UInt64.le_iff_toNat_le.mp (Std.le_trans (UInt64.not_lt.mp above) from_)
      · exact ⟨from_, Std.le_trans upto (t.peerHeight_le_maxHeight peer), below⟩
    · exact looked height tracked

def ResultFits (conf : SchedulerConf) (s : Scheduler) (resp : ProcessedBlockResp) : Prop :=
  match resp.status with
  | .ok | .hasProcessed => s.pendingRecvHeight ≤ resp.height →
      resp.height ≠ maxUint64 ∧ ∀ height, s.Tracks height → ¬ height < resp.height
  | .validateFailed | .addErr => s.pendingRecvHeight.toNat ≤ resp.height.toNat ∧
      resp.height.toNat < s.pendingRecvHeight.toNat + conf.maxPendingBlocks.toNat
  | .dbErr => True

theorem Windowed.processed (windowed : Windowed conf s) {resp : ProcessedBlockResp}
    (fits : ResultFits conf s resp) : Windowed conf (s.handleProcessedBlockResp resp).2 := by
  intro height tracked
  rw [Tracks, record_handleProcessedBlockResp] at tracked
  have elsewhere (other : height ≠ resp.height) : s.pendingRecvHeight.toNat ≤ height.toNat ∧
      height.toNat < s.pendingRecvHeight.toNat + conf.maxPendingBlocks.toNat := by
    rw [if_neg other] at tracked
    exact windowed height tracked
  by_cases same : height = resp.height
  · subst same
    rw [if_pos rfl] at tracked
    rw [ResultFits] at fits
    rw [handleProcessedBlockResp]
    cases status : resp.status <;>
      simp only [status, HeightRecord.process] at tracked fits ⊢
    case ok | hasProcessed => cases tracked
    case dbErr => exact windowed resp.height tracked
    case addErr | validateFailed => exact fits
  · rw [ResultFits] at fits
    have before := elsewhere same
    rw [if_neg same] at tracked
    rw [handleProcessedBlockResp]
    cases status : resp.status <;> simp only [status] at fits ⊢
    case dbErr | addErr | validateFailed => exact before
    case ok | hasProcessed =>
      split
      · next above =>
        obtain ⟨notLast, nothingBelow⟩ := fits above
        have notBelow := nothingBelow height tracked
        rw [UInt64.lt_iff_toNat_lt] at notBelow
        have apart : height.toNat ≠ resp.height.toNat := fun equal =>
          same (UInt64.toNat_inj.mp equal)
        have moved := UInt64.le_iff_toNat_le.mp above
        rw [toNat_succ notLast]
        omega
      · exact before

end Scheduler

/-- The event keeps the tracked heights in the window. -/
def Fits {Body RwSet : Type} (conf : SchedulerConf) (s : SyncState)
    (event : SyncEvent Body RwSet) : Prop :=
  match event.msg with
  | .schedule =>
    (s.scheduler.stopSyncBlock = false →
      s.scheduler.pendingRecvHeight ≤ event.moment.committed →
      s.scheduler.Follows event.moment.committed) ∧
    ((s.scheduler.isNeedSync conf event.moment).1 = true →
      (s.scheduler.isNeedSync conf event.moment).2.BatchFits conf)
  | .processedBlock resp => s.scheduler.ResultFits conf resp
  | .dataDetection => s.scheduler.Follows event.moment.committed
  | _ => True

theorem Scheduler.Windowed.step {Body RwSet : Type} {conf : SchedulerConf}
    (positive : 0 < conf.maxPendingBlocks.toNat) {before after : SyncState}
    {event : SyncEvent Body RwSet} (windowed : before.scheduler.Windowed conf)
    (fits : Fits conf before event) (moved : before.step conf event = some after) :
    after.scheduler.Windowed conf := by
  obtain ⟨_, _, outcome, handled⟩ := SyncState.handled_of_step moved
  obtain ⟨msg, moment⟩ := event
  generalize after.scheduler = scheduler at handled ⊢
  cases handled with
  | nodeStatus sender blockHeight archivedHeight =>
    exact windowed.nodeStatus sender blockHeight archivedHeight
  | liveness => exact windowed.liveness positive
  | schedule => exact windowed.schedule positive fits.1 fits.2
  | ignored => exact windowed
  | received batch sender running walked =>
    obtain ⟨records, _, _, base⟩ := Scheduler.update_spec walked
    intro height tracked
    rw [base]
    refine windowed height ?_
    rw [Scheduler.Tracks, records] at tracked
    split at tracked
    · rw [HeightRecord.isSome_receive] at tracked
      exact tracked
    · exact tracked
  | processed resp => exact windowed.processed fits
  | dataDetection => exact windowed.clearLaggingRequest positive fits
  | stopSync => exact fun height tracked => by cases tracked
  | startSync => exact windowed

/-- In runs that keep the tracked heights in the window there are at most
`maxPendingBlocks` of them. -/
theorem blockStates_bounded {Body RwSet : Type} {conf : SchedulerConf} {currHeight : UInt64}
    {s : SyncState} (positive : 1 ≤ conf.maxPendingBlocks)
    (run : SyncRun Body RwSet conf (Fits conf) currHeight s) :
    s.scheduler.blockStates.size ≤ conf.maxPendingBlocks.toNat := by
  refine Scheduler.Windowed.size_le ?_
  refine run.invariant (fun s => s.scheduler.Windowed conf) ?_ ?_
  · intro height tracked
    cases tracked
  · intro before event after windowed fits moved
    exact windowed.step (UInt64.le_iff_toNat_le.mp positive) fits moved

/-- Three heights are tracked, and the first of them is requested. -/
theorem blockStates_bounded_first :
    ∃ s, SyncRun Unit Unit oneByOne (Fits oneByOne) 0 s ∧ 1 ≤ oneByOne.maxPendingBlocks ∧
      (s.scheduler.record 1).state = some .pendingBlock ∧
      s.scheduler.blockStates.size ≤ oneByOne.maxPendingBlocks.toNat := by
  have positive : 1 ≤ oneByOne.maxPendingBlocks := by decide
  have run : SyncRun Unit Unit oneByOne (Fits oneByOne) 0 _ :=
    (Run.refl.tail ⟨.nodeStatus [65] 5 0, ⟨0, 0, 0⟩⟩ trivial rfl).tail ⟨.schedule, ⟨0, 1, 0⟩⟩
      ⟨fun _ passed => absurd passed (by decide), fun _ => by decide⟩ rfl
  exact ⟨_, run, positive, by decide, blockStates_bounded positive run⟩

/-- The height of the ledger stays tracked when the base moves past it, and the loop over
the window stops only once the limit is exceeded. -/
theorem blockStates_exceeds : ∃ s, SyncRun Unit Unit oneByOne (fun _ _ => True) 0 s ∧
      1 ≤ oneByOne.maxPendingBlocks ∧ 1 ≤ oneByOne.batchesizeInEachReq ∧
      oneByOne.maxPendingBlocks.toNat < s.scheduler.blockStates.size := by
  have run : SyncRun Unit Unit oneByOne (fun _ _ => True) 0 _ := Run.of_foldlM
    [⟨.nodeStatus [65] 2 0, ⟨0, 0, 0⟩⟩, ⟨.dataDetection, ⟨1, 1, 0⟩⟩, ⟨.nodeStatus [65] 9 0, ⟨1, 2, 0⟩⟩] rfl
  exact ⟨_, run, by decide, by decide, by decide⟩

end Pdcc.Sync
