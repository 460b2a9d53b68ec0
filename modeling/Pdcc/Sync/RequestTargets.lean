import Pdcc.Sync.HeightRecords

/-!
# Where block requests go

The window base of the scheduler follows the ledger, and a request asks for the smallest
height that is marked as new, from one of the peers that have it and the fewest requests
pending.
-/

set_option autoImplicit false

namespace Pdcc.Sync

open Ledger Library

namespace Scheduler

variable {conf : SchedulerConf} {s t : Scheduler} {moment : Moment}

theorem leastNew_isNew (found : t.leastNew ≠ maxUint64) : t.blockStates.lookup t.leastNew = some .newBlock := by
  rcases least_attained maxUint64 with top | ⟨entry, member, isNew, height⟩
  · exact absurd top found
  · obtain ⟨key, state⟩ := entry
    have state_eq : state = .newBlock := of_decide_eq_true isNew
    subst state_eq
    have key_eq : key = t.leastNew := height
    rw [← key_eq]
    exact AList.mem_lookup_iff.mpr member

theorem leastNew_le {height : UInt64} (isNew : t.blockStates.lookup height = some .newBlock) : t.leastNew ≤ height :=
  least_le (AList.mem_lookup_iff.mp isNew) (decide_eq_true rfl)

theorem mem_getHeight {pendingHeight : UInt64} {peer : Bytes} : peer ∈ t.getHeight pendingHeight ↔
      ∃ height, t.peers.lookup peer = some height ∧ pendingHeight ≤ height := by
  rw [getHeight, List.mem_map]
  constructor
  · rintro ⟨⟨peer, height⟩, member, rfl⟩
    obtain ⟨present, high⟩ := List.mem_filter.mp member
    exact ⟨height, AList.mem_lookup_iff.mpr present, of_decide_eq_true high⟩
  · rintro ⟨height, present, high⟩
    exact ⟨⟨peer, height⟩, List.mem_filter.mpr ⟨AList.mem_lookup_iff.mp present, decide_eq_true high⟩, rfl⟩

theorem selectPeer_spec {pendingHeight : UInt64} {draw : Nat} (chosen : t.selectPeer pendingHeight draw ≠ []) :
    t.selectPeer pendingHeight draw ∈ t.getHeight pendingHeight ∧ ∀ peer ∈ t.getHeight pendingHeight,
        t.getPendingReqInPeer (t.selectPeer pendingHeight draw) ≤ t.getPendingReqInPeer peer := by
  simp only [selectPeer] at chosen ⊢
  generalize candidates : (t.getHeight pendingHeight).filter (fun peer =>
    t.getPendingReqInPeer peer = least t.getPendingReqInPeer (fun _ => true) maxInt64 (t.getHeight pendingHeight)) = peers
    at chosen ⊢
  cases selected : peers[draw % peers.length]? with
  | none => simp [selected] at chosen
  | some peer =>
    have member := List.mem_of_getElem? selected
    rw [← candidates, List.mem_filter, decide_eq_true_eq] at member
    refine ⟨member.1, fun other present => ?_⟩
    rw [Option.getD_some, member.2]
    exact least_le present rfl

theorem Handled.base {Body RwSet : Type} {msg : SchedulerMsg Body RwSet} {outcome : Outcome Body RwSet} {after : Scheduler}
    (handled : Handled conf s moment msg outcome after) :
    after.pendingRecvHeight = s.pendingRecvHeight ∨ after.pendingRecvHeight = moment.committed + 1 ∨
      ∃ resp, msg = .processedBlock resp ∧ (resp.status = .ok ∨ resp.status = .hasProcessed) ∧
        s.pendingRecvHeight ≤ resp.height ∧ after.pendingRecvHeight = resp.height + 1 := by
  cases handled with
  | nodeStatus sender blockHeight archivedHeight =>
    refine .inl ?_
    rw [handleNodeStatus]
    split
    · rfl
    dsimp only
    split
    · rfl
    split
    · rfl
    exact (addPending_rest conf _ moment blockHeight).2
  | liveness => exact .inl (handleLivinessMsg_base conf s moment)
  | schedule =>
    have looked : (s.isNeedSync conf moment).2.pendingRecvHeight = s.pendingRecvHeight ∨
        (s.isNeedSync conf moment).2.pendingRecvHeight = moment.committed + 1 := by
      rw [isNeedSync_state]
      split
      · exact .inr (s.clearLaggingRequest_rest _).2.2.2
      · exact .inl rfl
    have kept : (s.handleScheduleMsg conf moment).2.pendingRecvHeight = (s.isNeedSync conf moment).2.pendingRecvHeight := by
      have ended := handleScheduleMsg_scheduled conf s moment
      generalize s.handleScheduleMsg conf moment = outcome at ended
      cases ended with
      | unchanged | dropped _ _ => rfl
      | requested peer _ _ _ _ _ => exact (requestBatch_rest conf _ _ _ _).2
    rw [kept]
    exact looked.imp id .inl
  | ignored | startSync | stopSync => exact .inl rfl
  | received batch sender running walked => exact .inl (update_spec walked).2.2.2
  | processed resp =>
    rw [handleProcessedBlockResp]
    cases status : resp.status with
    | dbErr | addErr | validateFailed => exact .inl rfl
    | ok | hasProcessed =>
      dsimp only
      split
      · next above => exact .inr (.inr ⟨resp, rfl, by simp [status], above, rfl⟩)
      · exact .inl rfl
  | dataDetection => exact .inr (.inl (s.clearLaggingRequest_rest _).2.2.2)

end Scheduler

/-- For the least new height, above the ledger, to a least loaded peer that has it. -/
structure WellTargeted (t : Scheduler) (committed : UInt64) (request : BlockSyncReq) : Prop where
  isNew : t.blockStates.lookup request.blockHeight = some .newBlock
  smallest : ∀ height, t.blockStates.lookup height = some .newBlock →
    request.blockHeight ≤ height
  aboveLedger : committed < request.blockHeight
  recorded : ∃ height, t.peers.lookup request.receiver = some height ∧
    request.blockHeight ≤ height
  leastLoaded : ∀ peer height, t.peers.lookup peer = some height →
    request.blockHeight ≤ height →
    t.getPendingReqInPeer request.receiver ≤ t.getPendingReqInPeer peer

/-- A height is reported as processed only once it is committed. -/
def Truthful {Body RwSet : Type} (_ : SyncState) (event : SyncEvent Body RwSet) : Prop :=
  ∀ resp, event.msg = .processedBlock resp → resp.status = .ok ∨ resp.status = .hasProcessed →
    resp.height ≤ event.moment.committed

def Sound {Body RwSet : Type} (s : SyncState) (event : SyncEvent Body RwSet) : Prop :=
  Truthful s event ∧ event.moment.committed ≠ maxUint64

/-- What a message does to the window base and where its request goes. The request is made
in the scheduler from which the heights that the ledger has passed are dropped. -/
def Targets {Body RwSet : Type} (conf : SchedulerConf) (s : SyncState)
    (event : SyncEvent Body RwSet) : Prop :=
  ∀ outcome after, s.scheduler.handler conf event.moment event.msg = .ok (outcome, after) →
    s.scheduler.pendingRecvHeight ≤ after.pendingRecvHeight ∧
    after.pendingRecvHeight.toNat ≤ event.moment.committed.toNat + 1 ∧
    ∀ request, outcome.request = some request →
      WellTargeted (s.scheduler.isNeedSync conf event.moment).2 event.moment.committed request

/-- The base is at most the height after the ledger. -/
def BaseBounded (s : SyncState) : Prop :=
  s.scheduler.pendingRecvHeight.toNat ≤ s.committed.toNat + 1

section

variable {Body RwSet : Type} {conf : SchedulerConf} {s : SyncState}
  {event : SyncEvent Body RwSet} {outcome : Outcome Body RwSet} {after : Scheduler}

theorem BaseBounded.handled (bounded : BaseBounded s) (sound : Sound s event) (grown : s.committed ≤ event.moment.committed)
    (handled : Scheduler.Handled conf s.scheduler event.moment event.msg outcome after) :
    s.scheduler.pendingRecvHeight ≤ after.pendingRecvHeight ∧ after.pendingRecvHeight.toNat ≤ event.moment.committed.toNat + 1 := by
  have next := toNat_succ sound.2
  rw [BaseBounded] at bounded
  rw [UInt64.le_iff_toNat_le] at grown ⊢
  rcases handled.base with same | moved | ⟨resp, isResp, done, above, moved⟩
  · rw [same]
    omega
  · rw [moved, next]
    omega
  · have reported := sound.1 resp isResp done
    rw [moved, toNat_succ (ne_maxUint64_of_le reported sound.2)]
    rw [UInt64.le_iff_toNat_le] at above reported
    omega

theorem committed_lt_base (notLast : event.moment.committed ≠ maxUint64) (needed : (s.scheduler.isNeedSync conf event.moment).1 = true) :
    event.moment.committed < (s.scheduler.isNeedSync conf event.moment).2.pendingRecvHeight := by
  have running := Scheduler.not_stopped_of_isNeedSync conf s.scheduler event.moment needed
  rw [Scheduler.isNeedSync_state]
  by_cases passed : event.moment.committed ≥ s.scheduler.pendingRecvHeight
  · rw [if_pos ⟨running, passed⟩, (s.scheduler.clearLaggingRequest_rest _).2.2.2, UInt64.lt_iff_toNat_lt, toNat_succ notLast]
    exact Nat.lt_succ_self _
  · rw [if_neg fun both => passed both.2]
    exact UInt64.not_le.mp passed

theorem wellTargeted_of_scheduled (notLast : event.moment.committed ≠ maxUint64) {request : BlockSyncReq}
    (requested : (s.scheduler.handleScheduleMsg conf event.moment).1 = some request) :
    WellTargeted (s.scheduler.isNeedSync conf event.moment).2 event.moment.committed request := by
  have ended := Scheduler.handleScheduleMsg_scheduled conf s.scheduler event.moment
  generalize s.scheduler.handleScheduleMsg conf event.moment = outcome at ended requested
  cases ended with
  | unchanged | dropped _ _ => cases requested
  | requested peer needed found above selected chosen =>
    cases requested
    subst selected
    obtain ⟨present, least⟩ := Scheduler.selectPeer_spec chosen
    exact
      { isNew := Scheduler.leastNew_isNew found
        smallest := fun height isNew => Scheduler.leastNew_le isNew
        aboveLedger := Std.lt_of_lt_of_le (committed_lt_base notLast needed) (UInt64.not_lt.mp above)
        recorded := Scheduler.mem_getHeight.mp present
        leastLoaded := fun peer height known reaches =>
          least peer (Scheduler.mem_getHeight.mpr ⟨height, known, reaches⟩) }

theorem BaseBounded.targets (bounded : BaseBounded s) (sound : Sound s event)
    (grown : s.committed ≤ event.moment.committed) : Targets conf s event := by
  intro outcome after ran
  have handled := Scheduler.handled_of_handler conf s.scheduler event.moment ran
  obtain ⟨kept, below⟩ := bounded.handled sound grown handled
  refine ⟨kept, below, fun request requested => ?_⟩
  generalize event.msg = msg at handled
  cases handled with
  | schedule => exact wellTargeted_of_scheduled sound.2 requested
  | _ => cases requested

theorem baseBounded_init (currHeight : UInt64) : BaseBounded (.init currHeight) := by
  rw [BaseBounded]
  exact (UInt64.toNat_add currHeight 1).trans_le (Nat.mod_le _ _)

theorem baseBounded_of_run {currHeight : UInt64} (run : SyncRun Body RwSet conf Sound currHeight s) : BaseBounded s := by
  refine run.invariant BaseBounded (baseBounded_init currHeight) ?_
  intro before event after bounded sound moved
  obtain ⟨grown, reached, _, handled⟩ := SyncState.handled_of_step moved
  rw [BaseBounded, reached]
  exact (bounded.handled sound grown handled).2

/-- While the ledger stays below the value that stands for no height, the window base never
decreases, is at most one above the ledger, and every request is well targeted. -/
theorem requests_wellTargeted {currHeight : UInt64} (run : SyncRun Body RwSet conf Sound currHeight s) :
    BaseBounded s ∧ ∀ event : SyncEvent Body RwSet, Sound s event →
      s.committed ≤ event.moment.committed → Targets conf s event := by
  have bounded := baseBounded_of_run run
  exact ⟨bounded, fun event sound grown => bounded.targets sound grown⟩

end

def oneByOne : SchedulerConf where
  maxPendingBlocks := 3
  batchesizeInEachReq := 1
  peerReqTimeout := 30
  reqTimeThreshold := 1
  startTime := 0
  thresholdTime := 3
  thresholdBlocks := 5
  preferenceNodes := none

/-- A peer reports five blocks; the first of them is then requested from it. -/
theorem requests_wellTargeted_first : ∃ s, SyncRun Unit Unit oneByOne Sound 0 s ∧
      (s.scheduler.handleScheduleMsg oneByOne ⟨0, 1, 0⟩).1 = some ⟨1, 1, [65]⟩ ∧
      BaseBounded s ∧ Targets oneByOne s (⟨.schedule, ⟨0, 1, 0⟩⟩ : SyncEvent Unit Unit) := by
  have sound (s : SyncState) (event : SyncEvent Unit Unit)
      (other : ∀ resp, event.msg ≠ .processedBlock resp) (early : event.moment.committed = 0) :
      Sound s event :=
    ⟨fun resp isResp => absurd isResp (other resp), by rw [early]; decide⟩
  have run : SyncRun Unit Unit oneByOne Sound 0 _ :=
    Run.refl.tail ⟨.nodeStatus [65] 5 0, ⟨0, 0, 0⟩⟩ (sound _ _ (fun _ same => by cases same) rfl) rfl
  obtain ⟨bounded, targets⟩ := requests_wellTargeted run
  exact ⟨_, run, by decide, bounded, targets _ (sound _ _ (fun _ same => by cases same) rfl) (by decide)⟩

/-- A ledger at the largest height takes the window base back to zero. -/
theorem base_wraps : ∃ (s : SyncState) (event : SyncEvent Unit Unit),
      SyncRun Unit Unit oneByOne Truthful 0 s ∧ Truthful s event ∧
      s.committed ≤ event.moment.committed ∧ ¬ Targets oneByOne s event := by
  refine ⟨_, ⟨.dataDetection, ⟨maxUint64, 0, 0⟩⟩, .refl, ?_, by decide, ?_⟩
  · intro resp isResp
    cases isResp
  · intro targets
    exact absurd (targets _ _ rfl).1 (by decide)

end Pdcc.Sync
