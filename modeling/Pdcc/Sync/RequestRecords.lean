import Pdcc.Sync.RequestTargets

/-!
# Request records and height states

A height is pending when a request for it is recorded, and received when its sender is.
Handlers keep this agreement as long as each of them meets a height in the state that it
expects.
-/

set_option autoImplicit false

namespace Pdcc.Sync

open Ledger Library

namespace HeightRecord

/-- A pending height has a request record, a received one its sender, and no other has. -/
structure Agrees (record : HeightRecord) : Prop where
  block : record.pendingBlock.isSome = true ↔ record.state = some .pendingBlock
  time : record.pendingTime.isSome = true ↔ record.state = some .pendingBlock
  received : record.receivedBlock.isSome = true ↔ record.state = some .receivedBlock

variable {record : HeightRecord}

theorem agrees_empty : Agrees empty := ⟨by simp [empty], by simp [empty], by simp [empty]⟩

namespace Agrees

theorem markNew (agrees : record.Agrees) (absent : record.state = none) : record.markNew.Agrees := by
  obtain ⟨block, time, received⟩ := agrees
  simp only [absent, reduceCtorEq, iff_false] at block time received
  exact ⟨by simp [HeightRecord.markNew, block], by simp [HeightRecord.markNew, time], by simp [HeightRecord.markNew, received]⟩

theorem erased (agrees : record.Agrees) (idle : record.state = none ∨ record.state = some .newBlock) :
    Agrees { record with state := none } := by
  obtain ⟨block, time, received⟩ := agrees
  rcases idle with idle | idle <;>
    (simp only [idle, Option.some.injEq, reduceCtorEq, iff_false] at block time received
     exact ⟨by simp [block], by simp [time], by simp [received]⟩)

theorem request (agrees : record.Agrees) (isNew : record.state = some .newBlock) (peer : Bytes)
    (now : Int) : (record.request peer now).Agrees := by
  have received := agrees.received
  simp only [isNew, Option.some.injEq, reduceCtorEq, iff_false] at received
  exact ⟨by simp [HeightRecord.request], by simp [HeightRecord.request], by simp [HeightRecord.request, received]⟩

theorem receive (agrees : record.Agrees) (sender : Bytes) : (record.receive sender).Agrees := by
  have received := agrees.received
  cases wanted : record.wanted with
  | true => exact ⟨by simp [HeightRecord.receive, wanted], by simp [HeightRecord.receive, wanted], by simp [HeightRecord.receive, wanted]⟩
  | false =>
    have idle : record.state ≠ some .pendingBlock := by
      intro pending
      simp [HeightRecord.wanted, pending] at wanted
    exact ⟨by simp [HeightRecord.receive, wanted, idle],
      by simp [HeightRecord.receive, wanted, idle], by simp [HeightRecord.receive, wanted, received]⟩

theorem process (agrees : record.Agrees) {status : ProcessedBlockStatus} (idle : record.state ≠ some .pendingBlock)
    (kept : status = .dbErr → record.state ≠ some .receivedBlock) :
    (record.process status).Agrees := by
  obtain ⟨block, time, received⟩ := agrees
  simp only [idle, iff_false] at block time
  cases status with
  | dbErr => exact ⟨by simp [HeightRecord.process, block, idle],
      by simp [HeightRecord.process, time, idle], by simp [HeightRecord.process, kept rfl]⟩
  | _ => exact ⟨by simp [HeightRecord.process, block], by simp [HeightRecord.process, time], by simp [HeightRecord.process]⟩

end Agrees

end HeightRecord

/-- The records of all heights agree with their states. -/
def RecordsAgree (s : Scheduler) : Prop := ∀ height, (s.record height).Agrees

namespace Scheduler

/-- In a schedule step the batch that starts at the least new height, as far as some peer
goes, is new altogether; when nothing is new, neither is the last height tracked. -/
def BatchIsNew (conf : SchedulerConf) (t : Scheduler) : Prop :=
  (∀ height ∈ loopHeights t.leastNew t.maxHeight (conf.batchesizeInEachReq + t.leastNew),
    (t.record height).state = some .newBlock) ∧
  ((t.record t.leastNew).state = none ∨ (t.record t.leastNew).state = some .newBlock)

instance (conf : SchedulerConf) (t : Scheduler) : Decidable (t.BatchIsNew conf) :=
  @instDecidableAnd _ _ (List.decidableBAll _ _) inferInstance

end Scheduler

/-- The states in which the handlers expect the heights they change: an expired request is
for a height above the ledger, a batch to request is new, and a result is for a height that
is not pending. -/
def Orderly {Body RwSet : Type} (conf : SchedulerConf) (s : SyncState)
    (event : SyncEvent Body RwSet) : Prop :=
  match event.msg with
  | .liveness => s.scheduler.requestExpired conf event.moment = true →
      event.moment.committed < s.scheduler.pendingRecvHeight
  | .schedule => (s.scheduler.isNeedSync conf event.moment).1 = true →
      (s.scheduler.isNeedSync conf event.moment).2.BatchIsNew conf
  | .processedBlock resp => (s.scheduler.record resp.height).state ≠ some .pendingBlock ∧
      (resp.status = .dbErr → (s.scheduler.record resp.height).state ≠ some .receivedBlock)
  | _ => True

namespace RecordsAgree

variable {conf : SchedulerConf} {s : Scheduler} {moment : Moment}

theorem clearLaggingRequest (agree : RecordsAgree s) (curHeight : UInt64) : RecordsAgree (s.clearLaggingRequest curHeight) := by
  intro height
  have kept : (s.keptRecord curHeight height).Agrees := by
    rw [Scheduler.keptRecord]
    split
    · exact HeightRecord.agrees_empty
    · exact agree height
  rw [Scheduler.record_clearLaggingRequest]
  split
  · next absent => exact kept.markNew absent.2
  · exact kept

theorem isNeedSync (agree : RecordsAgree s) : RecordsAgree (s.isNeedSync conf moment).2 := by
  rw [Scheduler.isNeedSync_state]
  split
  · exact agree.clearLaggingRequest moment.committed
  · exact agree

theorem nodeStatus (agree : RecordsAgree s) (sender : Bytes) (blockHeight archivedHeight : UInt64) :
    RecordsAgree (s.handleNodeStatus conf moment sender blockHeight archivedHeight).2 := by
  rw [Scheduler.handleNodeStatus]
  split
  · exact agree
  dsimp only
  split
  · exact agree
  split
  · exact agree
  · intro height
    have before : (({ s with peers := s.peers.insert sender blockHeight } : Scheduler).record height).Agrees := agree height
    rcases Scheduler.record_addPending conf { s with peers := s.peers.insert sender blockHeight } moment blockHeight height with
      same | ⟨absent, _, marked⟩
    · exact same ▸ before
    · exact marked ▸ before.markNew absent

theorem liveness (agree : RecordsAgree s) (orderly : s.requestExpired conf moment = true → moment.committed < s.pendingRecvHeight) :
    RecordsAgree (s.handleLivinessMsg conf moment) := by
  intro height
  rw [Scheduler.record_handleLivinessMsg]
  split
  · next expired =>
    obtain ⟨late, rfl⟩ := expired
    rw [if_pos (orderly late)]
    have asked : (s.record s.pendingRecvHeight).pendingTime.isSome = true := by
      rw [Scheduler.requestExpired] at late
      cases found : s.pendingTime.lookup s.pendingRecvHeight with
      | none => simp [found] at late
      | some reqTime => simp [Scheduler.record, found]
    have pending := (agree s.pendingRecvHeight).time.mp asked
    have received := (agree s.pendingRecvHeight).received
    simp only [pending, Option.some.injEq, reduceCtorEq, iff_false] at received
    exact ⟨by simp, by simp, by simp [received]⟩
  · exact agree height

theorem schedule_cases (orderly : (s.isNeedSync conf moment).1 = true → (s.isNeedSync conf moment).2.BatchIsNew conf) (height : UInt64) :
    (s.handleScheduleMsg conf moment).2.record height = (s.isNeedSync conf moment).2.record height ∨
      (((s.isNeedSync conf moment).2.record height).state = some .newBlock ∧ ((s.handleScheduleMsg conf moment).2.record height =
            { (s.isNeedSync conf moment).2.record height with state := none } ∨
          ∃ peer, (s.handleScheduleMsg conf moment).2.record height =
            ((s.isNeedSync conf moment).2.record height).request peer moment.now)) := by
  have ended := Scheduler.handleScheduleMsg_scheduled conf s moment
  generalize s.handleScheduleMsg conf moment = outcome at ended
  generalize (s.isNeedSync conf moment).2 = t at ended orderly ⊢
  cases ended with
  | unchanged => exact .inl rfl
  | dropped needed _ =>
    rw [Scheduler.record_eraseState]
    split
    · next here =>
      subst here
      rcases (orderly needed).2 with untracked | isNew
      · refine .inl ?_
        rw [← untracked]
      · exact .inr ⟨isNew, .inl rfl⟩
    · exact .inl rfl
  | requested peer needed _ _ _ _ =>
    rw [Scheduler.record_requestBatch]
    split
    · next member =>
      rw [mem_loopHeights] at member
      refine .inr ⟨(orderly needed).1 height (mem_loopHeights.mpr ?_), .inr ⟨peer, rfl⟩⟩
      exact ⟨member.1, Std.le_trans member.2.1 (t.peerHeight_le_maxHeight peer), member.2.2⟩
    · exact .inl rfl

theorem schedule (agree : RecordsAgree s) (orderly : (s.isNeedSync conf moment).1 = true → (s.isNeedSync conf moment).2.BatchIsNew conf) :
    RecordsAgree (s.handleScheduleMsg conf moment).2 := by
  intro height
  have before : ((s.isNeedSync conf moment).2.record height).Agrees := agree.isNeedSync height
  rcases schedule_cases orderly height with same | ⟨isNew, erased | ⟨peer, requested⟩⟩
  · exact same ▸ before
  · exact erased ▸ before.erased (.inr isNew)
  · exact requested ▸ before.request isNew peer moment.now

theorem step {Body RwSet : Type} {before after : SyncState} {event : SyncEvent Body RwSet}
    (agree : RecordsAgree before.scheduler) (orderly : Orderly conf before event)
    (moved : before.step conf event = some after) : RecordsAgree after.scheduler := by
  obtain ⟨_, _, outcome, handled⟩ := SyncState.handled_of_step moved
  obtain ⟨msg, moment⟩ := event
  generalize after.scheduler = scheduler at handled ⊢
  cases handled with
  | nodeStatus sender blockHeight archivedHeight =>
    exact agree.nodeStatus sender blockHeight archivedHeight
  | liveness => exact agree.liveness orderly
  | schedule => exact agree.schedule orderly
  | ignored => exact agree
  | received batch sender running walked =>
    intro height
    rw [(Scheduler.update_spec walked).1]
    split
    · exact (agree height).receive sender
    · exact agree height
  | processed resp =>
    intro height
    rw [Scheduler.record_handleProcessedBlockResp]
    split
    · next same =>
      subst same
      exact (agree resp.height).process orderly.1 orderly.2
    · exact agree height
  | dataDetection => exact agree.clearLaggingRequest moment.committed
  | stopSync => exact fun height => HeightRecord.agrees_empty
  | startSync => exact agree

end RecordsAgree

/-- In runs whose messages meet the heights in the expected states, the records agree with
the states, and beyond dropping what the ledger has passed a schedule step changes only
heights that are new. -/
theorem records_agree {Body RwSet : Type} {conf : SchedulerConf} {currHeight : UInt64}
    {s : SyncState} (run : SyncRun Body RwSet conf (Orderly conf) currHeight s) :
    RecordsAgree s.scheduler ∧ ∀ moment, Orderly conf s (⟨.schedule, moment⟩ : SyncEvent Body RwSet) →
        ∀ height, (s.scheduler.handleScheduleMsg conf moment).2.record height ≠
            (s.scheduler.isNeedSync conf moment).2.record height →
          ((s.scheduler.isNeedSync conf moment).2.record height).state = some .newBlock := by
  constructor
  · refine run.invariant (fun s => RecordsAgree s.scheduler) (fun height => ?_) ?_
    · exact Scheduler.record_newScheduler currHeight height ▸ HeightRecord.agrees_empty
    intro before event after agree orderly moved
    exact agree.step orderly moved
  · intro moment orderly height changed
    rcases RecordsAgree.schedule_cases orderly height with same | ⟨isNew, _⟩
    · exact absurd same changed
    · exact isNew

/-- A status and the request that follows it. -/
theorem records_agree_first : ∃ s, SyncRun Unit Unit oneByOne (Orderly oneByOne) 0 s ∧
      (s.scheduler.record 1).state = some .pendingBlock ∧ RecordsAgree s.scheduler := by
  have run : SyncRun Unit Unit oneByOne (Orderly oneByOne) 0 _ :=
    (Run.refl.tail ⟨.nodeStatus [65] 5 0, ⟨0, 0, 0⟩⟩ trivial rfl).tail
      ⟨.schedule, ⟨0, 1, 0⟩⟩ (fun _ => by decide) rfl
  exact ⟨_, run, by decide, (records_agree run).1⟩

def twoByTwo : SchedulerConf := { oneByOne with batchesizeInEachReq := 2 }

def oneBlock (height : UInt64) : SyncBlockBatch Unit Unit :=
  ⟨some (.blockBatch [⟨some ⟨height, []⟩, ()⟩]), false⟩

/-- The second height of a batch is received before the request for the first one expires.
Requesting the first again makes the second pending, although it is received. -/
def requestedAgain : List (SyncEvent Unit Unit) :=
  [⟨.nodeStatus [65] 5 0, ⟨0, 0, 0⟩⟩, ⟨.schedule, ⟨0, 1, 0⟩⟩,
    ⟨.syncedBlock (.ok (oneBlock 2)) [65], ⟨0, 2, 0⟩⟩, ⟨.liveness, ⟨0, 40, 0⟩⟩,
    ⟨.nodeStatus [65] 5 0, ⟨0, 41, 0⟩⟩]

def expiredBehindLedger : List (SyncEvent Unit Unit) :=
  [⟨.nodeStatus [65] 5 0, ⟨0, 0, 0⟩⟩, ⟨.schedule, ⟨0, 1, 0⟩⟩, ⟨.liveness, ⟨1, 40, 0⟩⟩]

theorem records_disagree : (∃ s, SyncRun Unit Unit twoByTwo (fun _ _ => True) 0 s ∧
      (s.scheduler.record 2).state = some .receivedBlock ∧
      ((s.scheduler.handleScheduleMsg twoByTwo ⟨0, 42, 0⟩).2.record 2).state = some .pendingBlock ∧
      ¬ RecordsAgree (s.scheduler.handleScheduleMsg twoByTwo ⟨0, 42, 0⟩).2) ∧
    ∃ s, SyncRun Unit Unit oneByOne (fun _ _ => True) 0 s ∧ ¬ RecordsAgree s.scheduler := by
  constructor
  · have run : SyncRun Unit Unit twoByTwo (fun _ _ => True) 0 _ :=
      Run.of_foldlM requestedAgain rfl
    refine ⟨_, run, by decide, by decide, fun agree => ?_⟩
    exact absurd ((agree 2).received.mp (by decide)) (by decide)
  · have run : SyncRun Unit Unit oneByOne (fun _ _ => True) 0 _ :=
      Run.of_foldlM expiredBehindLedger rfl
    refine ⟨_, run, fun agree => ?_⟩
    exact absurd ((agree 1).block.mpr (by decide)) (by decide)

end Pdcc.Sync
