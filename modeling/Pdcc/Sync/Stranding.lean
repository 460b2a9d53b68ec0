import Pdcc.Sync.RequestRecords
import Pdcc.Sync.Service

/-!
# Received heights on their way to the ledger

A height that the scheduler has marked as received is not asked for again, so that its block
has to be somewhere: in the ledger, in the queue of the processor, or in a message. The one
step that can lose it is the stop of the processor, which has a low priority and may be
handled long after the scheduler has stopped and resumed.
-/

set_option autoImplicit false

namespace Pdcc.Sync

open Ledger Library

variable {Body RwSet : Type}

theorem le_of_lt_succ {height bound : UInt64} (below : height < bound + 1) : height ≤ bound := by
  rw [UInt64.lt_iff_toNat_lt, UInt64.toNat_add, UInt64.toNat_one] at below
  rw [UInt64.le_iff_toNat_le]
  omega

namespace Scheduler

variable {conf : SchedulerConf} {s : Scheduler} {moment : Moment} {height : UInt64}

theorem received_of_clearLaggingRequest {curHeight : UInt64}
    (received : ((s.clearLaggingRequest curHeight).record height).state = some .receivedBlock) :
    (s.record height).state = some .receivedBlock := by
  rw [record_clearLaggingRequest] at received
  split at received
  · cases received
  · rw [keptRecord] at received
    split at received
    · cases received
    · exact received

theorem received_of_handleScheduleMsg (received : ((s.handleScheduleMsg conf moment).2.record height).state =
      some .receivedBlock) : (s.record height).state = some .receivedBlock := by
  have looked : ((s.isNeedSync conf moment).2.record height).state = some .receivedBlock := by
    have ended := handleScheduleMsg_scheduled conf s moment
    generalize s.handleScheduleMsg conf moment = outcome at ended received
    generalize (s.isNeedSync conf moment).2 = t at ended received ⊢
    cases ended with
    | unchanged => exact received
    | dropped _ _ =>
      rw [record_eraseState] at received
      split at received
      · cases received
      · exact received
    | requested peer _ _ _ _ _ =>
      rw [record_requestBatch] at received
      split at received
      · cases received
      · exact received
  rw [isNeedSync_state] at looked
  split at looked
  · exact received_of_clearLaggingRequest looked
  · exact looked

theorem received_of_handled {msg : SchedulerMsg Body RwSet} {outcome : Outcome Body RwSet}
    {after : Scheduler} (handled : Handled conf s moment msg outcome after)
    (received : (after.record height).state = some .receivedBlock) :
    ((s.record height).state = some .receivedBlock ∧ ∀ resp ∈ msg.result?.toList, resp.height = height → resp.status = .dbErr) ∨
      ∃ infos ∈ outcome.out.toList, height ∈ infos.heights := by
  cases handled with
  | nodeStatus sender blockHeight archivedHeight =>
    refine .inl ⟨?_, List.forall_mem_nil _⟩
    rcases s.record_handleNodeStatus conf moment sender blockHeight archivedHeight height with
      same | ⟨_, _, marked⟩
    · exact same ▸ received
    · rw [marked] at received
      cases received
  | liveness =>
    refine .inl ⟨?_, List.forall_mem_nil _⟩
    rw [record_handleLivinessMsg] at received
    split at received
    · dsimp only at received
      split at received
      · cases received
      · exact received
    · exact received
  | schedule => exact .inl ⟨received_of_handleScheduleMsg received, List.forall_mem_nil _⟩
  | ignored => exact .inl ⟨received, List.forall_mem_nil _⟩
  | received batch sender _ walked =>
    obtain ⟨records, needed, _⟩ := update_spec walked
    rw [records] at received
    split at received
    · next member =>
      rw [HeightRecord.receive] at received
      cases wanted : (s.record height).wanted with
      | false =>
        simp only [wanted, Bool.false_eq_true, if_false] at received
        exact .inl ⟨received, List.forall_mem_nil _⟩
      | true =>
        have forwarded := needed.mpr (.inr ⟨height, member, wanted⟩)
        rw [if_pos forwarded]
        exact .inr ⟨⟨batch, sender⟩, List.mem_singleton_self _, member⟩
    · exact .inl ⟨received, List.forall_mem_nil _⟩
  | processed resp =>
    rw [record_handleProcessedBlockResp] at received
    split at received
    · next same =>
      cases status : resp.status with
      | dbErr =>
        simp only [HeightRecord.process, status] at received
        refine .inl ⟨received, fun other member _ => ?_⟩
        rw [List.mem_singleton.mp member, status]
      | _ => simp [HeightRecord.process, status] at received
    · next other =>
      refine .inl ⟨received, fun result member same => absurd ?_ other⟩
      rw [← same, List.mem_singleton.mp member]
  | dataDetection => exact .inl ⟨received_of_clearLaggingRequest received, List.forall_mem_nil _⟩
  | stopSync => cases received
  | startSync => exact .inl ⟨received, List.forall_mem_nil _⟩

end Scheduler

namespace Service

variable {conf : ServiceConf} {sv after : Service Body RwSet} {height : UInt64}

variable (sv)

/-- The height is committed, or a message under way is about it. -/
def Carried (height : UInt64) : Prop :=
  height ≤ sv.committed ∨ (∃ msg ∈ sv.infosInTransit, height ∈ msg.heights) ∨
    ∃ resp ∈ sv.resultsInTransit, resp.height = height

def Received (height : UInt64) : Prop :=
  (sv.scheduler.record height).state = some .receivedBlock

/-- Every received height is queued or carried. -/
def NoneStranded : Prop :=
  ∀ height, sv.Received height → sv.processor.Queued height ∨ sv.Carried height

/-- A stop of the processor finds no received height that only its queue has. -/
def StopsLate (action : ServiceAction Body RwSet) : Prop :=
  match action with
  | .process position _ => (∃ rest, sv.takeProcessor position = some (.stopSync, rest)) →
      ∀ height, sv.processor.Queued height → sv.Received height → sv.Carried height
  | _ => True

variable {sv}

variable {infosSent : List (ReceivedBlockInfos Body RwSet)} {resultsSent : List ProcessedBlockResp}
  {action : ServiceAction Body RwSet}

theorem Exchanged.carried {infosTaken : List (ReceivedBlockInfos Body RwSet)} {resultsTaken : List ProcessedBlockResp}
    (exchanged : sv.Exchanged after infosTaken infosSent resultsTaken resultsSent)
    (grown : sv.committed ≤ after.committed) (carried : sv.Carried height) :
    after.Carried height ∨ (∃ msg ∈ infosTaken, height ∈ msg.heights) ∨ ∃ resp ∈ resultsTaken, resp.height = height := by
  rcases carried with committed | ⟨msg, member, brings⟩ | ⟨resp, member, about⟩
  · exact .inl (.inl (Std.le_trans committed grown))
  · have kept := exchanged.infos.mem_iff.mpr (List.mem_append_right _ member)
    rcases List.mem_append.mp kept with taken | later
    · exact .inr (.inl ⟨msg, taken, brings⟩)
    · exact .inl (.inr (.inl ⟨msg, later, brings⟩))
  · have kept := exchanged.results.mem_iff.mpr (List.mem_append_right _ member)
    rcases List.mem_append.mp kept with taken | later
    · exact .inr (.inr ⟨resp, taken, about⟩)
    · exact .inl (.inr (.inr ⟨resp, later, about⟩))

theorem Exchanged.carried_of_none_taken (exchanged : sv.Exchanged after [] infosSent [] resultsSent)
    (grown : sv.committed ≤ after.committed) (carried : sv.Carried height) :
    after.Carried height := by
  rcases exchanged.carried grown carried with later | ⟨_, member, _⟩ | ⟨_, member, _⟩
  · exact later
  · cases member
  · cases member

structure Accounted (sv : Service Body RwSet) : Prop where
  none_stranded : sv.NoneStranded
  answered : ∀ resp ∈ sv.resultsInTransit, resp.status ≠ .dbErr

theorem accounted_init (currHeight : UInt64) : (init currHeight : Service Body RwSet).Accounted :=
  ⟨nofun, nofun⟩

theorem Moved.none_stranded (accounted : sv.Accounted) (late : sv.StopsLate action)
    (moved : sv.Moved conf after action) : after.NoneStranded := by
  intro height received
  cases moved with
  | carried _ scheduler processor grown exchanged _ =>
    rw [Received, scheduler] at received
    rw [processor]
    exact (accounted.none_stranded height received).imp id (exchanged.carried_of_none_taken grown)
  | scheduled position now draw msg rest outcome _ handled processor committed exchanged _ =>
    rw [processor]
    rcases Scheduler.received_of_handled handled received with
      ⟨before, unanswered⟩ | ⟨infos, sent, brings⟩
    · refine (accounted.none_stranded height before).imp id fun carried => ?_
      rcases exchanged.carried (Std.le_of_eq committed.symm) carried with
        later | ⟨_, member, _⟩ | ⟨resp, taken, about⟩
      · exact later
      · cases member
      · have waiting := exchanged.results.mem_iff.mp (List.mem_append_left _ taken)
        exact absurd (unanswered resp taken about) (accounted.answered resp waiting)
    · refine .inr (.inr (.inl ⟨infos, ?_, brings⟩))
      exact exchanged.infos.mem_iff.mpr (List.mem_append_left _ sent)
  | received position chain msg scheduler handled committed exchanged _ =>
    rw [Received, scheduler] at received
    rw [Processor.queued_handleReceivedBlockInfos handled]
    rcases accounted.none_stranded height received with queued | carried
    · exact .inl (.inl queued)
    rcases exchanged.carried (Std.le_of_eq committed.symm) carried with
      later | ⟨other, taken, brings⟩ | ⟨_, member, _⟩
    · exact .inr later
    · rw [List.mem_singleton.mp taken] at brings
      by_cases above : sv.committed < height
      · exact .inl (.inr ⟨brings, above⟩)
      · exact .inr (.inl (committed ▸ UInt64.not_lt.mp above))
    · cases member
  | processed position chain result scheduler handled grown exchanged _ =>
    rw [Received, scheduler] at received
    rcases accounted.none_stranded height received with queued | carried
    · rcases sv.processor.handleProcessBlockMsg_cases conf.fastSync chain sv.committed with
        ⟨_, same⟩ | ⟨_, resp, processor, same, about, _, _, left⟩
      · rw [handled, Prod.mk.injEq] at same
        rw [same.2]
        exact .inl queued
      · rw [handled, Prod.mk.injEq] at same
        rw [same.2, left]
        by_cases next : height = sv.committed + 1
        · refine .inr (.inr (.inr ⟨resp, ?_, about.trans next.symm⟩))
          refine exchanged.results.mem_iff.mpr (List.mem_append_left _ ?_)
          rw [same.1]
          exact List.mem_singleton_self _
        · exact .inl ⟨next, queued⟩
    · exact .inr (exchanged.carried_of_none_taken grown carried)
  | detected position chain scheduler processor committed exchanged _ =>
    rw [Received, scheduler] at received
    rw [processor, Processor.queued_handleDataDetection]
    rcases accounted.none_stranded height received with queued | carried
    · by_cases passed : height < sv.committed + 1
      · exact .inr (.inl (committed ▸ le_of_lt_succ passed))
      · exact .inl ⟨passed, queued⟩
    · exact .inr (exchanged.carried_of_none_taken (Std.le_of_eq committed.symm) carried)
  | stopped position chain rest taken scheduler processor committed exchanged _ =>
    rw [Received, scheduler] at received
    refine .inr (exchanged.carried_of_none_taken (Std.le_of_eq committed.symm) ?_)
    exact (accounted.none_stranded height received).elim (fun queued => late ⟨rest, taken⟩ height queued received) id

theorem Moved.answered (before : ∀ resp ∈ sv.resultsInTransit, resp.status ≠ .dbErr) (moved : sv.Moved conf after action) :
    ∀ resp ∈ after.resultsInTransit, resp.status ≠ .dbErr := by
  intro resp member
  cases moved with
  | carried _ _ _ _ exchanged _ => exact before resp (exchanged.results.mem_iff.mp member)
  | scheduled position now draw msg rest outcome _ _ _ _ exchanged _ =>
    exact before resp (exchanged.results.mem_iff.mp (List.mem_append_right _ member))
  | received position chain msg _ _ _ exchanged _ =>
    exact before resp (exchanged.results.mem_iff.mp member)
  | processed position chain result _ handled _ exchanged _ =>
    rcases List.mem_append.mp (exchanged.results.mem_iff.mp member) with sent | earlier
    · rcases sv.processor.handleProcessBlockMsg_cases conf.fastSync chain sv.committed with
        ⟨_, same⟩ | ⟨_, other, processor, same, _, query, _⟩
      · rw [handled, Prod.mk.injEq] at same
        rw [same.1] at sent
        cases sent
      · rw [handled, Prod.mk.injEq] at same
        rw [same.1] at sent
        rw [List.mem_singleton.mp sent]
        exact query
    · exact before resp earlier
  | detected position chain _ _ _ exchanged _ =>
    exact before resp (exchanged.results.mem_iff.mp member)
  | stopped position chain rest _ _ _ _ exchanged _ =>
    exact before resp (exchanged.results.mem_iff.mp member)

theorem Accounted.step (accounted : sv.Accounted) (late : sv.StopsLate action) (stepped : sv.step conf action = some after) :
    after.Accounted :=
  ⟨(moved_of_step stepped).none_stranded accounted late, (moved_of_step stepped).answered accounted.answered⟩

/-- In a run whose stops of the processor all come late enough, no received height is ever
stranded. -/
theorem none_stranded_of_run {currHeight : UInt64}
    (run : Run (step conf) StopsLate (init currHeight) sv) : sv.NoneStranded :=
  (run.invariant Accounted (accounted_init currHeight)
    fun _ _ _ accounted late stepped => accounted.step late stepped).none_stranded

def serviceOneByOne : ServiceConf := ⟨oneByOne, false⟩

def acceptingChain : Chain Unit Unit :=
  ⟨fun _ => .accepted, fun _ _ => .accepted, fun _ => .accepted⟩

theorem none_stranded_after_stop : ∃ sv : Service Unit Unit, Run (step serviceOneByOne) StopsLate (init 0) sv ∧
      sv.Received 1 ∧ sv.processor.Queued 1 ∧ sv.NoneStranded := by
  have stopped : Run (step serviceOneByOne) StopsLate (init 0 : Service Unit Unit) _ :=
    (((((Run.refl.tail (.askScheduler .stopSync) trivial rfl).tail (.askProcessor .stopSync) trivial rfl).tail
      (.askScheduler .startSync) trivial rfl).tail
      (.process 0 acceptingChain) (fun _ _ queued => by cases queued) rfl).tail
      (.schedule 0 0 0) trivial rfl).tail
      (.schedule 0 0 0) trivial rfl
  have run : Run (step serviceOneByOne) StopsLate (init 0 : Service Unit Unit) _ :=
    (((((((stopped.tail (.askScheduler (.nodeStatus [65] 2 0)) trivial rfl).tail
      (.schedule 0 0 0) trivial rfl).tail
      (.askScheduler .schedule) trivial rfl).tail
      (.schedule 0 1 0) trivial rfl).tail
      (.askScheduler (.syncedBlock (.ok (oneBlock 1)) [65])) trivial rfl).tail
      (.schedule 0 2 0) trivial rfl).tail .handOver trivial rfl).tail
      (.process 0 acceptingChain) (fun stop => by obtain ⟨rest, taken⟩ := stop; cases taken) rfl
  exact ⟨_, run, rfl, rfl, none_stranded_of_run run⟩

/-- The scheduler stops and resumes and gets a block while the stop of the processor is still
in its queue. The block is handed over first, for its priority, and the stop then clears
it. -/
def overtakenStop : List (ServiceAction Unit Unit) :=
  stopBlockSync ++ startBlockSync ++
    [.schedule 0 0 0, .schedule 0 0 0, .askScheduler (.nodeStatus [65] 2 0), .schedule 0 0 0,
      .askScheduler .schedule, .schedule 0 1 0,
      .askScheduler (.syncedBlock (.ok (oneBlock 1)) [65]), .schedule 0 2 0, .handOver,
      .process 1 acceptingChain, .process 0 acceptingChain]

theorem overtaken_stop_strands : ∃ sv : Service Unit Unit, Reach (step serviceOneByOne) (init 0) sv ∧
      sv.committed = 0 ∧ sv.Received 1 ∧ sv.schedulerTasks = [] ∧ sv.processorTasks = [] ∧
      ¬ sv.NoneStranded := by
  have run : Reach (step serviceOneByOne) (init 0 : Service Unit Unit) _ :=
    Run.of_foldlM overtakenStop rfl
  refine ⟨_, run, rfl, rfl, rfl, rfl, fun none_stranded => ?_⟩
  rcases none_stranded 1 rfl with queued | committed | ⟨_, member, _⟩ | ⟨_, member, _⟩
  · cases queued
  · exact absurd committed (by decide)
  · cases member
  · cases member

end Service

end Pdcc.Sync
