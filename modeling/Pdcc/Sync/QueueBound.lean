import Pdcc.Sync.Stranding

/-!
# What the processor queues

The scheduler decides height by height whether a block was waited for, but hands over whole
responses. The processor queues no more than what was waited for if each response that is
handed over brings nothing else.
-/

set_option autoImplicit false

namespace Pdcc.Sync

open Ledger Library

variable {Body RwSet : Type}

namespace HeightRecord

structure Held (record : HeightRecord) : Prop where
  received : record.state = some .receivedBlock
  answered : record.pendingTime = none

variable {record : HeightRecord}

theorem Held.not_wanted (held : record.Held) : record.wanted = false := by
  rw [wanted, held.received]
  rfl

theorem Held.receive (held : record.Held) (sender : Bytes) : (record.receive sender).Held :=
  ⟨by simp [HeightRecord.receive, held.not_wanted, held.received], rfl⟩

theorem held_receive (wanted : record.wanted = true) (sender : Bytes) : (record.receive sender).Held :=
  ⟨by simp [HeightRecord.receive, wanted], rfl⟩

end HeightRecord

namespace Scheduler

variable {conf : SchedulerConf} {s : Scheduler} {moment : Moment} {height : UInt64}

def SparesReceived (conf : SchedulerConf) (t : Scheduler) : Prop :=
  (∀ height ∈ loopHeights t.leastNew t.maxHeight (conf.batchesizeInEachReq + t.leastNew),
    (t.record height).state ≠ some .receivedBlock) ∧
  (t.record t.leastNew).state ≠ some .receivedBlock

instance (conf : SchedulerConf) (t : Scheduler) : Decidable (t.SparesReceived conf) :=
  @instDecidableAnd _ _ (List.decidableBAll _ _) inferInstance

def BringsWanted (s : Scheduler) (committed : UInt64) (batch : SyncBlockBatch Body RwSet) :
    Prop :=
  (∃ height ∈ batchHeights batch.headers, (s.record height).wanted = true) →
    ∀ height ∈ batchHeights batch.headers, committed < height → (s.record height).wanted = true

def Asked (conf : SchedulerConf) (s : Scheduler) (moment : Moment) :
    SchedulerMsg Body RwSet → Prop
  | .schedule => (s.isNeedSync conf moment).1 = true →
      (s.isNeedSync conf moment).2.SparesReceived conf
  | .syncedBlock (.ok batch) _ => s.BringsWanted moment.committed batch
  | .stopSync => False
  | _ => True

theorem record_clearLaggingRequest_of_tracked {curHeight : UInt64} (tracked : (s.record height).state ≠ none) (above : ¬ height < curHeight) :
    (s.clearLaggingRequest curHeight).record height = s.record height := by
  have kept : s.keptRecord curHeight height = s.record height := if_neg fun both => above both.1
  rw [record_clearLaggingRequest, kept]
  exact if_neg fun both => tracked both.2

theorem record_isNeedSync_of_tracked (conf : SchedulerConf) (tracked : (s.record height).state ≠ none) (above : ¬ height < moment.committed) :
    (s.isNeedSync conf moment).2.record height = s.record height := by
  rcases s.record_isNeedSync conf moment height with same | ⟨passed, _⟩ | ⟨_, passed | absent, _⟩
  · exact same
  · exact absurd passed above
  · exact absurd passed above
  · exact absurd absent tracked

theorem record_handleScheduleMsg_of_received (spares : (s.isNeedSync conf moment).1 = true → (s.isNeedSync conf moment).2.SparesReceived conf)
    (received : ((s.isNeedSync conf moment).2.record height).state = some .receivedBlock) :
    (s.handleScheduleMsg conf moment).2.record height = (s.isNeedSync conf moment).2.record height := by
  have ended := handleScheduleMsg_scheduled conf s moment
  generalize s.handleScheduleMsg conf moment = outcome at ended
  generalize (s.isNeedSync conf moment).2 = t at ended spares received ⊢
  cases ended with
  | unchanged => rfl
  | dropped needed _ =>
    rw [record_eraseState]
    refine if_neg ?_
    rintro rfl
    exact (spares needed).2 received
  | requested peer needed _ _ _ _ =>
    rw [record_requestBatch]
    refine if_neg fun member => (spares needed).1 height ?_ received
    rw [mem_loopHeights] at member ⊢
    exact ⟨member.1, Std.le_trans member.2.1 (t.peerHeight_le_maxHeight peer), member.2.2⟩

variable {msg : SchedulerMsg Body RwSet} {outcome : Outcome Body RwSet} {after : Scheduler}

theorem held_of_handled (handled : Handled conf s moment msg outcome after)
    (asked : Asked conf s moment msg) (above : moment.committed < height)
    (other : ∀ resp ∈ msg.result?.toList, resp.height ≠ height) (held : (s.record height).Held) :
    (after.record height).Held := by
  have tracked : (s.record height).state ≠ none := by simp [held.received]
  have notBehind : ¬ height < moment.committed := Std.not_lt.mpr (Std.le_of_lt above)
  cases handled with
  | nodeStatus sender blockHeight archivedHeight =>
    rcases s.record_handleNodeStatus conf moment sender blockHeight archivedHeight height with
      same | ⟨absent, _, _⟩
    · exact same ▸ held
    · exact absurd absent tracked
  | liveness =>
    rw [record_handleLivinessMsg]
    split
    · next expired =>
      obtain ⟨late, rfl⟩ := expired
      have none_asked : s.pendingTime.lookup s.pendingRecvHeight = none := held.answered
      simp [requestExpired, none_asked] at late
    · exact held
  | schedule =>
    have same := record_isNeedSync_of_tracked conf tracked notBehind
    rw [record_handleScheduleMsg_of_received asked (same ▸ held.received), same]
    exact held
  | ignored => exact held
  | received batch sender _ walked =>
    rw [(update_spec walked).1]
    split
    · exact held.receive sender
    · exact held
  | processed resp =>
    rw [record_handleProcessedBlockResp, if_neg (other resp (List.mem_singleton_self _)).symm]
    exact held
  | dataDetection =>
    rw [record_clearLaggingRequest_of_tracked tracked notBehind]
    exact held
  | stopSync => cases asked
  | startSync => exact held

theorem wanted_of_handedOver (handled : Handled conf s moment msg outcome after)
    (asked : Asked conf s moment msg) {infos : ReceivedBlockInfos Body RwSet}
    (handedOver : outcome.out = some infos) (member : height ∈ infos.heights)
    (above : moment.committed < height) :
    (s.record height).wanted = true ∧ (after.record height).Held := by
  cases handled with
  | received batch sender _ walked =>
    obtain ⟨records, needed, _⟩ := update_spec walked
    dsimp only at handedOver
    split at handedOver
    · next forwarded =>
      cases handedOver
      have some_wanted := (needed.mp forwarded).resolve_left Bool.false_ne_true
      have wanted := asked some_wanted height member above
      refine ⟨wanted, ?_⟩
      have here : height ∈ batchHeights batch.headers := member
      rw [records, if_pos here]
      exact HeightRecord.held_receive wanted sender
    · cases handedOver
  | _ => cases handedOver

theorem out_of_result (handled : Handled conf s moment msg outcome after)
    {resp : ProcessedBlockResp} (member : resp ∈ msg.result?.toList) : outcome.out = none := by
  cases handled with
  | processed => rfl
  | _ => cases member

end Scheduler

namespace Service

variable {conf : ServiceConf} {sv after : Service Body RwSet} {height : UInt64}

/-- The scheduler is not stopped, requests no received height again and gets none unwanted. -/
def Asks (conf : ServiceConf) (sv : Service Body RwSet) (action : ServiceAction Body RwSet) :
    Prop :=
  match action with
  | .schedule position now draw => ∀ msg rest, sv.takeScheduler position = some (msg, rest) →
      Scheduler.Asked conf.scheduler sv.scheduler ⟨sv.committed, now, draw⟩ msg
  | _ => True

/-- What a response adds to the queue above the ledger is what it moved to received. -/
def AddsOnlyMoved (sv after : Service Body RwSet) : Prop :=
  ∀ msg, sv.schedulerOut = none → after.schedulerOut = some msg →
    ∀ (pro later : Processor Body RwSet) (lastCommit : UInt64), sv.committed ≤ lastCommit →
      pro.handleReceivedBlockInfos lastCommit msg = .ok later →
      ∀ height, lastCommit < height → later.Queued height → ¬ pro.Queued height →
        ¬ sv.Received height ∧ after.Received height

def queuedAbove (sv : Service Body RwSet) : List UInt64 :=
  sv.processor.queue.keys.filter (sv.committed < ·)

def expected (sv : Service Body RwSet) : List UInt64 :=
  ((sv.scheduler.blockStates.keys.filter fun height =>
    sv.scheduler.blockStates.lookup height = some .receivedBlock) ++
      sv.resultsInTransit.map (·.height)).dedup

/-- Above the ledger, no more heights are queued than are received or about to be reported. -/
def QueueBounded (sv : Service Body RwSet) : Prop :=
  sv.queuedAbove.length ≤ sv.expected.length

def brought (msgs : List (ReceivedBlockInfos Body RwSet)) (height : UInt64) : Nat :=
  msgs.countP fun msg => msg.heights.contains height

def reported (results : List ProcessedBlockResp) (height : UInt64) : Nat :=
  results.countP fun resp => resp.height == height

@[simp] theorem brought_nil (height : UInt64) : brought ([] : List (ReceivedBlockInfos Body RwSet)) height = 0 := rfl

@[simp] theorem reported_nil (height : UInt64) : reported [] height = 0 := rfl

variable {msg : ReceivedBlockInfos Body RwSet}

theorem brought_of_mem (member : height ∈ msg.heights) : brought [msg] height = 1 := by
  simp [brought, member]

theorem brought_of_not_mem (absent : height ∉ msg.heights) : brought [msg] height = 0 := by
  simp [brought, absent]

def inTransit (sv : Service Body RwSet) (height : UInt64) : Nat :=
  brought sv.infosInTransit height + reported sv.resultsInTransit height

def tokens (sv : Service Body RwSet) (height : UInt64) : Nat :=
  sv.inTransit height + (sv.processor.queue.lookup height).isSome.toNat

theorem Exchanged.inTransit {infosTaken infosSent : List (ReceivedBlockInfos Body RwSet)} {resultsTaken resultsSent : List ProcessedBlockResp}
    (exchanged : sv.Exchanged after infosTaken infosSent resultsTaken resultsSent)
    (height : UInt64) :
    brought infosTaken height + reported resultsTaken height + after.inTransit height =
      brought infosSent height + reported resultsSent height + sv.inTransit height := by
  have infos := exchanged.infos.countP_eq fun msg => msg.heights.contains height
  have results := exchanged.results.countP_eq fun resp => resp.height == height
  simp only [List.countP_append] at infos results
  simp only [Service.inTransit, brought, reported]
  omega

theorem tokens_le_of_queued (queued : after.processor.Queued height → sv.processor.Queued height)
    (moved : after.inTransit height ≤ sv.inTransit height) :
    after.tokens height ≤ sv.tokens height := by
  have fewer : (after.processor.queue.lookup height).isSome.toNat ≤ (sv.processor.queue.lookup height).isSome.toNat := by
    cases later : (after.processor.queue.lookup height).isSome with
    | false => exact Nat.zero_le _
    | true => rw [show (sv.processor.queue.lookup height).isSome = true from queued later]
  simp only [tokens]
  omega

/-- Above the ledger, a height is in one place at most, and then held as received. -/
def Tallied (sv : Service Body RwSet) : Prop :=
  ∀ height, sv.committed < height →
    sv.tokens height ≤ 1 ∧ (1 ≤ sv.tokens height → (sv.scheduler.record height).Held)

theorem tallied_init (currHeight : UInt64) : (init currHeight : Service Body RwSet).Tallied :=
  fun _ _ => ⟨Nat.zero_le 1, nofun⟩

theorem Tallied.of_tokens_le (tallied : sv.Tallied) (scheduler : after.scheduler = sv.scheduler) (grown : sv.committed ≤ after.committed)
    (fewer : ∀ height, sv.committed < height → after.tokens height ≤ sv.tokens height) :
    after.Tallied := by
  intro height above
  have before := Std.lt_of_le_of_lt grown above
  obtain ⟨single, held⟩ := tallied height before
  rw [scheduler]
  exact ⟨Nat.le_trans (fewer height before) single, fun some_token => held (Nat.le_trans some_token (fewer height before))⟩

theorem Tallied.scheduled (tallied : sv.Tallied) {now : Int} {draw : Nat} {msg : SchedulerMsg Body RwSet} {outcome : Outcome Body RwSet}
    (asked : Scheduler.Asked conf.scheduler sv.scheduler ⟨sv.committed, now, draw⟩ msg)
    (handled : Scheduler.Handled conf.scheduler sv.scheduler ⟨sv.committed, now, draw⟩ msg outcome after.scheduler)
    (processor : after.processor = sv.processor) (committed : after.committed = sv.committed)
    (exchanged : sv.Exchanged after [] outcome.out.toList msg.result?.toList []) :
    after.Tallied := by
  intro height above
  rw [committed] at above
  obtain ⟨single, held⟩ := tallied height above
  have moved := exchanged.inTransit height
  simp only [brought_nil, reported_nil, Nat.zero_add, Nat.add_zero] at moved
  by_cases about : ∀ resp ∈ msg.result?.toList, resp.height ≠ height
  · have none_reported : reported msg.result?.toList height = 0 :=
      List.countP_eq_zero.mpr fun resp member => by simpa using about resp member
    by_cases handedOver : ∃ infos, outcome.out = some infos ∧ height ∈ infos.heights
    · -- a height that was wanted had no token before
      obtain ⟨infos, out, member⟩ := handedOver
      obtain ⟨wanted, heldAfter⟩ := Scheduler.wanted_of_handedOver handled asked out member above
      have fresh : sv.tokens height = 0 := by
        refine Nat.lt_one_iff.mp (Nat.not_le.mp fun some_token => ?_)
        exact absurd wanted (by simp [(held some_token).not_wanted])
      rw [none_reported, out, Option.toList_some, brought_of_mem member] at moved
      refine ⟨?_, fun _ => heldAfter⟩
      simp only [tokens, processor] at fresh ⊢
      omega
    · have none_brought : brought outcome.out.toList height = 0 := by
        refine List.countP_eq_zero.mpr fun infos member => ?_
        have out := Option.mem_toList.mp member
        simpa using fun brings => handedOver ⟨infos, out, brings⟩
      have same : after.tokens height = sv.tokens height := by
        simp only [tokens, processor]
        omega
      rw [same]
      exact ⟨single, fun some_token =>
        Scheduler.held_of_handled handled asked above about (held some_token)⟩
  · -- the result takes the only token of its height
    obtain ⟨resp, member, same⟩ : ∃ resp ∈ msg.result?.toList, resp.height = height := by
      simpa using about
    have some_reported : 1 ≤ reported msg.result?.toList height :=
      List.countP_pos_iff.mpr ⟨resp, member, by simp [same]⟩
    rw [Scheduler.out_of_result handled member, Option.toList_none, brought_nil] at moved
    have gone : after.tokens height = 0 := by
      simp only [tokens, processor] at single ⊢
      omega
    rw [gone]
    exact ⟨Nat.zero_le 1, nofun⟩

theorem tokens_le_of_received (handled : sv.processor.handleReceivedBlockInfos sv.committed msg = .ok after.processor)
    (exchanged : sv.Exchanged after [msg] [] [] []) (height : UInt64) :
    after.tokens height ≤ sv.tokens height := by
  have moved := exchanged.inTransit height
  simp only [brought_nil, reported_nil, Nat.zero_add, Nat.add_zero] at moved
  have queued := Processor.queued_handleReceivedBlockInfos handled height
  by_cases member : height ∈ msg.heights
  · rw [brought_of_mem member] at moved
    have single := (after.processor.queue.lookup height).isSome.toNat_le
    simp only [tokens]
    omega
  · rw [brought_of_not_mem member] at moved
    refine tokens_le_of_queued (fun later => ?_) (by omega)
    exact (queued.mp later).resolve_right fun both => member both.1

theorem tokens_le_of_processed {chain : Chain Body RwSet} {result : Option ProcessedBlockResp}
    (handled : sv.processor.handleProcessBlockMsg conf.fastSync chain sv.committed = (result, after.processor))
    (exchanged : sv.Exchanged after [] [] [] result.toList) (height : UInt64) :
    after.tokens height ≤ sv.tokens height := by
  have moved := exchanged.inTransit height
  simp only [brought_nil, reported_nil, Nat.zero_add] at moved
  rcases sv.processor.handleProcessBlockMsg_cases conf.fastSync chain sv.committed with
    ⟨_, same⟩ | ⟨waiting, resp, processor, same, about, _, _, left⟩
  · rw [handled, Prod.mk.injEq] at same
    rw [same.1, Option.toList_none, reported_nil] at moved
    exact tokens_le_of_queued (by rw [same.2]; exact id) (by omega)
  · rw [handled, Prod.mk.injEq] at same
    rw [same.1, Option.toList_some, reported, List.countP_singleton, about] at moved
    by_cases next : height = sv.committed + 1
    · have gone : (after.processor.queue.lookup height).isSome = false := by
        refine Bool.eq_false_iff.mpr fun queued => ?_
        rw [same.2] at queued
        exact ((left height).mp queued).1 next
      subst next
      have single : (if sv.committed + 1 == sv.committed + 1 then 1 else 0) ≤ 1 := by
        split <;> omega
      have present : (sv.processor.queue.lookup (sv.committed + 1)).isSome = true := waiting
      simp only [tokens, gone, present, Bool.toNat_false, Bool.toNat_true]
      omega
    · rw [if_neg (by simpa using Ne.symm next)] at moved
      refine tokens_le_of_queued (fun later => ?_) (by omega)
      rw [same.2] at later
      exact ((left height).mp later).2

variable {action : ServiceAction Body RwSet}

theorem Tallied.step (tallied : sv.Tallied) (asks : sv.Asks conf action) (stepped : sv.step conf action = some after) : after.Tallied := by
  have still (exchanged : sv.Exchanged after [] [] [] []) (height : UInt64) : after.inTransit height ≤ sv.inTransit height := by
    have moved := exchanged.inTransit height
    simp only [brought_nil, reported_nil, Nat.zero_add] at moved
    exact Nat.le_of_eq moved
  cases moved_of_step stepped with
  | carried _ scheduler processor grown exchanged _ =>
    exact tallied.of_tokens_le scheduler grown fun height _ =>
      tokens_le_of_queued (by rw [processor]; exact id) (still exchanged height)
  | scheduled position now draw msg rest outcome taken handled processor committed exchanged _ =>
    exact tallied.scheduled (asks msg rest taken) handled processor committed exchanged
  | received position chain msg scheduler handled committed exchanged _ =>
    exact tallied.of_tokens_le scheduler (Std.le_of_eq committed.symm) fun height _ =>
      tokens_le_of_received handled exchanged height
  | processed position chain result scheduler handled grown exchanged _ =>
    exact tallied.of_tokens_le scheduler grown fun height _ =>
      tokens_le_of_processed handled exchanged height
  | detected position chain scheduler processor committed exchanged _ =>
    refine tallied.of_tokens_le scheduler (Std.le_of_eq committed.symm) fun height _ =>
      tokens_le_of_queued (fun queued => ?_) (still exchanged height)
    rw [processor, Processor.queued_handleDataDetection] at queued
    exact queued.2
  | stopped position chain rest _ scheduler processor committed exchanged _ =>
    refine tallied.of_tokens_le scheduler (Std.le_of_eq committed.symm) fun height _ =>
      tokens_le_of_queued (fun queued => ?_) (still exchanged height)
    rw [processor] at queued
    exact absurd queued (sv.processor.not_queued_handleStopSyncMsg height)

theorem Tallied.queueBounded (tallied : sv.Tallied) : sv.QueueBounded := by
  refine (List.subperm_of_subset (sv.processor.queue.keys_nodup.filter _) ?_).length_le
  intro height member
  obtain ⟨queued, above⟩ := List.mem_filter.mp member
  rw [Table.mem_keys_iff] at queued
  have some_token : 1 ≤ sv.tokens height := by
    simp only [tokens, queued, Bool.toNat_true]
    omega
  have received := ((tallied height (of_decide_eq_true above)).2 some_token).received
  refine List.mem_dedup.mpr (List.mem_append_left _ (List.mem_filter.mpr ⟨?_, ?_⟩))
  · rw [Table.mem_keys_iff]
    exact Option.isSome_iff_exists.mpr ⟨_, received⟩
  · exact decide_eq_true received

theorem addsOnlyMoved_of_step (asks : sv.Asks conf action) (stepped : sv.step conf action = some after) : sv.AddsOnlyMoved after := by
  intro msg idle out pro later lastCommit grown received height above queued fresh
  cases moved_of_step stepped with
  | carried _ _ _ _ _ kept => cases (kept idle).symm.trans out
  | scheduled position now draw taskMsg rest outcome taken handled _ _ _ same =>
    have added := (Processor.queued_handleReceivedBlockInfos received height).mp queued
    have member := (added.resolve_left fresh).1
    obtain ⟨wanted, held⟩ := Scheduler.wanted_of_handedOver handled (asks taskMsg rest taken)
      (same.symm.trans out) member (Std.lt_of_le_of_lt grown above)
    refine ⟨fun alreadyReceived => ?_, held.received⟩
    rw [HeightRecord.wanted, alreadyReceived] at wanted
    cases wanted
  | received _ _ _ _ _ _ _ same => cases (idle.symm.trans same.symm).trans out
  | processed _ _ _ _ _ _ _ same => cases (idle.symm.trans same.symm).trans out
  | detected _ _ _ _ _ _ same => cases (idle.symm.trans same.symm).trans out
  | stopped _ _ _ _ _ _ _ _ same => cases (idle.symm.trans same.symm).trans out

/-- In a run in which the scheduler hands over only what it wanted, the queue stays within
what the scheduler expects, and every block of a response that is added was waited for. -/
theorem queue_follows_scheduler {currHeight : UInt64} (run : Run (step conf) (Asks conf) (init currHeight) sv) :
    sv.QueueBounded ∧ ∀ action after, sv.Asks conf action → sv.step conf action = some after →
      sv.AddsOnlyMoved after :=
  ⟨(run.invariant Tallied (tallied_init currHeight)
      fun _ _ _ tallied asks stepped => tallied.step asks stepped).queueBounded,
    fun _ _ asks stepped => addsOnlyMoved_of_step asks stepped⟩

theorem queue_follows_scheduler_first :
    ∃ sv : Service Unit Unit, Run (step serviceOneByOne) (Asks serviceOneByOne) (init 0) sv ∧
      sv.queuedAbove = [1] ∧ sv.expected = [1] ∧ sv.QueueBounded := by
  have asked : Run (step serviceOneByOne) (Asks serviceOneByOne) (init 0 : Service Unit Unit) _ :=
    (((Run.refl.tail (.askScheduler (.nodeStatus [65] 2 0)) trivial rfl).tail
      (.schedule 0 0 0) (fun _ _ taken => by cases taken; trivial) rfl).tail
      (.askScheduler .schedule) trivial rfl).tail
      (.schedule 0 1 0) (fun _ _ taken => by
        cases taken
        exact fun _ => by decide) rfl
  have run : Run (step serviceOneByOne) (Asks serviceOneByOne) (init 0 : Service Unit Unit) _ :=
    (((asked.tail (.askScheduler (.syncedBlock (.ok (oneBlock 1)) [65])) trivial rfl).tail
      (.schedule 0 2 0) (fun _ _ taken => by
        cases taken
        exact fun _ => List.forall_mem_singleton.mpr fun _ => by decide) rfl).tail
      .handOver trivial rfl).tail (.process 0 acceptingChain) trivial rfl
  exact ⟨_, run, by decide, by decide, (queue_follows_scheduler run).1⟩

def mixedBlocks : SyncBlockBatch Unit Unit :=
  ⟨some (.blockBatch [⟨some ⟨1, []⟩, ()⟩, ⟨some ⟨100, []⟩, ()⟩]), false⟩

def mixedResponse : List (ServiceAction Unit Unit) :=
  [.askScheduler (.nodeStatus [65] 2 0), .schedule 0 0 0, .askScheduler .schedule,
    .schedule 0 1 0, .askScheduler (.syncedBlock (.ok mixedBlocks) [65])]

def stops : ServiceAction Body RwSet → Bool
  | .askScheduler .stopSync | .askProcessor .stopSync => true
  | _ => false

/-- Both blocks of the response are queued, of which the scheduler has marked one. -/
theorem mixed_response_queued : (∃ sv after : Service Unit Unit,
      Run (step serviceOneByOne) (fun _ action => stops action = false) (init 0) sv ∧
      sv.step serviceOneByOne (.schedule 0 2 0) = some after ∧ ¬ sv.AddsOnlyMoved after) ∧
    ∃ sv : Service Unit Unit, Run (step serviceOneByOne) (fun _ action => stops action = false) (init 0) sv ∧
      sv.queuedAbove = [100, 1] ∧ sv.expected = [1] ∧ ¬ sv.QueueBounded := by
  constructor
  · have run : Run (step serviceOneByOne) (fun _ action => stops action = false)
        (init 0 : Service Unit Unit) _ := Run.of_foldlM mixedResponse rfl
    refine ⟨_, _, run, rfl, fun only => ?_⟩
    have moved := only _ rfl rfl newProcessor _ 0 (by decide) rfl 100 (by decide) rfl nofun
    cases moved.2
  · have run : Run (step serviceOneByOne) (fun _ action => stops action = false)
        (init 0 : Service Unit Unit) _ :=
      Run.of_foldlM (mixedResponse ++ [.schedule 0 2 0, .handOver, .process 0 acceptingChain]) rfl
    exact ⟨_, run, by decide, by decide, by unfold QueueBounded; decide⟩

end Service

end Pdcc.Sync
