import Pdcc.Library.PriorityQueue
import Pdcc.Sync.Processor

/-!
# The block sync service

The scheduler and the processor run as two routines. Each takes its tasks from a priority
queue and waits until its result is taken from it; a third routine carries the results of
one to the queue of the other. Everything else comes from outside: tasks of the network, of
the timers and of calls, and blocks that the ledger gets in other ways.
-/

set_option autoImplicit false

namespace Pdcc.Sync

open Ledger Library

variable {Body RwSet : Type}

def priorityTop : Nat := 3

def priorityMiddle : Nat := 2

def priorityLow : Nat := 1

namespace SchedulerMsg

def level : SchedulerMsg Body RwSet → Nat
  | .processedBlock _ => priorityTop
  | .syncedBlock _ _ => priorityMiddle
  | .nodeStatus _ _ _ | .liveness | .schedule | .dataDetection | .stopSync | .startSync =>
    priorityLow

def result? : SchedulerMsg Body RwSet → Option ProcessedBlockResp
  | .processedBlock resp => some resp
  | _ => none

end SchedulerMsg

namespace ProcessorMsg

def level : ProcessorMsg Body RwSet → Nat
  | .receivedBlockInfos _ | .processBlock => priorityTop
  | .dataDetection | .stopSync => priorityLow

def infos? : ProcessorMsg Body RwSet → Option (ReceivedBlockInfos Body RwSet)
  | .receivedBlockInfos msg => some msg
  | _ => none

end ProcessorMsg

structure Service (Body RwSet : Type) where
  committed : UInt64
  scheduler : Scheduler
  processor : Processor Body RwSet
  schedulerTasks : List (SchedulerMsg Body RwSet)
  processorTasks : List (ProcessorMsg Body RwSet)
  schedulerOut : Option (ReceivedBlockInfos Body RwSet)
  processorOut : Option ProcessedBlockResp

structure ServiceConf where
  scheduler : SchedulerConf
  fastSync : Bool

inductive ServiceAction (Body RwSet : Type) where
  | askScheduler (msg : SchedulerMsg Body RwSet)
  | askProcessor (msg : ProcessorMsg Body RwSet)
  | schedule (position : Nat) (now : Int) (draw : Nat)
  | process (position : Nat) (chain : Chain Body RwSet)
  | handOver
  | report
  | commit (height : UInt64)

namespace Service

def init (currHeight : UInt64) : Service Body RwSet :=
  ⟨currHeight, newScheduler currHeight, newProcessor, [], [], none, none⟩

variable (conf : ServiceConf) (sv : Service Body RwSet)

def takeScheduler (position : Nat) :
    Option (SchedulerMsg Body RwSet × List (SchedulerMsg Body RwSet)) :=
  takeTop SchedulerMsg.level sv.schedulerTasks position

def takeProcessor (position : Nat) :
    Option (ProcessorMsg Body RwSet × List (ProcessorMsg Body RwSet)) :=
  takeTop ProcessorMsg.level sv.processorTasks position

def committedAfter : Option ProcessedBlockResp → UInt64
  | some ⟨height, .ok, _⟩ => height
  | _ => sv.committed

def step : ServiceAction Body RwSet → Option (Service Body RwSet)
  | .askScheduler msg =>
    match msg.result? with
    | some _ => none
    | none => some { sv with schedulerTasks := sv.schedulerTasks ++ [msg] }
  | .askProcessor msg =>
    match msg.infos? with
    | some _ => none
    | none => some { sv with processorTasks := sv.processorTasks ++ [msg] }
  | .schedule position now draw =>
    match sv.schedulerOut, sv.takeScheduler position with
    | none, some (msg, schedulerTasks) =>
      match sv.scheduler.handler conf.scheduler ⟨sv.committed, now, draw⟩ msg with
      | .error _ => none
      | .ok (outcome, scheduler) =>
        some { sv with scheduler, schedulerTasks, schedulerOut := outcome.out }
    | _, _ => none
  | .process position chain =>
    match sv.processorOut, sv.takeProcessor position with
    | none, some (msg, processorTasks) =>
      match sv.processor.handler conf.fastSync chain sv.committed msg with
      | .error _ => none
      | .ok (result, processor) =>
        some { sv with
          committed := sv.committedAfter result, processor, processorTasks
          processorOut := result }
    | _, _ => none
  | .handOver =>
    sv.schedulerOut.map fun msg =>
      { sv with
        schedulerOut := none
        processorTasks := sv.processorTasks ++ [.receivedBlockInfos msg] }
  | .report =>
    sv.processorOut.map fun resp =>
      { sv with
        processorOut := none
        schedulerTasks := sv.schedulerTasks ++ [.processedBlock resp] }
  | .commit height => if height < sv.committed then none else some { sv with committed := height }

def infosInTransit : List (ReceivedBlockInfos Body RwSet) :=
  sv.schedulerOut.toList ++ sv.processorTasks.filterMap ProcessorMsg.infos?

def resultsInTransit : List ProcessedBlockResp :=
  sv.processorOut.toList ++ sv.schedulerTasks.filterMap SchedulerMsg.result?

def stopBlockSync : List (ServiceAction Body RwSet) :=
  [.askScheduler .stopSync, .askProcessor .stopSync]

def startBlockSync : List (ServiceAction Body RwSet) := [.askScheduler .startSync]

structure Exchanged (after : Service Body RwSet)
    (infosTaken infosSent : List (ReceivedBlockInfos Body RwSet))
    (resultsTaken resultsSent : List ProcessedBlockResp) : Prop where
  infos : (infosTaken ++ after.infosInTransit).Perm (infosSent ++ sv.infosInTransit)
  results : (resultsTaken ++ after.resultsInTransit).Perm (resultsSent ++ sv.resultsInTransit)

inductive Moved (after : Service Body RwSet) : ServiceAction Body RwSet → Prop where
  | carried (action : ServiceAction Body RwSet) : after.scheduler = sv.scheduler →
      after.processor = sv.processor → sv.committed ≤ after.committed →
      sv.Exchanged after [] [] [] [] →
      (sv.schedulerOut = none → after.schedulerOut = none) → Moved after action
  | scheduled (position : Nat) (now : Int) (draw : Nat) (msg : SchedulerMsg Body RwSet)
      (rest : List (SchedulerMsg Body RwSet)) (outcome : Outcome Body RwSet) :
      sv.takeScheduler position = some (msg, rest) →
      Scheduler.Handled conf.scheduler sv.scheduler ⟨sv.committed, now, draw⟩ msg outcome
        after.scheduler →
      after.processor = sv.processor → after.committed = sv.committed →
      sv.Exchanged after [] outcome.out.toList msg.result?.toList [] →
      after.schedulerOut = outcome.out → Moved after (.schedule position now draw)
  | received (position : Nat) (chain : Chain Body RwSet) (msg : ReceivedBlockInfos Body RwSet) :
      after.scheduler = sv.scheduler →
      sv.processor.handleReceivedBlockInfos sv.committed msg = .ok after.processor →
      after.committed = sv.committed → sv.Exchanged after [msg] [] [] [] →
      after.schedulerOut = sv.schedulerOut → Moved after (.process position chain)
  | processed (position : Nat) (chain : Chain Body RwSet) (result : Option ProcessedBlockResp) :
      after.scheduler = sv.scheduler →
      sv.processor.handleProcessBlockMsg conf.fastSync chain sv.committed =
        (result, after.processor) →
      sv.committed ≤ after.committed → sv.Exchanged after [] [] [] result.toList →
      after.schedulerOut = sv.schedulerOut → Moved after (.process position chain)
  | detected (position : Nat) (chain : Chain Body RwSet) : after.scheduler = sv.scheduler →
      after.processor = sv.processor.handleDataDetection sv.committed →
      after.committed = sv.committed → sv.Exchanged after [] [] [] [] →
      after.schedulerOut = sv.schedulerOut → Moved after (.process position chain)
  | stopped (position : Nat) (chain : Chain Body RwSet) (rest : List (ProcessorMsg Body RwSet)) :
      sv.takeProcessor position = some (.stopSync, rest) → after.scheduler = sv.scheduler →
      after.processor = sv.processor.handleStopSyncMsg →
      after.committed = sv.committed → sv.Exchanged after [] [] [] [] →
      after.schedulerOut = sv.schedulerOut → Moved after (.process position chain)

variable {conf sv} {position : Nat}

theorem infosInTransit_takeProcessor {msg : ProcessorMsg Body RwSet}
    {rest : List (ProcessorMsg Body RwSet)} (taken : sv.takeProcessor position = some (msg, rest)) :
    (msg.infos?.toList ++ (sv.schedulerOut.toList ++ rest.filterMap ProcessorMsg.infos?)).Perm sv.infosInTransit := by
  rw [infosInTransit, ← List.append_assoc]
  refine (List.perm_append_comm.append_right _).trans ?_
  rw [List.append_assoc]
  exact (filterMap_perm_of_takeTop ProcessorMsg.infos? taken).symm.append_left _

theorem resultsInTransit_takeScheduler {msg : SchedulerMsg Body RwSet}
    {rest : List (SchedulerMsg Body RwSet)} (taken : sv.takeScheduler position = some (msg, rest)) :
    (msg.result?.toList ++ (sv.processorOut.toList ++ rest.filterMap SchedulerMsg.result?)).Perm sv.resultsInTransit := by
  rw [resultsInTransit, ← List.append_assoc]
  refine (List.perm_append_comm.append_right _).trans ?_
  rw [List.append_assoc]
  exact (filterMap_perm_of_takeTop SchedulerMsg.result? taken).symm.append_left _

theorem le_committedAfter (chain : Chain Body RwSet) (fastSync : Bool) : sv.committed ≤ sv.committedAfter
      (sv.processor.handleProcessBlockMsg fastSync chain sv.committed).1 := by
  rcases sv.processor.handleProcessBlockMsg_cases fastSync chain sv.committed with
    ⟨_, same⟩ | ⟨_, resp, after, same, _, _, added, _⟩
  · rw [same]
    exact Std.le_refl _
  · rw [same]
    obtain ⟨height, status, sender⟩ := resp
    cases status with
    | ok => exact Std.le_of_lt (added rfl)
    | _ => exact Std.le_refl _

variable {after : Service Body RwSet}

theorem moved_schedule {now : Int} {draw : Nat} (stepped : sv.step conf (.schedule position now draw) = some after) :
    sv.Moved conf after (.schedule position now draw) := by
  rw [step] at stepped
  split at stepped
  · next msg rest idle taken =>
    cases handled : sv.scheduler.handler conf.scheduler ⟨sv.committed, now, draw⟩ msg with
    | error cause =>
      rw [handled] at stepped
      cases stepped
    | ok result =>
      rw [handled] at stepped
      cases stepped
      refine .scheduled position now draw msg rest result.1 taken (Scheduler.handled_of_handler _ _ _ handled) rfl rfl ⟨?_, ?_⟩ rfl
      · rw [infosInTransit, infosInTransit, idle]
        exact .refl _
      · exact resultsInTransit_takeScheduler taken
  · cases stepped

theorem moved_process {chain : Chain Body RwSet} (stepped : sv.step conf (.process position chain) = some after) :
    sv.Moved conf after (.process position chain) := by
  rw [step] at stepped
  split at stepped
  · next msg rest idle taken =>
    have infos := infosInTransit_takeProcessor taken
    cases msg with
    | receivedBlockInfos msg =>
      cases handled : sv.processor.handleReceivedBlockInfos sv.committed msg with
      | error cause =>
        simp only [Processor.handler, handled, bind, Except.bind] at stepped
        cases stepped
      | ok processor =>
        simp only [Processor.handler, handled, bind, Except.bind] at stepped
        cases stepped
        refine .received position chain msg rfl handled rfl ⟨infos, ?_⟩ rfl
        rw [resultsInTransit, resultsInTransit, idle]
    | processBlock =>
      have grown := sv.le_committedAfter chain conf.fastSync
      cases stepped
      refine .processed position chain _ rfl rfl grown ⟨infos, ?_⟩ rfl
      rw [resultsInTransit, resultsInTransit, idle]
      exact .refl _
    | dataDetection =>
      cases stepped
      refine .detected position chain rfl rfl rfl ⟨infos, ?_⟩ rfl
      rw [resultsInTransit, resultsInTransit, idle]
    | stopSync =>
      cases stepped
      refine .stopped position chain rest taken rfl rfl rfl ⟨infos, ?_⟩ rfl
      rw [resultsInTransit, resultsInTransit, idle]
  · cases stepped

theorem moved_of_step {action : ServiceAction Body RwSet} (stepped : sv.step conf action = some after) : sv.Moved conf after action := by
  cases action with
  | askScheduler msg =>
    rw [step] at stepped
    split at stepped
    · cases stepped
    · next outside =>
      cases stepped
      refine .carried _ rfl rfl (Std.le_refl _) ⟨.refl _, ?_⟩ id
      simp [resultsInTransit, outside]
  | askProcessor msg =>
    rw [step] at stepped
    split at stepped
    · cases stepped
    · next outside =>
      cases stepped
      refine .carried _ rfl rfl (Std.le_refl _) ⟨?_, .refl _⟩ id
      simp [infosInTransit, outside]
  | schedule position now draw => exact moved_schedule stepped
  | process position chain => exact moved_process stepped
  | handOver =>
    obtain ⟨msg, waiting, rfl⟩ := Option.map_eq_some_iff.mp stepped
    refine .carried _ rfl rfl (Std.le_refl _) ⟨?_, .refl _⟩ fun _ => rfl
    simp only [infosInTransit, waiting, List.filterMap_append, Option.toList_none, List.nil_append]
    exact List.perm_append_comm
  | report =>
    obtain ⟨resp, waiting, rfl⟩ := Option.map_eq_some_iff.mp stepped
    refine .carried _ rfl rfl (Std.le_refl _) ⟨.refl _, ?_⟩ id
    simp only [resultsInTransit, waiting, List.filterMap_append, Option.toList_none, List.nil_append]
    exact List.perm_append_comm
  | commit height =>
    rw [step] at stepped
    split at stepped
    · cases stepped
    · next grown =>
      cases stepped
      exact .carried _ rfl rfl (UInt64.not_lt.mp grown) ⟨.refl _, .refl _⟩ id

end Service

end Pdcc.Sync
