import Pdcc.Sync.Scheduler

/-!
# What the scheduler knows of a height

Four tables of the scheduler are indexed by heights. Together they hold a record of each
height, and a handler changes the records one by one.
-/

set_option autoImplicit false

namespace Pdcc.Sync

open Ledger Library

structure HeightRecord where
  state : Option BlockState
  pendingTime : Option Int
  pendingBlock : Option Bytes
  receivedBlock : Option Bytes

namespace HeightRecord

def empty : HeightRecord := ⟨none, none, none, none⟩

variable (record : HeightRecord)

def markNew : HeightRecord := { record with state := some .newBlock }

def request (peer : Bytes) (now : Int) : HeightRecord :=
  { record with state := some .pendingBlock, pendingTime := some now, pendingBlock := some peer }

def wanted : Bool := record.state = some .newBlock || record.state = some .pendingBlock

def receive (sender : Bytes) : HeightRecord where
  state := if record.wanted then some .receivedBlock else record.state
  pendingTime := none
  pendingBlock := none
  receivedBlock := if record.wanted then some sender else record.receivedBlock

def process (status : ProcessedBlockStatus) : HeightRecord :=
  { record with
    receivedBlock := none
    state :=
      match status with
      | .ok | .hasProcessed => none
      | .validateFailed | .addErr => some .newBlock
      | .dbErr => record.state }

theorem receive_receive (sender : Bytes) : (record.receive sender).receive sender = record.receive sender := by
  obtain ⟨state, pendingTime, pendingBlock, receivedBlock⟩ := record
  cases state with
  | none => rfl
  | some state => cases state <;> rfl

theorem wanted_receive (sender : Bytes) : (record.receive sender).wanted = false := by
  obtain ⟨state, pendingTime, pendingBlock, receivedBlock⟩ := record
  cases state with
  | none => rfl
  | some state => cases state <;> rfl

theorem isSome_receive (sender : Bytes) : (record.receive sender).state.isSome = record.state.isSome := by
  obtain ⟨state, pendingTime, pendingBlock, receivedBlock⟩ := record
  cases state with
  | none => rfl
  | some state => cases state <;> rfl

end HeightRecord

namespace Scheduler

variable (conf : SchedulerConf) (s : Scheduler) (moment : Moment)

def record (height : UInt64) : HeightRecord where
  state := s.blockStates.lookup height
  pendingTime := s.pendingTime.lookup height
  pendingBlock := s.pendingBlocks.lookup height
  receivedBlock := s.receivedBlocks.lookup height

theorem record_newScheduler (currHeight height : UInt64) : (newScheduler currHeight).record height = .empty := rfl

theorem record_dropHeight (dropped height : UInt64) :
    (s.dropHeight dropped).record height = if height = dropped then .empty else s.record height := by
  simp only [record, dropHeight, Table.lookup_erase_eq]
  split <;> rfl

theorem record_foldl_dropHeight (dropped : List UInt64) (height : UInt64) :
    (dropped.foldl dropHeight s).record height = if height ∈ dropped then .empty else s.record height := by
  induction dropped generalizing s with
  | nil => rfl
  | cons first dropped ih =>
    rw [List.foldl_cons, ih, record_dropHeight]
    by_cases same : height = first <;> by_cases later : height ∈ dropped <;> simp [same, later]

theorem foldl_dropHeight_rest (dropped : List UInt64) : (dropped.foldl dropHeight s).peers = s.peers ∧
      (dropped.foldl dropHeight s).lastRequest = s.lastRequest ∧
      (dropped.foldl dropHeight s).stopSyncBlock = s.stopSyncBlock := by
  induction dropped generalizing s with
  | nil => exact ⟨rfl, rfl, rfl⟩
  | cons first dropped ih => exact ih (s.dropHeight first)

theorem record_ensureTracked (tracked height : UInt64) : (s.ensureTracked tracked).record height =
      if height = tracked ∧ (s.record height).state = none then (s.record height).markNew
      else s.record height := by
  rw [ensureTracked]
  cases found : s.blockStates.lookup tracked with
  | some state =>
    rw [if_neg]
    rintro ⟨rfl, absent⟩
    exact absurd (found.symm.trans absent) (by simp)
  | none =>
    by_cases same : height = tracked
    · subst same
      rw [if_pos ⟨rfl, found⟩]
      simp only [record, HeightRecord.markNew, Table.lookup_insert_eq, if_pos]
    · rw [if_neg fun both => same both.1]
      simp only [record, Table.lookup_insert_eq, if_neg same]

theorem ensureTracked_rest (tracked : UInt64) : (s.ensureTracked tracked).peers = s.peers ∧
      (s.ensureTracked tracked).lastRequest = s.lastRequest ∧
      (s.ensureTracked tracked).stopSyncBlock = s.stopSyncBlock ∧
      (s.ensureTracked tracked).pendingRecvHeight = s.pendingRecvHeight := by
  rw [ensureTracked]
  cases s.blockStates.lookup tracked <;> exact ⟨rfl, rfl, rfl, rfl⟩

def keptRecord (curHeight height : UInt64) : HeightRecord :=
  if height < curHeight ∧ (s.record height).state.isSome then .empty else s.record height

theorem record_clearLaggingRequest (curHeight height : UInt64) : (s.clearLaggingRequest curHeight).record height =
      if height = curHeight + 1 ∧ (s.keptRecord curHeight height).state = none then
        (s.keptRecord curHeight height).markNew
      else s.keptRecord curHeight height := by
  have kept : ((s.blockStates.keys.filter (· < curHeight)).foldl dropHeight s).record height = s.keptRecord curHeight height := by
    rw [record_foldl_dropHeight, keptRecord]
    refine if_congr ?_ rfl rfl
    rw [List.mem_filter, Table.mem_keys_iff, decide_eq_true_eq, and_comm]
    rfl
  rw [clearLaggingRequest, ← kept]
  exact record_ensureTracked _ _ _

theorem clearLaggingRequest_rest (curHeight : UInt64) : (s.clearLaggingRequest curHeight).peers = s.peers ∧
      (s.clearLaggingRequest curHeight).lastRequest = s.lastRequest ∧
      (s.clearLaggingRequest curHeight).stopSyncBlock = s.stopSyncBlock ∧
      (s.clearLaggingRequest curHeight).pendingRecvHeight = curHeight + 1 := by
  have dropped := s.foldl_dropHeight_rest (s.blockStates.keys.filter (· < curHeight))
  obtain ⟨peers, lastRequest, stopped, base⟩ :=
    ensureTracked_rest { (s.blockStates.keys.filter (· < curHeight)).foldl dropHeight s with
      pendingRecvHeight := curHeight + 1 } (curHeight + 1)
  exact ⟨peers.trans dropped.1, lastRequest.trans dropped.2.1, stopped.trans dropped.2.2, base⟩

theorem lookup_addNewBlocks (blockStates : Table UInt64 BlockState) (heights : List UInt64) (height : UInt64) :
    (addNewBlocks conf blockStates heights).lookup height = blockStates.lookup height ∨
      (blockStates.lookup height = none ∧ height ∈ heights ∧ (addNewBlocks conf blockStates heights).lookup height = some .newBlock) := by
  induction heights generalizing blockStates with
  | nil => exact .inl rfl
  | cons first heights ih =>
    rw [addNewBlocks]
    cases found : blockStates.lookup first with
    | some state =>
      rcases ih blockStates with same | ⟨absent, later, marked⟩
      · exact .inl same
      · exact .inr ⟨absent, List.mem_cons_of_mem _ later, marked⟩
    | none =>
      dsimp only
      split
      · exact .inl rfl
      · rcases ih (blockStates.insert first .newBlock) with same | ⟨absent, later, marked⟩
        · rw [Table.lookup_insert_eq] at same
          split at same
          · next here => exact .inr ⟨here ▸ found, here ▸ List.mem_cons_self, same⟩
          · exact .inl same
        · rw [Table.lookup_insert_eq] at absent
          split at absent
          · cases absent
          · exact .inr ⟨absent, List.mem_cons_of_mem _ later, marked⟩

theorem record_addPending (peerHeight height : UInt64) :
    (s.addPendingBlocksAndUpdatePendingHeight conf moment peerHeight).record height = s.record height ∨
      ((s.record height).state = none ∧ height ∈ loopHeights s.pendingRecvHeight peerHeight (s.pendingRecvHeight + conf.maxPendingBlocks) ∧
        (s.addPendingBlocksAndUpdatePendingHeight conf moment peerHeight).record height = (s.record height).markNew) := by
  rw [addPendingBlocksAndUpdatePendingHeight]
  split
  · exact .inl rfl
  split
  · exact .inl rfl
  dsimp only
  rcases lookup_addNewBlocks conf s.blockStates (loopHeights s.pendingRecvHeight peerHeight
    (s.pendingRecvHeight + conf.maxPendingBlocks)) height with same | ⟨absent, member, marked⟩
  · exact .inl (by simp only [record, same])
  · exact .inr ⟨absent, member, by simp only [record, HeightRecord.markNew, marked]⟩

theorem addPending_rest (peerHeight : UInt64) : (s.addPendingBlocksAndUpdatePendingHeight conf moment peerHeight).peers = s.peers ∧
      (s.addPendingBlocksAndUpdatePendingHeight conf moment peerHeight).pendingRecvHeight = s.pendingRecvHeight := by
  rw [addPendingBlocksAndUpdatePendingHeight]
  split
  · exact ⟨rfl, rfl⟩
  · split <;> exact ⟨rfl, rfl⟩

theorem record_handleNodeStatus (sender : Bytes) (blockHeight archivedHeight height : UInt64) :
    (s.handleNodeStatus conf moment sender blockHeight archivedHeight).2.record height = s.record height ∨
      ((s.record height).state = none ∧ height ∈ loopHeights s.pendingRecvHeight blockHeight (s.pendingRecvHeight + conf.maxPendingBlocks) ∧
        (s.handleNodeStatus conf moment sender blockHeight archivedHeight).2.record height = (s.record height).markNew) := by
  rw [handleNodeStatus]
  split
  · exact .inl rfl
  dsimp only
  split
  · exact .inl rfl
  split
  · exact .inl rfl
  · exact record_addPending conf { s with peers := s.peers.insert sender blockHeight } moment blockHeight height

theorem record_requestHeight (peer : Bytes) (now : Int) (requested height : UInt64) : (s.requestHeight peer now requested).record height =
      if height = requested then (s.record height).request peer now else s.record height := by
  simp only [record, requestHeight, Table.lookup_insert_eq]
  split <;> rfl

theorem record_foldl_requestHeight (peer : Bytes) (now : Int) (requested : List UInt64) (height : UInt64) :
    (requested.foldl (fun s i => s.requestHeight peer now i) s).record height =
      if height ∈ requested then (s.record height).request peer now else s.record height := by
  induction requested generalizing s with
  | nil => rfl
  | cons first requested ih =>
    rw [List.foldl_cons, ih, record_requestHeight]
    by_cases same : height = first <;> by_cases later : height ∈ requested <;>
      simp [same, later, HeightRecord.request]

theorem foldl_requestHeight_rest (peer : Bytes) (now : Int) (requested : List UInt64) :
    (requested.foldl (fun s i => s.requestHeight peer now i) s).peers = s.peers ∧
      (requested.foldl (fun s i => s.requestHeight peer now i) s).pendingRecvHeight = s.pendingRecvHeight := by
  induction requested generalizing s with
  | nil => exact ⟨rfl, rfl⟩
  | cons first requested ih => exact ih (s.requestHeight peer now first)

theorem record_receiveHeight (msgFrom : Bytes) (received height : UInt64) : (s.receiveHeight msgFrom received).2.record height =
      if height = received then (s.record height).receive msgFrom else s.record height := by
  rw [receiveHeight]
  by_cases same : height = received
  · subst same
    rw [if_pos rfl]
    cases found : s.blockStates.lookup height with
    | none => simp [record, found, HeightRecord.receive, HeightRecord.wanted]
    | some state =>
      cases state <;> simp [record, found, HeightRecord.receive, HeightRecord.wanted]
  · rw [if_neg same]
    cases found : s.blockStates.lookup received with
    | none => simp [record, same]
    | some state => cases state <;> simp [record, same]

theorem receiveHeight_needed (msgFrom : Bytes) (received : UInt64) : (s.receiveHeight msgFrom received).1 = (s.record received).wanted := by
  rw [receiveHeight]
  cases found : s.blockStates.lookup received with
  | none => simp [record, found, HeightRecord.wanted]
  | some state => cases state <;> simp [record, found, HeightRecord.wanted]

theorem receiveHeight_rest (msgFrom : Bytes) (received : UInt64) : (s.receiveHeight msgFrom received).2.peers = s.peers ∧
      (s.receiveHeight msgFrom received).2.pendingRecvHeight = s.pendingRecvHeight := by
  rw [receiveHeight]
  cases s.blockStates.lookup received with
  | none => exact ⟨rfl, rfl⟩
  | some state => cases state <;> exact ⟨rfl, rfl⟩

def batchHeights (headers : List (Option BlockHeader)) : List UInt64 :=
  headers.filterMap fun header => header.map (·.blockHeight)

theorem update_cons (msgFrom : Bytes) (header : BlockHeader) (headers : List (Option BlockHeader)) (needToProcess : Bool) :
    updateSchedulerBySyncBlockBatch msgFrom (some header :: headers) needToProcess s = updateSchedulerBySyncBlockBatch msgFrom headers
        (needToProcess || (s.receiveHeight msgFrom header.blockHeight).1)
        (s.receiveHeight msgFrom header.blockHeight).2 := rfl

theorem batchHeights_cons (header : BlockHeader) (headers : List (Option BlockHeader)) :
    batchHeights (some header :: headers) = header.blockHeight :: batchHeights headers := rfl

variable {s} in
theorem update_spec {msgFrom : Bytes} {headers : List (Option BlockHeader)} {needToProcess needed : Bool} {after : Scheduler}
    (handled : updateSchedulerBySyncBlockBatch msgFrom headers needToProcess s = .ok (needed, after)) :
    (∀ height, after.record height = if height ∈ batchHeights headers then (s.record height).receive msgFrom else s.record height) ∧
    (needed = true ↔ needToProcess = true ∨ ∃ height ∈ batchHeights headers, (s.record height).wanted = true) ∧
    after.peers = s.peers ∧ after.pendingRecvHeight = s.pendingRecvHeight := by
  induction headers generalizing needToProcess s with
  | nil =>
    cases handled
    exact ⟨fun _ => rfl, by simp [batchHeights], rfl, rfl⟩
  | cons header headers ih =>
    cases header with
    | none => cases handled
    | some header =>
      rw [update_cons] at handled
      obtain ⟨records, processed, peers, base⟩ := ih handled
      obtain ⟨samePeers, sameBase⟩ := s.receiveHeight_rest msgFrom header.blockHeight
      refine ⟨fun height => ?_, ?_, peers.trans samePeers, base.trans sameBase⟩
      · rw [records, record_receiveHeight, batchHeights_cons]
        by_cases same : height = header.blockHeight <;>
          by_cases later : height ∈ batchHeights headers <;>
          simp [same, later, HeightRecord.receive_receive]
      · rw [processed, Bool.or_eq_true, receiveHeight_needed, batchHeights_cons, or_assoc]
        refine or_congr_right ?_
        rw [List.exists_mem_cons_iff]
        refine or_congr_right' fun unwanted => ?_
        refine exists_congr fun height => and_congr_right fun _ => ?_
        rw [record_receiveHeight]
        by_cases same : height = header.blockHeight
        · rw [if_pos same, HeightRecord.wanted_receive, same]
          simp [unwanted]
        · rw [if_neg same]

theorem record_handleProcessedBlockResp (msg : ProcessedBlockResp) (height : UInt64) :
    (s.handleProcessedBlockResp msg).2.record height =
      if height = msg.height then (s.record height).process msg.status else s.record height := by
  rw [handleProcessedBlockResp]
  cases status : msg.status <;>
    (simp only [record, Table.lookup_erase_eq, Table.lookup_insert_eq, HeightRecord.process]
     split <;> rfl)

def requestExpired : Bool :=
  (s.pendingTime.lookup s.pendingRecvHeight).any fun reqTime =>
    moment.now - reqTime > conf.peerReqTimeout

theorem record_handleLivinessMsg (height : UInt64) : (s.handleLivinessMsg conf moment).record height =
      if s.requestExpired conf moment ∧ height = s.pendingRecvHeight then
        { s.record height with
          state := if moment.committed < height then some .newBlock else (s.record height).state
          pendingTime := none
          pendingBlock := none }
      else s.record height := by
  rw [handleLivinessMsg, requestExpired]
  cases asked : s.pendingTime.lookup s.pendingRecvHeight with
  | none => simp
  | some reqTime =>
    by_cases expired : moment.now - reqTime > conf.peerReqTimeout
    · by_cases same : height = s.pendingRecvHeight
      · subst same
        by_cases behind : moment.committed < s.pendingRecvHeight <;>
          simp [record, expired, behind]
      · by_cases behind : moment.committed < s.pendingRecvHeight <;>
          simp [record, expired, behind, same]
    · simp [expired]

theorem handleLivinessMsg_base : (s.handleLivinessMsg conf moment).pendingRecvHeight = s.pendingRecvHeight := by
  rw [handleLivinessMsg]
  split
  · rfl
  · split <;> rfl

theorem isNeedSync_state : (s.isNeedSync conf moment).2 = if s.stopSyncBlock = false ∧ moment.committed ≥ s.pendingRecvHeight then
      s.clearLaggingRequest moment.committed
    else s := by
  rw [isNeedSync]
  cases s.stopSyncBlock with
  | true => simp
  | false => simp

/-- What looking at the ledger changes: heights that it has passed are emptied, and its next
height becomes new if it was not tracked. -/
theorem record_isNeedSync (height : UInt64) : (s.isNeedSync conf moment).2.record height = s.record height ∨
      height < moment.committed ∧ (s.isNeedSync conf moment).2.record height = .empty ∨
      height = moment.committed + 1 ∧ (height < moment.committed ∨ (s.record height).state = none) ∧
        ((s.isNeedSync conf moment).2.record height).state = some .newBlock := by
  rw [isNeedSync_state]
  split
  · rw [record_clearLaggingRequest, keptRecord]
    by_cases passed : height < moment.committed ∧ (s.record height).state.isSome
    · rw [if_pos passed]
      split
      · next first => exact .inr (.inr ⟨first.1, .inl passed.1, rfl⟩)
      · exact .inr (.inl ⟨passed.1, rfl⟩)
    · rw [if_neg passed]
      split
      · next first => exact .inr (.inr ⟨first.1, .inr first.2, rfl⟩)
      · exact .inl rfl
  · exact .inl rfl

theorem not_stopped_of_isNeedSync (needed : (s.isNeedSync conf moment).1 = true) : s.stopSyncBlock = false := by
  rw [isNeedSync] at needed
  cases stopped : s.stopSyncBlock with
  | true => simp [stopped] at needed
  | false => rfl

inductive Scheduled (t : Scheduler) : Option BlockSyncReq × Scheduler → Prop where
  | unchanged : Scheduled t (none, t)
  | dropped : (s.isNeedSync conf moment).1 = true →
      t.leastNew = maxUint64 ∨ t.leastNew < t.pendingRecvHeight →
      Scheduled t (none, { t with blockStates := t.blockStates.erase t.leastNew })
  | requested (peer : Bytes) : (s.isNeedSync conf moment).1 = true → t.leastNew ≠ maxUint64 →
      ¬ t.leastNew < t.pendingRecvHeight → peer = t.selectPeer t.leastNew moment.draw →
      peer ≠ [] →
      Scheduled t (some ⟨t.leastNew, conf.batchesizeInEachReq, peer⟩,
        t.requestBatch conf peer t.leastNew moment.now)

theorem handleScheduleMsg_scheduled : Scheduled conf s moment (s.isNeedSync conf moment).2 (s.handleScheduleMsg conf moment) := by
  rw [handleScheduleMsg]
  generalize looked : s.isNeedSync conf moment = outcome
  obtain ⟨needed, t⟩ := outcome
  cases needed with
  | false => exact .unchanged
  | true =>
    simp only [Bool.not_true, Bool.false_eq_true, if_false, nextHeightToReq]
    by_cases nothing : t.leastNew = maxUint64 ∨ t.leastNew < t.pendingRecvHeight
    · simp only [if_pos nothing, if_pos]
      exact .dropped (by rw [looked]) nothing
    · obtain ⟨exists_, above⟩ := not_or.mp nothing
      simp only [if_neg nothing, if_neg exists_]
      split
      · exact .unchanged
      · next chosen => exact .requested _ (by rw [looked]) exists_ above rfl chosen

theorem record_eraseState (erased height : UInt64) : ({ s with blockStates := s.blockStates.erase erased } : Scheduler).record height =
      if height = erased then { s.record height with state := none } else s.record height := by
  simp only [record, Table.lookup_erase_eq]
  split <;> rfl

variable {s} in
theorem le_maxHeight {peer : Bytes} {height : UInt64} (found : s.peers.lookup peer = some height) : height ≤ s.maxHeight := by
  have member : ⟨peer, height⟩ ∈ s.peers.entries := AList.mem_lookup_iff.mp found
  exact le_greatest (·.2) member

theorem maxHeight_attained : s.maxHeight = 0 ∨ ∃ peer, s.peers.lookup peer = some s.maxHeight := by
  have attained : s.maxHeight = 0 ∨ ∃ entry ∈ s.peers.entries, entry.2 = s.maxHeight :=
    greatest_attained 0
  rcases attained with zero | ⟨⟨peer, height⟩, member, same⟩
  · exact .inl zero
  · exact .inr ⟨peer, same ▸ AList.mem_lookup_iff.mpr member⟩

theorem peerHeight_le_maxHeight (peer : Bytes) : (s.peers.lookup peer).getD 0 ≤ s.maxHeight := by
  cases found : s.peers.lookup peer with
  | none =>
    have least : (0 : UInt64) ≤ s.maxHeight := start_le_greatest
    exact least
  | some height => exact le_maxHeight found

theorem record_requestBatch (peer : Bytes) (pendingHeight : UInt64) (now : Int) (height : UInt64) :
    (s.requestBatch conf peer pendingHeight now).record height = if height ∈ loopHeights pendingHeight ((s.peers.lookup peer).getD 0)
          (conf.batchesizeInEachReq + pendingHeight) then
        (s.record height).request peer now
      else s.record height :=
  record_foldl_requestHeight _ _ _ _ _

theorem requestBatch_rest (peer : Bytes) (pendingHeight : UInt64) (now : Int) : (s.requestBatch conf peer pendingHeight now).peers = s.peers ∧
      (s.requestBatch conf peer pendingHeight now).pendingRecvHeight = s.pendingRecvHeight :=
  foldl_requestHeight_rest _ _ _ _

variable {Body RwSet : Type}

inductive Handled : SchedulerMsg Body RwSet → Outcome Body RwSet → Scheduler → Prop where
  | nodeStatus (sender : Bytes) (blockHeight archivedHeight : UInt64) :
      Handled (.nodeStatus sender blockHeight archivedHeight)
        ⟨none, none, none, (s.handleNodeStatus conf moment sender blockHeight archivedHeight).1⟩
        (s.handleNodeStatus conf moment sender blockHeight archivedHeight).2
  | liveness : Handled .liveness ⟨none, none, none, false⟩ (s.handleLivinessMsg conf moment)
  | schedule : Handled .schedule ⟨none, none, (s.handleScheduleMsg conf moment).1, false⟩
      (s.handleScheduleMsg conf moment).2
  | ignored (payload : Except String (SyncBlockBatch Body RwSet)) (sender : Bytes)
      (err : Option String) : Handled (.syncedBlock payload sender) ⟨none, err, none, false⟩ s
  | received (batch : SyncBlockBatch Body RwSet) (sender : Bytes) {needToProcess : Bool}
      {after : Scheduler} : s.stopSyncBlock = false →
      updateSchedulerBySyncBlockBatch sender batch.headers false s = .ok (needToProcess, after) →
      Handled (.syncedBlock (.ok batch) sender)
        ⟨if needToProcess then some ⟨batch, sender⟩ else none, none, none, false⟩ after
  | processed (resp : ProcessedBlockResp) : Handled (.processedBlock resp)
      ⟨none, (s.handleProcessedBlockResp resp).1, none, false⟩
      (s.handleProcessedBlockResp resp).2
  | dataDetection : Handled .dataDetection ⟨none, none, none, false⟩
      (s.clearLaggingRequest moment.committed)
  | stopSync : Handled .stopSync ⟨none, none, none, false⟩ s.handleStopSyncMsg
  | startSync : Handled .startSync ⟨none, none, none, false⟩ s.handleStartSyncMsg

theorem handled_of_handler {msg : SchedulerMsg Body RwSet} {outcome : Outcome Body RwSet}
    {after : Scheduler} (handled : s.handler conf moment msg = .ok (outcome, after)) :
    Handled conf s moment msg outcome after := by
  cases msg with
  | nodeStatus sender blockHeight archivedHeight =>
    cases handled
    exact .nodeStatus sender blockHeight archivedHeight
  | liveness =>
    cases handled
    exact .liveness
  | schedule =>
    cases handled
    exact .schedule
  | syncedBlock payload sender =>
    simp only [handler, handleSyncedBlockMsg] at handled
    split at handled
    · cases handled
      exact .ignored payload sender none
    split at handled
    · cases handled
      exact .ignored payload sender none
    cases payload with
    | error cause =>
      cases handled
      exact .ignored (.error cause) sender (some cause)
    | ok batch =>
      next stopped =>
      dsimp only at handled
      cases walked : updateSchedulerBySyncBlockBatch sender batch.headers false s with
      | error panic =>
        rw [walked] at handled
        cases handled
      | ok result =>
        rw [walked] at handled
        cases handled
        exact .received batch sender (by simpa using stopped) walked
  | processedBlock resp =>
    cases handled
    exact .processed resp
  | dataDetection =>
    cases handled
    exact .dataDetection
  | stopSync =>
    cases handled
    exact .stopSync
  | startSync =>
    cases handled
    exact .startSync

end Scheduler

theorem SyncState.handled_of_step {Body RwSet : Type} {conf : SchedulerConf} {s after : SyncState}
    {event : SyncEvent Body RwSet} (moved : s.step conf event = some after) :
    s.committed ≤ event.moment.committed ∧ after.committed = event.moment.committed ∧
      ∃ outcome, Scheduler.Handled conf s.scheduler event.moment event.msg outcome after.scheduler := by
  rw [SyncState.step] at moved
  split at moved
  · cases moved
  · next grown =>
    cases handled : s.scheduler.handler conf event.moment event.msg with
    | error panic =>
      rw [handled] at moved
      cases moved
    | ok result =>
      rw [handled] at moved
      cases moved
      exact ⟨UInt64.not_lt.mp grown, rfl, result.1, Scheduler.handled_of_handler conf s.scheduler event.moment handled⟩

end Pdcc.Sync
