import Mathlib.Data.UInt
import Pdcc.Ledger.ReadWriteSet
import Pdcc.Library.Runs
import Pdcc.Library.Tables

/-!
# The block sync scheduler

The scheduler keeps the heights of the other nodes and a state for each height that it
wants: new, requested from a node, or received. It handles one message at a time. What a
handler reads of the ledger and of the clock is given with the message.
-/

set_option autoImplicit false

namespace Pdcc.Sync

open Ledger Library

inductive BlockState where
  | newBlock
  | pendingBlock
  | receivedBlock
  deriving DecidableEq, Repr

structure BlockHeader where
  blockHeight : UInt64
  blockHash : Bytes
  deriving DecidableEq, Repr

structure Block (Body : Type) where
  header : Option BlockHeader
  body : Body
  deriving DecidableEq, Repr

structure BlockInfo (Body RwSet : Type) where
  block : Option (Block Body)
  rwsetList : List RwSet
  deriving DecidableEq, Repr

inductive BatchData (Body RwSet : Type) where
  | blockBatch (batches : List (Block Body))
  | blockinfoBatch (batch : List (BlockInfo Body RwSet))
  deriving DecidableEq, Repr

structure SyncBlockBatch (Body RwSet : Type) where
  data : Option (BatchData Body RwSet)
  withRwset : Bool
  deriving DecidableEq, Repr

inductive ProcessedBlockStatus where
  | ok
  | dbErr
  | addErr
  | hasProcessed
  | validateFailed
  deriving DecidableEq, Repr

structure ProcessedBlockResp where
  height : UInt64
  status : ProcessedBlockStatus
  sender : Bytes
  deriving DecidableEq, Repr

structure ReceivedBlockInfos (Body RwSet : Type) where
  batch : SyncBlockBatch Body RwSet
  sender : Bytes
  deriving DecidableEq, Repr

inductive SchedulerMsg (Body RwSet : Type) where
  | nodeStatus (sender : Bytes) (blockHeight archivedHeight : UInt64)
  | liveness
  | schedule
  | syncedBlock (payload : Except String (SyncBlockBatch Body RwSet)) (sender : Bytes)
  | processedBlock (resp : ProcessedBlockResp)
  | dataDetection
  | stopSync
  | startSync

structure BlockSyncReq where
  blockHeight : UInt64
  batchSize : UInt64
  receiver : Bytes
  deriving DecidableEq, Repr

structure SchedulerConf where
  maxPendingBlocks : UInt64
  batchesizeInEachReq : UInt64
  peerReqTimeout : Int
  reqTimeThreshold : Int
  startTime : Int
  thresholdTime : Int
  thresholdBlocks : UInt64
  preferenceNodes : Option (List Bytes)

structure Moment where
  committed : UInt64
  now : Int
  draw : Nat

structure Scheduler where
  peers : Table Bytes UInt64
  blockStates : Table UInt64 BlockState
  pendingTime : Table UInt64 Int
  pendingBlocks : Table UInt64 Bytes
  receivedBlocks : Table UInt64 Bytes
  lastRequest : Option Int
  pendingRecvHeight : UInt64
  stopSyncBlock : Bool

structure Outcome (Body RwSet : Type) where
  out : Option (ReceivedBlockInfos Body RwSet)
  err : Option String
  request : Option BlockSyncReq
  minLagReached : Bool

def maxUint64 : UInt64 := 0xFFFFFFFFFFFFFFFF

variable {height : UInt64}

theorem toNat_succ (below : height ≠ maxUint64) : (height + 1).toNat = height.toNat + 1 := by
  have small := height.toNat_lt
  have different : height.toNat ≠ 2 ^ 64 - 1 := fun same => below (UInt64.toNat_inj.mp same)
  rw [UInt64.toNat_add, UInt64.toNat_one]
  omega

theorem ne_maxUint64_of_le {bound : UInt64} (le : height ≤ bound) (below : bound ≠ maxUint64) : height ≠ maxUint64 := by
  rintro rfl
  have small := bound.toNat_lt
  have last : maxUint64.toNat = 2 ^ 64 - 1 := rfl
  rw [UInt64.le_iff_toNat_le] at le
  exact below (UInt64.toNat_inj.mp (by omega))

def loopHeights (start last bound : UInt64) : List UInt64 :=
  (List.range' start.toNat (min (last.toNat + 1) bound.toNat - start.toNat)).map UInt64.ofNat

theorem mem_loopHeights {start last bound : UInt64} :
    height ∈ loopHeights start last bound ↔ start ≤ height ∧ height ≤ last ∧ height < bound := by
  have small := height.toNat_lt
  have largest := last.toNat_lt
  rw [loopHeights, List.mem_map, UInt64.le_iff_toNat_le, UInt64.le_iff_toNat_le, UInt64.lt_iff_toNat_lt]
  constructor
  · rintro ⟨value, member, rfl⟩
    rw [List.mem_range'_1] at member
    rw [UInt64.toNat_ofNat_of_lt' (by rw [UInt64.size]; omega)]
    omega
  · intro inside
    refine ⟨height.toNat, ?_, UInt64.ofNat_toNat⟩
    rw [List.mem_range'_1]
    omega

def newScheduler (currHeight : UInt64) : Scheduler where
  peers := ∅
  blockStates := ∅
  pendingTime := ∅
  pendingBlocks := ∅
  receivedBlocks := ∅
  lastRequest := none
  pendingRecvHeight := currHeight + 1
  stopSyncBlock := false

def isPeerArchivedTooHeight (localHeight peerArchivedHeight : UInt64) : Bool :=
  peerArchivedHeight ≠ 0 && localHeight ≤ peerArchivedHeight

namespace SchedulerConf

variable (conf : SchedulerConf)

def isPreferenceNode (id : Bytes) : Bool :=
  match conf.preferenceNodes with
  | none => true
  | some nodes => nodes.contains id

def maxPendingInt : Int := conf.maxPendingBlocks.toInt64.toInt

end SchedulerConf

namespace Scheduler

variable (conf : SchedulerConf) (s : Scheduler) (moment : Moment)

def maxHeight : UInt64 := greatest (·.2) 0 s.peers.entries

def receiveMajorityBlocks : Bool :=
  !decide (moment.now - conf.startTime < conf.thresholdTime) && !s.stopSyncBlock &&
    !decide (s.maxHeight - moment.committed > conf.thresholdBlocks)

def addNewBlocks (blockStates : Table UInt64 BlockState) :
    List UInt64 → Table UInt64 BlockState
  | [] => blockStates
  | i :: rest =>
    match blockStates.lookup i with
    | some _ => addNewBlocks blockStates rest
    | none =>
      if (blockStates.size : Int) > conf.maxPendingInt then blockStates
      else addNewBlocks (blockStates.insert i .newBlock) rest

def addPendingBlocksAndUpdatePendingHeight (peerHeight : UInt64) : Scheduler :=
  if s.blockStates.size ≥ conf.maxPendingBlocks.toNat then s
  else if moment.committed ≥ peerHeight then s
  else
    let heights :=
      loopHeights s.pendingRecvHeight peerHeight (s.pendingRecvHeight + conf.maxPendingBlocks)
    { s with blockStates := addNewBlocks conf s.blockStates heights }

def handleNodeStatus (sender : Bytes) (blockHeight archivedHeight : UInt64) :
    Bool × Scheduler :=
  if !conf.isPreferenceNode sender then (false, s)
  else
    let tooHigh := isPeerArchivedTooHeight moment.committed archivedHeight
    if (s.peers.lookup sender).any fun old => old > blockHeight || tooHigh then
      (false, { s with peers := s.peers.erase sender })
    else
      let reached := s.receiveMajorityBlocks conf moment
      if tooHigh then (reached, s)
      else
        let s := { s with peers := s.peers.insert sender blockHeight }
        (reached, s.addPendingBlocksAndUpdatePendingHeight conf moment blockHeight)

def dropHeight (height : UInt64) : Scheduler :=
  { s with
    blockStates := s.blockStates.erase height
    pendingBlocks := s.pendingBlocks.erase height
    receivedBlocks := s.receivedBlocks.erase height
    pendingTime := s.pendingTime.erase height }

def ensureTracked (height : UInt64) : Scheduler :=
  match s.blockStates.lookup height with
  | some _ => s
  | none => { s with blockStates := s.blockStates.insert height .newBlock }

def clearLaggingRequest (curHeight : UInt64) : Scheduler :=
  let lagging := s.blockStates.keys.filter (· < curHeight)
  let s := { lagging.foldl dropHeight s with pendingRecvHeight := curHeight + 1 }
  s.ensureTracked s.pendingRecvHeight

def handleDataDetection : Scheduler := s.clearLaggingRequest moment.committed

def handleLivinessMsg : Scheduler :=
  match s.pendingTime.lookup s.pendingRecvHeight with
  | none => s
  | some reqTime =>
    if moment.now - reqTime > conf.peerReqTimeout then
      let id := (s.pendingBlocks.lookup s.pendingRecvHeight).getD []
      { s with
        blockStates :=
          if moment.committed < s.pendingRecvHeight then
            s.blockStates.insert s.pendingRecvHeight .newBlock
          else s.blockStates
        peers := s.peers.erase id
        pendingTime := s.pendingTime.erase s.pendingRecvHeight
        pendingBlocks := s.pendingBlocks.erase s.pendingRecvHeight }
    else s

def isNeedSync : Bool × Scheduler :=
  if s.stopSyncBlock then (false, s)
  else
    let s :=
      if moment.committed ≥ s.pendingRecvHeight then s.clearLaggingRequest moment.committed else s
    let max := s.maxHeight
    (decide (moment.committed + 1 < max) ||
      (moment.committed + 1 = max &&
        s.lastRequest.all fun last => moment.now - last > conf.reqTimeThreshold), s)

def leastNew : UInt64 :=
  least (·.1) (fun entry => entry.2 = .newBlock) maxUint64 s.blockStates.entries

def nextHeightToReq : UInt64 × Scheduler :=
  let min := s.leastNew
  if min = maxUint64 ∨ min < s.pendingRecvHeight then
    (maxUint64, { s with blockStates := s.blockStates.erase min })
  else (min, s)

def getHeight (pendingHeight : UInt64) : List Bytes :=
  (s.peers.entries.filter fun entry => entry.2 ≥ pendingHeight).map (·.1)

def getPendingReqInPeer (peer : Bytes) : Nat :=
  (s.pendingBlocks.entries.filter fun entry => entry.2 = peer).length

def maxInt64 : Nat := 2 ^ 63 - 1

def selectPeer (pendingHeight : UInt64) (draw : Nat) : Bytes :=
  let peers := s.getHeight pendingHeight
  let min := least s.getPendingReqInPeer (fun _ => true) maxInt64 peers
  let peers := peers.filter fun peer => s.getPendingReqInPeer peer = min
  peers[draw % peers.length]?.getD []

def requestHeight (peer : Bytes) (now : Int) (i : UInt64) : Scheduler :=
  { s with
    blockStates := s.blockStates.insert i .pendingBlock
    pendingTime := s.pendingTime.insert i now
    pendingBlocks := s.pendingBlocks.insert i peer }

def requestBatch (peer : Bytes) (pendingHeight : UInt64) (now : Int) : Scheduler :=
  let requested := loopHeights pendingHeight ((s.peers.lookup peer).getD 0)
    (conf.batchesizeInEachReq + pendingHeight)
  requested.foldl (fun s i => s.requestHeight peer now i) { s with lastRequest := some now }

def handleScheduleMsg : Option BlockSyncReq × Scheduler :=
  let (needed, s) := s.isNeedSync conf moment
  if !needed then (none, s)
  else
    let (pendingHeight, s) := s.nextHeightToReq
    if pendingHeight = maxUint64 then (none, s)
    else
      let peer := s.selectPeer pendingHeight moment.draw
      if peer = [] then (none, s)
      else
        (some ⟨pendingHeight, conf.batchesizeInEachReq, peer⟩,
          s.requestBatch conf peer pendingHeight moment.now)

def handleStopSyncMsg : Scheduler :=
  { s with
    stopSyncBlock := true, blockStates := ∅, pendingTime := ∅, pendingBlocks := ∅
    receivedBlocks := ∅ }

def handleStartSyncMsg : Scheduler := { s with stopSyncBlock := false }

def receiveHeight (msgFrom : Bytes) (height : UInt64) : Bool × Scheduler :=
  let s :=
    { s with
      pendingBlocks := s.pendingBlocks.erase height
      pendingTime := s.pendingTime.erase height }
  match s.blockStates.lookup height with
  | none | some .receivedBlock => (false, s)
  | some _ =>
    (true, { s with
      blockStates := s.blockStates.insert height .receivedBlock
      receivedBlocks := s.receivedBlocks.insert height msgFrom })

def updateSchedulerBySyncBlockBatch (msgFrom : Bytes) :
    List (Option BlockHeader) → Bool → Scheduler → Except Panic (Bool × Scheduler)
  | [], needToProcess, s => .ok (needToProcess, s)
  | none :: _, _, _ => .error .nilDereference
  | some header :: rest, needToProcess, s =>
    let (needed, s) := s.receiveHeight msgFrom header.blockHeight
    updateSchedulerBySyncBlockBatch msgFrom rest (needToProcess || needed) s

end Scheduler

variable {Body RwSet : Type}

def BatchData.headers : BatchData Body RwSet → List (Option BlockHeader)
  | .blockBatch batches => batches.map (·.header)
  | .blockinfoBatch batch => batch.map fun info => info.block.bind (·.header)

def SyncBlockBatch.headers (batch : SyncBlockBatch Body RwSet) : List (Option BlockHeader) :=
  (batch.data.map BatchData.headers).getD []

namespace Scheduler

variable (conf : SchedulerConf) (s : Scheduler) (moment : Moment)

def handleSyncedBlockMsg (payload : Except String (SyncBlockBatch Body RwSet)) (sender : Bytes) :
    Except Panic (Except String (Option (ReceivedBlockInfos Body RwSet)) × Scheduler) :=
  if (s.receivedBlocks.size : Int) > conf.maxPendingInt then .ok (.ok none, s)
  else if s.stopSyncBlock then .ok (.ok none, s)
  else
    match payload with
    | .error cause => .ok (.error cause, s)
    | .ok batch => do
      let (needToProcess, s) ← updateSchedulerBySyncBlockBatch sender batch.headers false s
      return (.ok (if needToProcess then some ⟨batch, sender⟩ else none), s)

def handleProcessedBlockResp (msg : ProcessedBlockResp) : Option String × Scheduler :=
  let s := { s with receivedBlocks := s.receivedBlocks.erase msg.height }
  match msg.status with
  | .ok | .hasProcessed =>
    (none, { s with
      blockStates := s.blockStates.erase msg.height
      pendingRecvHeight :=
        if msg.height ≥ s.pendingRecvHeight then msg.height + 1 else s.pendingRecvHeight })
  | .validateFailed =>
    (none, { s with
      blockStates := s.blockStates.insert msg.height .newBlock
      peers := s.peers.erase msg.sender })
  | .dbErr => (some "query db failed in processor", s)
  | .addErr =>
    (some "failed add block to chain", { s with
      blockStates := s.blockStates.insert msg.height .newBlock
      peers := s.peers.erase msg.sender })

def silent (s : Scheduler) : Outcome Body RwSet × Scheduler := (⟨none, none, none, false⟩, s)

def handler (msg : SchedulerMsg Body RwSet) : Except Panic (Outcome Body RwSet × Scheduler) :=
  match msg with
  | .nodeStatus sender blockHeight archivedHeight =>
    let (reached, s) := s.handleNodeStatus conf moment sender blockHeight archivedHeight
    .ok (⟨none, none, none, reached⟩, s)
  | .liveness => .ok (s.handleLivinessMsg conf moment).silent
  | .schedule =>
    let (request, s) := s.handleScheduleMsg conf moment
    .ok (⟨none, none, request, false⟩, s)
  | .syncedBlock payload sender => do
    let (result, s) ← s.handleSyncedBlockMsg conf payload sender
    match result with
    | .error cause => return (⟨none, some cause, none, false⟩, s)
    | .ok out => return (⟨out, none, none, false⟩, s)
  | .processedBlock resp =>
    let (err, s) := s.handleProcessedBlockResp resp
    .ok (⟨none, err, none, false⟩, s)
  | .dataDetection => .ok (s.handleDataDetection moment).silent
  | .stopSync => .ok s.handleStopSyncMsg.silent
  | .startSync => .ok s.handleStartSyncMsg.silent

end Scheduler

structure SyncState where
  committed : UInt64
  scheduler : Scheduler

structure SyncEvent (Body RwSet : Type) where
  msg : SchedulerMsg Body RwSet
  moment : Moment

def SyncState.init (currHeight : UInt64) : SyncState := ⟨currHeight, newScheduler currHeight⟩

def SyncState.step (conf : SchedulerConf) (s : SyncState) (event : SyncEvent Body RwSet) :
    Option SyncState :=
  if event.moment.committed < s.committed then none
  else
    match s.scheduler.handler conf event.moment event.msg with
    | .error _ => none
    | .ok (_, scheduler) => some ⟨event.moment.committed, scheduler⟩

/-- The states of a node that started at a height and met a condition at every event. -/
def SyncRun (Body RwSet : Type) (conf : SchedulerConf)
    (Meets : SyncState → SyncEvent Body RwSet → Prop) (currHeight : UInt64) (s : SyncState) :
    Prop :=
  Run (SyncState.step conf) Meets (.init currHeight) s

end Pdcc.Sync
