import Pdcc.Scheduler.Rounds

/-!
# The PDCC scheduler

`WriaScheduler.Schedule` executes the front of the batch on one snapshot,
aborts readers of earlier writes, rescues those whose conflicting predecessors
were aborted themselves, commits the rest at once and retries the aborted
transactions in the next round.
-/

set_option autoImplicit false

namespace Pdcc.Scheduler.Wria

open Ledger Library Snapshot

def batchAdjustMinTxCount : Nat := 990
def highBatchSizeMultiplier : Nat := 10
def lowBatchSizeMultiplier : Nat := 1
def batchAdjustHighToLowDiff : Int := 18
def batchAdjustLowToHighDiff : Int := 10

structure WriaScheduler where
  batchSize : Nat
  highBatchSize : Nat
  lowBatchSize : Nat
  high_pos : 0 < highBatchSize
  low_pos : 0 < lowBatchSize
  current : batchSize = highBatchSize ∨ batchSize = lowBatchSize

theorem WriaScheduler.batchSize_pos (ws : WriaScheduler) : 0 < ws.batchSize := by
  rcases ws.current with high | low
  · exact high ▸ ws.high_pos
  · exact low ▸ ws.low_pos

def newWriaScheduler (numCPU : Nat) (present : 0 < numCPU) : WriaScheduler where
  batchSize := numCPU * highBatchSizeMultiplier
  highBatchSize := numCPU * highBatchSizeMultiplier
  lowBatchSize := numCPU * lowBatchSizeMultiplier
  high_pos := Nat.mul_pos present (by decide)
  low_pos := Nat.mul_pos present (by decide)
  current := .inl rfl

def WriaScheduler.adjustBatchSize (ws : WriaScheduler) (blockTxCount actualRoundNum : Nat) :
    WriaScheduler :=
  if blockTxCount < batchAdjustMinTxCount then ws
  else
    let baseRound := (blockTxCount + ws.batchSize - 1) / ws.batchSize
    let diff : Int := actualRoundNum - baseRound
    if ws.batchSize = ws.highBatchSize then
      if diff ≥ batchAdjustHighToLowDiff then
        { ws with batchSize := ws.lowBatchSize, current := .inr rfl }
      else ws
    else if ws.batchSize = ws.lowBatchSize then
      if diff < batchAdjustLowToHighDiff then
        { ws with batchSize := ws.highBatchSize, current := .inl rfl }
      else ws
    else ws

structure VersionedTxWrite where
  write : TxWrite
  version : Nat

abbrev MasterWriteSet := Bytes → List VersionedTxWrite

section Round

variable {Tx Result : Type} (execInfos : List (TxExecInfo Tx Result))

def versionTagging : List (List VersionedTxWrite) :=
  execInfos.mapIdx fun txIndex info => info.txRWSet.txWrites.map (⟨·, txIndex⟩)

def mergeWrite (masterWS : MasterWriteSet) (vw : VersionedTxWrite) : MasterWriteSet :=
  Function.update masterWS vw.write.key (masterWS vw.write.key ++ [vw])

def writeSetMerging (versioned : List (List VersionedTxWrite)) : MasterWriteSet :=
  versioned.flatten.foldl mergeWrite fun _ => []

def noteConflict (conflictingTxs : List Nat) (vw : VersionedTxWrite) : List Nat :=
  if vw.version ∈ conflictingTxs then conflictingTxs else conflictingTxs ++ [vw.version]

def isRAWConflictWithDeps (txIndex : Nat) (readSet : List TxRead) (masterWS : MasterWriteSet) :
    Bool × List Nat :=
  let conflictingTxs := readSet.foldl (fun conflictingTxs read =>
    ((masterWS read.key).takeWhile (·.version < txIndex)).foldl noteConflict conflictingTxs) []
  (decide (0 < conflictingTxs.length), conflictingTxs)

def aborts (abortFlags : List Bool) (txIndex : Nat) : Bool := abortFlags.getD txIndex false

def depsOf (conflictDeps : List (List Nat)) (txIndex : Nat) : List Nat :=
  conflictDeps.getD txIndex []

def recheckTransaction (conflictingTxs : List Nat) (abortFlags : List Bool) : Bool :=
  conflictingTxs.all fun conflictTxIdx => aborts abortFlags conflictTxIdx

def recheckStep (conflictDeps : List (List Nat)) (abortFlags : List Bool) (txIndex : Nat) :
    List Bool :=
  if aborts abortFlags txIndex && recheckTransaction (depsOf conflictDeps txIndex) abortFlags then
    abortFlags.set txIndex false
  else abortFlags

def rechecking (conflictDeps : List (List Nat)) (abortFlags : List Bool) : List Bool :=
  (List.range abortFlags.length).foldl (recheckStep conflictDeps) abortFlags

def conflictDetection : List (Bool × List Nat) :=
  let masterWS := writeSetMerging (versionTagging execInfos)
  execInfos.mapIdx fun txIndex info =>
    isRAWConflictWithDeps txIndex info.txRWSet.txReads masterWS

def abortFlags : List Bool :=
  rechecking ((conflictDetection execInfos).map (·.2)) ((conflictDetection execInfos).map (·.1))

def committed : List (TxExecInfo Tx Result) :=
  ((execInfos.zip (abortFlags execInfos)).filter fun entry => !entry.2).map Prod.fst

def abortedTxs : List Tx :=
  ((execInfos.zip (abortFlags execInfos)).filter fun entry => entry.2).map (·.1.tx)

def committedWrites : List TxWrite :=
  (committed execInfos).flatMap (·.txRWSet.txWrites)

def mergedWrites : List TxWrite :=
  (finalWrites TxWrite.key ((committedWrites execInfos).map fun write => (write, write))).map
    Prod.snd

/-- The merged writes are applied in any order of the map. -/
def CommitWrites (snapshot : SnapshotImpl Tx Result Empty) (merged : List TxWrite)
    (snapshot' : SnapshotImpl Tx Result Empty) : Prop :=
  (merged = [] ∧ snapshot' = snapshot) ∨
    (merged ≠ [] ∧ ∃ writes, writes.Perm merged ∧
      snapshot.ApplyWritesToWriteTable writes snapshot')

end Round

section Loop

variable {Tx Result : Type} (vm : VirtualMachine Tx Result) (batchSize : Nat)

def afterRound (now : Progress Tx Result) (snapshot : SnapshotImpl Tx Result Empty) :
    Progress Tx Result :=
  now.commit batchSize (fun info => info.txRWSet.txId) (committed (now.execInfos vm batchSize))
    (abortedTxs (now.execInfos vm batchSize)) snapshot

/-- The scheduling loop; the flag says whether it timed out. -/
inductive Loop : Progress Tx Result → Bool → Progress Tx Result → Prop where
  | done {now} : now.txBatch = [] → Loop now false now
  | timeout {now} : now.txBatch ≠ [] → Loop now true { now with roundNum := now.roundNum + 1 }
  | round {now snapshot timedOut final} :
      now.txBatch ≠ [] →
      CommitWrites now.snapshot (mergedWrites (now.execInfos vm batchSize)) snapshot →
      Loop (afterRound vm batchSize now snapshot) timedOut final →
      Loop now timedOut final

/-- A run of the loop with the transactions that each of its rounds executed. -/
inductive Rounds : Progress Tx Result → List (List (TxExecInfo Tx Result)) → Bool →
    Progress Tx Result → Prop where
  | done {now} : now.txBatch = [] → Rounds now [] false now
  | timeout {now} : now.txBatch ≠ [] →
      Rounds now [] true { now with roundNum := now.roundNum + 1 }
  | round {now snapshot rounds timedOut final} :
      now.txBatch ≠ [] →
      CommitWrites now.snapshot (mergedWrites (now.execInfos vm batchSize)) snapshot →
      Rounds (afterRound vm batchSize now snapshot) rounds timedOut final →
      Rounds now (now.execInfos vm batchSize :: rounds) timedOut final

structure Schedule (ws : WriaScheduler) (txBatch : List Tx)
    (snapshot : SnapshotImpl Tx Result Empty) (timedOut : Bool) (final : Progress Tx Result)
    (ws' : WriaScheduler) : Prop where
  loop : Loop vm ws.batchSize (Progress.start txBatch snapshot) timedOut final
  adjusted : ws' = ws.adjustBatchSize final.block.length final.roundNum

end Loop

end Pdcc.Scheduler.Wria
