import Pdcc.Snapshot.Impl
import Pdcc.Ledger.SerialState

/-!
# Rounds of the deterministic schedulers

The deterministic schedulers share their frame: a round takes the front of the
batch, executes it on one snapshot, commits some of the transactions and puts
the others back in front. This module holds the variables of that loop and what
they say about the block.
-/

set_option autoImplicit false

namespace Pdcc.Scheduler

open Ledger Library Snapshot

structure TxExecInfo (Tx Result : Type) where
  tx : Tx
  txRWSet : TxRWSet
  txResult : Result

section Execution

variable {Tx Result : Type}

def executeOne (vm : VirtualMachine Tx Result) (view : StateKey → Bytes) (tx : Tx) :
    TxExecInfo Tx Result :=
  ⟨tx, (vm.executeTx tx view).1, (vm.executeTx tx view).2⟩

def execute (vm : VirtualMachine Tx Result) (view : StateKey → Bytes) (selectedTxs : List Tx) :
    List (TxExecInfo Tx Result) :=
  selectedTxs.map (executeOne vm view)

def TxExecInfo.executed (info : TxExecInfo Tx Result) :
    Executed Tx StateKey Bytes (TxRWSet × Result) where
  tx := info.tx
  outcome := (info.txRWSet, info.txResult)
  applied := info.txRWSet.writeEntries

variable {vm : VirtualMachine Tx Result}

theorem mem_execute {view : StateKey → Bytes} {selectedTxs : List Tx}
    {info : TxExecInfo Tx Result} (member : info ∈ execute vm view selectedTxs) :
    info.tx ∈ selectedTxs ∧ (info.txRWSet, info.txResult) = vm.executeTx info.tx view := by
  obtain ⟨tx, txMember, rfl⟩ := List.mem_map.mp member
  exact ⟨txMember, rfl⟩

theorem execute_txs (view : StateKey → Bytes) (selectedTxs : List Tx) : (execute vm view selectedTxs).map (·.tx) = selectedTxs := by
  rw [execute, List.map_map]
  exact List.map_id _

theorem split_perm {Mark : Type} (aborted : TxExecInfo Tx Result × Mark → Bool) (entries : List (TxExecInfo Tx Result × Mark)) :
    (((entries.filter fun entry => !aborted entry).map Prod.fst).map (·.tx) ++
      (entries.filter aborted).map (·.1.tx)).Perm ((entries.map Prod.fst).map (·.tx)) := by
  have split := (List.filter_append_perm (fun entry => !aborted entry) entries).map (·.1.tx)
  simpa [List.map_append, List.map_map, Function.comp_def] using split

end Execution

structure Progress (Tx Result : Type) where
  txBatch : List Tx
  snapshot : SnapshotImpl Tx Result Empty
  block : List (Tx × Result)
  txRWSetMap : Overlay Bytes TxRWSet
  roundNum : Nat

section Progress

variable {Tx Result : Type}

def Progress.start (txBatch : List Tx) (snapshot : SnapshotImpl Tx Result Empty) :
    Progress Tx Result where
  txBatch := txBatch
  snapshot := snapshot
  block := []
  txRWSetMap := fun _ => none
  roundNum := 0

def Progress.execInfos (vm : VirtualMachine Tx Result) (batchSize : Nat)
    (now : Progress Tx Result) : List (TxExecInfo Tx Result) :=
  execute vm now.snapshot.view (now.txBatch.take batchSize)

def Progress.commit (now : Progress Tx Result) (batchSize : Nat)
    (rwSetKey : TxExecInfo Tx Result → Bytes) (committed : List (TxExecInfo Tx Result))
    (abortedTxs : List Tx) (snapshot : SnapshotImpl Tx Result Empty) : Progress Tx Result where
  txBatch := abortedTxs ++ now.txBatch.drop batchSize
  snapshot := snapshot
  block := now.block ++ committed.map fun info => (info.tx, info.txResult)
  txRWSetMap := now.txRWSetMap.puts id (committed.map fun info => (rwSetKey info, info.txRWSet))
  roundNum := now.roundNum + 1

variable {vm : VirtualMachine Tx Result}

/-- The state after committing these executions, in this order. -/
structure Commits (vm : VirtualMachine Tx Result) (now final : Progress Tx Result)
    (infos : List (TxExecInfo Tx Result)) : Prop where
  txId : ∀ info ∈ infos, info.txRWSet.txId = vm.txId info.tx
  block : final.block = now.block ++ infos.map fun info => (info.tx, info.txResult)
  recorded : final.txRWSetMap =
    now.txRWSetMap.puts id (infos.map fun info => (info.txRWSet.txId, info.txRWSet))
  batch : (infos.map (·.tx) ++ final.txBatch).Perm now.txBatch

variable {now final : Progress Tx Result}

theorem Commits.nil (block : final.block = now.block) (recorded : final.txRWSetMap = now.txRWSetMap) (batch : final.txBatch = now.txBatch) :
    Commits vm now final [] where
  txId := by simp
  block := by simp [block]
  recorded := by simpa using recorded
  batch := by simp [batch]

theorem Commits.ofCommit {batchSize : Nat} {rwSetKey : TxExecInfo Tx Result → Bytes}
    {committed later : List (TxExecInfo Tx Result)} {abortedTxs : List Tx}
    {snapshot : SnapshotImpl Tx Result Empty}
    (rest : Commits vm (now.commit batchSize rwSetKey committed abortedTxs snapshot) final later)
    (executed : ∀ info ∈ committed, info ∈ now.execInfos vm batchSize)
    (complete : (committed.map (·.tx) ++ abortedTxs).Perm (now.txBatch.take batchSize))
    (keyed : ∀ info ∈ now.execInfos vm batchSize, rwSetKey info = info.txRWSet.txId) :
    Commits vm now final (committed ++ later) where
  txId := by
    intro info member
    rcases List.mem_append.mp member with here | there
    · obtain ⟨_, outcome⟩ := mem_execute (executed info here)
      have same : info.txRWSet = (vm.executeTx info.tx now.snapshot.view).1 :=
        congrArg Prod.fst outcome
      rw [same, vm.txId_eq]
    · exact rest.txId info there
  block := by
    rw [rest.block, Progress.commit, List.map_append, List.append_assoc]
  recorded := by
    have keys : (committed.map fun info => (rwSetKey info, info.txRWSet)) = committed.map fun info => (info.txRWSet.txId, info.txRWSet) := by
      refine List.map_congr_left ?_
      intro info member
      rw [keyed info (executed info member)]
    rw [rest.recorded, Progress.commit, keys, List.map_append, Overlay.puts_append]
  batch := by
    have remaining : (later.map (·.tx) ++ final.txBatch).Perm (abortedTxs ++ now.txBatch.drop batchSize) := rest.batch
    rw [List.map_append, List.append_assoc]
    refine (remaining.append_left _).trans ?_
    rw [← List.append_assoc]
    refine (complete.append_right _).trans ?_
    rw [List.take_append_drop]

theorem Commits.txBatch_length_lt {infos : List (TxExecInfo Tx Result)} (commits : Commits vm now final infos) (some : infos ≠ []) :
    final.txBatch.length < now.txBatch.length := by
  have count := commits.batch.length_eq
  have positive := List.length_pos_of_ne_nil some
  rw [List.length_append, List.length_map] at count
  omega

theorem Progress.execInfos_cons {batchSize : Nat} (positive : 0 < batchSize) {first : Tx}
    {rest : List Tx} (batch : now.txBatch = first :: rest) :
    ∃ others, now.execInfos vm batchSize = executeOne vm now.snapshot.view first :: others := by
  obtain ⟨size, sizeEq⟩ := Nat.exists_eq_succ_of_ne_zero (Nat.ne_of_gt positive)
  rw [Progress.execInfos, batch, sizeEq]
  exact ⟨_, rfl⟩

def Progress.blockRWSets (vm : VirtualMachine Tx Result) (final : Progress Tx Result) :
    List TxRWSet :=
  final.block.filterMap fun entry => final.txRWSetMap (vm.txId entry.1)

def Progress.blockWrites (vm : VirtualMachine Tx Result) (final : Progress Tx Result) :
    List TxWrite :=
  (final.blockRWSets vm).flatMap (·.txWrites)

section Recorded

variable {txBatch : List Tx} {snapshot : SnapshotImpl Tx Result Empty}
  {final : Progress Tx Result} {infos : List (TxExecInfo Tx Result)}

theorem Commits.lookup (commits : Commits vm (Progress.start txBatch snapshot) final infos)
    (distinct : DistinctTxIds vm txBatch) {info : TxExecInfo Tx Result} (member : info ∈ infos) :
    final.txRWSetMap (vm.txId info.tx) = some info.txRWSet := by
  have ids : (infos.map fun info => info.txRWSet.txId) = (infos.map (·.tx)).map vm.txId := by
    rw [List.map_map]
    exact List.map_congr_left commits.txId
  have committedDistinct : (infos.map fun info => info.txRWSet.txId).Nodup := by
    have all := (commits.batch.map vm.txId).nodup_iff.mpr distinct
    rw [List.map_append] at all
    rw [ids]
    exact all.of_append_left
  have found : lastWrite id (infos.map fun info => (info.txRWSet.txId, info.txRWSet)) info.txRWSet.txId = some info.txRWSet :=
    lastWrite_of_nodup id (by rwa [List.map_map]) (List.mem_map_of_mem member)
  rw [commits.recorded, Overlay.puts_apply, ← commits.txId info member, found]
  rfl

theorem Commits.blockRWSets (commits : Commits vm (Progress.start txBatch snapshot) final infos) (distinct : DistinctTxIds vm txBatch) :
    final.blockRWSets vm = infos.map (·.txRWSet) := by
  have block : final.block = infos.map fun info => (info.tx, info.txResult) := commits.block
  rw [Progress.blockRWSets, block, List.filterMap_map, ← List.filterMap_eq_map]
  refine List.filterMap_congr ?_
  intro info member
  exact commits.lookup distinct member

theorem Commits.blockWrites (commits : Commits vm (Progress.start txBatch snapshot) final infos) (distinct : DistinctTxIds vm txBatch) :
    (final.blockWrites vm).map (·.entry) = appliedWrites (infos.map (·.executed)) := by
  simp only [Progress.blockWrites, commits.blockRWSets distinct, appliedWrites, List.map_flatMap,
    List.flatMap_map, TxExecInfo.executed, TxRWSet.writeEntries]

end Recorded

end Progress

end Pdcc.Scheduler
