import Pdcc.Scheduler.AriaDecision

/-!
# What an Aria run leaves behind

The committed transactions of a round apply their writes concurrently, and a
large write set is itself applied by several workers. A run in which no
committed write set is spoiled by its own workers is serial and leaves the table
of the recorded writes in block order. A large write set with two locations
under one composed key races with itself.
-/

set_option autoImplicit false

namespace Pdcc.Scheduler.Aria

open Ledger Library Snapshot

variable {Tx Result : Type}

section Written

/-- The write table is the old one with the writes applied in order. -/
structure Written (writes : List TxWrite) (snapshot snapshot' : SnapshotImpl Tx Result Empty) :
    Prop where
  table : ∀ key, snapshot'.writeTable.getByLock key =
    (snapshot.writeTable.putAll snapshot.txTable.length
      (writes.map composedEntry)).getByLock key
  txTable : snapshot'.txTable = snapshot.txTable

theorem Written.nil (snapshot : SnapshotImpl Tx Result Empty) : Written [] snapshot snapshot := ⟨fun _ => rfl, rfl⟩

theorem Written.append {writes writes' : List TxWrite} {snapshot middle snapshot' : SnapshotImpl Tx Result Empty}
    (first : Written writes snapshot middle) (second : Written writes' middle snapshot') :
    Written (writes ++ writes') snapshot snapshot' where
  table := by
    intro key
    rw [second.table, ShardSet.getByLock_putAll, first.table, first.txTable,
      ShardSet.getByLock_putAll, ShardSet.getByLock_putAll, List.map_append, lastWrite_append]
    cases lastWrite id (writes'.map composedEntry) key with
    | none => rfl
    | some value => rfl
  txTable := second.txTable.trans first.txTable

def SameCells (writes writes' : List TxWrite) : Prop :=
  ∀ key, lastWrite id (writes.map composedEntry) key = lastWrite id (writes'.map composedEntry) key

theorem written_putWrites (snapshot : SnapshotImpl Tx Result Empty) {writes order : List TxWrite}
    (same : SameCells order writes) : Written writes snapshot (snapshot.putWrites order) where
  table := by
    intro key
    rw [SnapshotImpl.putWrites, ShardSet.getByLock_putAll, ShardSet.getByLock_putAll, same key]
  txTable := rfl

end Written

section Undisturbed

theorem Undisturbed.sameCells {writes order : List TxWrite} (undisturbed : Undisturbed writes)
    (ordered : WriteOrder writes order) : SameCells order writes := by
  have cells : ∀ (writes : List TxWrite) (cell : Bytes), lastWrite id (writes.map composedEntry) cell =
      lastWrite StateKey.composed (writes.map (·.entry)) cell := by
    intro writes cell
    have same := lastWrite_map StateKey.composed id (fun entry => (entry.1.composed, entry.2)) id (writes.map (·.entry)) cell
      (fun _ _ => rfl) (fun _ _ => rfl)
    rwa [List.map_map, Option.map_id] at same
  intro cell
  rw [cells, cells, undisturbed.lastWrite_eq (ordered.map _)]

theorem SameCells.flatMap {Entry : Type} {entries : List Entry} {left right : Entry → List TxWrite}
    (same : ∀ entry ∈ entries, SameCells (left entry) (right entry)) :
    SameCells (entries.flatMap left) (entries.flatMap right) := by
  intro key
  induction entries with
  | nil => rfl
  | cons entry entries ih =>
    rw [List.flatMap_cons, List.flatMap_cons, List.map_append, List.map_append, lastWrite_append, lastWrite_append, same entry (.head _) key,
      ih fun other member => same other (.tail _ member)]

variable {snapshot : SnapshotImpl Tx Result Empty} {groups : List (List (TxExecInfo Tx Result))}

theorem CheckConflicts.written {tables : ReserveTables} {execInfos : List (TxExecInfo Tx Result)}
    {snapshot' : SnapshotImpl Tx Result Empty} (unsealed : snapshot.isSealed = false)
    (reserve : ReserveWrite execInfos tables)
    (undisturbed : ∀ info ∈ committed tables execInfos, Undisturbed info.txRWSet.txWrites)
    (check : CheckConflicts tables execInfos snapshot snapshot') :
    Written ((committed tables execInfos).flatMap (·.txRWSet.txWrites)) snapshot snapshot' ∧ snapshot'.isSealed = false := by
  rw [CheckConflicts, unsealed] at check
  obtain ⟨order, word, ordered, interleaves, rfl⟩ := check
  refine ⟨written_putWrites snapshot ?_, unsealed⟩
  intro key
  have named : ∀ entry ∈ passed tables execInfos, ∀ update ∈ (order entry.2).map composedEntry, update.1 ∈ writeKeys entry.1 := by
    intro entry passes update member
    obtain ⟨write, writeMember, rfl⟩ := List.mem_map.mp member
    exact mem_writeKeys ((ordered entry passes).perm.mem_iff.mp writeMember)
  have disjoint : DisjointWrites id ((passed tables execInfos).map fun entry => (order entry.2).map composedEntry) := by
    rw [DisjointWrites, List.pairwise_map]
    refine (passed_disjoint reserve).imp_of_mem ?_
    intro left right leftPasses rightPasses apart update member update' member' same
    refine apart _ (named left leftPasses update member) ?_
    have sameKey : update.1 = update'.1 := same
    rw [sameKey]
    exact named right rightPasses update' member'
  have threads := interleaves.map composedEntry
  rw [List.map_map] at threads
  have inOrder := disjoint.lastWrite_flatten threads (List.Perm.refl _) key
  rw [← List.flatMap_def, ← List.map_flatMap] at inOrder
  rw [inOrder, committed, List.flatMap_map]
  refine SameCells.flatMap ?_ key
  intro entry passes
  exact (undisturbed entry.1 (List.mem_map_of_mem passes)).sameCells (ordered entry passes)

variable {vm : VirtualMachine Tx Result}

theorem Loop.written {now final : Progress Tx Result} {timedOut : Bool}
    (loop : Loop vm now groups timedOut final) (unsealed : now.snapshot.isSealed = false)
    (undisturbed : ∀ info ∈ groups.flatten, Undisturbed info.txRWSet.txWrites) :
    Written (groups.flatten.flatMap (·.txRWSet.txWrites)) now.snapshot final.snapshot := by
  induction loop with
  | done _ => exact .nil _
  | timeout _ => exact .nil _
  | round _ write _ check _ ih =>
    obtain ⟨here, stillUnsealed⟩ := check.written unsealed write fun info member => undisturbed info (List.mem_append_left _ member)
    have rest := ih stillUnsealed fun info member => undisturbed info (List.mem_append_right _ member)
    rw [List.flatten_cons, List.flatMap_append]
    exact here.append rest

theorem Schedule.committed_perm {txBatch : List Tx} {final : Progress Tx Result} (run : Schedule vm txBatch snapshot groups false final) :
    (final.block.map Prod.fst).Perm txBatch := by
  have complete := run.commits.batch
  rw [run.finished rfl, List.append_nil] at complete
  have block : final.block = groups.flatten.map fun info => (info.tx, info.txResult) :=
    run.commits.block
  rw [block, List.map_map]
  exact complete

theorem Schedule.undisturbed_of_batch {txBatch : List Tx} {final : Progress Tx Result} (run : Schedule vm txBatch snapshot groups false final)
    (undisturbed : ∀ tx ∈ txBatch, ∀ view, Undisturbed (vm.executeTx tx view).1.txWrites) :
    ∀ info ∈ groups.flatten, Undisturbed info.txRWSet.txWrites := by
  intro info member
  obtain ⟨view, outcome⟩ := Loop.executed run member
  have rwSet : info.txRWSet = (vm.executeTx info.tx view).1 := congrArg Prod.fst outcome
  rw [rwSet]
  exact undisturbed info.tx (run.commits.batch.subset (List.mem_append_left _ (List.mem_map_of_mem member))) view

end Undisturbed

section Race

private theorem workerBatches_concat {batchSize : Nat} (positive : 0 < batchSize) (workers : Nat)
    (early : List TxWrite) (last : TxWrite) (full : early.length = workers * batchSize) :
    workerBatches batchSize (workers + 1) (early ++ [last]) = workerBatches batchSize workers early ++ [[last]] := by
  induction workers generalizing early with
  | zero =>
    have none : early = [] := List.eq_nil_of_length_eq_zero (by omega)
    obtain ⟨size, sizeEq⟩ := Nat.exists_eq_succ_of_ne_zero (Nat.ne_of_gt positive)
    simp [none, sizeEq, workerBatches]
  | succ workers ih =>
    rw [Nat.add_mul, Nat.one_mul] at full
    have rest := ih (early.drop batchSize) (by rw [List.length_drop]; omega)
    cases early with
    | nil =>
      rw [List.length_nil] at full
      omega
    | cons write early =>
      have enough : batchSize ≤ (write :: early).length := by omega
      rw [List.cons_append, workerBatches, ← List.cons_append,
        List.take_append_of_le_length enough, List.drop_append_of_le_length enough, rest]
      rfl

private theorem writeOrder_lastFirst (early : List TxWrite) (last : TxWrite)
    (count : early.length = 49) : WriteOrder (early ++ [last]) (last :: early) := by
  have size : (early ++ [last]).length = 50 := by rw [List.length_append, count]; rfl
  unfold WriteOrder
  rw [size, if_neg (by decide)]
  have slices : workerBatches ((50 + numWorkers - 1) / numWorkers) numWorkers (early ++ [last]) = workerBatches 7 7 early ++ [[last]] :=
    workerBatches_concat (by decide) 7 early last count
  have rest := Interleaves.sequential (workerBatches 7 7 early ++ [[]])
  rw [List.flatten_append, workerBatches_flatten 7 7 early (by omega), List.flatten_singleton, List.append_nil] at rest
  rw [slices]
  exact .step rest

def racing (txId : Bytes) (early : List StateKey) (last : StateKey)
    (different : (early ++ [last]).Nodup) : Script where
  txId := txId
  reads := []
  writes := early.map (fun loc => ⟨loc.contractName, loc.key, [1]⟩) ++
    [⟨last.contractName, last.key, [2]⟩]
  distinct := by
    rw [List.map_append, List.map_map]
    have locations : early.map (TxWrite.location ∘ fun loc => ⟨loc.contractName, loc.key, [1]⟩) =
        early := List.map_id early
    rw [locations]
    exact different

theorem schedule_single (script : Script) {order : List TxWrite} (ordered : WriteOrder script.writes order) :
    ∃ final, Schedule scriptMachine [script] (SnapshotImpl.newSnapshot v235 [] emptyStore)
        [[executeOne scriptMachine (SnapshotImpl.newSnapshot v235 [] emptyStore : SnapshotImpl Script Unit Empty).view script]] false final ∧
      final.snapshot = (SnapshotImpl.newSnapshot v235 [] emptyStore).putWrites order := by
  let start : Progress Script Unit :=
    Progress.start [script] (SnapshotImpl.newSnapshot v235 [] emptyStore)
  let info := executeOne scriptMachine start.snapshot.view script
  have selected : start.execInfos scriptMachine batchSize = [info] := rfl
  obtain ⟨tables, write, read⟩ := reserve_exists [info]
  have stands : tables.aborts info 0 = false := (mem_passed.mp (first_passes write)).2
  have alone : passed tables [info] = [(info, 0)] := by
    simp [passed, stands]
  have check : CheckConflicts tables [info] start.snapshot (start.snapshot.putWrites order) := by
    have unsealed : start.snapshot.isSealed = false := rfl
    rw [CheckConflicts, unsealed, alone]
    refine ⟨fun _ => order, order, ?_, ?_, rfl⟩
    · intro entry member
      rw [List.mem_singleton.mp member]
      exact ordered
    · have single := Interleaves.sequential [order]
      rwa [List.flatten_singleton] at single
  have finished : (afterRound scriptMachine start tables (start.snapshot.putWrites order)).txBatch = [] := by
    rw [afterRound, Progress.commit, selected, abortedTxs]
    simp [stands, start, Progress.start, batchSize]
  have run : Schedule scriptMachine [script] start.snapshot [committed tables [info]] false
      (afterRound scriptMachine start tables (start.snapshot.putWrites order)) :=
    .round (by simp [Progress.start]) write read check (.done finished)
  rw [committed, alone] at run
  exact ⟨_, run, rfl⟩

/-- The worker with the last slice runs first: the cell that the first and the
last location share keeps the earlier write. -/
theorem racing_disagrees (txId : Bytes) {early : List StateKey} {last : StateKey}
    (different : (early ++ [last]).Nodup) (count : early.length = 49) {first : StateKey}
    (firstIn : first ∈ early) (sameCell : first.composed = last.composed) :
    ∃ final, Schedule scriptMachine [racing txId early last different] (SnapshotImpl.newSnapshot v235 [] emptyStore)
        [[executeOne scriptMachine (SnapshotImpl.newSnapshot v235 [] emptyStore : SnapshotImpl Script Unit Empty).view
          (racing txId early last different)]] false final ∧
      final.snapshot.writeTable.getByLock last.composed = some ⟨0, [1]⟩ := by
  have ordered := writeOrder_lastFirst (early.map fun loc => ⟨loc.contractName, loc.key, [1]⟩) ⟨last.contractName, last.key, [2]⟩
    (by rw [List.length_map, count])
  obtain ⟨final, run, left⟩ := schedule_single (racing txId early last different) ordered
  refine ⟨final, run, ?_⟩
  have found : lastWrite id ((early.map fun loc => (⟨loc.contractName, loc.key, [1]⟩ :
      TxWrite)).map composedEntry) last.composed = some [1] := by
    rw [List.map_map]
    cases result : lastWrite id (early.map _) last.composed with
    | none =>
      have absent := (lastWrite_eq_none_iff id _ _).mp result _ (List.mem_map_of_mem firstIn)
      exact absurd sameCell absent
    | some value =>
      obtain ⟨_, member, _, stored⟩ := exists_mem_of_lastWrite id result
      obtain ⟨_, _, made⟩ := List.mem_map.mp member
      rw [← stored, ← made]
      rfl
  rw [left, SnapshotImpl.putWrites, ShardSet.getByLock_putAll, List.map_cons, lastWrite, found]
  rfl

def callerKeys : List StateKey :=
  ⟨ascii "A", ascii "bc"⟩ :: (List.range 48).map fun n => ⟨ascii "A", [100, UInt8.ofNat n]⟩

def calledKey : StateKey := ⟨ascii "Ab", ascii "c"⟩

theorem callerKeys_distinct : (callerKeys ++ [calledKey]).Nodup := by decide

/-- Contract `A` writes `bc` and forty-eight other keys and calls contract `Ab`,
which writes `c`: the first and the last write share the cell `Abc`. -/
def racingCall : Script := racing (ascii "t") callerKeys calledKey callerKeys_distinct

end Race

section Serializability

private theorem undisturbed_of_small {script : Script} (small : script.writes.length < concurrentThreshold) (view : StateKey → Bytes) :
    Undisturbed (scriptMachine.executeTx script view).1.txWrites :=
  .inl small

/-- A run that ends in time commits every transaction, and if no committed write
set is spoiled by its own workers, its block is serial up to the order inside
the group of each round: executed one after another in the rearranged order,
every transaction has its recorded read/write set and result, and the write
table of the snapshot is left as it is. -/
theorem schedule_serializable (vm : VirtualMachine Tx Result) (txBatch : List Tx)
    (snapshot : SnapshotImpl Tx Result Empty) (groups : List (List (TxExecInfo Tx Result)))
    (final : Progress Tx Result) (unsealed : snapshot.isSealed = false)
    (run : Schedule vm txBatch snapshot groups false final)
    (undisturbed : ∀ info ∈ groups.flatten, Undisturbed info.txRWSet.txWrites) :
    (final.block.map Prod.fst).Perm txBatch ∧
      final.block = groups.flatten.map (fun info => (info.tx, info.txResult)) ∧
      final.txRWSetMap = Overlay.puts id (fun _ => none)
        (groups.flatten.map fun info => (vm.txId info.tx, info.txRWSet)) ∧
      (DistinctTxIds vm txBatch → ∀ info ∈ groups.flatten,
        final.txRWSetMap (vm.txId info.tx) = some info.txRWSet) ∧
      ∃ order : List (List (TxExecInfo Tx Result)), List.Forall₂ List.Perm order groups ∧
        SerialRun vm.semantics StateKey.composed snapshot.under Eq snapshot.writeValues
          (order.flatten.map (·.executed)) final.snapshot.writeValues := by
  have commits := run.commits
  refine ⟨Schedule.committed_perm run, commits.block, ?_, fun distinct info => commits.lookup distinct, ?_⟩
  · have keys : (groups.flatten.map fun info => (vm.txId info.tx, info.txRWSet)) =
        groups.flatten.map fun info => (info.txRWSet.txId, info.txRWSet) := by
      refine List.map_congr_left ?_
      intro info member
      rw [commits.txId info member]
    rw [keys]
    exact commits.recorded
  · exact Loop.serialRun_inOrder run unsealed undisturbed

/-- A reader commits in the round of the write it missed; the serial order puts
it first. -/
theorem schedule_serializable_missedWrite : ∃ groups final, Schedule scriptMachine
        [.writing (ascii "t0") ⟨ascii "token", ascii "k"⟩ [1], .reading (ascii "t1") ⟨ascii "token", ascii "k"⟩]
        (SnapshotImpl.newSnapshot v235 [] emptyStore) groups false final ∧
      ∃ order : List (List (TxExecInfo Script Unit)), List.Forall₂ List.Perm order groups ∧
        SerialRun scriptMachine.semantics StateKey.composed (fun _ => []) Eq (fun _ => none)
          (order.flatten.map (·.executed)) final.snapshot.writeValues := by
  obtain ⟨groups, final, run⟩ := Loop.exists_finished scriptMachine
    (Progress.start [.writing (ascii "t0") ⟨ascii "token", ascii "k"⟩ [1],
      .reading (ascii "t1") ⟨ascii "token", ascii "k"⟩]
      (SnapshotImpl.newSnapshot v235 [] emptyStore))
  have undisturbed := Schedule.undisturbed_of_batch run (by
    intro tx member view
    rcases List.mem_pair.mp member with rfl | rfl
    · exact undisturbed_of_small (by decide) view
    · exact undisturbed_of_small (by decide) view)
  obtain ⟨_, _, _, _, serial⟩ := schedule_serializable scriptMachine _ _ groups final rfl run undisturbed
  rw [SnapshotImpl.under_newSnapshot, SnapshotImpl.writeValues_newSnapshot] at serial
  exact ⟨groups, final, run, serial⟩

/-- No order of the one transaction is a serial execution: applied in order, its
writes leave 2 in the cell `Abc`, the run has left 1. -/
theorem schedule_not_serializable : ∃ groups final, Schedule scriptMachine [racingCall]
        (SnapshotImpl.newSnapshot v235 [] emptyStore) groups false final ∧
      final.snapshot.writeValues (ascii "Abc") = some [1] ∧
      ∀ order : List (List (TxExecInfo Script Unit)), List.Forall₂ List.Perm order groups →
        ¬ SerialRun scriptMachine.semantics StateKey.composed (fun _ => []) Eq (fun _ => none)
          (order.flatten.map (·.executed)) final.snapshot.writeValues := by
  obtain ⟨final, run, raced⟩ := racing_disagrees (ascii "t") callerKeys_distinct (by decide) (.head _) rfl
  have left : final.snapshot.writeValues (ascii "Abc") = some [1] := congrArg (Option.map Sv.value) raced
  refine ⟨_, final, run, left, ?_⟩
  intro order permuted serial
  obtain ⟨group, rest, single, none, rfl⟩ := List.forall₂_cons_right_iff.mp permuted
  rw [List.perm_singleton.mp single, List.forall₂_nil_right_iff.mp none] at serial
  have replayed := congrFun serial.final_eq (ascii "Abc")
  rw [left, Overlay.puts_apply] at replayed
  revert replayed
  decide

end Serializability

section Agreement

/-- The block holds every transaction of the batch once, and the write table
holds, entry by entry, what the recorded writes in block order leave. -/
structure CommitAgrees (vm : VirtualMachine Tx Result) (txBatch : List Tx)
    (snapshot : SnapshotImpl Tx Result Empty) (final : Progress Tx Result) : Prop where
  committed : (final.block.map Prod.fst).Perm txBatch
  written : Written (final.blockWrites vm) snapshot final.snapshot

/-- A run that ends in time commits every transaction and leaves the write table
of its block if no committed write set is spoiled by its own workers. -/
theorem schedule_commitAgrees (vm : VirtualMachine Tx Result) (txBatch : List Tx)
    (snapshot : SnapshotImpl Tx Result Empty) (groups : List (List (TxExecInfo Tx Result)))
    (final : Progress Tx Result) (distinct : DistinctTxIds vm txBatch)
    (unsealed : snapshot.isSealed = false) (run : Schedule vm txBatch snapshot groups false final)
    (undisturbed : ∀ info ∈ groups.flatten, Undisturbed info.txRWSet.txWrites) :
    CommitAgrees vm txBatch snapshot final := by
  refine ⟨Schedule.committed_perm run, ?_⟩
  rw [Progress.blockWrites, run.commits.blockRWSets distinct, List.flatMap_map]
  exact Loop.written run unsealed undisturbed

/-- Two transactions write one cell under two names: the reservations keep them
out of one round, and the table is that of the block. -/
theorem schedule_commitAgrees_sameCell : ∃ groups final, Schedule scriptMachine
        [.writing (ascii "t0") ⟨ascii "A", ascii "bc"⟩ [1], .writing (ascii "t1") ⟨ascii "Ab", ascii "c"⟩ [2]]
        (SnapshotImpl.newSnapshot v235 [] emptyStore) groups false final ∧
      CommitAgrees scriptMachine
        [.writing (ascii "t0") ⟨ascii "A", ascii "bc"⟩ [1], .writing (ascii "t1") ⟨ascii "Ab", ascii "c"⟩ [2]]
        (SnapshotImpl.newSnapshot v235 [] emptyStore) final := by
  obtain ⟨groups, final, run⟩ := Loop.exists_finished scriptMachine
    (Progress.start [.writing (ascii "t0") ⟨ascii "A", ascii "bc"⟩ [1],
      .writing (ascii "t1") ⟨ascii "Ab", ascii "c"⟩ [2]]
      (SnapshotImpl.newSnapshot v235 [] emptyStore))
  refine ⟨groups, final, run, schedule_commitAgrees scriptMachine _ _ groups final (by decide) rfl run ?_⟩
  refine Schedule.undisturbed_of_batch run ?_
  intro tx member view
  rcases List.mem_pair.mp member with rfl | rfl
  · exact undisturbed_of_small (by decide) view
  · exact undisturbed_of_small (by decide) view

/-- The table has kept the first write to the cell `Abc`, the recorded writes in
order leave the second. -/
theorem schedule_racing_cells : ∃ groups final, Schedule scriptMachine [racingCall]
        (SnapshotImpl.newSnapshot v235 [] emptyStore) groups false final ∧
      final.snapshot.writeTable.getByLock (ascii "Abc") = some ⟨0, [1]⟩ ∧
      (ShardSet.newShardSet.putAll 0
        ((final.blockWrites scriptMachine).map composedEntry)).getByLock (ascii "Abc") = some ⟨0, [2]⟩ := by
  obtain ⟨final, run, raced⟩ := racing_disagrees (ascii "t") callerKeys_distinct (by decide) (.head _) rfl
  refine ⟨_, final, run, raced, ?_⟩
  rw [Progress.blockWrites, run.commits.blockRWSets (List.nodup_singleton _)]
  decide

end Agreement

end Pdcc.Scheduler.Aria
