import Pdcc.Scheduler.Aria
import Pdcc.Library.DisjointWrites
import Pdcc.Ledger.Script
import Pdcc.Ledger.SimContext

/-!
# Runs of the Aria scheduler as serial executions

Index order is no serial order of an Aria round: a committed transaction may
have missed the write of an earlier one, or overwrite what an earlier one read,
though not both. Those that missed a write come first, in descending order; the
others follow in ascending order.
-/

set_option autoImplicit false

namespace Pdcc.Scheduler.Aria

open Ledger Library Snapshot

variable {Tx Result : Type}

section Reservations

variable {tables : ReserveTables} {execInfos : List (TxExecInfo Tx Result)}

private theorem keysAt_beyond (keys : TxExecInfo Tx Result → List Bytes)
    (execInfos : List (TxExecInfo Tx Result)) (idx : Nat) (beyond : execInfos.length ≤ idx) :
    keysAt keys execInfos idx = [] := by
  rw [keysAt, List.getElem?_eq_none beyond]
  rfl

variable {key : Bytes}

private theorem mem_keysAt {keys : TxExecInfo Tx Result → List Bytes}
    {execInfos : List (TxExecInfo Tx Result)} {idx : Nat} {info : TxExecInfo Tx Result}
    (present : execInfos[idx]? = some info) (named : key ∈ keys info) :
    key ∈ keysAt keys execInfos idx := by
  rw [keysAt, present]
  exact named

theorem ReserveWrite.reserved (reserve : ReserveWrite execInfos tables) :
    Reservations.Reserved (keysAt writeKeys execInfos) tables.reserveTable ∧ ∀ idx, tables.aborted idx = true ↔
        Reservations.Blocked (keysAt writeKeys execInfos) idx := by
  obtain ⟨word, interleaves, table, aborted⟩ := reserve
  rw [table, aborted]
  exact Reservations.reserve_run (keysAt_beyond writeKeys execInfos) interleaves

theorem ReserveRead.reserved (reserve : ReserveRead execInfos tables) :
    Reservations.Reserved (keysAt readKeys execInfos) tables.readReserveTable := by
  obtain ⟨word, interleaves, table⟩ := reserve
  rw [table]
  exact Reservations.observe_run (keysAt_beyond readKeys execInfos) interleaves

theorem mem_passed {entry : TxExecInfo Tx Result × Nat} : entry ∈ passed tables execInfos ↔
      execInfos[entry.2]? = some entry.1 ∧ tables.aborts entry.1 entry.2 = false := by
  rw [passed, List.mem_filter, List.mem_zipIdx_iff_getElem?, Bool.not_eq_true']

theorem passed_ascending : (passed tables execInfos).Pairwise (·.2 < ·.2) := by
  refine List.Pairwise.filter _ ?_
  have indices : (execInfos.zipIdx.map Prod.snd).Pairwise (· < ·) := by
    rw [List.zipIdx_map_snd]
    exact List.pairwise_lt_range'
  exact List.pairwise_map.mp indices

variable {writer reader : TxExecInfo Tx Result × Nat}

theorem holder_of_passed (reserve : ReserveWrite execInfos tables)
    (passes : writer ∈ passed tables execInfos) (written : key ∈ writeKeys writer.1) :
    tables.reserveTable key = some writer.2 := by
  obtain ⟨present, stands⟩ := mem_passed.mp passes
  obtain ⟨current, held, _⟩ := reserve.reserved.1.least key writer.2 (mem_keysAt present written)
  have noWAW : hasWAWConflict writer.1 writer.2 tables.reserveTable = false := by
    simp only [ReserveTables.aborts, Bool.or_eq_false_iff] at stands
    exact stands.1.2
  have own := List.any_eq_false.mp noWAW key written
  rw [held] at own
  simp only [Option.any_some, bne_iff_ne, ne_eq, not_not] at own
  rw [held, own]

theorem raw_of_earlier_writer (reserve : ReserveWrite execInfos tables)
    (passes : writer ∈ passed tables execInfos) (written : key ∈ writeKeys writer.1)
    (read : key ∈ readKeys reader.1) (below : writer.2 < reader.2) :
    hasRAWConflict reader.1 reader.2 tables.reserveTable = true :=
  List.any_eq_true.mpr ⟨key, read, (reserve.reserved.1.any_below key _).mpr ⟨writer.2, below, mem_keysAt (mem_passed.mp passes).1 written⟩⟩

theorem not_raw_of_earlier_reader (reserve : ReserveRead execInfos tables) (writerPasses : writer ∈ passed tables execInfos)
    (readerPasses : reader ∈ passed tables execInfos) (written : key ∈ writeKeys writer.1)
    (read : key ∈ readKeys reader.1) (below : reader.2 < writer.2) :
    hasRAWConflict writer.1 writer.2 tables.reserveTable = false := by
  have war : hasWARConflict writer.1 writer.2 tables.readReserveTable = true :=
    List.any_eq_true.mpr ⟨key, written, (reserve.reserved.any_below key _).mpr
      ⟨reader.2, below, mem_keysAt (mem_passed.mp readerPasses).1 read⟩⟩
  have stands := (mem_passed.mp writerPasses).2
  simp only [ReserveTables.aborts, Bool.or_eq_false_iff, war, Bool.true_and] at stands
  exact stands.2

end Reservations

section SerialOrder

def serialOrder (tables : ReserveTables) (entries : List (TxExecInfo Tx Result × Nat)) :
    List (TxExecInfo Tx Result × Nat) :=
  (entries.filter fun entry => hasRAWConflict entry.1 entry.2 tables.reserveTable).reverse ++
    entries.filter fun entry => !hasRAWConflict entry.1 entry.2 tables.reserveTable

theorem serialOrder_perm (tables : ReserveTables) (entries : List (TxExecInfo Tx Result × Nat)) : (serialOrder tables entries).Perm entries :=
  ((List.reverse_perm _).append_right _).trans (List.filter_append_perm (fun entry : TxExecInfo Tx Result × Nat =>
      hasRAWConflict entry.1 entry.2 tables.reserveTable) entries)

variable {tables : ReserveTables} {execInfos : List (TxExecInfo Tx Result)}

theorem serialOrder_unread (write : ReserveWrite execInfos tables) (read : ReserveRead execInfos tables) :
    (serialOrder tables (passed tables execInfos)).Pairwise fun earlier later =>
      ∀ key ∈ writeKeys earlier.1, key ∉ readKeys later.1 := by
  have ascending : (passed tables execInfos).Pairwise (·.2 < ·.2) := passed_ascending
  refine List.pairwise_append.mpr ⟨List.pairwise_reverse.mpr ?_, ?_, ?_⟩
  -- Both missed a write: the later index comes first.
  · refine (ascending.filter _).imp_of_mem ?_
    intro low high lowMember highMember below key written keyRead
    obtain ⟨lowPasses, _⟩ := List.mem_filter.mp lowMember
    obtain ⟨highPasses, highRAW⟩ := List.mem_filter.mp highMember
    have noRAW := not_raw_of_earlier_reader read highPasses lowPasses written keyRead below
    rw [noRAW] at highRAW
    cases highRAW
  -- Neither missed a write: index order.
  · refine (ascending.filter _).imp_of_mem ?_
    intro low high lowMember highMember below key written keyRead
    obtain ⟨lowPasses, _⟩ := List.mem_filter.mp lowMember
    obtain ⟨_, highNoRAW⟩ := List.mem_filter.mp highMember
    rw [raw_of_earlier_writer write lowPasses written keyRead below] at highNoRAW
    cases highNoRAW
  · intro first firstMember second secondMember key written keyRead
    obtain ⟨firstPasses, firstRAW⟩ := List.mem_filter.mp (List.mem_reverse.mp firstMember)
    obtain ⟨secondPasses, secondNoRAW⟩ := List.mem_filter.mp secondMember
    rcases Nat.lt_trichotomy first.2 second.2 with below | same | above
    · rw [raw_of_earlier_writer write firstPasses written keyRead below] at secondNoRAW
      cases secondNoRAW
    · have equal : first = second := by
        have presentFirst := (mem_passed.mp firstPasses).1
        rw [same, (mem_passed.mp secondPasses).1] at presentFirst
        exact Prod.ext (Option.some.inj presentFirst).symm same
      rw [equal] at firstRAW
      rw [firstRAW] at secondNoRAW
      cases secondNoRAW
    · rw [not_raw_of_earlier_reader read firstPasses secondPasses written keyRead above] at firstRAW
      cases firstRAW

theorem passed_disjoint (write : ReserveWrite execInfos tables) : (passed tables execInfos).Pairwise fun left right =>
      ∀ key ∈ writeKeys left.1, key ∉ writeKeys right.1 := by
  have ascending : (passed tables execInfos).Pairwise (·.2 < ·.2) := passed_ascending
  refine ascending.imp_of_mem ?_
  intro low high lowPasses highPasses below key lowWrites highWrites
  have same := (holder_of_passed write lowPasses lowWrites).symm.trans (holder_of_passed write highPasses highWrites)
  exact Nat.ne_of_lt below (Option.some.inj same)

end SerialOrder

section Round

variable {vm : VirtualMachine Tx Result} {tables : ReserveTables} {info : TxExecInfo Tx Result}

theorem mem_writeKeys {write : TxWrite} (member : write ∈ info.txRWSet.txWrites) : write.location.composed ∈ writeKeys info :=
  List.mem_map.mpr ⟨write, member, rfl⟩

theorem mem_readKeys {loc : StateKey} (member : loc ∈ info.txRWSet.readLocations) : loc.composed ∈ readKeys info := by
  obtain ⟨read, readMember, rfl⟩ := List.mem_map.mp member
  exact List.mem_map.mpr ⟨read, readMember, rfl⟩

def executedIn (order : Nat → List TxWrite) (entry : TxExecInfo Tx Result × Nat) :
    Executed Tx StateKey Bytes (TxRWSet × Result) where
  tx := entry.1.tx
  outcome := (entry.1.txRWSet, entry.1.txResult)
  applied := (order entry.2).map (·.entry)

section Apply

variable {execInfos : List (TxExecInfo Tx Result)} {order : Nat → List TxWrite}

private theorem applied_mem_writeKeys (ordered : ∀ entry ∈ passed tables execInfos, WriteOrder entry.1.txRWSet.txWrites (order entry.2))
    {entry : TxExecInfo Tx Result × Nat} (passes : entry ∈ passed tables execInfos)
    {update : StateKey × Bytes} (member : update ∈ (executedIn order entry).applied) :
    update.1.composed ∈ writeKeys entry.1 := by
  obtain ⟨txWrite, writeMember, rfl⟩ := List.mem_map.mp member
  exact mem_writeKeys ((ordered entry passes).perm.mem_iff.mp writeMember)

private theorem puts_word (write : ReserveWrite execInfos tables) (ordered : ∀ entry ∈ passed tables execInfos,
      WriteOrder entry.1.txRWSet.txWrites (order entry.2))
    {word : List TxWrite}
    (interleaves : Interleaves ((passed tables execInfos).map fun entry => order entry.2) word)
    (table : Overlay Bytes Bytes) :
    table.puts StateKey.composed (word.map (·.entry)) = table.puts StateKey.composed (appliedWrites
        ((serialOrder tables (passed tables execInfos)).map (executedIn order))) := by
  have disjoint : DisjointWrites StateKey.composed ((passed tables execInfos).map fun entry => (executedIn order entry).applied) := by
    rw [DisjointWrites, List.pairwise_map]
    refine (passed_disjoint write).imp_of_mem ?_
    intro left right leftMember rightMember apart update member update' member' same
    refine apart _ (applied_mem_writeKeys ordered leftMember member) ?_
    rw [same]
    exact applied_mem_writeKeys ordered rightMember member'
  have threads := interleaves.map TxWrite.entry
  rw [List.map_map] at threads
  rw [appliedWrites, List.flatMap_map, List.flatMap_def]
  exact disjoint.puts_eq threads ((serialOrder_perm tables _).symm.map _) table

end Apply

theorem round_serialRun {snapshot snapshot' : SnapshotImpl Tx Result Empty} {selectedTxs : List Tx} (unsealed : snapshot.isSealed = false)
    (write : ReserveWrite (execute vm snapshot.view selectedTxs) tables)
    (read : ReserveRead (execute vm snapshot.view selectedTxs) tables)
    (check : CheckConflicts tables (execute vm snapshot.view selectedTxs) snapshot snapshot') :
    ∃ order : Nat → List TxWrite, SerialRun vm.semantics StateKey.composed snapshot.under WriteOrder snapshot.writeValues
        ((serialOrder tables (passed tables (execute vm snapshot.view selectedTxs))).map (executedIn order)) snapshot'.writeValues ∧
      snapshot'.under = snapshot.under ∧ snapshot'.isSealed = false := by
  rw [CheckConflicts, unsealed] at check
  obtain ⟨order, word, ordered, interleaves, rfl⟩ := check
  have passes : ∀ entry ∈ serialOrder tables (passed tables (execute vm snapshot.view selectedTxs)),
      entry ∈ passed tables (execute vm snapshot.view selectedTxs) :=
    fun entry member => (serialOrder_perm tables _).mem_iff.mp member
  refine ⟨order, ?_, rfl, unsealed⟩
  rw [SnapshotImpl.writeValues_putWrites, puts_word write ordered interleaves]
  refine SerialRun.of_unread ?_ ?_ ?_
  · intro step member
    obtain ⟨entry, entryMember, rfl⟩ := List.mem_map.mp member
    rw [← snapshot.view_eq]
    exact (mem_execute (List.mem_of_getElem? (mem_passed.mp (passes entry entryMember)).1)).2
  · intro step member
    obtain ⟨entry, entryMember, rfl⟩ := List.mem_map.mp member
    exact (ordered entry (passes entry entryMember)).map (·.entry)
  · rw [Unread, List.pairwise_map]
    refine (serialOrder_unread write read).imp_of_mem ?_
    intro earlier later earlierMember _ unread loc locRead update updateMember sameCell
    refine unread (StateKey.composed loc) ?_ (mem_readKeys locRead)
    rw [← sameCell]
    exact applied_mem_writeKeys ordered (passes earlier earlierMember) updateMember

end Round

section WriteSets

/-- A write set that its workers cannot spoil: it is applied by one worker, or
no two of its workers write the same cell. -/
def Undisturbed (writes : List TxWrite) : Prop :=
  writes.length < concurrentThreshold ∨ DisjointWrites StateKey.composed
    ((workerBatches ((writes.length + numWorkers - 1) / numWorkers) numWorkers writes).map (·.map (·.entry)))

theorem Undisturbed.lastWrite_eq {writes : List TxWrite} (undisturbed : Undisturbed writes)
    {applied : List (StateKey × Bytes)} (ordered : WriteOrder (writes.map (·.entry)) applied) (cell : Bytes) :
    lastWrite StateKey.composed applied cell = lastWrite StateKey.composed (writes.map (·.entry)) cell := by
  rw [WriteOrder, List.length_map] at ordered
  split at ordered
  · rw [ordered]
  · next large =>
    have disjoint := undisturbed.resolve_left large
    rw [workerBatches_map] at ordered
    rw [disjoint.lastWrite_flatten ordered (List.Perm.refl _), ← List.map_flatten, workerBatches_flatten _ _ _ (workers_suffice writes)]

end WriteSets

section Loop

variable {vm : VirtualMachine Tx Result}

theorem committed_aborted_perm (tables : ReserveTables) (execInfos : List (TxExecInfo Tx Result)) :
    ((committed tables execInfos).map (·.tx) ++ abortedTxs tables execInfos).Perm (execInfos.map (·.tx)) := by
  have split := split_perm (fun entry => tables.aborts entry.1 entry.2) execInfos.zipIdx
  rwa [List.zipIdx_map_fst] at split

theorem mem_committed {tables : ReserveTables} {execInfos : List (TxExecInfo Tx Result)}
    {info : TxExecInfo Tx Result} (member : info ∈ committed tables execInfos) :
    info ∈ execInfos := by
  obtain ⟨entry, passes, rfl⟩ := List.mem_map.mp member
  exact List.mem_of_getElem? (mem_passed.mp passes).1

variable {now final : Progress Tx Result} {groups : List (List (TxExecInfo Tx Result))}
  {timedOut : Bool}

theorem commits_afterRound {tables : ReserveTables} {snapshot : SnapshotImpl Tx Result Empty} {later : List (TxExecInfo Tx Result)}
    (rest : Commits vm (afterRound vm now tables snapshot) final later) :
    Commits vm now final (committed tables (now.execInfos vm batchSize) ++ later) := by
  refine rest.ofCommit (fun info => mem_committed) ?_ ?_
  · have selected := committed_aborted_perm tables (now.execInfos vm batchSize)
    rwa [Progress.execInfos, execute_txs] at selected
  · intro info member
    have same : info.txRWSet = (vm.executeTx info.tx now.snapshot.view).1 :=
      congrArg Prod.fst (mem_execute member).2
    rw [same, vm.txId_eq]

theorem Loop.commits (loop : Loop vm now groups timedOut final) : Commits vm now final groups.flatten := by
  induction loop with
  | done _ => exact .nil rfl rfl rfl
  | timeout _ => exact .nil rfl rfl rfl
  | round _ _ _ _ _ ih => exact commits_afterRound ih

theorem Loop.finished (loop : Loop vm now groups timedOut final) (inTime : timedOut = false) : final.txBatch = [] := by
  induction loop with
  | done empty => exact empty
  | timeout _ => cases inTime
  | round _ _ _ _ _ ih => exact ih inTime

theorem Loop.executed (loop : Loop vm now groups timedOut final) {info : TxExecInfo Tx Result} (member : info ∈ groups.flatten) :
    ∃ view, (info.txRWSet, info.txResult) = vm.executeTx info.tx view := by
  induction loop with
  | done _ => cases member
  | timeout _ => cases member
  | round _ _ _ _ _ ih =>
    rcases List.mem_append.mp member with here | later
    · exact ⟨_, (mem_execute (mem_committed here)).2⟩
    · exact ih later

theorem Loop.serialRun (loop : Loop vm now groups timedOut final) (unsealed : now.snapshot.isSealed = false) :
    ∃ (order : List (List (TxExecInfo Tx Result))) (steps : List (Executed Tx StateKey Bytes (TxRWSet × Result))),
      List.Forall₂ List.Perm order groups ∧
      steps.map (fun step => (step.tx, step.outcome)) = order.flatten.map (fun info => (info.tx, info.txRWSet, info.txResult)) ∧
      SerialRun vm.semantics StateKey.composed now.snapshot.under WriteOrder now.snapshot.writeValues steps final.snapshot.writeValues := by
  induction loop with
  | done _ => exact ⟨[], [], .nil, rfl, .nil⟩
  | timeout _ => exact ⟨[], [], .nil, rfl, .nil⟩
  | @round now tables snapshot groups timedOut final _ write read check _ ih =>
    obtain ⟨writeOrder, here, sameUnder, stillUnsealed⟩ :=
      round_serialRun unsealed write read check
    obtain ⟨order, steps, perms, outcomes, rest⟩ := ih stillUnsealed
    have restHere : SerialRun vm.semantics StateKey.composed snapshot.under WriteOrder
        snapshot.writeValues steps final.snapshot.writeValues := rest
    rw [sameUnder] at restHere
    refine ⟨(serialOrder tables (passed tables (now.execInfos vm batchSize))).map Prod.fst ::
      order, _, .cons ((serialOrder_perm tables _).map _) perms, ?_, here.append restHere⟩
    rw [List.map_append, outcomes, List.flatten_cons, List.map_append, List.map_map, List.map_map]
    rfl

/-- The serial execution of a run none of whose committed write sets is spoiled
applies every write set in its own order. -/
theorem Loop.serialRun_inOrder (loop : Loop vm now groups timedOut final) (unsealed : now.snapshot.isSealed = false)
    (undisturbed : ∀ info ∈ groups.flatten, Undisturbed info.txRWSet.txWrites) :
    ∃ order : List (List (TxExecInfo Tx Result)), List.Forall₂ List.Perm order groups ∧
      SerialRun vm.semantics StateKey.composed now.snapshot.under Eq now.snapshot.writeValues
        (order.flatten.map (·.executed)) final.snapshot.writeValues := by
  obtain ⟨order, steps, perms, outcomes, serial⟩ := loop.serialRun unsealed
  have recorded : ∀ step ∈ steps, ∃ info ∈ groups.flatten, step.outcome = (info.txRWSet, info.txResult) := by
    intro step member
    have paired : (step.tx, step.outcome) ∈ steps.map fun step => (step.tx, step.outcome) := List.mem_map_of_mem member
    rw [outcomes] at paired
    obtain ⟨info, infoMember, same⟩ := List.mem_map.mp paired
    exact ⟨info, (List.Perm.flatten_congr perms).mem_iff.mp infoMember, (congrArg Prod.snd same).symm⟩
  have inOrder := serial.inOrder ?_
  · have steps' := congrArg (List.map fun pair => (⟨pair.1, pair.2, vm.semantics.writes pair.2⟩ :
      Executed Tx StateKey Bytes (TxRWSet × Result))) outcomes
    rw [List.map_map, List.map_map] at steps'
    refine ⟨order, perms, ?_⟩
    rw [← (show _ = order.flatten.map (·.executed) from steps')]
    exact inOrder
  · intro step member ordered cell
    obtain ⟨info, infoMember, outcome⟩ := recorded step member
    rw [outcome] at ordered ⊢
    exact (undisturbed info infoMember).lastWrite_eq ordered cell

end Loop

section Termination

theorem first_passes {tables : ReserveTables} {info : TxExecInfo Tx Result}
    {rest : List (TxExecInfo Tx Result)} (reserve : ReserveWrite (info :: rest) tables) :
    (info, 0) ∈ passed tables (info :: rest) := by
  obtain ⟨reserved, blocked⟩ := reserve.reserved
  have unmarked : tables.aborted 0 = false := by
    rw [← Bool.not_eq_true, blocked]
    rintro ⟨_, _, rival, below, _⟩
    exact Nat.not_lt_zero rival below
  have noWAW : hasWAWConflict info 0 tables.reserveTable = false := by
    rw [hasWAWConflict, List.any_eq_false]
    intro key written
    obtain ⟨current, held, bound⟩ := reserved.least key 0 (mem_keysAt rfl written)
    rw [held, Nat.le_zero.mp bound]
    simp
  have noRAW : hasRAWConflict info 0 tables.reserveTable = false := by
    rw [hasRAWConflict, List.any_eq_false]
    intro key _
    cases tables.reserveTable key with
    | none => simp
    | some current => simp
  refine mem_passed.mpr ⟨rfl, ?_⟩
  rw [ReserveTables.aborts, unmarked, noWAW, noRAW, Bool.and_false]
  rfl

theorem reserve_exists (execInfos : List (TxExecInfo Tx Result)) : ∃ tables, ReserveWrite execInfos tables ∧ ReserveRead execInfos tables :=
  ⟨⟨_, _, _⟩, ⟨_, .sequential _, rfl, rfl⟩, ⟨_, .sequential _, rfl⟩⟩

theorem checkConflicts_exists (tables : ReserveTables) (execInfos : List (TxExecInfo Tx Result)) (snapshot : SnapshotImpl Tx Result Empty) :
    ∃ snapshot', CheckConflicts tables execInfos snapshot snapshot' := by
  let order : Nat → List TxWrite := fun idx =>
    (execInfos[idx]?).elim [] fun info => info.txRWSet.txWrites
  cases sealing : snapshot.isSealed with
  | true => exact ⟨snapshot, by simp [CheckConflicts, sealing]⟩
  | false =>
    refine ⟨snapshot.putWrites ((passed tables execInfos).map fun entry => order entry.2).flatten, ?_⟩
    rw [CheckConflicts, sealing]
    refine ⟨order, _, ?_, .sequential _, rfl⟩
    intro entry passes
    simp only [order, (mem_passed.mp passes).1]
    exact WriteOrder.refl _

variable (vm : VirtualMachine Tx Result)

theorem afterRound_txBatch_length {now : Progress Tx Result} (pending : now.txBatch ≠ [])
    {tables : ReserveTables} (reserve : ReserveWrite (now.execInfos vm batchSize) tables)
    (snapshot : SnapshotImpl Tx Result Empty) :
    (afterRound vm now tables snapshot).txBatch.length < now.txBatch.length := by
  have round : Commits vm now (afterRound vm now tables snapshot) (committed tables (now.execInfos vm batchSize) ++ []) :=
    commits_afterRound (.nil rfl rfl rfl)
  refine round.txBatch_length_lt ?_
  obtain ⟨first, rest, batch⟩ := List.exists_cons_of_ne_nil pending
  obtain ⟨others, infos⟩ := Progress.execInfos_cons (by decide : 0 < batchSize) batch
  rw [List.append_nil, infos]
  rw [infos] at reserve
  exact List.ne_nil_of_mem (List.mem_map_of_mem (first_passes reserve))

theorem Loop.exists_finished (now : Progress Tx Result) : ∃ groups final, Loop vm now groups false final := by
  induction count : now.txBatch.length using Nat.strong_induction_on generalizing now with
  | _ count ih =>
    by_cases pending : now.txBatch = []
    · exact ⟨[], now, .done pending⟩
    · obtain ⟨tables, write, read⟩ := reserve_exists (now.execInfos vm batchSize)
      obtain ⟨snapshot, check⟩ := checkConflicts_exists tables (now.execInfos vm batchSize) now.snapshot
      have shorter := afterRound_txBatch_length vm pending write snapshot
      obtain ⟨groups, final, loop⟩ :=
        ih _ (count ▸ shorter) (afterRound vm now tables snapshot) rfl
      exact ⟨_, final, .round pending write read check loop⟩

end Termination

end Pdcc.Scheduler.Aria
