import Pdcc.Scheduler.WriaSerial
import Pdcc.Ledger.Script
import Pdcc.Ledger.SimContext

/-!
# The block a PDCC run returns

What `Schedule` hands back: the ordered transactions with their results, their
read/write sets by transaction identifier, and the write table of the snapshot.
A block over one contract replays serially; with several contracts the write
table is that of the read/write sets only where key bytes and composed keys
both identify the locations in play.
-/

set_option autoImplicit false

namespace Pdcc.Scheduler.Wria

open Ledger Library Snapshot

variable {Tx Result : Type} {vm : VirtualMachine Tx Result}

section SerialEquivalence

private theorem getD_view_puts {Loc : Type} (ident : Loc → Bytes) (base : Loc → Bytes)
    (table : Overlay Bytes Bytes) (writes : List (Loc × Bytes)) (loc : Loc) :
    (table.puts ident writes).view ident base loc = ((table.puts ident writes) (ident loc)).getD (table.view ident base loc) := by
  rw [Overlay.view, Overlay.view, Overlay.puts_apply]
  cases lastWrite ident writes (ident loc) with
  | some value => rfl
  | none =>
    cases table (ident loc) with
    | some value => rfl
    | none => rfl

/-- A block whose transactions keep to one contract is a serial execution. A run
that ends in time commits every transaction; executing the block in its order
from the initial state gives every transaction its recorded read/write set and
result, and the write table over the initial state is the final state. -/
theorem schedule_serialEquivalent (vm : VirtualMachine Tx Result) (ws ws' : WriaScheduler)
    (txBatch : List Tx) (snapshot : SnapshotImpl Tx Result Empty) (final : Progress Tx Result)
    (contractName : Bytes) (distinct : DistinctTxIds vm txBatch)
    (oneContract : ∀ tx ∈ txBatch, vm.Confined {loc | loc.contractName = contractName} tx)
    (unsealed : snapshot.isSealed = false)
    (run : Schedule vm ws txBatch snapshot false final ws') :
    (final.block.map Prod.fst).Perm txBatch ∧ List.Forall₂ (fun entry outcome =>
          final.txRWSetMap (vm.txId entry.1) = some outcome.1 ∧ entry.2 = outcome.2)
        final.block (serialExecute vm snapshot.view (final.block.map Prod.fst)).1 ∧
      (∀ loc : StateKey, loc.contractName = contractName →
        (serialExecute vm snapshot.view (final.block.map Prod.fst)).2 loc =
          (final.snapshot.writeValues loc.composed).getD (snapshot.view loc)) ∧
      final.snapshot.writeValues = snapshot.writeValues.puts StateKey.composed
        ((final.blockWrites vm).map (·.entry)) := by
  obtain ⟨infos, commits, within, serial, _⟩ := run.loop.serialRun
    (StateKey.composed_injOn_contract contractName) (StateKey.key_injOn_contract contractName)
    unsealed oneContract
  have serialFrom : SerialRun vm.semantics StateKey.composed snapshot.under Eq
      snapshot.writeValues (infos.map (·.executed)) final.snapshot.writeValues := serial
  have block : final.block = infos.map fun info => (info.tx, info.txResult) := commits.block
  have txs : final.block.map Prod.fst = (infos.map (·.executed)).map (·.tx) := by
    rw [block, List.map_map, List.map_map]
    rfl
  have stepsWithin : ∀ step ∈ infos.map (·.executed),
      WithinScope {loc | loc.contractName = contractName} step.outcome := by
    intro step member
    obtain ⟨info, infoMember, rfl⟩ := List.mem_map.mp member
    exact within info infoMember
  have inOrder : ∀ writes applied : List (StateKey × Bytes), writes = applied → applied.Perm writes := by
    rintro writes _ rfl
    exact List.Perm.refl writes
  obtain ⟨outcomes, states⟩ := serialExecute_of_run
    (StateKey.composed_injOn_contract contractName) inOrder serialFrom stepsWithin
    (fun loc _ => congrFun snapshot.view_eq loc)
  rw [← txs] at outcomes states
  have finalTable : final.snapshot.writeValues = snapshot.writeValues.puts StateKey.composed
      ((final.blockWrites vm).map (·.entry)) := by
    rw [serialFrom.final_eq, commits.blockWrites distinct]
  refine ⟨?_, ?_, ?_, finalTable⟩
  · have complete := commits.batch
    rw [run.loop.finished rfl, List.append_nil] at complete
    have sameTxs : final.block.map Prod.fst = infos.map (·.tx) := by
      rw [txs, List.map_map]
      rfl
    rw [sameTxs]
    exact complete
  · rw [outcomes, block, List.map_map, List.forall₂_map_left_iff, List.forall₂_map_right_iff, List.forall₂_same]
    intro info member
    exact ⟨commits.lookup distinct member, rfl⟩
  · intro loc named
    rw [states loc named, finalTable, getD_view_puts, ← snapshot.view_eq]

theorem schedule_serialEquivalent_writeThenRead :
    ∃ final ws', Schedule scriptMachine (newWriaScheduler 1 (by decide))
        [.writing (ascii "t0") ⟨ascii "token", ascii "k"⟩ [1], .reading (ascii "t1") ⟨ascii "token", ascii "k"⟩]
        (SnapshotImpl.newSnapshot v235 [] emptyStore) false final ws' ∧
      List.Forall₂ (fun entry outcome =>
          final.txRWSetMap (scriptMachine.txId entry.1) = some outcome.1 ∧ entry.2 = outcome.2)
        final.block
        (serialExecute scriptMachine (fun _ => []) (final.block.map Prod.fst)).1 := by
  obtain ⟨final, ws', run⟩ := Schedule.exists_finished scriptMachine (newWriaScheduler 1 (by decide))
    [.writing (ascii "t0") ⟨ascii "token", ascii "k"⟩ [1], .reading (ascii "t1") ⟨ascii "token", ascii "k"⟩]
    (SnapshotImpl.newSnapshot v235 [] emptyStore)
  refine ⟨final, ws', run, ?_⟩
  have replay := schedule_serialEquivalent scriptMachine _ ws' _ _ final (ascii "token") (by decide) ?_ rfl run
  · rw [SnapshotImpl.view_newSnapshot] at replay
    exact replay.2.1
  · intro tx member
    rcases List.mem_pair.mp member with rfl | rfl
    · exact Script.writing_confined _ (by simp) _
    · exact Script.reading_confined _ (by simp)

end SerialEquivalence

section WriteTable

/-- In a round that keeps `loc` apart, no write committed at another location
shares its composed key, and none shares its key bytes if the round writes
`loc` itself. -/
def KeepsApart (loc : StateKey) (execInfos : List (TxExecInfo Tx Result)) : Prop :=
  ∀ write ∈ committedWrites execInfos, write.location ≠ loc →
    write.location.composed ≠ loc.composed ∧
      (write.key = loc.key → ∀ own ∈ committedWrites execInfos, own.location ≠ loc)

variable {loc : StateKey} {execInfos : List (TxExecInfo Tx Result)}

private theorem lastWrite_order {order : List TxWrite} (perm : order.Perm (mergedWrites execInfos)) (key : Bytes) :
    lastWrite StateKey.key (order.map (·.entry)) key = lastWrite StateKey.key ((committedWrites execInfos).map (·.entry)) key := by
  have distinct : ((order.map (·.entry)).map fun entry => StateKey.key entry.1).Nodup := by
    rw [List.map_map]
    exact (perm.map _).nodup_iff.mpr (mergedWrites_distinct execInfos)
  rw [lastWrite_perm StateKey.key (perm.map _) distinct, mergedWrites, List.map_map]
  exact lastWrite_collected StateKey.key TxWrite.key TxWrite.entry (fun _ _ _ _ same => same) key

/-- The one write merged for `loc` is its last committed one, in whatever order
the merged writes reach the table. -/
theorem KeepsApart.lastWrite_eq (apart : KeepsApart loc execInfos) {order : List TxWrite}
    (perm : order.Perm (mergedWrites execInfos)) :
    lastWrite StateKey.composed (order.map (·.entry)) loc.composed =
      lastWrite id ((committedWrites execInfos).map (·.entry)) loc := by
  have member : ∀ write ∈ order, write ∈ committedWrites execInfos :=
    fun write ordered => mem_committedWrites_of_mem_mergedWrites execInfos (perm.mem_iff.mp ordered)
  rw [lastWrite_of_apart StateKey.composed ?cells]
  case cells =>
    intro entry ordered same
    obtain ⟨write, writeOrdered, rfl⟩ := List.mem_map.mp ordered
    by_contra other
    exact (apart write (member write writeOrdered) other).1 same
  by_cases written : ∃ own ∈ committedWrites execInfos, own.location = loc
  · -- the round writes `loc`, so its key bytes occur nowhere else in it
    obtain ⟨own, ownCommitted, here⟩ := written
    have keyed : ∀ write ∈ committedWrites execInfos, write.location.key = loc.key → write.location = loc := by
      intro write committed sameKey
      by_contra other
      exact (apart write committed other).2 sameKey own ownCommitted here
    rw [← lastWrite_of_apart StateKey.key ?order, ← lastWrite_of_apart StateKey.key ?committed]
    · exact lastWrite_order perm loc.key
    case order => exact List.forall_mem_map.mpr fun write ordered => keyed write (member write ordered)
    case committed => exact List.forall_mem_map.mpr keyed
  · have unwritten : ∀ write ∈ committedWrites execInfos, id write.entry.1 ≠ loc :=
      fun write committed here => written ⟨write, committed, here⟩
    rw [(lastWrite_eq_none_iff id (order.map (·.entry)) loc).mpr, (lastWrite_eq_none_iff id _ loc).mpr (List.forall_mem_map.mpr unwritten)]
    exact List.forall_mem_map.mpr fun write ordered => unwritten write (member write ordered)

theorem Rounds.writeValues {batchSize : Nat} {now final : Progress Tx Result} {timedOut : Bool}
    {rounds : List (List (TxExecInfo Tx Result))} (run : Rounds vm batchSize now rounds timedOut final)
    (unsealed : now.snapshot.isSealed = false) (apart : ∀ execInfos ∈ rounds, KeepsApart loc execInfos) :
    final.snapshot.writeValues loc.composed =
      (lastWrite id ((rounds.flatMap committedWrites).map (·.entry)) loc).or (now.snapshot.writeValues loc.composed) := by
  induction run with
  | done _ => rfl
  | timeout _ => rfl
  | @round now snapshot rounds timedOut final _ commit _ ih =>
    obtain ⟨order, perm, rfl⟩ := commit.putWrites unsealed
    have later := ih (by rw [afterRound, Progress.commit, SnapshotImpl.putWrites_isSealed, unsealed])
      (fun execInfos member => apart execInfos (.tail _ member))
    have here : (now.snapshot.putWrites order).writeValues loc.composed =
        (lastWrite id ((committedWrites (now.execInfos vm batchSize)).map (·.entry)) loc).or (now.snapshot.writeValues loc.composed) := by
      rw [SnapshotImpl.writeValues_putWrites, Overlay.puts_apply, (apart _ (.head _)).lastWrite_eq perm]
    rw [later, List.flatMap_cons, List.map_append, lastWrite_append, Option.or_assoc, ← here]
    rfl

/-- Every location that all rounds of a run keep apart ends with the value that
the recorded writes of the block give it. -/
theorem schedule_writeTable_agrees (vm : VirtualMachine Tx Result) (ws ws' : WriaScheduler)
    (txBatch : List Tx) (snapshot : SnapshotImpl Tx Result Empty) (timedOut : Bool)
    (final : Progress Tx Result) (distinct : DistinctTxIds vm txBatch)
    (unsealed : snapshot.isSealed = false)
    (run : Schedule vm ws txBatch snapshot timedOut final ws') :
    (∃ rounds, Rounds vm ws.batchSize (Progress.start txBatch snapshot) rounds timedOut final) ∧
      ∀ rounds, Rounds vm ws.batchSize (Progress.start txBatch snapshot) rounds timedOut final →
        ∀ loc : StateKey, (∀ execInfos ∈ rounds, KeepsApart loc execInfos) →
          final.snapshot.writeValues loc.composed =
            (lastWrite id ((final.blockWrites vm).map (·.entry)) loc).or (snapshot.writeValues loc.composed) := by
  refine ⟨run.loop.exists_rounds, ?_⟩
  intro rounds traced loc apart
  have recorded : (final.blockWrites vm).map (·.entry) = (rounds.flatMap committedWrites).map (·.entry) := by
    rw [traced.commits.blockWrites distinct]
    simp only [appliedWrites, List.flatMap_map, List.map_flatMap, List.flatMap_assoc, committedWrites,
      TxExecInfo.executed, TxRWSet.writeEntries]
  rw [recorded]
  exact traced.writeValues unsealed apart

/-- Two contracts write different keys, a reader of the first is put back to a
second round: both values are in the table. -/
theorem schedule_writeTable_agrees_twoContracts : ∃ final ws', Schedule scriptMachine (newWriaScheduler 1 (by decide))
        [.writing (ascii "t0") ⟨ascii "A", ascii "k"⟩ [1], .reading (ascii "t1") ⟨ascii "A", ascii "k"⟩,
          .writing (ascii "t2") ⟨ascii "B", ascii "j"⟩ [2]]
        (SnapshotImpl.newSnapshot v235 [] emptyStore) false final ws' ∧
      final.snapshot.writeValues (StateKey.composed ⟨ascii "A", ascii "k"⟩) = some [1] ∧
      final.snapshot.writeValues (StateKey.composed ⟨ascii "B", ascii "j"⟩) = some [2] := by
  let start : Progress Script Unit := Progress.start
    [.writing (ascii "t0") ⟨ascii "A", ascii "k"⟩ [1], .reading (ascii "t1") ⟨ascii "A", ascii "k"⟩,
      .writing (ascii "t2") ⟨ascii "B", ascii "j"⟩ [2]] (SnapshotImpl.newSnapshot v235 [] emptyStore)
  let middle := afterRound scriptMachine 10 start
    (start.snapshot.putWrites [⟨ascii "A", ascii "k", [1]⟩, ⟨ascii "B", ascii "j", [2]⟩])
  let final := afterRound scriptMachine 10 middle middle.snapshot
  have first : CommitWrites start.snapshot (mergedWrites (start.execInfos scriptMachine 10)) middle.snapshot :=
    commitWrites_of_perm rfl (by decide) (by decide)
  have second : CommitWrites middle.snapshot (mergedWrites (middle.execInfos scriptMachine 10)) middle.snapshot :=
    .inl ⟨by decide, rfl⟩
  have run : Schedule scriptMachine (newWriaScheduler 1 (by decide)) start.txBatch start.snapshot false final _ :=
    ⟨.round (by decide) first (.round (by decide) second (.done (by decide))), rfl⟩
  have traced : Rounds scriptMachine 10 start [start.execInfos scriptMachine 10, middle.execInfos scriptMachine 10] false final :=
    .round (by decide) first (.round (by decide) second (.done (by decide)))
  have agrees := (schedule_writeTable_agrees scriptMachine _ _ _ _ _ _ (by decide) rfl run).2 _ traced
  refine ⟨final, _, run, (agrees _ ?_).trans (by decide), (agrees _ ?_).trans (by decide)⟩
  · simp only [KeepsApart]
    decide
  · simp only [KeepsApart]
    decide

/-- Two contracts use the same key: the block records both writes, the write
table of the snapshot has lost the first one. -/
theorem schedule_loses_write : ∃ final ws', Schedule scriptMachine (newWriaScheduler 1 (by decide))
        [.writing (ascii "t0") ⟨ascii "A", ascii "k"⟩ [1], .writing (ascii "t1") ⟨ascii "B", ascii "k"⟩ [2]]
        (SnapshotImpl.newSnapshot v235 [] emptyStore) false final ws' ∧
      final.blockWrites scriptMachine = [⟨ascii "A", ascii "k", [1]⟩, ⟨ascii "B", ascii "k", [2]⟩] ∧
      final.snapshot.writeValues (StateKey.composed ⟨ascii "A", ascii "k"⟩) = none ∧
      final.snapshot.writeValues (StateKey.composed ⟨ascii "B", ascii "k"⟩) = some [2] := by
  let batch : List Script := [.writing (ascii "t0") ⟨ascii "A", ascii "k"⟩ [1],
    .writing (ascii "t1") ⟨ascii "B", ascii "k"⟩ [2]]
  let snapshot : SnapshotImpl Script Unit Empty := SnapshotImpl.newSnapshot v235 [] emptyStore
  let kept : TxWrite := ⟨ascii "B", ascii "k", [2]⟩
  refine ⟨afterRound scriptMachine 10 (Progress.start batch snapshot) (snapshot.putWrites [kept]),
    _, ⟨.round (by simp [Progress.start]) ?_ (.done (by decide)), rfl⟩, by decide, ?_, ?_⟩
  · exact commitWrites_of_perm rfl (by decide) (by decide)
  · decide
  · decide

end WriteTable

end Pdcc.Scheduler.Wria
