import Pdcc.Scheduler.WriaBlock
import Mathlib.Logic.Relation

/-!
# Progress of the PDCC loop

Nothing is assumed here about what a transaction does: executed again it may
read and write other keys than before. A round still commits its first
transaction and keeps the others in input order, so after `k` rounds the pool is
a subsequence of the input without its first `k` transactions. Termination, the
bounds on the number of rounds and the completeness of the block follow.
-/

set_option autoImplicit false

namespace Pdcc.Scheduler.Wria

open Ledger Library Snapshot Relation

variable {Tx Result : Type}

/-- Any executions of the selected transactions, each under its id. -/
structure RoundOutcome (txId : Tx → Bytes) (selectedTxs : List Tx)
    (execInfos : List (TxExecInfo Tx Result)) : Prop where
  txs : execInfos.map (·.tx) = selectedTxs
  txId : ∀ info ∈ execInfos, info.txRWSet.txId = txId info.tx

/-- A round whose executions may have any outcome. -/
structure Round (txId : Tx → Bytes) (batchSize : Nat) (now : Progress Tx Result)
    (execInfos : List (TxExecInfo Tx Result)) (next : Progress Tx Result) : Prop where
  pending : now.txBatch ≠ []
  outcome : RoundOutcome txId (now.txBatch.take batchSize) execInfos
  commit : ∃ snapshot, CommitWrites now.snapshot (mergedWrites execInfos) snapshot ∧
    next = now.commit batchSize (fun info => info.txRWSet.txId) (committed execInfos)
      (abortedTxs execInfos) snapshot

def Next (txId : Tx → Bytes) (batchSize : Nat) (now next : Progress Tx Result) : Prop :=
  ∃ execInfos, Round txId batchSize now execInfos next

section Machine

variable {vm : VirtualMachine Tx Result} {batchSize : Nat}

theorem roundOutcome_execInfos (vm : VirtualMachine Tx Result) (batchSize : Nat) (now : Progress Tx Result) :
    RoundOutcome vm.txId (now.txBatch.take batchSize) (now.execInfos vm batchSize) where
  txs := execute_txs _ _
  txId := by
    intro info member
    obtain ⟨_, outcome⟩ := mem_execute member
    have rwSet : info.txRWSet = (vm.executeTx info.tx now.snapshot.view).1 :=
      congrArg Prod.fst outcome
    rw [rwSet, vm.txId_eq]

theorem Loop.rounds {now final : Progress Tx Result} {timedOut : Bool}
    (loop : Loop vm batchSize now timedOut final) (inTime : timedOut = false) :
    ReflTransGen (Next vm.txId batchSize) now final := by
  induction loop with
  | done _ => exact .refl
  | timeout _ => cases inTime
  | @round now snapshot _ _ pending commit _ ih =>
    exact .head ⟨_, pending, roundOutcome_execInfos vm batchSize now, snapshot, commit, rfl⟩ (ih inTime)

end Machine

section Round

variable {txId : Tx → Bytes} {batchSize : Nat} {now next : Progress Tx Result}
  {execInfos : List (TxExecInfo Tx Result)}

theorem Round.exists_next (pending : now.txBatch ≠ []) (outcome : RoundOutcome txId (now.txBatch.take batchSize) execInfos) :
    ∃ next, Round txId batchSize now execInfos next := by
  obtain ⟨snapshot, commit⟩ := commitWrites_exists now.snapshot (mergedWrites execInfos)
  exact ⟨_, pending, outcome, snapshot, commit, rfl⟩

theorem Round.roundNum (round : Round txId batchSize now execInfos next) : next.roundNum = now.roundNum + 1 := by
  obtain ⟨_, _, same⟩ := round.commit
  rw [same]
  rfl

theorem Round.block (round : Round txId batchSize now execInfos next) :
    next.block = now.block ++ (committed execInfos).map fun info => (info.tx, info.txResult) := by
  obtain ⟨_, _, same⟩ := round.commit
  rw [same]
  rfl

theorem Round.txBatch (round : Round txId batchSize now execInfos next) :
    next.txBatch = abortedTxs execInfos ++ now.txBatch.drop batchSize := by
  obtain ⟨_, _, same⟩ := round.commit
  rw [same]
  rfl

theorem Round.txRWSetMap (round : Round txId batchSize now execInfos next) : next.txRWSetMap = now.txRWSetMap.puts id
      ((committed execInfos).map fun info => (info.txRWSet.txId, info.txRWSet)) := by
  obtain ⟨_, _, same⟩ := round.commit
  rw [same]
  rfl

theorem Round.txBatch_sublist (positive : 0 < batchSize) (round : Round txId batchSize now execInfos next) :
    next.txBatch.Sublist now.txBatch.tail := by
  obtain ⟨first, rest, batch⟩ := List.exists_cons_of_ne_nil round.pending
  obtain ⟨size, sizeEq⟩ := Nat.exists_eq_succ_of_ne_zero (Nat.ne_of_gt positive)
  have aborted := abortedTxs_sublist_tail execInfos
  rw [round.outcome.txs, batch, sizeEq, List.take_succ_cons, List.tail_cons] at aborted
  rw [round.txBatch, batch, sizeEq, List.drop_succ_cons, List.tail_cons]
  have kept := aborted.append (List.Sublist.refl (rest.drop size))
  rwa [List.take_append_drop] at kept

theorem Round.commits_first (positive : 0 < batchSize) (round : Round txId batchSize now execInfos next) :
    ∃ first rest result others, now.txBatch = first :: rest ∧ next.block = now.block ++ (first, result) :: others := by
  obtain ⟨first, rest, batch⟩ := List.exists_cons_of_ne_nil round.pending
  obtain ⟨size, sizeEq⟩ := Nat.exists_eq_succ_of_ne_zero (Nat.ne_of_gt positive)
  have txs := round.outcome.txs
  rw [batch, sizeEq, List.take_succ_cons] at txs
  cases execInfos with
  | nil => cases txs
  | cons info infos =>
    have isFirst : info.tx = first := List.head_eq_of_cons_eq txs
    obtain ⟨others, commits⟩ := committed_cons info infos
    have block := round.block
    rw [commits, List.map_cons, isFirst] at block
    exact ⟨first, rest, _, _, batch, block⟩

theorem Round.perm (round : Round txId batchSize now execInfos next) :
    (next.block.map Prod.fst ++ next.txBatch).Perm (now.block.map Prod.fst ++ now.txBatch) := by
  have complete := committed_aborted_perm execInfos
  rw [round.outcome.txs] at complete
  rw [round.block, round.txBatch, List.map_append, List.map_map, List.append_assoc]
  refine List.Perm.append_left _ ?_
  rw [← List.append_assoc]
  refine (complete.append_right _).trans ?_
  rw [List.take_append_drop]

theorem Round.block_length (round : Round txId batchSize now execInfos next) : next.block.length ≤ now.block.length + batchSize := by
  have selected : (committed execInfos).length ≤ (execInfos.map (·.tx)).length := by
    rw [List.length_map]
    exact (committed_sublist execInfos).length_le
  rw [round.outcome.txs] at selected
  have bounded := List.length_take_le batchSize now.txBatch
  rw [round.block, List.length_append, List.length_map]
  omega

end Round

section Rounds

variable {txId : Tx → Bytes} {batchSize : Nat}

structure RecordsBlock (txId : Tx → Bytes) (now : Progress Tx Result) : Prop where
  present : ∀ id, (now.txRWSetMap id).isSome ↔ id ∈ now.block.map fun entry => txId entry.1
  own : ∀ id rwSet, now.txRWSetMap id = some rwSet → rwSet.txId = id

theorem RecordsBlock.start (txId : Tx → Bytes) (txBatch : List Tx) (snapshot : SnapshotImpl Tx Result Empty) :
    RecordsBlock txId (Progress.start txBatch snapshot) where
  present := by simp [Progress.start]
  own := by simp [Progress.start]

variable {execInfos : List (TxExecInfo Tx Result)} {next : Progress Tx Result}

private theorem recorded_isSome (keyed : ∀ info ∈ execInfos, info.txRWSet.txId = txId info.tx) (key : Bytes) :
    (lastWrite id (execInfos.map fun info => (info.txRWSet.txId, info.txRWSet)) key).isSome ↔
      key ∈ execInfos.map fun info => txId info.tx := by
  have sameKeys : (execInfos.map fun info => txId info.tx) = execInfos.map fun info => info.txRWSet.txId :=
    List.map_congr_left fun info member => (keyed info member).symm
  rw [sameKeys, Option.isSome_iff_ne_none, Ne, lastWrite_eq_none_iff]
  simp

variable {now : Progress Tx Result}

theorem RecordsBlock.round (records : RecordsBlock txId now) (round : Round txId batchSize now execInfos next) : RecordsBlock txId next where
  present := by
    intro key
    have keyed : ∀ info ∈ committed execInfos, info.txRWSet.txId = txId info.tx :=
      fun info member => round.outcome.txId info ((committed_sublist execInfos).subset member)
    rw [round.txRWSetMap, round.block, Overlay.puts_apply, Option.isSome_or, Bool.or_eq_true,
      records.present, recorded_isSome keyed, List.map_append, List.mem_append, List.map_map, or_comm]
    rfl
  own := by
    intro key rwSet found
    rw [round.txRWSetMap, Overlay.puts_apply, Option.or_eq_some_iff] at found
    cases found with
    | inl here =>
      obtain ⟨entry, member, sameKey, stored⟩ := exists_mem_of_lastWrite id here
      obtain ⟨info, _, made⟩ := List.mem_map.mp member
      rw [← made] at sameKey stored
      rw [← stored]
      exact sameKey
    | inr earlier => exact records.own key rwSet earlier.2

structure RoundInvariant (txId : Tx → Bytes) (batchSize : Nat) (txBatch : List Tx)
    (now : Progress Tx Result) : Prop where
  remaining : now.txBatch.Sublist (txBatch.drop now.roundNum)
  batch : (now.block.map Prod.fst ++ now.txBatch).Perm txBatch
  atMost : now.roundNum ≤ txBatch.length
  atLeast : now.block.length ≤ now.roundNum * batchSize
  recorded : RecordsBlock txId now

theorem RoundInvariant.start (txId : Tx → Bytes) (batchSize : Nat) (txBatch : List Tx) (snapshot : SnapshotImpl Tx Result Empty) :
    RoundInvariant txId batchSize txBatch (Progress.start txBatch snapshot) where
  remaining := List.Sublist.refl _
  batch := List.Perm.refl _
  atMost := Nat.zero_le _
  atLeast := Nat.zero_le _
  recorded := .start txId txBatch snapshot

theorem RoundInvariant.round {txBatch : List Tx} (positive : 0 < batchSize) (reached : RoundInvariant txId batchSize txBatch now)
    (round : Round txId batchSize now execInfos next) :
    RoundInvariant txId batchSize txBatch next where
  remaining := by
    rw [round.roundNum, ← List.tail_drop]
    exact (round.txBatch_sublist positive).trans reached.remaining.tail
  batch := round.perm.trans reached.batch
  atMost := by
    -- a pending transaction stands at or behind position `now.roundNum` of the input
    have pending : txBatch.drop now.roundNum ≠ [] := by
      intro none
      have remaining := reached.remaining
      rw [none] at remaining
      exact round.pending (List.sublist_nil.mp remaining)
    rw [round.roundNum]
    rw [Ne, List.drop_eq_nil_iff] at pending
    omega
  atLeast := by
    have bounded := round.block_length
    have before := reached.atLeast
    rw [round.roundNum, Nat.add_mul, Nat.one_mul]
    omega
  recorded := reached.recorded.round round

theorem RoundInvariant.reached {txBatch : List Tx} {snapshot : SnapshotImpl Tx Result Empty} (positive : 0 < batchSize)
    (rounds : ReflTransGen (Next txId batchSize) (Progress.start txBatch snapshot) now) :
    RoundInvariant txId batchSize txBatch now := by
  induction rounds with
  | refl => exact .start txId batchSize txBatch snapshot
  | tail _ step ih =>
    obtain ⟨_, round⟩ := step
    exact ih.round positive round

theorem next_terminates (txId : Tx → Bytes) (positive : 0 < batchSize) (now : Progress Tx Result) :
    Acc (fun after before => Next txId batchSize before after) now := by
  induction count : now.txBatch.length using Nat.strong_induction_on generalizing now with
  | h count ih =>
    refine Acc.intro now ?_
    intro next step
    obtain ⟨_, round⟩ := step
    have shorter := (round.txBatch_sublist positive).length_le
    have pending := List.length_pos_of_ne_nil round.pending
    rw [List.length_tail] at shorter
    exact ih next.txBatch.length (by omega) next rfl

theorem RoundInvariant.committed {txBatch : List Tx} (reached : RoundInvariant txId batchSize txBatch now) (distinct : txBatch.Nodup)
    {position : Nat} {tx : Tx} (atPosition : txBatch[position]? = some tx)
    (early : position < now.roundNum) : tx ∈ now.block.map Prod.fst := by
  have member : tx ∈ now.block.map Prod.fst ++ now.txBatch :=
    reached.batch.mem_iff.mpr (List.mem_of_getElem? atPosition)
  cases List.mem_append.mp member with
  | inl inBlock => exact inBlock
  | inr remains =>
    obtain ⟨later, found⟩ := List.mem_iff_getElem?.mp (reached.remaining.subset remains)
    rw [List.getElem?_drop] at found
    obtain ⟨inside, _⟩ := List.getElem?_eq_some_iff.mp atPosition
    have same := (List.getElem?_inj inside distinct).mp (atPosition.trans found.symm)
    omega

theorem RoundInvariant.ceil_le {txBatch : List Tx} (reached : RoundInvariant txId batchSize txBatch now) (positive : 0 < batchSize)
    (finished : now.txBatch = []) :
    (txBatch.length + batchSize - 1) / batchSize ≤ now.roundNum := by
  have all := reached.batch.length_eq
  rw [finished, List.append_nil, List.length_map] at all
  have bounded := reached.atLeast
  refine Nat.le_of_lt_succ ((Nat.div_lt_iff_lt_mul positive).mpr ?_)
  rw [Nat.succ_mul]
  omega

/-- Whatever the transactions do, the loop ends, no transaction is lost, and none
waits for more rounds than there are transactions before it. -/
theorem rounds_progress (txId : Tx → Bytes) (batchSize : Nat) (positive : 0 < batchSize)
    (txBatch : List Tx) (distinct : (txBatch.map txId).Nodup)
    (snapshot : SnapshotImpl Tx Result Empty) :
    Acc (fun after before => Next txId batchSize before after) (Progress.start txBatch snapshot) ∧
      ∀ now, ReflTransGen (Next txId batchSize) (Progress.start txBatch snapshot) now →
        now.txBatch.Sublist txBatch ∧
        (∀ execInfos, now.txBatch ≠ [] → RoundOutcome txId (now.txBatch.take batchSize) execInfos →
          ∃ next, Round txId batchSize now execInfos next) ∧
        (∀ next, Next txId batchSize now next → next.roundNum = now.roundNum + 1 ∧
            ∃ first rest result others, now.txBatch = first :: rest ∧
              next.block = now.block ++ (first, result) :: others) ∧
        (∀ (position : Nat) (tx : Tx), txBatch[position]? = some tx →
          position + 1 ≤ now.roundNum → tx ∈ now.block.map Prod.fst) ∧
        (now.txBatch = [] → (txBatch.length + batchSize - 1) / batchSize ≤ now.roundNum ∧
          now.roundNum ≤ txBatch.length ∧
          (now.block.map Prod.fst).Perm txBatch ∧
          (∀ key, (now.txRWSetMap key).isSome ↔ key ∈ txBatch.map txId) ∧
          ∀ key rwSet, now.txRWSetMap key = some rwSet → rwSet.txId = key) := by
  refine ⟨next_terminates txId positive _, ?_⟩
  intro now rounds
  have reached := RoundInvariant.reached positive rounds
  refine ⟨?_, ?_, ?_, ?_, ?_⟩
  · exact reached.remaining.trans (List.drop_sublist _ _)
  · intro execInfos pending outcome
    exact Round.exists_next pending outcome
  · intro next step
    obtain ⟨_, round⟩ := step
    exact ⟨round.roundNum, round.commits_first positive⟩
  · intro position tx atPosition early
    exact reached.committed distinct.of_map atPosition early
  · intro finished
    have complete := reached.batch
    rw [finished, List.append_nil] at complete
    refine ⟨reached.ceil_le positive finished, reached.atMost, complete, ?_, reached.recorded.own⟩
    intro key
    rw [reached.recorded.present, ← (complete.map txId).mem_iff, List.map_map]
    rfl

theorem rounds_progress_writeThenRead : ∃ final, Loop scriptMachine 10 (Progress.start
          [.writing (ascii "t0") ⟨ascii "token", ascii "k"⟩ [1],
            .reading (ascii "t1") ⟨ascii "token", ascii "k"⟩]
          (SnapshotImpl.newSnapshot v235 [] emptyStore)) false final ∧
      1 ≤ final.roundNum ∧ final.roundNum ≤ 2 ∧ final.block.length = 2 ∧
      (final.txRWSetMap (ascii "t1")).isSome := by
  obtain ⟨final, loop⟩ := Loop.exists_finished scriptMachine (by decide : 0 < 10) (Progress.start
    [.writing (ascii "t0") ⟨ascii "token", ascii "k"⟩ [1], .reading (ascii "t1") ⟨ascii "token", ascii "k"⟩]
    (SnapshotImpl.newSnapshot v235 [] emptyStore))
  obtain ⟨_, reachable⟩ := rounds_progress scriptMachine.txId 10 (by decide)
    [.writing (ascii "t0") ⟨ascii "token", ascii "k"⟩ [1], .reading (ascii "t1") ⟨ascii "token", ascii "k"⟩]
    (by decide) (SnapshotImpl.newSnapshot v235 [] emptyStore)
  obtain ⟨_, _, _, _, complete⟩ := reachable final (loop.rounds rfl)
  obtain ⟨atLeast, atMost, perm, present, _⟩ := complete (loop.finished rfl)
  refine ⟨final, loop, atLeast, atMost, ?_, (present (ascii "t1")).mpr (by decide)⟩
  have length := perm.length_eq
  rwa [List.length_map] at length

end Rounds

end Pdcc.Scheduler.Wria
