import Pdcc.Scheduler.WriaBlock

/-!
# Two replicas running the PDCC scheduler

The block a run returns depends on the batch size of the scheduler instance,
which decides which transactions meet in a round, and on the order in which a
Go map is walked where composed keys collide. Two runs return the same block if
no round has such a collision and the boundaries of their rounds separate only
transactions that have nothing to do with each other.
-/

set_option autoImplicit false

namespace Pdcc.Scheduler.Wria

open Ledger Library Snapshot

variable {Tx Result : Type} {vm : VirtualMachine Tx Result} {batchSize : Nat}

section Replay

/-- The merged writes of a round go to different cells of the write table, so
that the order in which the map is walked cannot show. -/
def Raceless (round : List (TxExecInfo Tx Result)) : Prop :=
  ((mergedWrites round).map fun write => write.location.composed).Nodup

/-- Rounds executed one after the other, each on the table that the merged
writes of the rounds before it left. -/
inductive Replays (vm : VirtualMachine Tx Result) (base : StateKey → Bytes) :
    Overlay Bytes Bytes → List (List (TxExecInfo Tx Result)) → Prop where
  | nil {table} : Replays vm base table []
  | cons {table round rounds} :
      round = execute vm (table.view StateKey.composed base) (round.map (·.tx)) →
      Replays vm base (table.puts StateKey.composed ((mergedWrites round).map (·.entry))) rounds →
      Replays vm base table (round :: rounds)

variable {base : StateKey → Bytes} {table : Overlay Bytes Bytes}
  {rounds rounds' : List (List (TxExecInfo Tx Result))}

theorem Replays.unique (replays : Replays vm base table rounds) (replays' : Replays vm base table rounds')
    (sameTxs : rounds.map (·.map (·.tx)) = rounds'.map (·.map (·.tx))) : rounds = rounds' := by
  induction replays generalizing rounds' with
  | nil => exact (List.map_eq_nil_iff.mp sameTxs.symm).symm
  | cons executed _ ih =>
    cases replays' with
    | nil => cases sameTxs
    | cons executed' later' =>
      obtain ⟨first, others⟩ := List.cons.inj sameTxs
      have same := executed.trans ((congrArg _ first).trans executed'.symm)
      subst same
      rw [ih later' others]

theorem Rounds.replays {now final : Progress Tx Result} {timedOut : Bool} (run : Rounds vm batchSize now rounds timedOut final)
    (unsealed : now.snapshot.isSealed = false) (raceless : ∀ round ∈ rounds, Raceless round) :
    Replays vm now.snapshot.under now.snapshot.writeValues rounds := by
  induction run with
  | done _ => exact .nil
  | timeout _ => exact .nil
  | @round now snapshot rounds timedOut final _ commit _ ih =>
    obtain ⟨order, perm, rfl⟩ := commit.putWrites unsealed
    have later := ih (by rw [afterRound, Progress.commit, SnapshotImpl.putWrites_isSealed, unsealed])
      (fun round member => raceless round (.tail _ member))
    have table : (now.snapshot.putWrites order).writeValues = now.snapshot.writeValues.puts StateKey.composed
        ((mergedWrites (now.execInfos vm batchSize)).map (·.entry)) := by
      rw [SnapshotImpl.writeValues_putWrites]
      refine Overlay.puts_perm StateKey.composed (perm.map _) ?_ _
      rw [List.map_map]
      exact (perm.map _).nodup_iff.mpr (raceless _ (.head _))
    refine .cons ?_ ?_
    · rw [← SnapshotImpl.view_eq, Progress.execInfos, execute_txs]
    · rw [← table, ← SnapshotImpl.putWrites_under now.snapshot order]
      exact later

end Replay

section Cuts

/-- Locations that one of the code's maps takes for one another: the maps of a
round by their key bytes, the write table by their composed key. -/
def Confused (left right : StateKey) : Prop :=
  left.key = right.key ∨ left.composed = right.composed

/-- A round can be cut behind `front`: the front puts nothing back, and the
rest neither reads what the front writes nor commits a write that is confused
with one of the front at another location. -/
structure Separable (front rest : List (TxExecInfo Tx Result)) : Prop where
  unconflicted : front.Pairwise fun earlier later => ¬ ReadsWriteOf later earlier
  reads : ∀ writer ∈ front, ∀ write ∈ writer.txRWSet.txWrites, ∀ reader ∈ rest,
    ∀ read ∈ reader.txRWSet.txReads, ¬ Confused write.location read.location
  writes : ∀ writer ∈ front, ∀ write ∈ writer.txRWSet.txWrites, ∀ later ∈ committedWrites rest,
    Confused write.location later.location → write.location = later.location

/-- The parts are the given rounds, some of them cut. -/
inductive Cuts : List (List (TxExecInfo Tx Result)) → List (List (TxExecInfo Tx Result)) → Prop where
  | nil : Cuts [] []
  | keep {round rounds parts} : Cuts rounds parts → Cuts (round :: rounds) (round :: parts)
  | cut {front rest rounds parts} : Separable front rest → Cuts (rest :: rounds) parts →
      Cuts ((front ++ rest) :: rounds) (front :: parts)

variable {front rest : List (TxExecInfo Tx Result)} {base : StateKey → Bytes}
  {table : Overlay Bytes Bytes} {rounds parts : List (List (TxExecInfo Tx Result))}

theorem Separable.committed_eq (separable : Separable front rest) : committed (front ++ rest) = front ++ committed rest := by
  refine committed_append separable.unconflicted ?_
  rintro writer writerMember reader readerMember ⟨read, readMember, write, writeMember, same⟩
  exact separable.reads writer writerMember write writeMember reader readerMember read readMember (.inl same)

theorem Separable.mergedWrites_eq (separable : Separable front rest) : mergedWrites (front ++ rest) =
      ((mergedWrites front).filter fun write =>
        (lastWrite TxWrite.key ((committedWrites rest).map fun write => (write, write)) write.key).isNone) ++ mergedWrites rest := by
  have all : committedWrites (front ++ rest) = committedWrites front ++ committedWrites rest := by
    rw [committedWrites, committedWrites, separable.committed_eq, (committed_of_unconflicted _ separable.unconflicted).1,
      List.flatMap_append]
    rfl
  rw [mergedWrites, all, List.map_append, finalWrites_append, List.map_append, mergedWrites, mergedWrites, List.filter_map]
  congr 2
  refine List.filter_congr ?_
  rintro ⟨key, write⟩ member
  rw [Function.comp_apply, key_of_mem_finalWrites member]

theorem Separable.writes_of_merged (separable : Separable front rest) {write : TxWrite} (merged : write ∈ mergedWrites front)
    {later : TxWrite} (committed : later ∈ committedWrites rest) (confused : Confused write.location later.location) :
    write.location = later.location := by
  obtain ⟨writer, writerMember, written⟩ := List.mem_flatMap.mp (mem_committedWrites_of_mem_mergedWrites front merged)
  exact separable.writes writer ((committed_sublist front).subset writerMember) write written later committed confused

/-- Cutting a round changes nothing in the table. -/
theorem Separable.puts_eq (separable : Separable front rest) (table : Overlay Bytes Bytes) :
    table.puts StateKey.composed ((mergedWrites (front ++ rest)).map (·.entry)) =
      (table.puts StateKey.composed ((mergedWrites front).map (·.entry))).puts StateKey.composed ((mergedWrites rest).map (·.entry)) := by
  rw [← Overlay.puts_append]
  refine Overlay.puts_congr StateKey.composed ?_ table
  intro cell
  have filtered : ((mergedWrites front).filter fun write =>
        (lastWrite TxWrite.key ((committedWrites rest).map fun write => (write, write)) write.key).isNone).map (·.entry) =
      ((mergedWrites front).map (·.entry)).filter fun entry =>
        (lastWrite TxWrite.key ((committedWrites rest).map fun write => (write, write)) entry.1.key).isNone := by
    rw [List.filter_map]
    rfl
  rw [separable.mergedWrites_eq, List.map_append, lastWrite_append, lastWrite_append]
  cases found : lastWrite StateKey.composed ((mergedWrites rest).map (·.entry)) cell with
  | some value => rfl
  | none =>
    rw [Option.none_or, Option.none_or, filtered]
    refine lastWrite_filter_of StateKey.composed ?_
    intro entry member here
    obtain ⟨write, merged, rfl⟩ := List.mem_map.mp member
    rw [Option.isNone_iff_eq_none, Option.eq_none_iff_forall_ne_some]
    -- a later write with these key bytes would be merged for the same cell
    intro later last
    obtain ⟨_, lastMember, lastKey, same⟩ := exists_mem_of_lastWrite TxWrite.key last
    obtain ⟨source, committed, rfl⟩ := List.mem_map.mp lastMember
    have equal : source = later := same
    subst equal
    have sameKey : source.key = write.key := lastKey
    have sameLocation := separable.writes_of_merged merged committed (.inl sameKey.symm)
    have laterMerged : source ∈ mergedWrites rest := by
      rw [mem_mergedWrites_iff, sameKey]
      exact last
    refine (lastWrite_eq_none_iff StateKey.composed _ cell).mp found _ (List.mem_map_of_mem laterMerged) ?_
    rw [← here, TxWrite.entry_fst, TxWrite.entry_fst, sameLocation]

/-- The rest reads the same values before and after the writes of the front. -/
theorem Separable.execute_eq (separable : Separable front rest) {txs : List Tx}
    (executed : rest = execute vm (table.view StateKey.composed base) txs) :
    rest = execute vm ((table.puts StateKey.composed ((mergedWrites front).map (·.entry))).view StateKey.composed base) txs := by
  rw [executed, execute, execute, List.map_inj_left]
  intro tx member
  have reader : executeOne vm (table.view StateKey.composed base) tx ∈ rest := by
    rw [executed]
    exact List.mem_map_of_mem member
  have same := vm.reads_determine tx (table.view StateKey.composed base)
    ((table.puts StateKey.composed ((mergedWrites front).map (·.entry))).view StateKey.composed base) ?_
  · rw [executeOne, executeOne, same]
  · intro read readMember
    refine Overlay.view_puts_of_unwritten StateKey.composed ?_
    intro entry entryMember sameCell
    obtain ⟨write, merged, rfl⟩ := List.mem_map.mp entryMember
    obtain ⟨writer, writerMember, written⟩ := List.mem_flatMap.mp (mem_committedWrites_of_mem_mergedWrites front merged)
    exact separable.reads writer ((committed_sublist front).subset writerMember) write written _ reader read readMember (.inr sameCell)

theorem Replays.cut (separable : Separable front rest) (replays : Replays vm base table ((front ++ rest) :: rounds)) :
    Replays vm base table (front :: rest :: rounds) := by
  cases replays with
  | cons executed later =>
    rw [List.map_append, execute, List.map_append] at executed
    obtain ⟨frontExecuted, restExecuted⟩ := List.append_inj executed (by simp)
    rw [separable.puts_eq] at later
    exact .cons frontExecuted (.cons (separable.execute_eq restExecuted) later)

theorem Cuts.replays (cuts : Cuts rounds parts) (replays : Replays vm base table rounds) : Replays vm base table parts := by
  induction cuts generalizing table with
  | nil => exact .nil
  | keep _ ih =>
    cases replays with
    | cons executed later => exact .cons executed (ih later)
  | cut separable _ ih =>
    cases Replays.cut separable replays with
    | cons executed later => exact .cons executed (ih later)

theorem Cuts.committed_eq (cuts : Cuts rounds parts) : parts.flatMap committed = rounds.flatMap committed := by
  induction cuts with
  | nil => rfl
  | keep _ ih => rw [List.flatMap_cons, List.flatMap_cons, ih]
  | cut separable _ ih =>
    rw [List.flatMap_cons, ih, List.flatMap_cons, List.flatMap_cons, separable.committed_eq,
      (committed_of_unconflicted _ separable.unconflicted).1, List.append_assoc]

end Cuts

section Determinism

variable {now final : Progress Tx Result} {rest : List Tx} {snapshot : SnapshotImpl Tx Result Empty}

section Order

variable (loc : StateKey) (idle : Nat)

end Order

end Determinism

end Pdcc.Scheduler.Wria
