import Pdcc.Scheduler.WriaConflicts

/-!
# Runs of the PDCC scheduler as serial executions

A round executes all its transactions on one stale snapshot. Because no
committed transaction reads what an earlier committed one of the round writes,
a round is a serial run of its committed transactions in index order, and the
rounds of a block join to a serial run of the whole block.
-/

set_option autoImplicit false

namespace Pdcc.Scheduler.Wria

open Ledger Library Snapshot

variable {Tx Result : Type}

section MergedWrites

variable (execInfos : List (TxExecInfo Tx Result))

theorem mem_committedWrites_of_mem_mergedWrites {write : TxWrite}
    (member : write ∈ mergedWrites execInfos) : write ∈ committedWrites execInfos := by
  obtain ⟨⟨key, _⟩, present, rfl⟩ := List.mem_map.mp member
  have found := (mem_finalWrites_iff TxWrite.key _ _ _).mp present
  obtain ⟨source, sourceMember, _, same⟩ := exists_mem_of_lastWrite TxWrite.key found
  obtain ⟨original, originalMember, rfl⟩ := List.mem_map.mp sourceMember
  have equal : original = _ := same
  rwa [equal] at originalMember

theorem key_of_mem_finalWrites {writes : List TxWrite} {key : Bytes} {write : TxWrite}
    (member : (key, write) ∈ finalWrites TxWrite.key (writes.map fun write => (write, write))) :
    write.key = key := by
  have found := (mem_finalWrites_iff TxWrite.key _ _ _).mp member
  obtain ⟨source, sourceMember, sameKey, same⟩ := exists_mem_of_lastWrite TxWrite.key found
  obtain ⟨original, _, rfl⟩ := List.mem_map.mp sourceMember
  have equal : original = write := same
  rw [← equal]
  exact sameKey

theorem mem_mergedWrites_iff (write : TxWrite) : write ∈ mergedWrites execInfos ↔
      lastWrite TxWrite.key ((committedWrites execInfos).map fun write => (write, write)) write.key = some write := by
  rw [← mem_finalWrites_iff, mergedWrites]
  constructor
  · intro member
    obtain ⟨⟨key, _⟩, present, rfl⟩ := List.mem_map.mp member
    rwa [key_of_mem_finalWrites present]
  · intro present
    exact List.mem_map_of_mem present

theorem mergedWrites_distinct : ((mergedWrites execInfos).map TxWrite.key).Nodup := by
  have keys : (mergedWrites execInfos).map TxWrite.key = (finalWrites TxWrite.key
        ((committedWrites execInfos).map fun write => (write, write))).map Prod.fst := by
    rw [mergedWrites, List.map_map]
    refine List.map_congr_left ?_
    intro entry member
    exact key_of_mem_finalWrites member
  rw [keys]
  exact finalWrites_distinct _ _

variable {execInfos} {scope : Set StateKey}

theorem mergedWrites_composed_distinct (composedInjective : Set.InjOn StateKey.composed scope)
    (within : ∀ write ∈ committedWrites execInfos, write.location ∈ scope) :
    ((mergedWrites execInfos).map fun write => write.location.composed).Nodup := by
  have keys := mergedWrites_distinct execInfos
  rw [List.Nodup, List.pairwise_map] at keys ⊢
  refine keys.imp_of_mem ?_
  intro left right leftMember rightMember differentKey sameComposed
  have sameLocation := composedInjective (within left (mem_committedWrites_of_mem_mergedWrites execInfos leftMember))
    (within right (mem_committedWrites_of_mem_mergedWrites execInfos rightMember)) sameComposed
  exact differentKey (congrArg StateKey.key sameLocation)

theorem lastWrite_mergedWrites (keyInjective : Set.InjOn StateKey.key scope)
    (within : ∀ write ∈ committedWrites execInfos, write.location ∈ scope) (cell : Bytes) :
    lastWrite StateKey.composed ((mergedWrites execInfos).map (·.entry)) cell =
      lastWrite StateKey.composed ((committedWrites execInfos).map (·.entry)) cell := by
  have agree : ∀ left ∈ committedWrites execInfos, ∀ right ∈ committedWrites execInfos,
      left.key = right.key → left.location.composed = right.location.composed := by
    intro left leftMember right rightMember sameKey
    have sameLocation : left.location = right.location :=
      keyInjective (within left leftMember) (within right rightMember) sameKey
    rw [sameLocation]
  rw [mergedWrites, List.map_map]
  exact lastWrite_collected StateKey.composed TxWrite.key TxWrite.entry agree cell

end MergedWrites

section Round

variable {vm : VirtualMachine Tx Result} {scope : Set StateKey}
  {snapshot snapshot' : SnapshotImpl Tx Result Empty}

theorem CommitWrites.putWrites {merged : List TxWrite}
    (commit : CommitWrites snapshot merged snapshot') (unsealed : snapshot.isSealed = false) :
    ∃ order, order.Perm merged ∧ snapshot' = snapshot.putWrites order := by
  rcases commit with ⟨empty, same⟩ | ⟨_, writes, perm, applied⟩
  · exact ⟨[], by rw [empty], same⟩
  · rw [SnapshotImpl.ApplyWritesToWriteTable, unsealed] at applied
    obtain ⟨order, ordered, same⟩ := applied
    exact ⟨order, ordered.perm.trans perm, same⟩

theorem CommitWrites.writeValues {execInfos : List (TxExecInfo Tx Result)} (commit : CommitWrites snapshot (mergedWrites execInfos) snapshot')
    (unsealed : snapshot.isSealed = false) (composedInjective : Set.InjOn StateKey.composed scope)
    (within : ∀ write ∈ committedWrites execInfos, write.location ∈ scope) :
    snapshot'.writeValues = snapshot.writeValues.puts StateKey.composed ((mergedWrites execInfos).map (·.entry)) := by
  obtain ⟨order, perm, rfl⟩ := commit.putWrites unsealed
  rw [SnapshotImpl.writeValues_putWrites]
  refine Overlay.puts_perm StateKey.composed (perm.map _) ?_ _
  rw [List.map_map]
  exact (perm.map _).nodup_iff.mpr (mergedWrites_composed_distinct composedInjective within)

theorem committedWrites_entries (execInfos : List (TxExecInfo Tx Result)) :
    (committedWrites execInfos).map (·.entry) = appliedWrites ((committed execInfos).map (·.executed)) := by
  simp only [committedWrites, appliedWrites, List.map_flatMap, List.flatMap_map, TxExecInfo.executed, TxRWSet.writeEntries]

theorem committed_serialRun (table : Overlay Bytes Bytes) (base : StateKey → Bytes)
    {selectedTxs : List Tx} (composedInjective : Set.InjOn StateKey.composed scope)
    (confined : ∀ tx ∈ selectedTxs, vm.Confined scope tx) :
    SerialRun vm.semantics StateKey.composed base Eq table
      ((committed (execute vm (table.view StateKey.composed base) selectedTxs)).map (·.executed))
      (table.puts StateKey.composed ((committedWrites (execute vm (table.view StateKey.composed base) selectedTxs)).map (·.entry))) := by
  generalize executedEq : execute vm (table.view StateKey.composed base) selectedTxs = execInfos
  have executed : ∀ info ∈ committed execInfos, info.tx ∈ selectedTxs ∧ (info.txRWSet, info.txResult) =
        vm.executeTx info.tx (table.view StateKey.composed base) := by
    intro info member
    refine mem_execute ?_
    rw [executedEq]
    exact (committed_sublist execInfos).subset member
  have within : ∀ info ∈ committed execInfos, WithinScope scope (info.txRWSet, info.txResult) := by
    intro info member
    obtain ⟨selected, outcome⟩ := executed info member
    rw [outcome]
    exact (confined info.tx selected).withinScope _
  rw [committedWrites_entries]
  refine SerialRun.of_unread ?_ ?_ ?_
  · intro step member
    obtain ⟨info, infoMember, rfl⟩ := List.mem_map.mp member
    exact (executed info infoMember).2
  · intro step member
    obtain ⟨info, _, rfl⟩ := List.mem_map.mp member
    rfl
  · rw [Unread, List.pairwise_map]
    refine (committed_pairwise execInfos).imp_of_mem ?_
    intro earlier later earlierMember laterMember unread loc locRead entry entryWritten sameCell
    apply unread
    obtain ⟨read, readMember, rfl⟩ := List.mem_map.mp locRead
    obtain ⟨write, writeMember, rfl⟩ := List.mem_map.mp entryWritten
    have sameLocation : write.location = read.location :=
      composedInjective ((within earlier earlierMember).writes write writeMember) ((within later laterMember).reads _ locRead) sameCell
    exact ⟨read, readMember, write, writeMember, congrArg StateKey.key sameLocation⟩

end Round

section Loop

variable {vm : VirtualMachine Tx Result} {batchSize : Nat} {scope : Set StateKey}
  {now final : Progress Tx Result} {snapshot : SnapshotImpl Tx Result Empty}

theorem commits_afterRound {later : List (TxExecInfo Tx Result)} (rest : Commits vm (afterRound vm batchSize now snapshot) final later) :
    Commits vm now final (committed (now.execInfos vm batchSize) ++ later) := by
  refine rest.ofCommit (committed_sublist _).subset ?_ (fun _ _ => rfl)
  have selected := committed_aborted_perm (now.execInfos vm batchSize)
  rwa [Progress.execInfos, execute_txs] at selected

theorem commits_ofRound (vm : VirtualMachine Tx Result) (batchSize : Nat)
    (now : Progress Tx Result) (snapshot : SnapshotImpl Tx Result Empty) :
    Commits vm now (afterRound vm batchSize now snapshot) (committed (now.execInfos vm batchSize)) := by
  have round : Commits vm now (afterRound vm batchSize now snapshot) (committed (now.execInfos vm batchSize) ++ []) :=
    commits_afterRound (.nil rfl rfl rfl)
  rwa [List.append_nil] at round

theorem Loop.finished {timedOut : Bool} (loop : Loop vm batchSize now timedOut final) (inTime : timedOut = false) : final.txBatch = [] := by
  induction loop with
  | done empty => exact empty
  | timeout _ => cases inTime
  | round _ _ _ ih => exact ih inTime

/-- Every run of the loop has its rounds. -/
theorem Loop.exists_rounds {timedOut : Bool} (loop : Loop vm batchSize now timedOut final) :
    ∃ rounds, Rounds vm batchSize now rounds timedOut final := by
  induction loop with
  | done empty => exact ⟨[], .done empty⟩
  | timeout pending => exact ⟨[], .timeout pending⟩
  | round pending commit _ ih =>
    obtain ⟨rounds, run⟩ := ih
    exact ⟨_, .round pending commit run⟩

theorem Rounds.loop {rounds : List (List (TxExecInfo Tx Result))} {timedOut : Bool}
    (run : Rounds vm batchSize now rounds timedOut final) : Loop vm batchSize now timedOut final := by
  induction run with
  | done empty => exact .done empty
  | timeout pending => exact .timeout pending
  | round pending commit _ ih => exact .round pending commit ih

theorem Rounds.commits {rounds : List (List (TxExecInfo Tx Result))} {timedOut : Bool}
    (run : Rounds vm batchSize now rounds timedOut final) : Commits vm now final (rounds.flatMap committed) := by
  induction run with
  | done _ => exact .nil rfl rfl rfl
  | timeout _ => exact .nil rfl rfl rfl
  | round _ _ _ ih => exact commits_afterRound ih

theorem afterRound_txBatch_subset {tx : Tx} (member : tx ∈ (afterRound vm batchSize now snapshot).txBatch) : tx ∈ now.txBatch :=
  (commits_ofRound vm batchSize now snapshot).batch.subset (List.mem_append_right _ member)

theorem commitWrites_of_perm {merged order : List TxWrite} (unsealed : snapshot.isSealed = false)
    (nonempty : merged ≠ []) (perm : order.Perm merged) :
    CommitWrites snapshot merged (snapshot.putWrites order) := by
  refine .inr ⟨nonempty, order, perm, ?_⟩
  rw [SnapshotImpl.ApplyWritesToWriteTable, unsealed]
  exact ⟨order, WriteOrder.refl order, rfl⟩

theorem commitWrites_exists (snapshot : SnapshotImpl Tx Result Empty) (merged : List TxWrite) :
    ∃ snapshot', CommitWrites snapshot merged snapshot' := by
  by_cases empty : merged = []
  · exact ⟨snapshot, .inl ⟨empty, rfl⟩⟩
  · cases sealing : snapshot.isSealed with
    | true =>
      refine ⟨snapshot, .inr ⟨empty, merged, List.Perm.refl _, ?_⟩⟩
      simp [SnapshotImpl.ApplyWritesToWriteTable, sealing]
    | false =>
      exact ⟨snapshot.putWrites merged, commitWrites_of_perm sealing empty (List.Perm.refl _)⟩

theorem afterRound_txBatch_length (vm : VirtualMachine Tx Result) (positive : 0 < batchSize)
    (pending : now.txBatch ≠ []) (snapshot : SnapshotImpl Tx Result Empty) :
    (afterRound vm batchSize now snapshot).txBatch.length < now.txBatch.length := by
  refine (commits_ofRound vm batchSize now snapshot).txBatch_length_lt ?_
  obtain ⟨first, rest, batch⟩ := List.exists_cons_of_ne_nil pending
  obtain ⟨others, infos⟩ := Progress.execInfos_cons positive batch
  obtain ⟨later, commits⟩ := committed_cons (executeOne vm now.snapshot.view first) others
  rw [infos, commits]
  exact List.cons_ne_nil _ _

theorem Loop.exists_finished (vm : VirtualMachine Tx Result) (positive : 0 < batchSize) (now : Progress Tx Result) :
    ∃ final, Loop vm batchSize now false final := by
  induction count : now.txBatch.length using Nat.strong_induction_on generalizing now with
  | _ count ih =>
    by_cases pending : now.txBatch = []
    · exact ⟨now, .done pending⟩
    · obtain ⟨snapshot, commit⟩ := commitWrites_exists now.snapshot (mergedWrites (now.execInfos vm batchSize))
      have shorter := afterRound_txBatch_length vm positive pending snapshot
      obtain ⟨final, loop⟩ := ih _ (count ▸ shorter) (afterRound vm batchSize now snapshot) rfl
      exact ⟨final, .round pending commit loop⟩

theorem Schedule.exists_finished (vm : VirtualMachine Tx Result) (ws : WriaScheduler)
    (txBatch : List Tx) (snapshot : SnapshotImpl Tx Result Empty) :
    ∃ final ws', Schedule vm ws txBatch snapshot false final ws' := by
  obtain ⟨final, loop⟩ :=
    Loop.exists_finished vm ws.batchSize_pos (Progress.start txBatch snapshot)
  exact ⟨final, _, loop, rfl⟩

theorem committed_withinScope (batchSize : Nat) (confined : ∀ tx ∈ now.txBatch, vm.Confined scope tx) :
    ∀ info ∈ committed (now.execInfos vm batchSize), WithinScope scope (info.txRWSet, info.txResult) := by
  intro info member
  obtain ⟨selected, outcome⟩ := mem_execute ((committed_sublist _).subset member)
  rw [outcome]
  exact (confined info.tx (List.mem_of_mem_take selected)).withinScope _

theorem committedWrites_within (batchSize : Nat) (confined : ∀ tx ∈ now.txBatch, vm.Confined scope tx) :
    ∀ write ∈ committedWrites (now.execInfos vm batchSize), write.location ∈ scope := by
  intro write member
  obtain ⟨info, infoMember, writeMember⟩ := List.mem_flatMap.mp member
  exact (committed_withinScope batchSize confined info infoMember).writes write writeMember

theorem Loop.serialRun {timedOut : Bool} (loop : Loop vm batchSize now timedOut final) (composedInjective : Set.InjOn StateKey.composed scope)
    (keyInjective : Set.InjOn StateKey.key scope) (unsealed : now.snapshot.isSealed = false)
    (confined : ∀ tx ∈ now.txBatch, vm.Confined scope tx) :
    ∃ infos, Commits vm now final infos ∧ (∀ info ∈ infos, WithinScope scope (info.txRWSet, info.txResult)) ∧
      SerialRun vm.semantics StateKey.composed now.snapshot.under Eq now.snapshot.writeValues
        (infos.map (·.executed)) final.snapshot.writeValues ∧
      final.snapshot.under = now.snapshot.under := by
  induction loop with
  | done _ => exact ⟨[], .nil rfl rfl rfl, by simp, .nil, rfl⟩
  | timeout _ => exact ⟨[], .nil rfl rfl rfl, by simp, .nil, rfl⟩
  | @round now snapshot timedOut final _ commit _ ih =>
    obtain ⟨order, _, applied⟩ := commit.putWrites unsealed
    have sameUnder : snapshot.under = now.snapshot.under := by
      rw [applied, SnapshotImpl.putWrites_under]
    obtain ⟨later, laterCommits, laterWithin, laterRun, laterUnder⟩ :=
      ih (by rw [afterRound, Progress.commit, applied, SnapshotImpl.putWrites_isSealed, unsealed])
        (fun tx member => confined tx (afterRound_txBatch_subset member))
    have selectedConfined : ∀ tx ∈ now.txBatch.take batchSize, vm.Confined scope tx :=
      fun tx member => confined tx (List.mem_of_mem_take member)
    have writesWithin := committedWrites_within batchSize confined
    have table : snapshot.writeValues = now.snapshot.writeValues.puts StateKey.composed
        ((committedWrites (now.execInfos vm batchSize)).map (·.entry)) := by
      rw [commit.writeValues unsealed composedInjective writesWithin]
      exact Overlay.puts_congr StateKey.composed (lastWrite_mergedWrites keyInjective writesWithin) _
    have here := committed_serialRun now.snapshot.writeValues now.snapshot.under composedInjective selectedConfined
    rw [← SnapshotImpl.view_eq] at here
    refine ⟨_, commits_afterRound laterCommits, ?_, ?_, laterUnder.trans sameUnder⟩
    · intro info member
      rcases List.mem_append.mp member with early | late
      · exact committed_withinScope batchSize confined info early
      · exact laterWithin info late
    · rw [List.map_append]
      have rest : SerialRun vm.semantics StateKey.composed snapshot.under Eq snapshot.writeValues
          (later.map (·.executed)) final.snapshot.writeValues := laterRun
      rw [sameUnder, table] at rest
      exact here.append rest

end Loop

end Pdcc.Scheduler.Wria
