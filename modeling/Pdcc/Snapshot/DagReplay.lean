import Pdcc.Snapshot.DagComplete
import Pdcc.Ledger.SerialState
import Pdcc.Ledger.Script
import Pdcc.Library.ConflictReplay

/-!
# Replaying a block along its dependency graph

Re-executing the transactions of a block in any order that respects the graph
gives every transaction its read/write set and result of index order, and the
same final state, as long as no transaction accesses the same key bytes under
two contracts.
-/

set_option autoImplicit false

namespace Pdcc.Snapshot

open Ledger Library

def Touches (rwSet : TxRWSet) (loc : StateKey) : Prop :=
  loc ∈ rwSet.readLocations ∨ ∃ write ∈ rwSet.txWrites, write.location = loc

/-- No key bytes are touched under two contracts. -/
def KeysApart (rwSet : TxRWSet) : Prop :=
  ∀ loc other, Touches rwSet loc → Touches rwSet other → loc.key = other.key → loc = other

/-- An order of all vertices with every vertex after its neighbors. -/
structure Dag.LinearExtension (dag : Dag) (count : Nat) (order : List Nat) : Prop where
  complete : order.Perm (List.range count)
  after : ∀ position j, order[position]? = some j → ∀ i, dag.Edge j i → i ∈ order.take position

section Orders

variable {dag : Dag} {count : Nat} {order : List Nat}

theorem Dag.LinearExtension.reaches (extension : dag.LinearExtension count order) {j i : Nat}
    (reaches : dag.Reaches j i) {position : Nat} (found : order[position]? = some j) :
    i ∈ order.take position := by
  induction reaches using Relation.TransGen.head_induction_on generalizing position with
  | single edge => exact extension.after position _ found i edge
  | @head j middle edge _ ih =>
    obtain ⟨earlier, below, here⟩ :=
      List.mem_take_iff_getElem.mp (extension.after position j found middle edge)
    have member := ih (List.getElem?_eq_some_iff.mpr ⟨by omega, here⟩)
    exact (List.take_subset_take_left order (by omega)) member

theorem Dag.LinearExtension.pairwise (extension : dag.LinearExtension count order) :
    order.Pairwise fun earlier later => ¬ dag.Reaches earlier later := by
  have distinct : order.Nodup := extension.complete.nodup_iff.mpr List.nodup_range
  rw [List.pairwise_iff_getElem]
  intro early late earlyInside lateInside below reaches
  have member := extension.reaches reaches (List.getElem?_eq_getElem earlyInside)
  obtain ⟨position, bound, same⟩ := List.mem_take_iff_getElem.mp member
  have equal := (distinct.getElem_inj_iff).mp same
  omega

end Orders

section Replay

variable {Tx Result : Type} {vm : VirtualMachine Tx Result}

theorem not_writesTwice {table : List TxRWSet} (apart : ∀ rwSet ∈ table, KeysApart rwSet)
    (distinct : ∀ rwSet ∈ table, (rwSet.txWrites.map (·.location)).Nodup) (i : Nat) (key : Bytes) :
    ¬ WritesTwice table i key := by
  rintro ⟨rwSet, present, twice⟩
  have member := List.mem_of_getElem? present
  have single : rwSet.txWrites.Pairwise fun left right =>
      ¬ (left.key = key ∧ right.key = key) := by
    have locations := distinct rwSet member
    rw [List.Nodup, List.pairwise_map] at locations
    refine locations.imp_of_mem ?_
    intro left right leftMember rightMember different both
    refine different (apart rwSet member _ _ (.inr ⟨left, leftMember, rfl⟩) (.inr ⟨right, rightMember, rfl⟩) ?_)
    exact both.1.trans both.2.symm
  rw [writeCount, List.countP_eq_length_filter] at twice
  have chosen := single.filter fun write => decide (write.key = key)
  cases listed : rwSet.txWrites.filter fun write => decide (write.key = key) with
  | nil => simp [listed] at twice
  | cons first others =>
    cases others with
    | nil => simp [listed] at twice
    | cons second rest =>
      have keyed : ∀ write ∈ first :: second :: rest, write.key = key := by
        intro write inside
        rw [← listed] at inside
        simpa using (List.mem_filter.mp inside).2
      rw [listed] at chosen
      exact (List.pairwise_cons.mp chosen).1 second (.head _) ⟨keyed first (.head _), keyed second (.tail _ (.head _))⟩

theorem buildDAG_complete_of_apart {table : List TxRWSet} (apart : ∀ rwSet ∈ table, KeysApart rwSet)
    (distinct : ∀ rwSet ∈ table, (rwSet.txWrites.map (·.location)).Nodup) :
    Dag.Complete (buildDAG false table) table := by
  intro i j loc below conflict
  rw [buildDAG_reaches_iff]
  rcases conflict with ⟨writes, accesses⟩ | ⟨reads, writes⟩
  · exact linked_chain below writes.writesKey (accesses.imp ReadsAt.readsKey WritesAt.writesKey)
      fun between _ _ => not_writesTwice apart distinct between loc.key
  · exact .single ⟨loc.key, .inl ⟨writes.writesKey, below, reads.readsKey⟩⟩

variable {steps : List (Executed Tx StateKey Bytes (TxRWSet × Result))}
  {base : StateKey → Bytes} {table final : Overlay StateKey Bytes}

theorem conflictAt_of_conflict (applied : ∀ step ∈ steps, vm.semantics.writes step.outcome = step.applied) {left right : Fin steps.length}
    (conflict : Conflict id vm.semantics (steps.get left) (steps.get right)) :
    ∃ loc, ConflictAt (steps.map (·.outcome.1)) left right loc := by
  have present : ∀ index : Fin steps.length, (steps.map (·.outcome.1))[(index : Nat)]? = some (steps.get index).outcome.1 := by
    intro index
    simp
  have writes : ∀ index loc, WritesCell id (steps.get index) loc → WritesAt (steps.map (·.outcome.1)) index loc := by
    rintro index loc ⟨entry, member, rfl⟩
    rw [← applied _ (List.get_mem steps index)] at member
    obtain ⟨write, writeMember, rfl⟩ := List.mem_map.mp member
    exact ⟨_, present index, write, writeMember, rfl⟩
  have reads : ∀ index loc, ReadsCell id vm.semantics (steps.get index) loc → ReadsAt (steps.map (·.outcome.1)) index loc := by
    rintro index loc ⟨other, member, rfl⟩
    obtain ⟨read, readMember, rfl⟩ := List.mem_map.mp member
    exact ⟨_, present index, read, readMember, rfl⟩
  obtain ⟨loc, ⟨leftWrites, rightReads | rightWrites⟩ | ⟨leftReads, rightWrites⟩⟩ := conflict
  · exact ⟨loc, .inl ⟨writes left loc leftWrites, .inl (reads right loc rightReads)⟩⟩
  · exact ⟨loc, .inl ⟨writes left loc leftWrites, .inr (writes right loc rightWrites)⟩⟩
  · exact ⟨loc, .inr ⟨reads left loc leftReads, writes right loc rightWrites⟩⟩

theorem ConflictAt.symm {table : List TxRWSet} {i j : Nat} {loc : StateKey}
    (conflict : ConflictAt table i j loc) : ConflictAt table j i loc := by
  rcases conflict with ⟨writes, reads | writes'⟩ | ⟨reads, writes⟩
  · exact .inr ⟨reads, writes⟩
  · exact .inl ⟨writes', .inr writes⟩
  · exact .inl ⟨writes, .inl reads⟩

variable {order : List (Fin steps.length)}

theorem keepsConflicts_of_extension {dag : Dag} (applied : ∀ step ∈ steps, vm.semantics.writes step.outcome = step.applied)
    (complete : dag.Complete (steps.map (·.outcome.1)))
    (extension : dag.LinearExtension steps.length (order.map (·.val))) :
    KeepsConflicts vm.semantics id steps order := by
  have distinct : (order.map (·.val)).Nodup :=
    extension.complete.nodup_iff.mpr List.nodup_range
  have unreached := extension.pairwise
  rw [List.Nodup, List.pairwise_map] at distinct
  rw [List.pairwise_map] at unreached
  refine (distinct.and unreached).imp ?_
  rintro earlier later ⟨different, unreaches⟩ conflict
  obtain ⟨loc, conflictAt⟩ := conflictAt_of_conflict applied conflict
  rcases Nat.lt_or_gt_of_ne different with below | above
  · exact below
  · exact absurd (complete later earlier loc above conflictAt.symm) unreaches

theorem complete_of_run (run : SerialRun vm.semantics id base Eq table steps final) (apart : ∀ step ∈ steps, KeysApart step.outcome.1) :
    Dag.Complete (buildDAG false (steps.map (·.outcome.1))) (steps.map (·.outcome.1)) := by
  refine buildDAG_complete_of_apart ?_ ?_
  · intro rwSet member
    obtain ⟨step, stepMember, rfl⟩ := List.mem_map.mp member
    exact apart step stepMember
  · intro rwSet member
    obtain ⟨step, stepMember, rfl⟩ := List.mem_map.mp member
    obtain ⟨before, after, rfl⟩ := List.append_of_mem stepMember
    rw [run.outcome_eq.1]
    exact vm.writes_distinct _ _

theorem run_linearExtension (run : SerialRun vm.semantics id base Eq table steps final) (apart : ∀ step ∈ steps, KeysApart step.outcome.1)
    (extension : Dag.LinearExtension (buildDAG false (steps.map (·.outcome.1))) steps.length (order.map (·.val))) :
    SerialRun vm.semantics id base Eq table (order.map steps.get) final := by
  have applied : ∀ step ∈ steps, vm.semantics.writes step.outcome = step.applied := by
    intro step member
    obtain ⟨before, after, rfl⟩ := List.append_of_mem member
    exact run.outcome_eq.2
  have permuted : order.Perm (List.finRange steps.length) := by
    rw [← List.map_perm_map_iff Fin.val_injective, List.map_coe_finRange_eq_range]
    exact extension.complete
  exact run.reorder permuted (keepsConflicts_of_extension applied (complete_of_run run apart) extension)

theorem serialExecute_eq_of_run (run : SerialRun vm.semantics id base Eq table steps final) :
    serialExecute vm (table.view id base) (steps.map (·.tx)) = (steps.map (·.outcome), final.view id base) := by
  obtain ⟨outcomes, states⟩ := serialExecute_of_run (Set.injOn_id Set.univ) (fun writes applied same => by rw [same]) run
    (fun _ _ => ⟨fun _ _ => trivial, fun _ _ => trivial⟩) (fun _ _ => rfl)
  exact Prod.ext outcomes (funext fun loc => states loc trivial)

end Replay

section Theorem

variable {Tx Result : Type}

/-- Every order that respects the graph of a serially executed block replays
it. -/
theorem serialExecute_linearExtension (vm : VirtualMachine Tx Result) (state : StateKey → Bytes)
    (txs : List Tx) (order : List Nat)
    (apart : ∀ outcome ∈ (serialExecute vm state txs).1, KeysApart outcome.1)
    (extension : Dag.LinearExtension
      (buildDAG false ((serialExecute vm state txs).1.map Prod.fst)) txs.length order) :
    serialExecute vm state (order.filterMap (txs[·]?)) =
      (order.filterMap ((serialExecute vm state txs).1[·]?), (serialExecute vm state txs).2) := by
  obtain ⟨steps, final, sameTxs, outcomes, run⟩ :=
    exists_serialRun vm state (fun _ => none) txs
  have emptyView : Overlay.view id state (fun _ => none) = state := rfl
  rw [emptyView] at outcomes
  have size : txs.length = steps.length := by rw [← sameTxs, List.length_map]
  have inside : ∀ i ∈ order, i < steps.length := by
    intro i member
    rw [← size]
    exact List.mem_range.mp (extension.complete.mem_iff.mp member)
  obtain ⟨indices, listed⟩ : ∃ indices : List (Fin steps.length), indices.map (·.val) = order :=
    ⟨order.pmap Fin.mk inside, by simp [List.map_pmap]⟩
  have whole := serialExecute_eq_of_run run
  rw [emptyView, sameTxs] at whole
  have rwSets : (steps.map (·.outcome)).map Prod.fst = steps.map (·.outcome.1) := by
    rw [List.map_map]
    rfl
  simp only [whole, rwSets] at apart extension ⊢
  rw [size, ← listed] at extension
  have replay := serialExecute_eq_of_run (run_linearExtension run
    (fun step member => apart step.outcome (List.mem_map_of_mem member)) extension)
  have picked : ∀ {α : Type} (f : Executed Tx StateKey Bytes (TxRWSet × Result) → α),
      order.filterMap ((steps.map f)[·]?) = (indices.map steps.get).map f := by
    intro α f
    rw [← listed, List.filterMap_map, List.map_map]
    conv_rhs => rw [← List.filterMap_eq_map]
    refine List.filterMap_congr ?_
    intro index _
    simp
  rw [picked, ← sameTxs, picked]
  exact replay

private theorem keysApart_of_single {rwSet : TxRWSet} (loc : StateKey)
    (single : ∀ other, Touches rwSet other → other = loc) : KeysApart rwSet := by
  intro first second firstTouched secondTouched _
  rw [single first firstTouched, single second secondTouched]

/-- Two writers of different keys change places, the reader of the first stays
behind it. -/
theorem serialExecute_linearExtension_writersSwapped :
    let txs : List Script := [.writing (ascii "t0") ⟨ascii "A", ascii "k"⟩ [1],
      .writing (ascii "t1") ⟨ascii "B", ascii "m"⟩ [2],
      .reading (ascii "t2") ⟨ascii "A", ascii "k"⟩]
    let serial := serialExecute scriptMachine (fun _ => []) txs
    Dag.LinearExtension (buildDAG false (serial.1.map Prod.fst)) 3 [1, 0, 2] ∧
      serialExecute scriptMachine (fun _ => []) ([1, 0, 2].filterMap (txs[·]?)) =
        ([1, 0, 2].filterMap (serial.1[·]?), serial.2) := by
  intro txs serial
  have dag : buildDAG false (serial.1.map Prod.fst) = [[], [], [0]] := by decide
  have extension : Dag.LinearExtension (buildDAG false (serial.1.map Prod.fst)) 3 [1, 0, 2] := by
    rw [dag]
    refine ⟨by decide, ?_⟩
    rintro position j found i ⟨neighbors, listed, member⟩
    match position with
    | 0 =>
      cases found
      cases listed
      cases member
    | 1 =>
      cases found
      cases listed
      cases member
    | 2 =>
      cases found
      cases listed
      simp at member
      simp [member]
    | _ + 3 => cases found
  refine ⟨extension, serialExecute_linearExtension scriptMachine _ txs _ ?_ extension⟩
  have writing : ∀ (txId : Bytes) (loc : StateKey) (value : Bytes) view,
      KeysApart ((Script.writing txId loc value).rwSet view) := by
    intro txId loc value view
    refine keysApart_of_single loc ?_
    rintro other (read | ⟨write, member, rfl⟩)
    · cases read
    · rw [List.mem_singleton.mp member]
      rfl
  have reading : ∀ (txId : Bytes) (loc : StateKey) view, KeysApart ((Script.reading txId loc).rwSet view) := by
    intro txId loc view
    refine keysApart_of_single loc ?_
    rintro other (read | ⟨write, member, _⟩)
    · exact List.mem_singleton.mp read
    · cases member
  intro outcome member
  have outcomes : serial.1 = [((txs[0]).rwSet _, ()), ((txs[1]).rwSet _, ()), ((txs[2]).rwSet _, ())] := rfl
  rw [outcomes] at member
  simp only [List.mem_cons, List.not_mem_nil, or_false] at member
  rcases member with rfl | rfl | rfl
  · exact writing _ _ _ _
  · exact writing _ _ _ _
  · exact reading _ _ _

end Theorem

end Pdcc.Snapshot
