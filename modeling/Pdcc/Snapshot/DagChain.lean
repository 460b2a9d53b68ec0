import Pdcc.Snapshot.DagReplay

/-!
# Chains on top of a DAG

The vertices of `BuildDAG` are followed by vertices that depend on everything
before them, directly or through their predecessor. A replay has no choice left
once it reaches them.
-/

set_option autoImplicit false

namespace Pdcc.Snapshot

open Ledger Library

section Ordered

def Dag.Ordered (dag : Dag) : Prop :=
  ∀ (index : Nat) (neighbors : List Nat), dag[index]? = some neighbors →
    neighbors.Pairwise (· < ·) ∧ ∀ neighbor ∈ neighbors, neighbor < index

theorem Dag.Ordered.append {dag : Dag} (ordered : dag.Ordered) {neighbors : List Nat} (increasing : neighbors.Pairwise (· < ·))
    (below : ∀ neighbor ∈ neighbors, neighbor < dag.length) :
    Dag.Ordered (dag ++ [neighbors]) := by
  intro index found present
  cases getElem?_concat_cases present with
  | inl earlier => exact ordered index found earlier.2.1
  | inr last =>
    obtain ⟨rfl, rfl, _⟩ := last
    exact ⟨increasing, below⟩

theorem buildDAG_length (isSql : Bool) (table : List TxRWSet) : (buildDAG isSql table).length = table.length := by
  cases isSql with
  | true => simp [buildDAG]
  | false => exact (built_foldl (buildDictAndPos table) table).vertexes

theorem buildDAG_ordered (isSql : Bool) (table : List TxRWSet) : Dag.Ordered (buildDAG isSql table) := by
  intro index neighbors present
  cases isSql with
  | true =>
    simp only [buildDAG, if_true, List.getElem?_map, Option.map_eq_some_iff] at present
    obtain ⟨position, found, rfl⟩ := present
    obtain ⟨_, same⟩ := List.getElem?_eq_some_iff.mp found
    rw [List.getElem_range] at same
    subst same
    cases index with
    | zero => simp
    | succ previous => simp
  | false =>
    refine ⟨?_, ?_⟩
    · have inside : index < table.length := by
        rw [← buildDAG_length false table]
        exact (List.getElem?_eq_some_iff.mp present).1
      obtain ⟨direct, _, vertex, _⟩ := (built_foldl (buildDictAndPos table) table).vertex index _ (List.getElem?_eq_getElem inside)
      have same : some neighbors = some direct.pos1 := present.symm.trans vertex
      rw [Option.some.inj same]
      exact direct.pos1_increasing
    · intro neighbor member
      have reaches : Dag.Reaches (buildDAG false table) index neighbor :=
        .single ⟨neighbors, present, member⟩
      exact transGen_linked_lt ((buildDAG_reaches_iff table index neighbor).mp reaches)

end Ordered

section Chained

structure Dag.Chained (dag : Dag) (start : Nat) : Prop where
  first : start < dag.length → ∀ i < start, dag.Edge start i
  next : ∀ i, start ≤ i → i + 1 < dag.length → dag.Edge (i + 1) i

variable {dag : Dag} {start : Nat} {i : Nat}

theorem Dag.Edge.append {j : Nat} (edge : dag.Edge j i) (neighbors : List Nat) : Dag.Edge (dag ++ [neighbors]) j i := by
  obtain ⟨found, present, member⟩ := edge
  have inside := (List.getElem?_eq_some_iff.mp present).1
  exact ⟨found, by rwa [List.getElem?_append_left inside], member⟩

theorem Dag.edge_last {neighbors : List Nat} (member : i ∈ neighbors) : Dag.Edge (dag ++ [neighbors]) dag.length i :=
  ⟨neighbors, List.getElem?_concat_length, member⟩

theorem Dag.Chained.append (chained : dag.Chained start) {neighbors : List Nat}
    (covers : (∀ i < dag.length, i ∈ neighbors) ∨ start < dag.length ∧ dag.length - 1 ∈ neighbors) :
    Dag.Chained (dag ++ [neighbors]) start where
  first := by
    intro inside i below
    rw [List.length_append, List.length_singleton] at inside
    by_cases earlier : start < dag.length
    · exact (chained.first earlier i below).append neighbors
    · have last : start = dag.length := by omega
      subst last
      cases covers with
      | inl all => exact Dag.edge_last (all i below)
      | inr previous => exact absurd previous.1 earlier
  next := by
    intro i after inside
    rw [List.length_append, List.length_singleton] at inside
    by_cases earlier : i + 1 < dag.length
    · exact (chained.next i after earlier).append neighbors
    · have last : dag.length = i + 1 := by omega
      rw [← last]
      refine Dag.edge_last ?_
      cases covers with
      | inl all => exact all i (by omega)
      | inr previous =>
        have same : dag.length - 1 = i := by omega
        exact same ▸ previous.2

theorem Dag.Chained.reaches (chained : dag.Chained start) {j : Nat} (after : start ≤ j)
    (inside : j < dag.length) (below : i < j) : dag.Reaches j i := by
  induction j, after using Nat.le_induction with
  | base => exact .single (chained.first inside i below)
  | succ j after ih =>
    have edge := chained.next j after inside
    cases Nat.lt_succ_iff_lt_or_eq.mp below with
    | inl earlier => exact .head edge (ih (by omega) earlier)
    | inr last =>
      subst last
      exact .single edge

theorem Dag.LinearExtension.chained {order : List Nat} (extension : dag.LinearExtension dag.length order) (chained : dag.Chained start)
    (inside : start ≤ dag.length) :
    ∃ normals, normals.Perm (List.range start) ∧ order = normals ++ List.range' start (dag.length - start) := by
  have distinct : order.Nodup := extension.complete.nodup_iff.mpr List.nodup_range
  have bound : ∀ i ∈ order, i < dag.length := by
    intro i member
    exact List.mem_range.mp (extension.complete.subset member)
  have sorted : order.Pairwise fun earlier later => start ≤ earlier → earlier < later := by
    refine (extension.pairwise.and distinct).imp_of_mem ?_
    intro earlier later earlierMember _ apart after
    obtain ⟨unreached, different⟩ := apart
    refine (Nat.lt_or_gt_of_ne different).resolve_right ?_
    intro below
    exact unreached (chained.reaches after (bound earlier earlierMember) below)
  refine ⟨order.filter fun i => decide (i < start), ?_, ?_⟩
  · refine (List.perm_ext_iff_of_nodup (distinct.filter _) List.nodup_range).mpr ?_
    intro i
    rw [List.mem_filter, extension.complete.mem_iff, List.mem_range, List.mem_range,
      decide_eq_true_eq]
    omega
  · have split := filter_append_of_pairwise (fun i => decide (i < start)) (sorted.imp fun step => by
      simp only [decide_eq_true_eq]
      omega)
    have chain : (order.filter fun i => !decide (i < start)) = List.range' start (dag.length - start) := by
      refine eq_of_increasing ?_ List.pairwise_lt_range' ?_
      · refine (sorted.filter _).imp_of_mem ?_
        intro earlier later member _ increasing
        have after := (List.mem_filter.mp member).2
        simp only [Bool.not_eq_true', decide_eq_false_iff_not, Nat.not_lt] at after
        exact increasing after
      · intro i
        simp only [List.mem_filter, extension.complete.mem_iff, List.mem_range, List.mem_range'_1, Bool.not_eq_true', decide_eq_false_iff_not]
        omega
    rwa [chain] at split

end Chained

end Pdcc.Snapshot
