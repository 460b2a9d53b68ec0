import Pdcc.Library.Logs
import Mathlib.Data.Finset.Basic
import Mathlib.Data.List.Nodup
import Mathlib.Logic.Function.Basic
import Mathlib.Logic.Relation

/-!
# Releasing transactions along a received DAG

`SimulateWithDag` replays a block in the order of the DAG its header carries.
`initSimulateDag` turns the vertexes into two mirrored maps and a first batch of
indices; `shrinkDag` takes a completed transaction out of the maps and returns
the indices that became free.
-/

set_option autoImplicit false

namespace Pdcc.Scheduler.Simulate

section Model

abbrev DagNeighbors := Finset Nat

inductive DagError where
  | nilNeighbor
  | notIncreasing (neighbors : List Nat)
  | notSmaller (txIndex neighbor : Nat)

structure SimulateDag where
  txIndexBatch : List Nat
  dagRemain : Nat → Option DagNeighbors
  reverseDagRemain : Nat → Option DagNeighbors

def addNeighbors (txIndex : Nat) (neighbors : List Nat) :
    Option Nat → List Nat → DagNeighbors × (Nat → Option DagNeighbors) →
      Except DagError (DagNeighbors × (Nat → Option DagNeighbors))
  | _, [], maps => .ok maps
  | previous, neighbor :: rest, maps =>
    if previous.any (fun before => decide (neighbor ≤ before)) then
      .error (.notIncreasing neighbors)
    else if txIndex ≤ neighbor then
      .error (.notSmaller txIndex neighbor)
    else
      addNeighbors txIndex neighbors (some neighbor) rest
        (insert neighbor maps.1,
          Function.update maps.2 neighbor
            (some (insert txIndex ((maps.2 neighbor).getD ∅))))

def addVertex (dag : SimulateDag) (vertex : Option (List Nat)) (txIndex : Nat) :
    Except DagError SimulateDag :=
  match vertex with
  | none => .error .nilNeighbor
  | some [] => .ok { dag with txIndexBatch := dag.txIndexBatch ++ [txIndex] }
  | some neighbors =>
    match addNeighbors txIndex neighbors none neighbors (∅, dag.reverseDagRemain) with
    | .error error => .error error
    | .ok maps =>
      .ok { dag with
        dagRemain := Function.update dag.dagRemain txIndex (some maps.1)
        reverseDagRemain := maps.2 }

def initSimulateDag (vertexes : List (Option (List Nat))) : Except DagError SimulateDag :=
  vertexes.zipIdx.foldlM (fun dag entry => addVertex dag entry.1 entry.2)
    ⟨[], fun _ => none, fun _ => none⟩

def shrinkEntry (txIndex : Nat) (shrunk : (Nat → Option DagNeighbors) × List Nat) (k : Nat) :
    (Nat → Option DagNeighbors) × List Nat :=
  if ((shrunk.1 k).getD ∅).erase txIndex = ∅ then
    (Function.update shrunk.1 k none, shrunk.2 ++ [k])
  else
    (Function.update shrunk.1 k (some (((shrunk.1 k).getD ∅).erase txIndex)), shrunk.2)

def shrinkEntries (txIndex : Nat) (dagRemain : Nat → Option DagNeighbors) (order : List Nat) :
    (Nat → Option DagNeighbors) × List Nat :=
  order.foldl (shrinkEntry txIndex) (dagRemain, [])

structure Dispatch where
  dagRemain : Nat → Option DagNeighbors
  reverseDagRemain : Nat → Option DagNeighbors
  released : List Nat
  completed : List Nat

def Dispatch.start (dag : SimulateDag) : Dispatch :=
  ⟨dag.dagRemain, dag.reverseDagRemain, dag.txIndexBatch, []⟩

def Dispatch.shrinkDag (d : Dispatch) (txIndex : Nat) (order : List Nat) : List Nat :=
  (shrinkEntries txIndex d.dagRemain order).2

def Dispatch.complete (d : Dispatch) (txIndex : Nat) (order : List Nat) : Dispatch where
  dagRemain := (shrinkEntries txIndex d.dagRemain order).1
  reverseDagRemain := Function.update d.reverseDagRemain txIndex none
  released := d.released ++ d.shrinkDag txIndex order
  completed := d.completed ++ [txIndex]

def Dispatch.RangeOrder (d : Dispatch) (txIndex : Nat) (order : List Nat) : Prop :=
  order.Nodup ∧ order.toFinset = (d.reverseDagRemain txIndex).getD ∅

/-- A released transaction completes, and its dependants are released in any order. -/
inductive Dispatch.Step : Dispatch → Dispatch → Prop where
  | complete {d : Dispatch} {txIndex : Nat} {order : List Nat} :
      txIndex ∈ d.released → txIndex ∉ d.completed → d.RangeOrder txIndex order →
      Dispatch.Step d (d.complete txIndex order)

def neighborsOf (vertexes : List (Option (List Nat))) (txIndex : Nat) : List Nat :=
  (vertexes[txIndex]?.join).getD []

end Model

section Init

variable {vertexes : List (Option (List Nat))}

theorem neighborsOf_append (vertexes : List (Option (List Nat))) (vertex : Option (List Nat)) (i : Nat) :
    neighborsOf (vertexes ++ [vertex]) i = if i = vertexes.length then vertex.getD [] else neighborsOf vertexes i := by
  unfold neighborsOf
  rw [List.getElem?_append]
  split
  · next inside => rw [if_neg (by omega)]
  · next outside =>
    by_cases last : i = vertexes.length
    · simp [last]
    · have beyond : vertexes[i]? = none := List.getElem?_eq_none (by omega)
      have past : [vertex][i - vertexes.length]? = none :=
        List.getElem?_eq_none (by simp only [List.length_singleton]; omega)
      rw [if_neg last, beyond, past]

theorem neighborsOf_length (vertexes : List (Option (List Nat))) : neighborsOf vertexes vertexes.length = [] := by
  simp [neighborsOf]

theorem initSimulateDag_append (vertexes : List (Option (List Nat))) (vertex : Option (List Nat)) : initSimulateDag (vertexes ++ [vertex]) =
      initSimulateDag vertexes >>= fun dag => addVertex dag vertex vertexes.length := by
  simp [initSimulateDag, List.zipIdx_append]

variable {neighbors : List Nat} {dag : SimulateDag} {txIndex : Nat}

theorem addNeighbors_ok : ∀ {previous : Option Nat} {rest : List Nat} {maps result : DagNeighbors × (Nat → Option DagNeighbors)},
      addNeighbors txIndex neighbors previous rest maps = .ok result →
      (∀ j ∈ rest, j < txIndex) ∧ result.1 = maps.1 ∪ rest.toFinset ∧ ∀ j k, k ∈ (result.2 j).getD ∅ ↔
          k ∈ (maps.2 j).getD ∅ ∨ k = txIndex ∧ j ∈ rest := by
  intro previous rest
  induction rest generalizing previous with
  | nil =>
    intro maps result accepted
    cases accepted
    simp
  | cons neighbor rest ih =>
    intro maps result accepted
    rw [addNeighbors] at accepted
    split at accepted
    · cases accepted
    · split at accepted
      · cases accepted
      · next smaller =>
        obtain ⟨restSmaller, neighborSet, mirror⟩ := ih accepted
        refine ⟨?_, ?_, ?_⟩
        · intro j member
          cases member with
          | head => omega
          | tail _ member => exact restSmaller j member
        · rw [neighborSet]
          ext j
          simp only [Finset.mem_union, Finset.mem_insert, List.toFinset_cons]
          tauto
        · intro j k
          rw [mirror j k]
          by_cases same : j = neighbor
          · subst same
            simp
            tauto
          · simp [same]

structure InitInv (vertexes : List (Option (List Nat))) (dag : SimulateDag) : Prop where
  smaller : ∀ i, ∀ j ∈ neighborsOf vertexes i, j < i
  nodup : dag.txIndexBatch.Nodup
  batch : ∀ i, i ∈ dag.txIndexBatch ↔ i < vertexes.length ∧ neighborsOf vertexes i = []
  remain : ∀ i, dag.dagRemain i =
    if neighborsOf vertexes i = [] then none else some (neighborsOf vertexes i).toFinset
  reverse : ∀ j k, k ∈ (dag.reverseDagRemain j).getD ∅ ↔ j ∈ neighborsOf vertexes k

private theorem InitInv.emptyVertex (inv : InitInv vertexes dag) : InitInv (vertexes ++ [some []])
      { dag with txIndexBatch := dag.txIndexBatch ++ [vertexes.length] } := by
  have same (i : Nat) : neighborsOf (vertexes ++ [some []]) i = neighborsOf vertexes i := by
    rw [neighborsOf_append]
    split
    · next last => rw [last, neighborsOf_length]; rfl
    · rfl
  have fresh : vertexes.length ∉ dag.txIndexBatch := by
    intro member
    exact absurd ((inv.batch _).mp member).1 (lt_irrefl _)
  refine ⟨?_, ?_, ?_, ?_, ?_⟩
  · intro i
    rw [same]
    exact inv.smaller i
  · exact inv.nodup.append (List.nodup_singleton _) (by simpa using fresh)
  · intro i
    rw [same, List.mem_append, inv.batch, List.mem_singleton, List.length_append, List.length_singleton]
    constructor
    · rintro (⟨inside, free⟩ | rfl)
      · exact ⟨by omega, free⟩
      · exact ⟨by omega, neighborsOf_length vertexes⟩
    · rintro ⟨inside, free⟩
      by_cases last : i = vertexes.length
      · exact .inr last
      · exact .inl ⟨by omega, free⟩
  · intro i
    rw [same]
    exact inv.remain i
  · intro j k
    rw [same]
    exact inv.reverse j k

private theorem InitInv.addNeighbors (inv : InitInv vertexes dag) (nonempty : neighbors ≠ [])
    {maps : DagNeighbors × (Nat → Option DagNeighbors)}
    (accepted : addNeighbors vertexes.length neighbors none neighbors (∅, dag.reverseDagRemain) = .ok maps) :
    InitInv (vertexes ++ [some neighbors])
      { dag with
        dagRemain := Function.update dag.dagRemain vertexes.length (some maps.1)
        reverseDagRemain := maps.2 } := by
  obtain ⟨smaller, neighborSet, mirror⟩ := addNeighbors_ok accepted
  refine ⟨?_, inv.nodup, ?_, ?_, ?_⟩
  · intro i j member
    rw [neighborsOf_append] at member
    split at member
    · next last => rw [last]; exact smaller j member
    · exact inv.smaller i j member
  · intro i
    rw [inv.batch, neighborsOf_append, List.length_append, List.length_singleton]
    split
    · next last => simp [last, nonempty]
    · next other => exact and_congr_left fun _ => by omega
  · intro i
    rw [neighborsOf_append]
    by_cases last : i = vertexes.length
    · subst last
      simp [nonempty, neighborSet]
    · simp only [Function.update_of_ne last, if_neg last]
      exact inv.remain i
  · intro j k
    rw [mirror, inv.reverse, neighborsOf_append]
    by_cases last : k = vertexes.length
    · subst last
      simp [neighborsOf_length]
    · simp [last]

theorem addVertex_inv {dag' : SimulateDag} (inv : InitInv vertexes dag) {vertex : Option (List Nat)}
    (accepted : addVertex dag vertex vertexes.length = .ok dag') :
    InitInv (vertexes ++ [vertex]) dag' := by
  unfold addVertex at accepted
  split at accepted
  · cases accepted
  · cases accepted
    exact inv.emptyVertex
  · next nonempty =>
    split at accepted
    · cases accepted
    · next built =>
      cases accepted
      exact inv.addNeighbors (fun empty => nonempty (by rw [empty])) built

theorem initSimulateDag_inv (accepted : initSimulateDag vertexes = .ok dag) : InitInv vertexes dag := by
  induction vertexes using List.reverseRecOn generalizing dag with
  | nil =>
    cases accepted
    exact ⟨by simp [neighborsOf], List.nodup_nil, by simp, by simp [neighborsOf], by simp [neighborsOf]⟩
  | append_singleton vertexes vertex ih =>
    rw [initSimulateDag_append] at accepted
    cases built : initSimulateDag vertexes with
    | error error => rw [built] at accepted; cases accepted
    | ok before =>
      rw [built] at accepted
      exact addVertex_inv (ih built) accepted

theorem addNeighbors_accepts {previous : Option Nat} {rest : List Nat}
    (increasing : rest.Pairwise (· < ·)) (above : ∀ before ∈ previous, ∀ j ∈ rest, before < j)
    (below : ∀ j ∈ rest, j < txIndex) (maps : DagNeighbors × (Nat → Option DagNeighbors)) :
    ∃ result, addNeighbors txIndex neighbors previous rest maps = .ok result := by
  induction rest generalizing previous maps with
  | nil => exact ⟨maps, rfl⟩
  | cons neighbor rest ih =>
    obtain ⟨smaller, increasing⟩ := List.pairwise_cons.mp increasing
    have greater : previous.any (fun before => decide (neighbor ≤ before)) = false := by
      cases previous with
      | none => rfl
      | some before =>
        have less := above before rfl neighbor (.head _)
        simp [less]
    have inside := below neighbor (.head _)
    rw [addNeighbors, greater, if_neg Bool.false_ne_true, if_neg (by omega)]
    refine ih increasing ?_ (fun j member => below j (.tail _ member)) _
    intro before same j member
    cases same
    exact smaller j member

theorem addVertex_accepts (increasing : neighbors.Pairwise (· < ·)) (below : ∀ j ∈ neighbors, j < txIndex) (dag : SimulateDag) :
    ∃ dag', addVertex dag (some neighbors) txIndex = .ok dag' := by
  cases neighbors with
  | nil => exact ⟨_, rfl⟩
  | cons neighbor rest =>
    have added : ∃ maps, addNeighbors txIndex (neighbor :: rest) none (neighbor :: rest) (∅, dag.reverseDagRemain) = .ok maps :=
      addNeighbors_accepts increasing (by simp) below _
    obtain ⟨maps, added⟩ := added
    simp only [addVertex, added]
    exact ⟨_, rfl⟩

theorem initSimulateDag_accepts {vertexes : List (List Nat)}
    (ordered : ∀ (txIndex : Nat) (neighbors : List Nat), vertexes[txIndex]? = some neighbors →
      neighbors.Pairwise (· < ·) ∧ ∀ j ∈ neighbors, j < txIndex) :
    ∃ dag, initSimulateDag (vertexes.map some) = .ok dag := by
  induction vertexes using List.reverseRecOn with
  | nil => exact ⟨_, rfl⟩
  | append_singleton vertexes neighbors ih =>
    obtain ⟨dag, accepted⟩ := ih (by
      intro txIndex earlier present
      have inside := (List.getElem?_eq_some_iff.mp present).1
      exact ordered txIndex earlier (by rwa [List.getElem?_append_left inside]))
    obtain ⟨increasing, below⟩ :=
      ordered vertexes.length neighbors List.getElem?_concat_length
    rw [List.map_append, List.map_singleton, initSimulateDag_append, accepted, List.length_map]
    exact addVertex_accepts increasing below dag

end Init

section Run

variable {vertexes : List (Option (List Nat))} {d d' : Dispatch}

def Dispatch.pending (vertexes : List (Option (List Nat))) (d : Dispatch) (i : Nat) : Finset Nat :=
  (neighborsOf vertexes i).toFinset \ d.completed.toFinset

variable {i : Nat} {order : List Nat} {dag : SimulateDag}

theorem Dispatch.mem_pending {j : Nat} : j ∈ d.pending vertexes i ↔ j ∈ neighborsOf vertexes i ∧ j ∉ d.completed := by
  simp [Dispatch.pending]

theorem Dispatch.pending_eq_empty : d.pending vertexes i = ∅ ↔ ∀ j ∈ neighborsOf vertexes i, j ∈ d.completed := by
  rw [Finset.eq_empty_iff_forall_notMem]
  simp only [Dispatch.mem_pending, not_and, not_not]

theorem Dispatch.pending_complete (i txIndex : Nat) (order : List Nat) :
    (d.complete txIndex order).pending vertexes i = (d.pending vertexes i).erase txIndex := by
  ext j
  simp only [Dispatch.mem_pending, Dispatch.complete, Finset.mem_erase, List.mem_append, List.mem_singleton]
  tauto

def remainEntry (neighbors : DagNeighbors) : Option DagNeighbors :=
  if neighbors = ∅ then none else some neighbors

theorem getD_remainEntry (neighbors : DagNeighbors) : (remainEntry neighbors).getD ∅ = neighbors := by
  unfold remainEntry
  split
  · next empty => exact empty.symm
  · rfl

theorem shrinkEntry_eq (txIndex : Nat) (shrunk : (Nat → Option DagNeighbors) × List Nat) (k : Nat) : shrinkEntry txIndex shrunk k =
      (Function.update shrunk.1 k (remainEntry (((shrunk.1 k).getD ∅).erase txIndex)),
        shrunk.2 ++ if ((shrunk.1 k).getD ∅).erase txIndex = ∅ then [k] else []) := by
  unfold shrinkEntry remainEntry
  split <;> simp

theorem shrinkEntries_eq (txIndex : Nat) (nodup : order.Nodup) (dagRemain : Nat → Option DagNeighbors) (batch : List Nat) :
    (∀ i, (order.foldl (shrinkEntry txIndex) (dagRemain, batch)).1 i =
      if i ∈ order then remainEntry (((dagRemain i).getD ∅).erase txIndex) else dagRemain i) ∧
    (order.foldl (shrinkEntry txIndex) (dagRemain, batch)).2 =
      batch ++ order.filter fun k => decide (((dagRemain k).getD ∅).erase txIndex = ∅) := by
  induction order generalizing dagRemain batch with
  | nil => simp
  | cons k rest ih =>
    obtain ⟨fresh, restNodup⟩ := List.nodup_cons.mp nodup
    rw [List.foldl_cons, shrinkEntry_eq]
    obtain ⟨entries, released⟩ := ih restNodup (Function.update dagRemain k (remainEntry (((dagRemain k).getD ∅).erase txIndex)))
      (batch ++ if ((dagRemain k).getD ∅).erase txIndex = ∅ then [k] else [])
    refine ⟨?_, ?_⟩
    · intro i
      rw [entries i]
      by_cases same : i = k
      · subst same
        simp [fresh]
      · simp [same]
    · have untouched : rest.filter (fun i => decide ((((Function.update dagRemain k
            (remainEntry (((dagRemain k).getD ∅).erase txIndex))) i).getD ∅).erase txIndex = ∅)) =
          rest.filter fun i => decide (((dagRemain i).getD ∅).erase txIndex = ∅) := by
        refine List.filter_congr fun i member => ?_
        have other : i ≠ k := fun same => fresh (same ▸ member)
        rw [Function.update_of_ne other]
      rw [released, untouched, List.append_assoc, List.filter_cons]
      split <;> simp_all

structure Dispatch.Inv (vertexes : List (Option (List Nat))) (d : Dispatch) : Prop where
  remain : ∀ i, d.dagRemain i = remainEntry (d.pending vertexes i)
  reverse : ∀ j k, k ∈ (d.reverseDagRemain j).getD ∅ ↔
    j ∈ neighborsOf vertexes k ∧ j ∉ d.completed
  nodup : d.released.Nodup
  released : ∀ i, i ∈ d.released ↔
    i < vertexes.length ∧ ∀ j ∈ neighborsOf vertexes i, j ∈ d.completed
  completedNodup : d.completed.Nodup
  completedReleased : ∀ i ∈ d.completed, i ∈ d.released

theorem Dispatch.Inv.start (init : InitInv vertexes dag) : Dispatch.Inv vertexes (.start dag) := by
  refine ⟨?_, ?_, init.nodup, ?_, List.nodup_nil, fun i member => by cases member⟩
  · intro i
    simp only [Dispatch.start, init.remain, remainEntry, Dispatch.pending, List.toFinset_nil, Finset.sdiff_empty, List.toFinset_eq_empty_iff]
  · intro j k
    simp [Dispatch.start, init.reverse]
  · intro i
    simp [Dispatch.start, init.batch, List.eq_nil_iff_forall_not_mem]

theorem neighborsOf_eq_nil (beyond : vertexes.length ≤ i) : neighborsOf vertexes i = [] := by
  simp [neighborsOf, List.getElem?_eq_none beyond]

theorem Dispatch.mem_completed_complete {txIndex j : Nat} : j ∈ (d.complete txIndex order).completed ↔ j ∈ d.completed ∨ j = txIndex := by
  simp [Dispatch.complete]

theorem Dispatch.nodup_shrinkDag {txIndex : Nat} (range : d.RangeOrder txIndex order) : (d.shrinkDag txIndex order).Nodup := by
  rw [Dispatch.shrinkDag, shrinkEntries, (shrinkEntries_eq txIndex range.1 _ _).2, List.nil_append]
  exact range.1.filter _

section Complete

variable (inv : d.Inv vertexes) {txIndex : Nat} {order : List Nat}
  (range : d.RangeOrder txIndex order)

include inv range

theorem Dispatch.Inv.mem_shrinkDag (outstanding : txIndex ∉ d.completed) (k : Nat) :
    k ∈ d.shrinkDag txIndex order ↔ txIndex ∈ neighborsOf vertexes k ∧
        ∀ j ∈ neighborsOf vertexes k, j ∈ (d.complete txIndex order).completed := by
  rw [Dispatch.shrinkDag, shrinkEntries, (shrinkEntries_eq txIndex range.1 _ _).2,
    List.nil_append, List.mem_filter, decide_eq_true_eq, ← List.mem_toFinset, range.2,
    inv.reverse, inv.remain, getD_remainEntry, ← Dispatch.pending_complete k txIndex order,
    Dispatch.pending_eq_empty]
  exact and_congr_left fun _ => and_iff_left outstanding

theorem Dispatch.Inv.remain_complete (i : Nat) : (d.complete txIndex order).dagRemain i =
      remainEntry ((d.complete txIndex order).pending vertexes i) := by
  rw [Dispatch.pending_complete]
  show (shrinkEntries txIndex d.dagRemain order).1 i = _
  rw [shrinkEntries, (shrinkEntries_eq txIndex range.1 _ _).1, inv.remain, getD_remainEntry]
  split
  · rfl
  · next absent =>
    have notPending : txIndex ∉ d.pending vertexes i := by
      rw [Dispatch.mem_pending, ← inv.reverse, ← range.2, List.mem_toFinset]
      exact absent
    rw [Finset.erase_eq_of_notMem notPending]

theorem Dispatch.Inv.released_complete (outstanding : txIndex ∉ d.completed) (i : Nat) :
    i ∈ (d.complete txIndex order).released ↔ i < vertexes.length ∧
      ∀ j ∈ neighborsOf vertexes i, j ∈ (d.complete txIndex order).completed := by
  show i ∈ d.released ++ d.shrinkDag txIndex order ↔ _
  rw [List.mem_append, inv.released, inv.mem_shrinkDag range outstanding]
  constructor
  · intro free
    rcases free with ⟨inside, free⟩ | ⟨neighbor, free⟩
    · exact ⟨inside, fun j isNeighbor =>
        Dispatch.mem_completed_complete.mpr (.inl (free j isNeighbor))⟩
    · refine ⟨?_, free⟩
      by_contra beyond
      rw [neighborsOf_eq_nil (by omega)] at neighbor
      cases neighbor
  · intro free
    obtain ⟨inside, free⟩ := free
    by_cases neighbor : txIndex ∈ neighborsOf vertexes i
    · exact .inr ⟨neighbor, free⟩
    · refine .inl ⟨inside, fun j isNeighbor => ?_⟩
      refine (Dispatch.mem_completed_complete.mp (free j isNeighbor)).resolve_right fun same => ?_
      exact neighbor (same ▸ isNeighbor)

theorem Dispatch.Inv.complete (released : txIndex ∈ d.released)
    (outstanding : txIndex ∉ d.completed) : (d.complete txIndex order).Inv vertexes where
  remain := inv.remain_complete range
  reverse := by
    intro j k
    rw [Dispatch.mem_completed_complete]
    by_cases same : j = txIndex
    · subst same
      simp [Dispatch.complete]
    · simp [Dispatch.complete, same, inv.reverse]
  nodup := by
    -- a new index still had the completed transaction to wait for
    refine inv.nodup.append (Dispatch.nodup_shrinkDag range) ?_
    intro k before now
    have neighbor := ((inv.mem_shrinkDag range outstanding k).mp now).1
    exact outstanding (((inv.released k).mp before).2 txIndex neighbor)
  released := inv.released_complete range outstanding
  completedNodup :=
    inv.completedNodup.append (List.nodup_singleton _) (by simpa using outstanding)
  completedReleased := by
    intro i completed
    refine List.mem_append_left _ ?_
    rcases Dispatch.mem_completed_complete.mp completed with before | rfl
    · exact inv.completedReleased i before
    · exact released

end Complete

theorem Dispatch.Inv.step (inv : d.Inv vertexes) (step : Dispatch.Step d d') : d'.Inv vertexes := by
  cases step with
  | complete released outstanding range => exact inv.complete range released outstanding

theorem Dispatch.Inv.reachable (accepted : initSimulateDag vertexes = .ok dag)
    (run : Relation.ReflTransGen Dispatch.Step (.start dag) d) : d.Inv vertexes := by
  induction run with
  | refl => exact .start (initSimulateDag_inv accepted)
  | tail _ step ih => exact ih.step step

theorem Dispatch.Inv.completed_order (accepted : initSimulateDag vertexes = .ok dag)
    (run : Relation.ReflTransGen Dispatch.Step (.start dag) d) {position : Nat}
    (found : d.completed[position]? = some i) :
    ∀ j ∈ neighborsOf vertexes i, j ∈ d.completed.take position := by
  induction run generalizing position i with
  | refl => cases found
  | @tail before after run step ih =>
    have inv := Dispatch.Inv.reachable accepted run
    cases step with
    | @complete txIndex order released outstanding range =>
      intro j neighbor
      change (before.completed ++ [txIndex])[position]? = some i at found
      change j ∈ (before.completed ++ [txIndex]).take position
      rcases Library.getElem?_concat_cases found with ⟨_, earlier, before⟩ | ⟨_, rfl, before⟩
      · rw [before]
        exact ih earlier j neighbor
      · rw [before]
        exact ((inv.released txIndex).mp released).2 j neighbor

theorem Dispatch.Inv.exists_outstanding (inv : d.Inv vertexes)
    (smaller : ∀ i, ∀ j ∈ neighborsOf vertexes i, j < i) (inside : i < vertexes.length)
    (waiting : i ∉ d.completed) : ∃ k ∈ d.released, k ∉ d.completed := by
  induction i using Nat.strongRecOn with
  | ind i ih =>
    by_cases free : ∀ j ∈ neighborsOf vertexes i, j ∈ d.completed
    · exact ⟨i, (inv.released i).mpr ⟨inside, free⟩, waiting⟩
    · push Not at free
      obtain ⟨j, neighbor, notDone⟩ := free
      have before := smaller i j neighbor
      exact ih j before (by omega) notDone

theorem Dispatch.exists_step (released : i ∈ d.released) (outstanding : i ∉ d.completed) : ∃ d', Dispatch.Step d d' := by
  let order := ((d.reverseDagRemain i).getD ∅).toList
  have range : d.RangeOrder i order := ⟨Finset.nodup_toList _, Finset.toList_toFinset _⟩
  exact ⟨_, .complete released outstanding range⟩

theorem Dispatch.Inv.completed_length_le (inv : d.Inv vertexes) : d.completed.length ≤ vertexes.length := by
  have inside : d.completed ⊆ List.range vertexes.length := by
    intro i completed
    have released := inv.completedReleased i completed
    exact List.mem_range.mpr ((inv.released i).mp released).1
  simpa using (inv.completedNodup.subperm inside).length_le

/-- Whatever the order in which transactions complete, an index of an accepted
DAG is handed out once, after all its neighbors completed. Until all are done
some released transaction is outstanding; every step completes one, and where no
step is left all indices were handed out. -/
theorem releases_once_after_neighbors (dag : SimulateDag) (d : Dispatch)
    (accepted : initSimulateDag vertexes = .ok dag)
    (run : Relation.ReflTransGen Dispatch.Step (.start dag) d) :
    d.released.Nodup ∧
    (∀ i ∈ d.released, i < vertexes.length ∧ ∀ j ∈ neighborsOf vertexes i, j ∈ d.completed) ∧
    (∀ i < vertexes.length, i ∉ d.completed → ∃ k ∈ d.released, k ∉ d.completed) ∧
    d.completed.length ≤ vertexes.length ∧
    (∀ d', Dispatch.Step d d' → d'.completed.length = d.completed.length + 1) ∧
    ((¬ ∃ d', Dispatch.Step d d') → ∀ i < vertexes.length, i ∈ d.released) := by
  have inv := Dispatch.Inv.reachable accepted run
  have smaller := (initSimulateDag_inv accepted).smaller
  refine ⟨inv.nodup, fun i => (inv.released i).mp, ?_, inv.completed_length_le, ?_, ?_⟩
  · intro i inside waiting
    exact inv.exists_outstanding smaller inside waiting
  · intro d' step
    cases step with
    | complete => simp [Dispatch.complete]
  · intro stuck i inside
    by_cases done : i ∈ d.completed
    · exact inv.completedReleased i done
    · obtain ⟨k, released, outstanding⟩ := inv.exists_outstanding smaller inside done
      exact absurd (Dispatch.exists_step released outstanding) stuck

def diamond : List (Option (List Nat)) := [some [], some [0], some [0], some [1, 2]]

def diamondDag : SimulateDag :=
  (initSimulateDag diamond).toOption.getD ⟨[], fun _ => none, fun _ => none⟩

def diamondRun : Dispatch :=
  (((Dispatch.start diamondDag).complete 0 [2, 1]).complete 2 [3]).complete 1 [3]

theorem diamondRun_reachable : Relation.ReflTransGen Dispatch.Step (.start diamondDag) diamondRun := by
  refine .head (b := (Dispatch.start diamondDag).complete 0 [2, 1]) ?_
    (.head (b := ((Dispatch.start diamondDag).complete 0 [2, 1]).complete 2 [3]) ?_ (.single ?_))
  · exact .complete (by decide) (by decide) ⟨by decide, by decide⟩
  · exact .complete (by decide) (by decide) ⟨by decide, by decide⟩
  · exact .complete (by decide) (by decide) ⟨by decide, by decide⟩

theorem releases_once_after_neighbors_diamond : initSimulateDag diamond = .ok diamondDag ∧
    Relation.ReflTransGen Dispatch.Step (.start diamondDag) diamondRun ∧
    diamondRun.released = [0, 2, 1, 3] ∧ diamondRun.completed = [0, 2, 1] ∧
    diamondRun.released.Nodup ∧
    ∃ k ∈ diamondRun.released, k ∉ diamondRun.completed := by
  have accepted : initSimulateDag diamond = .ok diamondDag := rfl
  have released :=
    releases_once_after_neighbors diamondDag diamondRun accepted diamondRun_reachable
  exact ⟨accepted, diamondRun_reachable, by decide, by decide, released.1,
    released.2.2.1 3 (by decide) (by decide)⟩

end Run

end Pdcc.Scheduler.Simulate
