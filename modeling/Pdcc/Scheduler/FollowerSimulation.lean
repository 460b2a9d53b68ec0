import Pdcc.Ledger.SimContext
import Pdcc.Library.Fallible
import Pdcc.Snapshot.DagChain
import Mathlib.Data.List.ReduceOption

/-!
# Simulation from supplied read/write sets

`SimulateWithDagAndRWSet` runs all transactions of a block at once. Each gets a
context of its own, prepared with the write sets of its neighbors in the DAG, so
that no transaction has to wait for another. The worker, however, executes the
transaction in a context that `executeTx` makes, drops that one, and hands over the
prepared context, in which nothing has run.
-/

set_option autoImplicit false

namespace Pdcc.Scheduler.Follower

open Ledger Library Snapshot

section Context

structure TxSimContext (Result : Type) extends SimContext where
  txId : Bytes
  relyCache : List (Overlay Bytes Bytes)
  relyTxRWSetTable : List (Option TxRWSet)
  txResult : Option Result

namespace TxSimContext

variable {Result : Type}

def new (blockVersion : Nat) (txId : Bytes) : TxSimContext Result where
  toSimContext := newTxSimContext blockVersion 0
  txId := txId
  relyCache := []
  relyTxRWSetTable := []
  txResult := none

variable (ctx : TxSimContext Result)

def appendWriteSetIntoRelyCache (writeSet : List TxWrite) : TxSimContext Result :=
  { ctx with
    relyCache := ctx.relyCache ++
      [Overlay.puts SimContext.sortKey (fun _ => none) (writeSet.map (·.entry))] }

def putRelyTxRWSetTable (table : List (Option TxRWSet)) : TxSimContext Result :=
  { ctx with relyTxRWSetTable := table }

def getFromRelyCache (loc : StateKey) : Option Bytes :=
  ctx.relyCache.findSome? fun cache => cache (SimContext.sortKey loc)

def view (snapshot : StateKey → Bytes) (loc : StateKey) : Bytes :=
  (ctx.getFromRelyCache loc).getD (snapshot loc)

def run (snapshot : StateKey → Bytes) (code : Code Result) : TxSimContext Result × Bool :=
  let (after, result, runVmSuccess) := code.run (ctx.view snapshot) ctx.toSimContext
  ({ ctx with toSimContext := after, txResult := some result }, runVmSuccess)

def getTxRWSet (runVmSuccess : Bool) : TxRWSet :=
  ctx.toSimContext.getTxRWSet ctx.txId runVmSuccess

def unprepared : TxSimContext Result :=
  { ctx with relyCache := [], relyTxRWSetTable := [] }

variable {ctx : TxSimContext Result}

theorem getTxRWSet_of_unprepared {blockVersion : Nat} {txId : Bytes} (blank : ctx.unprepared = new blockVersion txId) (runVmSuccess : Bool) :
    ctx.getTxRWSet runVmSuccess = ⟨txId, [], []⟩ := by
  have same : ctx.getTxRWSet runVmSuccess = ctx.unprepared.getTxRWSet runVmSuccess := rfl
  rw [same, blank]
  rfl

theorem txResult_of_unprepared {blockVersion : Nat} {txId : Bytes}
    (blank : ctx.unprepared = new blockVersion txId) : ctx.txResult = none := by
  have same : ctx.txResult = ctx.unprepared.txResult := rfl
  rw [same, blank]
  rfl

end TxSimContext

end Context

section Model

variable {Tx Result : Type}

structure Programs (Tx Result : Type) where
  txId : Tx → Bytes
  code : Tx → Code Result

structure FollowedBlock (Tx : Type) where
  blockVersion : Nat
  txs : List Tx
  dag : Dag
  specialTxIndex : Option Nat

inductive SimulateError where
  | dagSizeMismatch (dag txs : Nat)
  deriving DecidableEq, Repr

structure ExecuteResult (Result : Type) where
  txId : Bytes
  runVmSuccess : Bool
  txSimContext : TxSimContext Result

abbrev SimulatedMaps (Result : Type) := Overlay Bytes TxRWSet × Overlay Bytes (Option Result)

variable (p : Programs Tx Result)

def Programs.executeTx (blockVersion : Nat) (snapshot : StateKey → Bytes) (tx : Tx) :
    TxSimContext Result × Bool :=
  (TxSimContext.new blockVersion (p.txId tx)).run snapshot (p.code tx)

def rwSetMap (rwSetTable : List (Option TxRWSet)) : Overlay Bytes TxRWSet :=
  Overlay.puts id (fun _ => none) (rwSetTable.reduceOption.map fun txRWSet => (txRWSet.txId, txRWSet))

def Programs.appendNeighbor (txs : List Tx) (rwSet : Overlay Bytes TxRWSet)
    (ctx : TxSimContext Result) (neighbor : Nat) :
    Except (Failure SimulateError) (TxSimContext Result) := do
  let tx ← index txs neighbor
  match rwSet (p.txId tx) with
  | none => .error (.panic .nilDereference)
  | some txRWSet => .ok (ctx.appendWriteSetIntoRelyCache txRWSet.txWrites)

def prepareSpecial (specialTxIndex : Option Nat) (rwSetTable : List (Option TxRWSet)) (i : Nat)
    (ctx : TxSimContext Result) : TxSimContext Result :=
  if specialTxIndex.any fun start => decide (start ≤ i) then
    ctx.putRelyTxRWSetTable (rwSetTable.take i)
  else ctx

variable (block : FollowedBlock Tx)

def Programs.prepareVertex (rwSetTable : List (Option TxRWSet))
    (txSimContextList : List (TxSimContext Result)) (vertex : List Nat × Nat) :
    Except (Failure SimulateError) (List (TxSimContext Result)) := do
  let ctx ← index txSimContextList vertex.2
  let prepared ← vertex.1.reverse.foldlM (p.appendNeighbor block.txs (rwSetMap rwSetTable))
    (prepareSpecial block.specialTxIndex rwSetTable vertex.2 ctx)
  .ok (txSimContextList.set vertex.2 prepared)

def Programs.prepareContexts (rwSetTable : List (Option TxRWSet)) :
    Except (Failure SimulateError) (List (TxSimContext Result)) :=
  block.dag.zipIdx.foldlM (p.prepareVertex block rwSetTable)
    (block.txs.map fun tx => TxSimContext.new block.blockVersion (p.txId tx))

def Programs.handleTxInSimulateWithDagAndRWSet (blockVersion : Nat) (snapshot : StateKey → Bytes)
    (tx : Tx) (txSimContext : TxSimContext Result) : ExecuteResult Result :=
  let (_, runVmSuccess) := p.executeTx blockVersion snapshot tx
  ⟨p.txId tx, runVmSuccess, txSimContext⟩

def Programs.executeResult (snapshot : StateKey → Bytes)
    (txSimContextList : List (TxSimContext Result)) (txIndex : Nat) :
    Option (Bytes × ExecuteResult Result) :=
  match block.txs[txIndex]?, txSimContextList[txIndex]? with
  | some tx, some txSimContext =>
    some (p.txId tx,
      p.handleTxInSimulateWithDagAndRWSet block.blockVersion snapshot tx txSimContext)
  | _, _ => none

def Programs.executeResultMap (snapshot : StateKey → Bytes)
    (txSimContextList : List (TxSimContext Result)) (order : List Nat) :
    Overlay Bytes (ExecuteResult Result) :=
  Overlay.puts id (fun _ => none)
    (order.filterMap (p.executeResult block snapshot txSimContextList))

/-- `SimulateWithDagAndRWSet` when the executions complete in the given order before
the timeout. `txResultMap` is what the snapshot answers for an empty block. -/
def Programs.simulateWithDagAndRWSet (rwSetTable : List (Option TxRWSet)) (snapshot : StateKey → Bytes)
    (txResultMap : Overlay Bytes (Option Result)) (order : List Nat) :
    Except (Failure SimulateError) (SimulatedMaps Result) :=
  if blockVersion2300 ≤ block.blockVersion ∧ block.txs.length ≠ block.dag.length then
    .error (.error (.dagSizeMismatch block.dag.length block.txs.length))
  else if block.txs.isEmpty then .ok (fun _ => none, txResultMap)
  else do
    let txSimContextList ← p.prepareContexts block rwSetTable
    let txExecuteResultMap := p.executeResultMap block snapshot txSimContextList order
    .ok (fun txId => (txExecuteResultMap txId).map fun result =>
          result.txSimContext.getTxRWSet result.runVmSuccess,
        fun txId => (txExecuteResultMap txId).map fun result => result.txSimContext.txResult)

end Model

section Prepared

variable {Tx Result : Type} {p : Programs Tx Result} {block : FollowedBlock Tx}
  {rwSetTable : List (Option TxRWSet)}

theorem appendNeighbor_unprepared {txs : List Tx} {rwSet : Overlay Bytes TxRWSet} {ctx after : TxSimContext Result} {neighbor : Nat}
    (appended : p.appendNeighbor txs rwSet ctx neighbor = .ok after) :
    after.unprepared = ctx.unprepared := by
  unfold Programs.appendNeighbor at appended
  obtain ⟨tx, _, appended⟩ := bind_eq_ok.mp appended
  cases found : rwSet (p.txId tx) with
  | none => simp [found] at appended
  | some txRWSet =>
    simp only [found, Except.ok.injEq] at appended
    rw [← appended]
    rfl

@[simp] theorem prepareSpecial_unprepared (specialTxIndex : Option Nat) (i : Nat) (ctx : TxSimContext Result) :
    (prepareSpecial specialTxIndex rwSetTable i ctx).unprepared = ctx.unprepared := by
  unfold prepareSpecial
  split
  · rfl
  · rfl

variable {before : List (TxSimContext Result)}

theorem prepareVertex_unprepared {after : List (TxSimContext Result)} {vertex : List Nat × Nat}
    (prepared : p.prepareVertex block rwSetTable before vertex = .ok after) :
    after.map (·.unprepared) = before.map (·.unprepared) := by
  obtain ⟨ctx, found, prepared⟩ := bind_eq_ok.mp prepared
  obtain ⟨filled, ran, prepared⟩ := bind_eq_ok.mp prepared
  cases prepared
  have same : filled.unprepared = ctx.unprepared := by
    refine @foldlM_invariant _ _ _ _ (fun _ now => now.unprepared = ctx.unprepared) ?_ _ _ _ (prepareSpecial_unprepared _ _ _) ran
    intro _ _ _ _ kept appended
    rw [appendNeighbor_unprepared appended, kept]
  obtain ⟨inside, rfl⟩ := List.getElem?_eq_some_iff.mp (index_eq_ok.mp found)
  have mapped : (before.map (·.unprepared))[vertex.2]? = some (before[vertex.2].unprepared) := by
    rw [List.getElem?_map, List.getElem?_eq_getElem inside, Option.map_some]
  obtain ⟨_, here⟩ := List.getElem?_eq_some_iff.mp mapped
  rw [List.map_set, same, ← here, List.set_getElem_self]

theorem prepareContexts_unprepared {contexts : List (TxSimContext Result)} (prepared : p.prepareContexts block rwSetTable = .ok contexts) :
    contexts.map (·.unprepared) = block.txs.map fun tx => TxSimContext.new block.blockVersion (p.txId tx) := by
  refine @foldlM_invariant _ _ _ _ (fun _ now => now.map (·.unprepared) =
    block.txs.map fun tx => TxSimContext.new block.blockVersion (p.txId tx)) ?_ _ _ _ ?_ prepared
  · intro _ _ _ _ kept step
    rw [prepareVertex_unprepared step, kept]
  · rw [List.map_map]
    rfl

def Supplied (p : Programs Tx Result) (block : FollowedBlock Tx)
    (rwSetTable : List (Option TxRWSet)) : Prop :=
  ∀ tx ∈ block.txs, ∃ txRWSet, rwSetMap rwSetTable (p.txId tx) = some txRWSet

theorem rwSetMap_isSome {txRWSet : TxRWSet} (member : some txRWSet ∈ rwSetTable) :
    ∃ found, rwSetMap rwSetTable txRWSet.txId = some found := by
  rw [← Option.ne_none_iff_exists', rwSetMap, Overlay.puts_apply, Option.or_none]
  intro absent
  have entry : (txRWSet.txId, txRWSet) ∈ rwSetTable.reduceOption.map fun txRWSet => (txRWSet.txId, txRWSet) :=
    List.mem_map.mpr ⟨txRWSet, List.reduceOption_mem_iff.mpr member, rfl⟩
  exact (lastWrite_eq_none_iff id _ _).mp absent _ entry rfl

theorem appendNeighbor_total (supplied : Supplied p block rwSetTable) {neighbor : Nat}
    (inside : neighbor < block.txs.length) (ctx : TxSimContext Result) :
    ∃ after, p.appendNeighbor block.txs (rwSetMap rwSetTable) ctx neighbor = .ok after := by
  obtain ⟨txRWSet, found⟩ := supplied _ (List.getElem_mem inside)
  refine ⟨ctx.appendWriteSetIntoRelyCache txRWSet.txWrites, ?_⟩
  unfold Programs.appendNeighbor
  rw [index_eq_ok.mpr (List.getElem?_eq_getElem inside)]
  simp only [bind, Except.bind, found]

theorem prepareVertex_total (supplied : Supplied p block rwSetTable) {vertex : List Nat × Nat}
    (neighbors : ∀ neighbor ∈ vertex.1, neighbor < block.txs.length)
    (inside : vertex.2 < before.length) :
    ∃ after, p.prepareVertex block rwSetTable before vertex = .ok after ∧ after.length = before.length := by
  obtain ⟨filled, ran, _⟩ := @foldlM_returns _ _ _ (p.appendNeighbor block.txs (rwSetMap rwSetTable)) (fun _ => True) vertex.1.reverse
    (fun neighbor member ctx _ =>
      (appendNeighbor_total supplied (neighbors neighbor (List.mem_reverse.mp member)) ctx).imp fun _ appended => ⟨appended, trivial⟩)
    (prepareSpecial block.specialTxIndex rwSetTable vertex.2 before[vertex.2]) trivial
  refine ⟨before.set vertex.2 filled, ?_, List.length_set⟩
  unfold Programs.prepareVertex
  rw [index_eq_ok.mpr (List.getElem?_eq_getElem inside)]
  simp only [bind, Except.bind] at ran ⊢
  rw [ran]

theorem prepareContexts_total (supplied : Supplied p block rwSetTable)
    (ordered : block.dag.Ordered) (sized : block.dag.length = block.txs.length) :
    ∃ contexts, p.prepareContexts block rwSetTable = .ok contexts := by
  have step : ∀ vertex ∈ block.dag.zipIdx, ∀ now : List (TxSimContext Result),
      now.length = block.txs.length → ∃ after, p.prepareVertex block rwSetTable now vertex = .ok after ∧ after.length = block.txs.length := by
    intro vertex member now count
    have present := List.mk_mem_zipIdx_iff_getElem?.mp member
    obtain ⟨inside, _⟩ := List.getElem?_eq_some_iff.mp present
    have below : ∀ neighbor ∈ vertex.1, neighbor < block.txs.length := by
      intro neighbor listed
      have := (ordered vertex.2 vertex.1 present).2 neighbor listed
      omega
    have bound : vertex.2 < now.length := by omega
    obtain ⟨after, prepared, same⟩ := prepareVertex_total supplied below bound
    exact ⟨after, prepared, same.trans count⟩
  obtain ⟨contexts, ran, _⟩ := foldlM_returns step (List.length_map _)
  exact ⟨contexts, ran⟩

end Prepared

section Reported

variable {Tx Result : Type} {p : Programs Tx Result} {block : FollowedBlock Tx}
  {rwSetTable : List (Option TxRWSet)} {snapshot : StateKey → Bytes}
  {txResultMap : Overlay Bytes (Option Result)} {order : List Nat}
  {contexts : List (TxSimContext Result)}

theorem executeResult_unprepared (blank : contexts.map (·.unprepared) =
      block.txs.map fun tx => TxSimContext.new block.blockVersion (p.txId tx)) {txIndex : Nat}
    {entry : Bytes × ExecuteResult Result}
    (done : p.executeResult block snapshot contexts txIndex = some entry) :
    entry.2.txSimContext.unprepared = TxSimContext.new block.blockVersion entry.1 := by
  unfold Programs.executeResult at done
  split at done
  · next tx ctx foundTx foundCtx =>
    cases done
    have here := congrArg (·[txIndex]?) blank
    simp only [List.getElem?_map, foundTx, foundCtx, Option.map_some, Option.some.injEq] at here
    exact here
  · cases done

theorem executeResultMap_unprepared (blank : contexts.map (·.unprepared) =
      block.txs.map fun tx => TxSimContext.new block.blockVersion (p.txId tx))
    (complete : order.Perm (List.range block.txs.length)) {tx : Tx} (member : tx ∈ block.txs) :
    ∃ result, p.executeResultMap block snapshot contexts order (p.txId tx) = some result ∧
      result.txSimContext.unprepared = TxSimContext.new block.blockVersion (p.txId tx) := by
  have sized : contexts.length = block.txs.length := by simpa using congrArg List.length blank
  obtain ⟨i, inside, rfl⟩ := List.getElem_of_mem member
  have reported : ∃ result, p.executeResult block snapshot contexts i = some (p.txId block.txs[i], result) := by
    simp [Programs.executeResult, inside, sized]
  obtain ⟨result, reported⟩ := reported
  have listed := List.mem_filterMap.mpr ⟨i, complete.mem_iff.mpr (List.mem_range.mpr inside), reported⟩
  unfold Programs.executeResultMap
  rw [Overlay.puts_apply, Option.or_none]
  cases found : lastWrite id (order.filterMap (p.executeResult block snapshot contexts)) (p.txId block.txs[i]) with
  | none => exact absurd rfl ((lastWrite_eq_none_iff id _ _).mp found _ listed)
  | some result =>
    obtain ⟨entry, entered, same, rfl⟩ := exists_mem_of_lastWrite id found
    obtain ⟨txIndex, _, done⟩ := List.mem_filterMap.mp entered
    have untouched := executeResult_unprepared blank done
    rw [show entry.1 = p.txId block.txs[i] from same] at untouched
    exact ⟨entry.2, rfl, untouched⟩

theorem simulateWithDagAndRWSet_reports {maps : SimulatedMaps Result} (nonempty : block.txs ≠ [])
    (complete : order.Perm (List.range block.txs.length))
    (returned : p.simulateWithDagAndRWSet block rwSetTable snapshot txResultMap order = .ok maps)
    {tx : Tx} (member : tx ∈ block.txs) :
    maps.1 (p.txId tx) = some ⟨p.txId tx, [], []⟩ ∧ maps.2 (p.txId tx) = some none := by
  unfold Programs.simulateWithDagAndRWSet at returned
  split at returned
  · cases returned
  · rw [if_neg (by simpa using nonempty)] at returned
    obtain ⟨contexts, prepared, returned⟩ := bind_eq_ok.mp returned
    cases returned
    obtain ⟨result, found, untouched⟩ := @executeResultMap_unprepared _ _ p block snapshot _
      contexts (prepareContexts_unprepared prepared) complete tx member
    simp only [found, Option.map_some]
    rw [TxSimContext.getTxRWSet_of_unprepared untouched, TxSimContext.txResult_of_unprepared untouched]
    exact ⟨rfl, rfl⟩

end Reported

section Serial

variable {Tx Result : Type} (p : Programs Tx Result)

def Programs.outcome (blockVersion : Nat) (state : StateKey → Bytes) (tx : Tx) :
    TxRWSet × Result :=
  let (ctx, result, runVmSuccess) := (p.code tx).run state (newTxSimContext blockVersion 0)
  (ctx.getTxRWSet (p.txId tx) runVmSuccess, result)

def Programs.serialOutcomes (blockVersion : Nat) :
    (StateKey → Bytes) → List Tx → List (TxRWSet × Result)
  | _, [] => []
  | state, tx :: rest =>
    let outcome := p.outcome blockVersion state tx
    outcome :: serialOutcomes blockVersion (writeState state outcome.1.txWrites) rest

theorem map_txId_serialOutcomes (blockVersion : Nat) (state : StateKey → Bytes) (txs : List Tx) :
    (p.serialOutcomes blockVersion state txs).map (·.1.txId) = txs.map p.txId := by
  induction txs generalizing state with
  | nil => rfl
  | cons tx rest ih =>
    rw [Programs.serialOutcomes, List.map_cons, List.map_cons, ih]
    rfl

def Programs.proposedBlock (isSql : Bool) (blockVersion : Nat) (state : StateKey → Bytes)
    (txs : List Tx) : FollowedBlock Tx where
  blockVersion := blockVersion
  txs := txs
  dag := buildDAG isSql ((p.serialOutcomes blockVersion state txs).map (·.1))
  specialTxIndex := none

def Programs.suppliedTable (blockVersion : Nat) (state : StateKey → Bytes) (txs : List Tx) :
    List (Option TxRWSet) :=
  (p.serialOutcomes blockVersion state txs).map fun outcome => some outcome.1

/-- The call returns the outcome of each transaction under its id. -/
def Programs.Reproduces (txs : List Tx) (outcomes : List (TxRWSet × Result))
    (returned : Except (Failure SimulateError) (SimulatedMaps Result)) : Prop :=
  ∃ maps, returned = .ok maps ∧
    ∀ entry ∈ txs.zip outcomes, maps.1 (p.txId entry.1) = some entry.2.1 ∧
      maps.2 (p.txId entry.1) = some (some entry.2.2)

variable (isSql : Bool) (blockVersion : Nat) (state : StateKey → Bytes) (txs : List Tx)
  (txResultMap : Overlay Bytes (Option Result))

theorem supplied_proposedBlock : Supplied p (p.proposedBlock isSql blockVersion state txs) (p.suppliedTable blockVersion state txs) := by
  intro tx member
  have listed : p.txId tx ∈ (p.serialOutcomes blockVersion state txs).map (·.1.txId) := by
    rw [map_txId_serialOutcomes]
    exact List.mem_map.mpr ⟨tx, member, rfl⟩
  obtain ⟨outcome, executed, same⟩ := List.mem_map.mp listed
  rw [← same]
  exact rwSetMap_isSome (List.mem_map.mpr ⟨outcome, executed, rfl⟩)

theorem length_proposedBlock_dag : (p.proposedBlock isSql blockVersion state txs).dag.length = txs.length := by
  have sized := congrArg List.length (map_txId_serialOutcomes p blockVersion state txs)
  simp only [List.length_map] at sized
  rw [Programs.proposedBlock, buildDAG_length, List.length_map, sized]

theorem simulateWithDagAndRWSet_total (order : List Nat) : ∃ maps, p.simulateWithDagAndRWSet (p.proposedBlock isSql blockVersion state txs)
      (p.suppliedTable blockVersion state txs) state txResultMap order = .ok maps := by
  have sized := length_proposedBlock_dag p isSql blockVersion state txs
  obtain ⟨contexts, prepared⟩ := prepareContexts_total
    (supplied_proposedBlock p isSql blockVersion state txs) (buildDAG_ordered isSql _) sized
  unfold Programs.simulateWithDagAndRWSet
  rw [if_neg (fun mismatch => mismatch.2 sized.symm)]
  split
  · exact ⟨_, rfl⟩
  · rw [prepared]
    exact ⟨_, rfl⟩

/-- Whatever the order in which the executions complete, the simulation reproduces the
serial execution of an empty block only: for every other one it returns empty
read/write sets and no results. -/
theorem simulateWithDagAndRWSet_reproduces_iff : (∀ order, order.Perm (List.range txs.length) →
      p.Reproduces txs (p.serialOutcomes blockVersion state txs)
        (p.simulateWithDagAndRWSet (p.proposedBlock isSql blockVersion state txs)
          (p.suppliedTable blockVersion state txs) state txResultMap order)) ↔ txs = [] := by
  constructor
  · intro reproduces
    cases txs with
    | nil => rfl
    | cons tx rest =>
      obtain ⟨maps, returned, same⟩ := reproduces (List.range (tx :: rest).length) (.refl _)
      obtain ⟨_, noResult⟩ := simulateWithDagAndRWSet_reports (List.cons_ne_nil _ _) (.refl _)
        returned (List.mem_cons_self)
      have result := (same (tx, _) (List.mem_cons_self ..)).2
      rw [noResult] at result
      cases result
  · intro empty order _
    subst empty
    obtain ⟨maps, returned⟩ := simulateWithDagAndRWSet_total p isSql blockVersion state [] txResultMap order
    refine ⟨maps, returned, ?_⟩
    intro entry member
    cases member

def copyKey (key : String) : StateKey := ⟨ascii "A", ascii key⟩

def copyPrograms : Programs (Fin 3) Bytes where
  txId tx := [116, UInt8.ofNat tx]
  code tx := match tx with
    | 0 => .put (copyKey "a") [1] fun _ => .put (copyKey "c") [2] fun _ => .finish [] true
    | 1 => .get (copyKey "a") fun value => .put (copyKey "b") value fun _ => .finish value true
    | 2 => .get (copyKey "b") fun _ => .get (copyKey "c") fun value => .finish value true

/-- No two keys in play look alike, and the last transaction reads 1 and 2 when the block
runs in order. The simulation reports that it reads nothing and has no result. Running it
in the context prepared for it would not help: the edge to the first transaction is
pruned, so `c` is read from the snapshot. -/
theorem simulateWithDagAndRWSet_reports_nothing :
    let outcomes := copyPrograms.serialOutcomes v235 (fun _ => []) [0, 1, 2]
    let block := copyPrograms.proposedBlock false v235 (fun _ => []) [0, 1, 2]
    let table := copyPrograms.suppliedTable v235 (fun _ => []) [0, 1, 2]
    let inPlay := outcomes.flatMap fun outcome =>
      outcome.1.readLocations ++ outcome.1.txWrites.map (·.location)
    (∀ loc ∈ inPlay, ∀ other ∈ inPlay, loc.key = other.key ∨ loc.composed = other.composed → loc = other) ∧
    block.dag = [[], [0], [1]] ∧
    outcomes[2]? = some (⟨[116, 2], [⟨ascii "A", ascii "b", [1]⟩, ⟨ascii "A", ascii "c", [2]⟩], []⟩, [2]) ∧
    (∀ order, order.Perm (List.range 3) → ∃ maps,
      copyPrograms.simulateWithDagAndRWSet block table (fun _ => []) (fun _ => none) order = .ok maps ∧
      maps.1 [116, 2] = some ⟨[116, 2], [], []⟩ ∧ maps.2 [116, 2] = some none) ∧
    ((copyPrograms.prepareContexts block table).toOption.bind (·[2]?)).map
      (·.view (fun _ => []) (copyKey "c")) = some [] := by
  refine ⟨by decide +kernel, by decide +kernel, by decide +kernel, ?_, by decide +kernel⟩
  intro order complete
  obtain ⟨maps, returned⟩ := simulateWithDagAndRWSet_total copyPrograms false v235 (fun _ => [])
    [0, 1, 2] (fun _ => none) order
  have last : (2 : Fin 3) ∈ [0, 1, 2] := by decide
  obtain ⟨rwSet, result⟩ :=
    simulateWithDagAndRWSet_reports (List.cons_ne_nil _ _) complete returned last
  exact ⟨maps, returned, rwSet, result⟩

end Serial

end Pdcc.Scheduler.Follower
