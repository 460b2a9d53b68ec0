import Pdcc.Ledger.ReadWriteSet
import Mathlib.Data.List.Sort

/-!
# Transaction simulation context

Contract code reads and writes through a simulation context: a read is answered
from the transaction's own writes, then from its recorded reads, and only then
from the snapshot, where it is recorded. Running any code this way is a virtual
machine in the sense of the schedulers.
-/

set_option autoImplicit false

namespace Pdcc.Ledger

def v235 : Nat := 2030500

def blockVersion2300 : Nat := 2300

def maxKeyLength : Nat := 600

def accountManager : Bytes := ascii "ACCOUNT_MANAGER"

structure SimContext where
  blockVersion : Nat
  txExecSeq : Nat
  txReadKeyMap : List TxRead
  txWriteKeyMap : List TxWrite

def newTxSimContext (blockVersion snapshotSize : Nat) : SimContext :=
  { blockVersion, txExecSeq := snapshotSize, txReadKeyMap := [], txWriteKeyMap := [] }

namespace SimContext

def getFromWriteSet (ctx : SimContext) (loc : StateKey) : Option Bytes :=
  (ctx.txWriteKeyMap.find? fun write => write.location = loc).map (·.value)

def getFromReadSet (ctx : SimContext) (loc : StateKey) : Option Bytes :=
  (ctx.txReadKeyMap.find? fun read => read.location = loc).map (·.value)

def putIntoReadSet (ctx : SimContext) (loc : StateKey) (value : Bytes) : SimContext :=
  { ctx with
    txReadKeyMap := ctx.txReadKeyMap.filter (fun read => read.location ≠ loc) ++
      [⟨loc.contractName, loc.key, value⟩] }

def putIntoWriteSet (ctx : SimContext) (loc : StateKey) (value : Bytes) : Option SimContext :=
  if loc.key.length > maxKeyLength then none
  else some { ctx with
    txWriteKeyMap := ctx.txWriteKeyMap.filter (fun write => write.location ≠ loc) ++
      [⟨loc.contractName, loc.key, value⟩] }

def getCached (ctx : SimContext) (loc : StateKey) : Option (Bytes × SimContext) :=
  match ctx.getFromWriteSet loc with
  | some value =>
    some (value, if ctx.blockVersion < v235 then ctx.putIntoReadSet loc value else ctx)
  | none => (ctx.getFromReadSet loc).map (·, ctx)

def sortKey (loc : StateKey) : Bytes := loc.contractName ++ [35] ++ loc.key

def collectReadSet (ctx : SimContext) : List TxRead :=
  ctx.txReadKeyMap.insertionSort fun left right => ¬ sortKey right.location < sortKey left.location

def collectWriteSet (ctx : SimContext) (keep : TxWrite → Bool) : List TxWrite :=
  (ctx.txWriteKeyMap.filter keep).insertionSort
    fun left right => ¬ sortKey right.location < sortKey left.location

def getTxRWSet (ctx : SimContext) (txId : Bytes) (runVmSuccess : Bool) : TxRWSet where
  txId := txId
  txReads := ctx.collectReadSet
  txWrites := ctx.collectWriteSet fun write =>
    runVmSuccess ||
      (decide (blockVersion2300 ≤ ctx.blockVersion) && decide (write.contractName = accountManager))

theorem mem_getTxRWSet_txReads (ctx : SimContext) (txId : Bytes) (ok : Bool) (read : TxRead) :
    read ∈ (ctx.getTxRWSet txId ok).txReads ↔ read ∈ ctx.txReadKeyMap :=
  (List.perm_insertionSort _ _).mem_iff

variable {ctx ctx' : SimContext} {loc : StateKey} {value : Bytes}

theorem mem_of_mem_getTxRWSet_txWrites {txId : Bytes} {ok : Bool} {write : TxWrite} (member : write ∈ (ctx.getTxRWSet txId ok).txWrites) :
    write ∈ ctx.txWriteKeyMap :=
  (List.mem_filter.mp ((List.perm_insertionSort _ _).mem_iff.mp member)).1

theorem getTxRWSet_txWrites_distinct (distinct : (ctx.txWriteKeyMap.map (·.location)).Nodup) (txId : Bytes) (ok : Bool) :
    ((ctx.getTxRWSet txId ok).txWrites.map (·.location)).Nodup := by
  have sorted : ((ctx.getTxRWSet txId ok).txWrites.map (·.location)).Perm _ :=
    (List.perm_insertionSort _ _).map _
  rw [sorted.nodup_iff]
  exact distinct.sublist (List.filter_sublist.map _)

theorem putIntoWriteSet_distinct (distinct : (ctx.txWriteKeyMap.map (·.location)).Nodup) (put : ctx.putIntoWriteSet loc value = some ctx') :
    (ctx'.txWriteKeyMap.map (·.location)).Nodup := by
  unfold putIntoWriteSet at put
  split at put
  · cases put
  · cases put
    simp only [List.map_append, List.map_cons, List.map_nil]
    refine List.Nodup.append (distinct.sublist (List.filter_sublist.map _)) (by simp) ?_
    intro other kept added
    obtain ⟨write, member, rfl⟩ := List.mem_map.mp kept
    have same : write.location = loc := List.mem_singleton.mp added
    simp [same] at member

theorem putIntoWriteSet_reads (put : ctx.putIntoWriteSet loc value = some ctx') :
    ctx'.txReadKeyMap = ctx.txReadKeyMap ∧ ctx'.blockVersion = ctx.blockVersion ∧ ctx'.txExecSeq = ctx.txExecSeq := by
  unfold putIntoWriteSet at put
  split at put
  · cases put
  · cases put
    exact ⟨rfl, rfl, rfl⟩

theorem mem_of_putIntoWriteSet (put : ctx.putIntoWriteSet loc value = some ctx') {write : TxWrite} (member : write ∈ ctx'.txWriteKeyMap) :
    write ∈ ctx.txWriteKeyMap ∨ write.key.length ≤ maxKeyLength := by
  unfold putIntoWriteSet at put
  split at put
  · cases put
  · next short =>
    cases put
    rcases List.mem_append.mp member with old | new
    · exact .inl (List.mem_of_mem_filter old)
    · rw [List.mem_singleton.mp new]
      exact .inr (Nat.le_of_not_lt short)

theorem getCached_context (recent : v235 ≤ ctx.blockVersion) (cached : ctx.getCached loc = some (value, ctx')) : ctx' = ctx := by
  unfold getCached at cached
  split at cached
  · rw [if_neg (by omega)] at cached
    cases cached
    rfl
  · obtain ⟨_, _, same⟩ := Option.map_eq_some_iff.mp cached
    cases same
    rfl

theorem putIntoReadSet_of_miss (value : Bytes) (miss : ctx.getCached loc = none) :
    (ctx.putIntoReadSet loc value).txReadKeyMap = ctx.txReadKeyMap ++ [⟨loc.contractName, loc.key, value⟩] := by
  have unrecorded : ∀ read ∈ ctx.txReadKeyMap, read.location ≠ loc := by
    intro read member same
    unfold getCached at miss
    split at miss
    · cases miss
    · rw [Option.map_eq_none_iff, getFromReadSet, Option.map_eq_none_iff, List.find?_eq_none] at miss
      exact miss read member (by simpa using same)
  have kept : (ctx.txReadKeyMap.filter fun read => read.location ≠ loc) = ctx.txReadKeyMap := by
    rw [List.filter_eq_self]
    intro read member
    simpa using unrecorded read member
  simp only [putIntoReadSet, kept]

end SimContext

inductive Code (Result : Type) where
  | get (loc : StateKey) (next : Bytes → Code Result)
  | put (loc : StateKey) (value : Bytes) (next : Bool → Code Result)
  | finish (result : Result) (runVmSuccess : Bool)

namespace Code

variable {Result : Type}

def run (view : StateKey → Bytes) : Code Result → SimContext → SimContext × Result × Bool
  | .get loc next, ctx =>
    match ctx.getCached loc with
    | some (value, cached) => (next value).run view cached
    | none => (next (view loc)).run view (ctx.putIntoReadSet loc (view loc))
  | .put loc value next, ctx =>
    match ctx.putIntoWriteSet loc value with
    | some written => (next true).run view written
    | none => (next false).run view ctx
  | .finish result ok, ctx => (ctx, result, ok)

structure ContextValid (view : StateKey → Bytes) (ctx : SimContext) : Prop where
  recent : v235 ≤ ctx.blockVersion
  reads : ∀ read ∈ ctx.txReadKeyMap, read.value = view read.location
  writes : (ctx.txWriteKeyMap.map (·.location)).Nodup

theorem contextValid_new (view : StateKey → Bytes) {blockVersion : Nat} (recent : v235 ≤ blockVersion) (snapshotSize : Nat) :
    ContextValid view (newTxSimContext blockVersion snapshotSize) where
  recent := recent
  reads := by simp [newTxSimContext]
  writes := by simp [newTxSimContext]

variable {ctx : SimContext}

theorem ContextValid.putIntoReadSet {view : StateKey → Bytes} (valid : ContextValid view ctx)
    {loc : StateKey} (miss : ctx.getCached loc = none) :
    ContextValid view (ctx.putIntoReadSet loc (view loc)) where
  recent := valid.recent
  reads := by
    rw [SimContext.putIntoReadSet_of_miss _ miss]
    intro read member
    rcases List.mem_append.mp member with old | new
    · exact valid.reads read old
    · rw [List.mem_singleton] at new
      subst new
      rfl
  writes := valid.writes

theorem ContextValid.putIntoWriteSet {view : StateKey → Bytes} {ctx' : SimContext}
    (valid : ContextValid view ctx) {loc : StateKey} {value : Bytes}
    (put : ctx.putIntoWriteSet loc value = some ctx') : ContextValid view ctx' := by
  obtain ⟨reads, version, _⟩ := SimContext.putIntoWriteSet_reads put
  refine ⟨version ▸ valid.recent, ?_, SimContext.putIntoWriteSet_distinct valid.writes put⟩
  rw [reads]
  exact valid.reads

theorem run_valid (view : StateKey → Bytes) (code : Code Result) (valid : ContextValid view ctx) : ContextValid view (code.run view ctx).1 ∧
      ∀ read ∈ ctx.txReadKeyMap, read ∈ (code.run view ctx).1.txReadKeyMap := by
  induction code generalizing ctx with
  | get loc next ih =>
    unfold run
    split
    · next value cached hit =>
      have same := SimContext.getCached_context valid.recent hit
      subst same
      exact ih value valid
    · next miss =>
      obtain ⟨final, grows⟩ := ih (view loc) (valid.putIntoReadSet miss)
      refine ⟨final, fun read member => grows read ?_⟩
      rw [SimContext.putIntoReadSet_of_miss _ miss]
      exact List.mem_append_left _ member
  | put loc value next ih =>
    unfold run
    split
    · next written put =>
      obtain ⟨final, grows⟩ := ih true (valid.putIntoWriteSet put)
      rw [(SimContext.putIntoWriteSet_reads put).1] at grows
      exact ⟨final, grows⟩
    · exact ih false valid
  | finish result ok => exact ⟨valid, fun _ member => member⟩

theorem run_determined (view view' : StateKey → Bytes) (code : Code Result) (valid : ContextValid view ctx)
    (agree : ∀ read ∈ (code.run view ctx).1.txReadKeyMap, view' read.location = view read.location) :
    code.run view' ctx = code.run view ctx := by
  induction code generalizing ctx with
  | get loc next ih =>
    unfold run at agree ⊢
    split at agree
    · next value cached hit =>
      have same := SimContext.getCached_context valid.recent hit
      subst same
      exact ih value valid agree
    · next miss =>
      have recorded := valid.putIntoReadSet miss
      have sameValue : view' loc = view loc := by
        refine agree ⟨loc.contractName, loc.key, view loc⟩ ((run_valid view _ recorded).2 _ ?_)
        rw [SimContext.putIntoReadSet_of_miss _ miss]
        simp
      rw [sameValue]
      exact ih (view loc) recorded agree
  | put loc value next ih =>
    unfold run at agree ⊢
    split at agree
    · next written put => exact ih true (valid.putIntoWriteSet put) agree
    · exact ih false valid agree
  | finish result ok => rfl

end Code

def codeMachine {Tx Result : Type} (blockVersion : Nat) (recent : v235 ≤ blockVersion)
    (txId : Tx → Bytes) (code : Tx → Code Result) : VirtualMachine Tx Result where
  txId := txId
  executeTx tx view :=
    let (ctx, result, ok) := (code tx).run view (newTxSimContext blockVersion 0)
    (ctx.getTxRWSet (txId tx) ok, result)
  txId_eq _ _ := rfl
  read_value tx view read member :=
    (Code.run_valid view (code tx) (Code.contextValid_new view recent 0)).1.reads read
      ((SimContext.mem_getTxRWSet_txReads _ _ _ _).mp member)
  reads_determine tx view view' agree := by
    have same := Code.run_determined view view' (code tx) (Code.contextValid_new view recent 0)
      fun read member => agree read ((SimContext.mem_getTxRWSet_txReads _ _ _ _).mpr member)
    simp only [same]
  writes_distinct tx view :=
    SimContext.getTxRWSet_txWrites_distinct
      (Code.run_valid view (code tx) (Code.contextValid_new view recent 0)).1.writes _ _

end Pdcc.Ledger
