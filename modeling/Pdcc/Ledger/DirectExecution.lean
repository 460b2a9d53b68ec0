import Pdcc.Ledger.SerialState
import Pdcc.Ledger.SimContext

/-!
# Direct execution

Contract code on the state itself, with no context in between. Executing a block
through simulation contexts gives its results and its final state.
Contract names have no `#`, so a context keeps all locations apart.
-/

set_option autoImplicit false

namespace Pdcc.Ledger

open Library

variable {Tx Result : Type}

theorem lastWrite_filter_location (keep : StateKey → Bool) (writes : List TxWrite) (loc : StateKey) :
    lastWrite id ((writes.filter fun write => keep write.location).map (·.entry)) loc =
      if keep loc then lastWrite id (writes.map (·.entry)) loc else none := by
  induction writes with
  | nil => simp
  | cons write rest ih => grind [lastWrite, TxWrite.entry]

theorem lastWrite_eq_find? {writes : List TxWrite} (distinct : (writes.map (·.location)).Nodup) (loc : StateKey) :
    lastWrite id (writes.map (·.entry)) loc = (writes.find? fun write => write.location = loc).map (·.value) := by
  cases found : writes.find? fun write => write.location = loc with
  | none => simpa [lastWrite_eq_none_iff] using found
  | some write =>
    have here : write.location = loc := by simpa using List.find?_some found
    rw [← here]
    refine lastWrite_of_nodup id ?_ (List.mem_map_of_mem (List.mem_of_find?_eq_some found))
    rwa [List.map_map]

/-- A failed transaction keeps nothing but its writes to the gas accounts. -/
def settle (state final : StateKey → Bytes) (ok : Bool) (loc : StateKey) : Bytes :=
  if ok || loc.contractName = accountManager then final loc else state loc

namespace Code

def runDirect (state : StateKey → Bytes) : Code Result → (StateKey → Bytes) × Result × Bool
  | .get loc next => (next (state loc)).runDirect state
  | .put loc value next =>
    if loc.key.length > maxKeyLength then (next false).runDirect state
    else (next true).runDirect (Function.update state loc value)
  | .finish result ok => (state, result, ok)

variable {view : StateKey → Bytes} {ctx : SimContext}

theorem ContextValid.getCached_eq (valid : ContextValid view ctx) (loc : StateKey) :
    ((ctx.getCached loc).map (·.1)).getD (view loc) = writeState view ctx.txWriteKeyMap loc := by
  rw [writeState_apply, lastWrite_eq_find? valid.writes, ← SimContext.getFromWriteSet, SimContext.getCached]
  split
  · next written => simp [written]
  · next unwritten =>
    rw [unwritten, SimContext.getFromReadSet]
    cases found : ctx.txReadKeyMap.find? fun read => read.location = loc with
    | none => rfl
    | some read =>
      have here : read.location = loc := by simpa using List.find?_some found
      simpa [here] using valid.reads read (List.mem_of_find?_eq_some found)

theorem ContextValid.writeState_eq (valid : ContextValid view ctx) (txId : Bytes) (ok : Bool) :
    writeState view (ctx.getTxRWSet txId ok).txWrites = settle view (writeState view ctx.txWriteKeyMap) ok := by
  have gas : blockVersion2300 ≤ ctx.blockVersion := Nat.le_trans (by decide) valid.recent
  have sorted : (ctx.getTxRWSet txId ok).txWrites.Perm (ctx.txWriteKeyMap.filter fun write =>
      ok || write.location.contractName = accountManager) := by
    simp only [SimContext.getTxRWSet, SimContext.collectWriteSet, gas, decide_true, Bool.true_and]
    exact List.perm_insertionSort _ _
  have distinct := SimContext.getTxRWSet_txWrites_distinct valid.writes txId ok
  funext loc
  rw [writeState_apply, lastWrite_perm id (sorted.map _) (by rwa [List.map_map]),
    lastWrite_filter_location fun loc => ok || loc.contractName = accountManager, settle, writeState_apply]
  split <;> rfl

theorem run_refines (code : Code Result) (valid : ContextValid view ctx) : code.runDirect (writeState view ctx.txWriteKeyMap) =
      (writeState view (code.run view ctx).1.txWriteKeyMap, (code.run view ctx).2) := by
  induction code generalizing ctx with
  | get loc next ih =>
    unfold run runDirect
    rw [← valid.getCached_eq]
    split
    · next value cached hit =>
      have same := SimContext.getCached_context valid.recent hit
      subst same
      rw [hit]
      exact ih value valid
    · next miss =>
      rw [miss]
      exact ih (view loc) (valid.putIntoReadSet miss)
  | put loc value next ih =>
    unfold run runDirect
    by_cases long : loc.key.length > maxKeyLength
    · simpa only [SimContext.putIntoWriteSet, if_pos long] using ih false valid
    · have put : ctx.putIntoWriteSet loc value = some _ := if_neg long
      rw [put, if_neg long, ← ih true (valid.putIntoWriteSet put)]
      congr 1
      funext other
      simp only [Function.update_apply, writeState_apply, List.map_append, lastWrite_append,
        lastWrite_filter_location fun other => other ≠ loc]
      by_cases same : other = loc
      · simp [same, lastWrite, TxWrite.location]
      · simp [same, Ne.symm same, lastWrite, TxWrite.location]
  | finish result ok => rfl

end Code

def directExecute (code : Tx → Code Result) :
    (StateKey → Bytes) → List Tx → List Result × (StateKey → Bytes)
  | state, [] => ([], state)
  | state, tx :: rest =>
    let (final, result, ok) := (code tx).runDirect state
    let (results, last) := directExecute code (settle state final ok) rest
    (result :: results, last)

theorem serialExecute_codeMachine {blockVersion : Nat} (recent : v235 ≤ blockVersion)
    (txId : Tx → Bytes) (code : Tx → Code Result) (state : StateKey → Bytes) (txs : List Tx) :
    let (outcomes, final) := serialExecute (codeMachine blockVersion recent txId code) state txs
    (outcomes.map (·.2), final) = directExecute code state txs := by
  induction txs generalizing state with
  | nil => rfl
  | cons tx rest ih =>
    have fresh := Code.contextValid_new state recent 0
    have direct : (code tx).runDirect state = _ := Code.run_refines (code tx) fresh
    have settled := (Code.run_valid state (code tx) fresh).1.writeState_eq (txId tx)
    simp only [serialExecute, codeMachine, directExecute, direct, settled, ← ih, List.map_cons]

theorem serialExecute_codeMachine_append :
    let code (byte : UInt8) : Code Bytes :=
      .get ⟨[], []⟩ fun value => .put ⟨[], []⟩ (byte :: value) fun _ => .finish value true
    (serialExecute (codeMachine v235 le_rfl (fun _ => []) code) (fun _ => []) [1, 2]).1.map (·.2) = [[], [1]] :=
  congrArg Prod.fst (serialExecute_codeMachine le_rfl (fun _ => []) _ _ [1, 2])

end Pdcc.Ledger
