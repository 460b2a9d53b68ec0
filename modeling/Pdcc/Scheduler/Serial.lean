import Pdcc.Snapshot.Apply
import Pdcc.Ledger.SimContext

/-!
# The serial scheduler

One goroutine executes and applies the batch in order, while the caller may
cancel it or seal the snapshot at any moment.
-/

set_option autoImplicit false

namespace Pdcc.Scheduler.Serial

open Ledger Snapshot

variable {Tx Result : Type}

inductive Stop where
  | cancelled
  | alreadySealed
  | conflict

inductive Phase (Tx Result : Type) where
  | checking
  | applying (call : TxApply Tx Result) (specialTxType : ExecOrderTxType)
  | returned (err : Option Stop)

structure State (Tx Result : Type) where
  snapshot : SnapshotImpl Tx Result Empty
  txs : List Tx
  phase : Phase Tx Result

variable (payload : Tx → Payload) (vm : VirtualMachine Tx (Result × Bool × ExecOrderTxType))

def executeTx (s : SnapshotImpl Tx Result Empty) (tx : Tx) : Phase Tx Result :=
  let (txRWSet, result, runTxSuccess, specialTxType) := vm.executeTx tx s.view
  .applying ⟨tx, s.getSnapshotSize, txRWSet, result, runTxSuccess⟩ specialTxType

/-- The steps of the executing goroutine and of its caller. -/
inductive Step : State Tx Result → State Tx Result → Prop where
  -- the caller, after a timeout or a halt; the goroutine may still be running
  | sealed {s txs phase} : Step ⟨s, txs, phase⟩ ⟨{ s with isSealed := true }, txs, phase⟩
  | finish {s} : Step ⟨s, [], .checking⟩ ⟨s, [], .returned none⟩
  | cancel {s tx txs} : Step ⟨s, tx :: txs, .checking⟩ ⟨s, tx :: txs, .returned (some .cancelled)⟩
  | stop {s tx txs} : s.isSealed = true →
      Step ⟨s, tx :: txs, .checking⟩ ⟨s, tx :: txs, .returned (some .alreadySealed)⟩
  | execute {s tx txs} : s.isSealed = false → Step ⟨s, tx :: txs, .checking⟩ ⟨s, txs, executeTx vm s tx⟩
  | apply {s s' txs call kind size} : s.ApplyTxSimContext payload call kind true (true, size) s' →
      Step ⟨s, txs, .applying call kind⟩ ⟨s', txs, .checking⟩
  | refuse {s s' txs call kind size} : s.ApplyTxSimContext payload call kind true (false, size) s' →
      Step ⟨s, txs, .applying call kind⟩ ⟨s', txs, .returned (some .conflict)⟩

/-- The block stays a prefix of the batch, and only a sealed snapshot refuses. -/
def Valid (txBatch : List Tx) (s : SnapshotImpl Tx Result Empty) (txs : List Tx) : Phase Tx Result → Prop
  | .checking => s.txTable ++ txs = txBatch
  | .applying call _ => call.txExecSeq = s.txTable.length ∧ s.txTable ++ call.tx :: txs = txBatch
  | .returned none => s.txTable = txBatch
  | .returned (some err) => s.txTable <+: txBatch ∧ (err = .conflict → s.isSealed = true)

def SeqsBelow (s : SnapshotImpl Tx Result Empty) : Prop :=
  ∀ cell sv, s.writeTable.getByLock cell = some sv → sv.seq < s.txTable.length

variable {payload vm} {txBatch : List Tx} {s s' : State Tx Result}

theorem Step.valid (step : Step payload vm s s') (below : SeqsBelow s.snapshot) (valid : Valid txBatch s.snapshot s.txs s.phase) :
    SeqsBelow s'.snapshot ∧ Valid txBatch s'.snapshot s'.txs s'.phase := by
  cases step with
  | @sealed _ _ phase =>
    refine ⟨below, ?_⟩
    match phase with
    | .checking | .applying .. | .returned none => exact valid
    | .returned (some err) => exact ⟨valid.1, fun _ => rfl⟩
  | finish => exact ⟨below, by simpa [Valid] using valid⟩
  | cancel => exact ⟨below, ⟨_, valid⟩, by simp⟩
  | stop => exact ⟨below, ⟨_, valid⟩, by simp⟩
  | execute => exact ⟨below, rfl, valid⟩
  | apply accepted =>
    obtain ⟨_, ⟨⟩, _⟩ | ⟨_, reads, writes, _, rfl⟩ := accepted.cases
    refine ⟨fun cell sv found => ?_, (List.append_assoc _ _ _).trans valid.2⟩
    have entered := (ShardSet.getByLock_putAll _ _ writes cell).symm.trans found
    rcases Option.or_eq_some_iff.mp entered with new | ⟨_, old⟩
    · obtain ⟨_, _, rfl⟩ := Option.map_eq_some_iff.mp new
      simp [SnapshotImpl.applied, SnapshotImpl.appendTx, SnapshotImpl.getSnapshotSize]
    · exact Nat.lt_of_lt_of_le (below cell sv old) (by simp [SnapshotImpl.applied, SnapshotImpl.appendTx])
  | refuse refused =>
    obtain ⟨rfl, ⟨_, ⟨⟩, _⟩ | ⟨_, closed | ⟨read, _, conflicted⟩⟩⟩ := refused.rejected
    · exact ⟨below, ⟨_, valid.2⟩, fun _ => closed⟩
    · unfold SnapshotImpl.conflicted at conflicted
      split at conflicted
      · next sv found =>
        rw [decide_eq_true_eq, valid.1] at conflicted
        exact absurd (below _ sv found) (Nat.not_lt_of_le conflicted)
      · cases conflicted

theorem valid_of_run {blockVersion : Nat} {preSnapshot : List Layer}
    {blockchainStore : StateKey → Except Empty Bytes} (run : Relation.ReflTransGen (Step payload vm)
      ⟨.newSnapshot blockVersion preSnapshot blockchainStore, txBatch, .checking⟩ s) :
    Valid txBatch s.snapshot s.txs s.phase := by
  suffices both : SeqsBelow s.snapshot ∧ Valid txBatch s.snapshot s.txs s.phase from both.2
  induction run with
  | refl => exact ⟨by simp [SeqsBelow, SnapshotImpl.newSnapshot], rfl⟩
  | tail _ step ih => exact step.valid ih.1 ih.2

/-- The first transaction is applied, the caller seals the snapshot while the second one is
executed, and it is refused. -/
theorem valid_of_run_execute :
    let vm := codeMachine v235 le_rfl id fun _ => .finish ((), true, .normal) true
    ∃ s : State Bytes Unit, Relation.ReflTransGen (Step (fun tx => ⟨tx, ascii "RECEPIT"⟩) vm)
        ⟨.newSnapshot 0 [] fun _ => .ok [], [[], [1]], .checking⟩ s ∧
      s.phase = .returned (some .conflict) ∧ s.snapshot.txTable = [[]] ∧
      Valid [[], [1]] s.snapshot s.txs s.phase := by
  intro vm
  let payload (tx : Bytes) : Payload := ⟨tx, ascii "RECEPIT"⟩
  let call (tx : Bytes) (txExecSeq : Nat) : TxApply Bytes Unit := ⟨tx, txExecSeq, ⟨tx, [], []⟩, (), true⟩
  let start : SnapshotImpl Bytes Unit Empty := .newSnapshot 0 [] fun _ => .ok []
  let between := start.apply payload (call [] 0)
  have executed : Step payload vm ⟨start, [[], [1]], .checking⟩ ⟨start, [[1]], .applying (call [] 0) .normal⟩ :=
    .execute rfl
  have applied : Step payload vm ⟨start, [[1]], .applying (call [] 0) .normal⟩ ⟨between, [[1]], .checking⟩ :=
    .apply ⟨rfl, rfl⟩
  have again : Step payload vm ⟨between, [[1]], .checking⟩ ⟨between, [], .applying (call [1] 1) .normal⟩ :=
    .execute rfl
  have refused : Step payload vm ⟨{ between with isSealed := true }, [], .applying (call [1] 1) .normal⟩
      ⟨_, [], .returned (some .conflict)⟩ := .refuse ⟨rfl, rfl⟩
  have run := ((((Relation.ReflTransGen.single executed).tail applied).tail again).tail .sealed).tail refused
  exact ⟨_, run, rfl, rfl, valid_of_run run⟩

end Pdcc.Scheduler.Serial
