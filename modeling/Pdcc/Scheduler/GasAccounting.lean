import Pdcc.Scheduler.ChargeGas
import Pdcc.Snapshot.Apply
import Mathlib.Logic.Relation

/-!
# Gas totals over a schedule

From version 2.3.4 on, an execution is charged to the account of its payer before
the snapshot decides whether it counts. A rejected execution is queued again and
charged again. The totals are compared with the transactions that the snapshot
holds when the schedule ends.
-/

set_option autoImplicit false

namespace Pdcc.Scheduler.Gas

open Ledger Library Snapshot

section Model

structure ExecResult where
  code : TxStatusCode
  gasUsed : UInt64
deriving DecidableEq

def SenderCollection.resetTotalGasUsed (s : SenderCollection) : SenderCollection :=
  { s with
    txsMap := lastAmounts (s.txsMap.entries.map fun entry =>
      (entry.1, { entry.2 with totalGasUsed := 0 })) }

inductive BalanceCheck where
  | missing
  | failed (error : GasError)
  | passed (accountStatus : TxStatusCode)

def processSenderCollectionIn234 (collection : SenderCollection) (tx : Transaction)
    (txNeedChargeGas : Bool) : BalanceCheck :=
  if txNeedChargeGas = false then .passed .success
  else
    match collection.txAddressCache.lookup tx.txId with
    | none => .missing
    | some addr =>
      match collection.txsMap.lookup addr with
      | none => .missing
      | some col =>
        -- an abnormal account skips the check and is left to the guard
        if col.accountStatus ≠ .success then .passed col.accountStatus
        else
          match collection.checkBalanceInSenderCollection tx with
          | .error error => .failed error
          | .ok _ => .passed .success

def guardForExecuteTx2300 (tx : Transaction) (txResult : Option TxStatusCode)
    (accountStatus : TxStatusCode) : Option ExecResult :=
  match tx.gasLimit with
  | none => some ⟨.gasLimitNotSet, 0⟩
  | some _ =>
    match txResult.getD accountStatus with
    | .gasBalanceNotEnoughFailed => some ⟨.gasBalanceNotEnoughFailed, 0⟩
    | .getAccountBalanceFailed => some ⟨.getAccountBalanceFailed, 0⟩
    | .parseAccountBalanceFailed => some ⟨.parseAccountBalanceFailed, 0⟩
    | .getAccountStatusFailed => some ⟨.getAccountStatusFailed, 0⟩
    | .accountStatusFrozen => some ⟨.accountStatusFrozen, 0⟩
    | _ => none

structure VmRun where
  ctx : SimContext
  result : ExecResult
  specialTxType : ExecOrderTxType
  runVmSuccess : Bool

inductive Stage where
  | running (tx : Transaction) (txExecSeq : Nat)
  | executed (call : TxApply BlockTx ExecResult) (specialTxType : ExecOrderTxType)

structure Execution where
  serial : Bool
  stage : Stage

def applyCall (tx : Transaction) (txExecSeq : Nat) (txRWSet : TxRWSet) (result : ExecResult)
    (runVmSuccess : Bool) : TxApply BlockTx ExecResult :=
  ⟨⟨tx, result.gasUsed⟩, txExecSeq, txRWSet, result, runVmSuccess⟩

def Stage.blocked (tx : Transaction) (txExecSeq : Nat) (result : ExecResult) : Stage :=
  .executed (applyCall tx txExecSeq ⟨tx.txId, [], []⟩ result false) .normal

def payloadOf (entry : BlockTx) : Payload := ⟨entry.tx.txId, entry.tx.contractName⟩

structure GasSchedule (ε : Type) where
  snapshot : SnapshotImpl BlockTx ExecResult ε
  collection : SenderCollection
  txResult : Overlay Bytes TxStatusCode
  runningTxC : List Transaction
  serialTxs : List Transaction
  executions : List Execution

variable {ε : Type}

def GasSchedule.init (snapshot : SnapshotImpl BlockTx ExecResult ε)
    (collection : SenderCollection) : GasSchedule ε where
  snapshot := snapshot
  collection := collection.resetTotalGasUsed
  txResult := fun _ => none
  runningTxC := collection.txsMap.entries.flatMap (·.2.txs)
  serialTxs := []
  executions := []

variable (txNeedChargeGas : Transaction → Bool)

def GasSchedule.startExecution (s : GasSchedule ε) (tx : Transaction) : Option Stage :=
  match processSenderCollectionIn234 s.collection tx (txNeedChargeGas tx) with
  | .missing => none
  | .failed _ => some (.blocked tx s.snapshot.getSnapshotSize ⟨.contractFail, 0⟩)
  | .passed accountStatus =>
    if txNeedChargeGas tx then
      match guardForExecuteTx2300 tx (s.txResult tx.txId) accountStatus with
      | some result => some (.blocked tx s.snapshot.getSnapshotSize result)
      | none => some (.running tx s.snapshot.getSnapshotSize)
    else some (.running tx s.snapshot.getSnapshotSize)

def chargeExecution (collection : SenderCollection) (tx : Transaction) (txExecSeq : Nat)
    (vm : VmRun) : SenderCollection × TxApply BlockTx ExecResult :=
  match collection.chargeGasInSenderCollection tx vm.result.gasUsed
    (txNeedChargeGas tx && tx.isInvoke) with
  | (_, none, collection) => (collection, applyCall tx txExecSeq
      (vm.ctx.getTxRWSet tx.txId vm.runVmSuccess) vm.result vm.runVmSuccess)
  | (gasCharged, some _, collection) => (collection, applyCall tx txExecSeq
      (vm.ctx.getTxRWSet tx.txId false) ⟨.contractFail, gasCharged⟩ false)

def GasSchedule.enter (s : GasSchedule ε) (serial : Bool) (stage : Stage) : GasSchedule ε :=
  { s with
    executions := ⟨serial, stage⟩ :: s.executions
    txResult :=
      match stage with
      | .running _ _ => s.txResult
      | .executed call _ => s.txResult.put call.tx.tx.txId call.txResult.code }

inductive Action where
  | fetch (tx : Transaction)
  | run (serial : Bool) (tx : Transaction) (txExecSeq : Nat) (vm : VmRun)
  | apply (serial : Bool) (call : TxApply BlockTx ExecResult) (specialTxType : ExecOrderTxType)
  | sealed
  | serialFetch (tx : Transaction)

def applyType (serial : Bool) (specialTxType : ExecOrderTxType) : ExecOrderTxType :=
  if serial then .special else specialTxType

/-- The steps of a schedule. Every worker takes any queued transaction, executes it
and applies it. The seal ends the parallel part, and the serial part follows. -/
inductive GasStep : GasSchedule ε → Action → GasSchedule ε → Prop where
  | fetch {s tx stage earlier later} :
      s.snapshot.isSealed = false → s.runningTxC = earlier ++ tx :: later →
      s.startExecution txNeedChargeGas tx = some stage →
      GasStep s (.fetch tx) ({ s with runningTxC := earlier ++ later }.enter false stage)
  | run {s serial tx txExecSeq vm earlier later} :
      s.executions = earlier ++ ⟨serial, .running tx txExecSeq⟩ :: later →
      GasStep s (.run serial tx txExecSeq vm)
        ({ s with
          collection := (chargeExecution txNeedChargeGas s.collection tx txExecSeq vm).1
          executions := earlier ++ later }.enter serial
            (.executed (chargeExecution txNeedChargeGas s.collection tx txExecSeq vm).2
              vm.specialTxType))
  | reject {s serial call specialTxType size snapshot earlier later} :
      s.executions = earlier ++ ⟨serial, .executed call specialTxType⟩ :: later →
      s.snapshot.ApplyTxSimContext payloadOf call (applyType serial specialTxType) serial
        (false, size) snapshot →
      GasStep s (.apply serial call specialTxType)
        { s with
          snapshot := snapshot
          executions := earlier ++ later
          runningTxC := if serial then s.runningTxC else s.runningTxC ++ [call.tx.tx]
          serialTxs := if serial then s.serialTxs ++ [call.tx.tx] else s.serialTxs }
  | accept {s serial call specialTxType size snapshot earlier later} :
      s.executions = earlier ++ ⟨serial, .executed call specialTxType⟩ :: later →
      s.snapshot.ApplyTxSimContext payloadOf call (applyType serial specialTxType) serial
        (true, size) snapshot →
      GasStep s (.apply serial call specialTxType)
        { s with snapshot := snapshot, executions := earlier ++ later }
  | sealed {s} : s.snapshot.isSealed = false →
      GasStep s .sealed
        { s with
          snapshot := { s.snapshot with isSealed := true }
          serialTxs := s.snapshot.specialTxTable.map (·.tx) ++ s.collection.specialTxTable }
  | serialFetch {s tx rest stage} :
      s.snapshot.isSealed = true → (∀ execution ∈ s.executions, execution.serial = false) →
      s.serialTxs = tx :: rest → s.startExecution txNeedChargeGas tx = some stage →
      GasStep s (.serialFetch tx) ({ s with serialTxs := rest }.enter true stage)

/-- The snapshot is sealed and no serial execution is left. -/
def GasSchedule.Finished (s : GasSchedule ε) : Prop :=
  s.snapshot.isSealed = true ∧ ∀ execution ∈ s.executions, execution.serial = false

end Model

section Account

variable {ε : Type} (txNeedChargeGas : Transaction → Bool)

def BlockTx.chargedGas (entry : BlockTx) : Nat :=
  if txNeedChargeGas entry.tx && entry.tx.isInvoke then entry.gasUsed.toNat else 0

def chargedTotal (txAddressCache : AList fun _ : Bytes => Bytes) (entries : List BlockTx)
    (address : Bytes) : Nat :=
  ((entries.filter fun entry => txAddressCache.lookup entry.tx.txId = some address).map
    (·.chargedGas txNeedChargeGas)).sum

def Stage.entry : Stage → Option BlockTx
  | .running _ _ => none
  | .executed call _ => some call.tx

def GasSchedule.pending (s : GasSchedule ε) : List BlockTx :=
  s.executions.filterMap (·.stage.entry)

/-- What a step has to meet. A charge fits the account and comes before the seal, a
charged execution is appended to the table at its first attempt, and the seal waits
for the charged executions. -/
def Action.Counts (s : GasSchedule ε) : Action → Prop
  | .fetch _ => True
  | .run serial tx _ vm => (txNeedChargeGas tx && tx.isInvoke) = true →
      (serial = true ∨ s.snapshot.isSealed = false) ∧
        ∀ address account gasLimit, s.collection.txAddressCache.lookup tx.txId = some address →
          s.collection.txsMap.lookup address = some account → tx.gasLimit = some gasLimit →
          account.ChargeFits gasLimit vm.result.gasUsed
  | .apply serial call specialTxType => call.tx.chargedGas txNeedChargeGas = 0 ∨ serial = true ∨
      specialTxType = .chargeGas ∨ specialTxType = .normal ∧ s.snapshot.isSealed = false ∧
        ∀ read ∈ call.txRWSet.txReads,
          s.snapshot.conflicted call.txExecSeq (constructKey read.contractName read.key) = false
  | .sealed => ∀ entry ∈ s.pending, entry.chargedGas txNeedChargeGas = 0
  | .serialFetch _ => True

variable {txNeedChargeGas} {s s' : GasSchedule ε}

section Charge

theorem TxCollection.chargeGas_amount {senderTxs : TxCollection} {txId : Bytes}
    {gasLimit gasUsed : UInt64} (charged : (senderTxs.chargeGas txId gasLimit gasUsed).2.1 = none) :
    (senderTxs.chargeGas txId gasLimit gasUsed).1 = gasUsed := by
  unfold chargeGas at charged ⊢
  grind

structure Charged (txNeedChargeGas : Transaction → Bool) (collection collection' : SenderCollection)
    (entry : BlockTx) : Prop where
  cache : collection'.txAddressCache = collection.txAddressCache
  account : ∀ address account', collection'.txsMap.lookup address = some account' →
    ∃ account, collection.txsMap.lookup address = some account ∧
      (account.totalGasUsed ≤ account.accountBalance →
        account'.totalGasUsed.toNat = account.totalGasUsed.toNat +
            (if collection.txAddressCache.lookup entry.tx.txId = some address then
              entry.chargedGas txNeedChargeGas else 0) ∧
          account'.totalGasUsed ≤ account'.accountBalance)

variable {collection : SenderCollection}

theorem Charged.free {entry : BlockTx} (free : entry.chargedGas txNeedChargeGas = 0) :
    Charged txNeedChargeGas collection collection entry := by
  refine ⟨rfl, fun address account found => ⟨account, found, fun within => ⟨?_, within⟩⟩⟩
  rw [free, ite_self, Nat.add_zero]

theorem Charged.charge {entry : BlockTx} {address : Bytes} {senderTxs : TxCollection}
    {gasLimit gasUsed : UInt64} (needed : (txNeedChargeGas entry.tx && entry.tx.isInvoke) = true)
    (cached : collection.txAddressCache.lookup entry.tx.txId = some address)
    (found : collection.txsMap.lookup address = some senderTxs)
    (fits : senderTxs.ChargeFits gasLimit gasUsed)
    (amount : entry.gasUsed = (senderTxs.chargeGas entry.tx.txId gasLimit gasUsed).1) :
    Charged txNeedChargeGas collection
      { collection with
        txsMap := collection.txsMap.insert address
          (senderTxs.chargeGas entry.tx.txId gasLimit gasUsed).2.2 } entry := by
  refine ⟨rfl, ?_⟩
  intro other account' lookup
  by_cases same : other = address
  · subst same
    rw [AList.lookup_insert] at lookup
    cases lookup
    refine ⟨senderTxs, found, ?_⟩
    intro within
    obtain ⟨balance, total⟩ := (senderTxs.chargeGas_sound_iff entry.tx.txId gasLimit gasUsed (UInt64.le_iff_toNat_le.mp within)).mpr fits
    rw [if_pos cached, BlockTx.chargedGas, if_pos needed, amount, total, UInt64.le_iff_toNat_le, senderTxs.chargeGas_accountBalance]
    exact ⟨rfl, balance⟩
  · rw [AList.lookup_insert_ne same] at lookup
    refine ⟨account', lookup, fun within => ⟨?_, within⟩⟩
    rw [cached, if_neg (by simpa using Ne.symm same), Nat.add_zero]

theorem chargeExecution_tx (collection : SenderCollection) (tx : Transaction) (txExecSeq : Nat)
    (vm : VmRun) : (chargeExecution txNeedChargeGas collection tx txExecSeq vm).2.tx.tx = tx := by
  unfold chargeExecution
  split
  · rfl
  · rfl

theorem chargeExecution_charged {tx : Transaction} {txExecSeq : Nat} {vm : VmRun}
    (fits : (txNeedChargeGas tx && tx.isInvoke) = true → ∀ address account gasLimit, collection.txAddressCache.lookup tx.txId = some address →
      collection.txsMap.lookup address = some account → tx.gasLimit = some gasLimit →
      account.ChargeFits gasLimit vm.result.gasUsed) :
    Charged txNeedChargeGas collection (chargeExecution txNeedChargeGas collection tx txExecSeq vm).1
      (chargeExecution txNeedChargeGas collection tx txExecSeq vm).2.tx := by
  unfold chargeExecution SenderCollection.chargeGasInSenderCollection
  cases needed : txNeedChargeGas tx && tx.isInvoke with
  | false => exact .free (by simp [BlockTx.chargedGas, applyCall, needed])
  | true =>
    have zero : (⟨tx, 0⟩ : BlockTx).chargedGas txNeedChargeGas = 0 := by
      simp [BlockTx.chargedGas]
    simp only [Bool.true_eq_false, if_false]
    cases limit : tx.gasLimit with
    | none => exact .free zero
    | some gasLimit =>
      cases cached : collection.txAddressCache.lookup tx.txId with
      | none => exact .free zero
      | some address =>
        cases found : collection.txsMap.lookup address with
        | none =>
          simp only [found]
          exact .free zero
        | some senderTxs =>
          have fit := fits needed address senderTxs gasLimit cached found limit
          simp only [found]
          cases error : (senderTxs.chargeGas tx.txId gasLimit vm.result.gasUsed).2.1 with
          | none =>
            exact @Charged.charge _ _ ⟨tx, vm.result.gasUsed⟩ _ _ _ _ needed cached found fit (TxCollection.chargeGas_amount error).symm
          | some failed =>
            exact @Charged.charge _ _ ⟨tx, _⟩ _ _ _ _ needed cached found fit rfl

end Charge

section Totals

variable {txAddressCache : AList fun _ : Bytes => Bytes} {address : Bytes}

theorem chargedTotal_append (entries later : List BlockTx) : chargedTotal txNeedChargeGas txAddressCache (entries ++ later) address =
      chargedTotal txNeedChargeGas txAddressCache entries address + chargedTotal txNeedChargeGas txAddressCache later address := by
  simp [chargedTotal]

theorem chargedTotal_singleton (entry : BlockTx) : chargedTotal txNeedChargeGas txAddressCache [entry] address =
      if txAddressCache.lookup entry.tx.txId = some address then entry.chargedGas txNeedChargeGas
      else 0 := by
  unfold chargedTotal
  split
  · next paid => simp [paid]
  · next unpaid => simp [unpaid]

theorem chargedTotal_eq_zero {entries : List BlockTx} (free : ∀ entry ∈ entries, entry.chargedGas txNeedChargeGas = 0) :
    chargedTotal txNeedChargeGas txAddressCache entries address = 0 := by
  refine List.sum_eq_zero ?_
  intro amount member
  obtain ⟨entry, inside, rfl⟩ := List.mem_map.mp member
  exact free entry (List.mem_of_mem_filter inside)

theorem chargedTotal_filter (entries : List BlockTx) : chargedTotal txNeedChargeGas txAddressCache
        (entries.filter (·.chargedGas txNeedChargeGas ≠ 0)) address =
      chargedTotal txNeedChargeGas txAddressCache entries address := by
  induction entries with
  | nil => rfl
  | cons entry rest ih =>
    rw [← List.singleton_append, chargedTotal_append, ← ih, List.filter_append, chargedTotal_append, chargedTotal_singleton]
    by_cases free : entry.chargedGas txNeedChargeGas = 0
    · rw [List.filter_cons_of_neg (by simp [free]), free, ite_self]
      rfl
    · rw [List.filter_cons_of_pos (by simp [free]), List.filter_nil, chargedTotal_singleton]

theorem pending_enter (s : GasSchedule ε) (serial : Bool) (stage : Stage) :
    (s.enter serial stage).pending = stage.entry.toList ++ s.pending := by
  cases stage with
  | running tx txExecSeq => rfl
  | executed call specialTxType => rfl

theorem pending_perm {execution : Execution} {earlier later : List Execution} (split : s.executions = earlier ++ execution :: later) :
    s.pending.Perm (execution.stage.entry.toList ++ { s with executions := earlier ++ later }.pending) := by
  rw [GasSchedule.pending, split]
  refine (List.perm_middle.filterMap _).trans ?_
  rw [List.filterMap_cons, GasSchedule.pending]
  cases execution.stage.entry with
  | none => rfl
  | some entry => rfl

theorem pending_total {execution : Execution} {earlier later : List Execution} (split : s.executions = earlier ++ execution :: later) :
    chargedTotal txNeedChargeGas txAddressCache s.pending address =
      chargedTotal txNeedChargeGas txAddressCache execution.stage.entry.toList address + chargedTotal txNeedChargeGas txAddressCache
          { s with executions := earlier ++ later }.pending address := by
  rw [← chargedTotal_append]
  exact (((pending_perm split).filter _).map _).sum_eq

end Totals

/-- The total of every payer is the gas of its charged transactions, applied or
about to be, and after the seal no worker of the parallel part holds charged gas. -/
structure GasSchedule.Inv (txNeedChargeGas : Transaction → Bool) (s : GasSchedule ε) : Prop where
  within : ∀ address account, s.collection.txsMap.lookup address = some account →
    account.totalGasUsed ≤ account.accountBalance
  total : ∀ address account, s.collection.txsMap.lookup address = some account →
    account.totalGasUsed.toNat =
      chargedTotal txNeedChargeGas s.collection.txAddressCache s.snapshot.txTable address +
        chargedTotal txNeedChargeGas s.collection.txAddressCache s.pending address
  late : s.snapshot.isSealed = true → ∀ execution ∈ s.executions, execution.serial = false →
    ∀ entry ∈ execution.stage.entry, entry.chargedGas txNeedChargeGas = 0

variable {snapshot : SnapshotImpl BlockTx ExecResult ε} {collection : SenderCollection}

theorem GasSchedule.Inv.init (empty : snapshot.txTable = []) : (GasSchedule.init snapshot collection).Inv txNeedChargeGas := by
  have reset {address : Bytes} {account : TxCollection} (found : collection.resetTotalGasUsed.txsMap.lookup address = some account) :
      account.totalGasUsed = 0 := by
    rw [SenderCollection.resetTotalGasUsed, lastAmounts_lookup] at found
    obtain ⟨entry, _, same⟩ := List.mem_map.mp (mem_amountsOf.mp (List.mem_of_getLast? found))
    cases same
    rfl
  refine ⟨?_, ?_, ?_⟩
  · intro address account found
    rw [reset found]
    exact UInt64.zero_le
  · intro address account found
    rw [reset found]
    simp [GasSchedule.init, GasSchedule.pending, empty, chargedTotal]
  · intro _ execution member
    cases member

theorem startExecution_free {tx : Transaction} {stage : Stage} (started : s.startExecution txNeedChargeGas tx = some stage) :
    ∀ entry ∈ stage.entry, entry.chargedGas txNeedChargeGas = 0 := by
  have running (txExecSeq : Nat) : ∀ entry ∈ (Stage.running tx txExecSeq).entry, entry.chargedGas txNeedChargeGas = 0 := by
    intro entry member
    cases member
  have blocked (txExecSeq : Nat) {result : ExecResult} (unused : result.gasUsed = 0) :
      ∀ entry ∈ (Stage.blocked tx txExecSeq result).entry, entry.chargedGas txNeedChargeGas = 0 := by
    intro entry member
    cases member
    simp [BlockTx.chargedGas, applyCall, unused]
  unfold GasSchedule.startExecution at started
  split at started
  · cases started
  · cases started
    exact blocked _ rfl
  · split at started
    · split at started
      · next guarded =>
        cases started
        refine blocked _ ?_
        unfold guardForExecuteTx2300 at guarded
        grind
      · cases started
        exact running _
    · cases started
      exact running _

theorem GasSchedule.Inv.enter {serial : Bool} {stage : Stage} (inv : s.Inv txNeedChargeGas)
    (free : ∀ entry ∈ stage.entry, entry.chargedGas txNeedChargeGas = 0) :
    (s.enter serial stage).Inv txNeedChargeGas := by
  refine ⟨inv.within, ?_, ?_⟩
  · intro address account found
    rw [pending_enter, chargedTotal_append, chargedTotal_eq_zero fun entry member => free entry (Option.mem_toList.mp member), Nat.zero_add]
    exact inv.total address account found
  · intro closed execution member parallel
    rcases List.mem_cons.mp member with rfl | old
    · exact free
    · exact inv.late closed execution old parallel

section Taken

variable {serial : Bool} {stage : Stage} {earlier later : List Execution}
  (split : s.executions = earlier ++ ⟨serial, stage⟩ :: later)
include split

theorem mem_of_taken {execution : Execution} (member : execution ∈ earlier ++ later) : execution ∈ s.executions := by
  rw [split]
  rcases List.mem_append.mp member with before | after
  · exact List.mem_append_left _ before
  · exact List.mem_append_right _ (List.mem_cons_of_mem _ after)

theorem GasSchedule.Inv.drop (inv : s.Inv txNeedChargeGas) (free : ∀ entry ∈ stage.entry, entry.chargedGas txNeedChargeGas = 0) :
    { s with executions := earlier ++ later }.Inv txNeedChargeGas := by
  refine ⟨inv.within, ?_, ?_⟩
  · intro address account found
    have total := inv.total address account found
    rwa [pending_total split, chargedTotal_eq_zero fun entry member => free entry (Option.mem_toList.mp member), Nat.zero_add] at total
  · intro closed execution member
    exact inv.late closed execution (mem_of_taken split member)

end Taken

theorem GasSchedule.Inv.requeue (inv : s.Inv txNeedChargeGas) (runningTxC serialTxs : List Transaction) :
    { s with runningTxC := runningTxC, serialTxs := serialTxs }.Inv txNeedChargeGas :=
  ⟨inv.within, inv.total, inv.late⟩

section Steps

variable {serial : Bool} {earlier later : List Execution}

theorem GasSchedule.Inv.run {tx : Transaction} {txExecSeq : Nat} {vm : VmRun} (inv : s.Inv txNeedChargeGas)
    (split : s.executions = earlier ++ ⟨serial, .running tx txExecSeq⟩ :: later)
    (counts : (Action.run serial tx txExecSeq vm).Counts txNeedChargeGas s) :
    ({ s with
      collection := (chargeExecution txNeedChargeGas s.collection tx txExecSeq vm).1
      executions := earlier ++ later }.enter serial
        (.executed (chargeExecution txNeedChargeGas s.collection tx txExecSeq vm).2 vm.specialTxType)).Inv txNeedChargeGas := by
  have charged : Charged txNeedChargeGas s.collection (chargeExecution txNeedChargeGas s.collection tx txExecSeq vm).1
      (chargeExecution txNeedChargeGas s.collection tx txExecSeq vm).2.tx :=
    chargeExecution_charged fun needed => (counts needed).2
  have sameTx := @chargeExecution_tx txNeedChargeGas s.collection tx txExecSeq vm
  generalize chargeExecution txNeedChargeGas s.collection tx txExecSeq vm = charge at charged sameTx ⊢
  obtain ⟨collection', call⟩ := charge
  dsimp only at charged sameTx ⊢
  refine ⟨?_, ?_, ?_⟩
  · intro address account' found
    obtain ⟨account, before, grown⟩ := charged.account address account' found
    exact (grown (inv.within address account before)).2
  · intro address account' found
    obtain ⟨account, before, grown⟩ := charged.account address account' found
    have none : chargedTotal txNeedChargeGas s.collection.txAddressCache
        (⟨serial, .running tx txExecSeq⟩ : Execution).stage.entry.toList address = 0 := rfl
    have total := inv.total address account before
    rw [pending_total split, none, Nat.zero_add] at total
    rw [(grown (inv.within address account before)).1, total, pending_enter, chargedTotal_append]
    change _ = chargedTotal txNeedChargeGas collection'.txAddressCache s.snapshot.txTable address +
      (chargedTotal txNeedChargeGas collection'.txAddressCache [call.tx] address + chargedTotal txNeedChargeGas collection'.txAddressCache
          { s with executions := earlier ++ later }.pending address)
    rw [charged.cache, chargedTotal_singleton]
    omega
  · intro closed execution member parallel entry inside
    rcases List.mem_cons.mp member with rfl | old
    · cases inside
      rw [BlockTx.chargedGas, sameTx]
      split
      · next needed =>
        rcases (counts needed).1 with order | unsealed
        · cases order.symm.trans parallel
        · cases unsealed.symm.trans closed
      · rfl
    · exact inv.late closed execution (mem_of_taken split old) parallel entry inside

variable {call : TxApply BlockTx ExecResult} {specialTxType : ExecOrderTxType} {size : Nat}
  {snapshot : SnapshotImpl BlockTx ExecResult ε}

theorem Action.Counts.of_refused (counts : (Action.apply serial call specialTxType).Counts txNeedChargeGas s)
    (refused : s.snapshot.ApplyTxSimContext payloadOf call (applyType serial specialTxType) serial (false, size) snapshot) :
    snapshot = s.snapshot ∧ call.tx.chargedGas txNeedChargeGas = 0 := by
  obtain ⟨same, why⟩ := refused.rejected
  refine ⟨same, ?_⟩
  rcases counts with free | rfl | rfl | ⟨rfl, unsealed, clean⟩
  · exact free
  · simp [applyType] at why
  · cases serial <;> simp [applyType] at why
  · cases serial with
    | true => simp [applyType] at why
    | false =>
      rcases why with ⟨special, _⟩ | ⟨_, closed | ⟨read, inside, conflict⟩⟩
      · simp [applyType] at special
      · simp [unsealed] at closed
      · simp [clean read inside] at conflict

theorem Action.Counts.of_first_run (counts : (Action.apply serial call specialTxType).Counts txNeedChargeGas s)
    (special : applyType serial specialTxType = .special) (parallel : serial = false) :
    call.tx.chargedGas txNeedChargeGas = 0 := by
  subst parallel
  rcases counts with free | order | rfl | ⟨rfl, _⟩
  · exact free
  · cases order
  · simp [applyType] at special
  · simp [applyType] at special

theorem GasSchedule.Inv.reject (inv : s.Inv txNeedChargeGas)
    (split : s.executions = earlier ++ ⟨serial, .executed call specialTxType⟩ :: later)
    (counts : (Action.apply serial call specialTxType).Counts txNeedChargeGas s)
    (refused : s.snapshot.ApplyTxSimContext payloadOf call (applyType serial specialTxType) serial (false, size) snapshot) :
    { s with snapshot := snapshot, executions := earlier ++ later }.Inv txNeedChargeGas := by
  obtain ⟨rfl, free⟩ := counts.of_refused refused
  refine inv.drop split ?_
  intro entry member
  cases member
  exact free

theorem GasSchedule.Inv.accept (inv : s.Inv txNeedChargeGas)
    (split : s.executions = earlier ++ ⟨serial, .executed call specialTxType⟩ :: later)
    (counts : (Action.apply serial call specialTxType).Counts txNeedChargeGas s)
    (accepted : s.snapshot.ApplyTxSimContext payloadOf call (applyType serial specialTxType) serial (true, size) snapshot) :
    { s with snapshot := snapshot, executions := earlier ++ later }.Inv txNeedChargeGas := by
  rcases accepted.cases with ⟨special, parallel, rfl⟩ | ⟨_, applied⟩
  · have kept := inv.drop split (by
      intro entry member
      cases member
      exact counts.of_first_run special parallel)
    exact ⟨kept.within, kept.total, kept.late⟩
  · obtain ⟨table, sealedSame⟩ := applied.txTable_eq
    refine ⟨inv.within, ?_, ?_⟩
    · intro address account found
      have total := inv.total address account found
      rw [pending_total split] at total
      simp only [table, chargedTotal_append, GasSchedule.pending] at total ⊢
      rw [total, Nat.add_assoc]
      rfl
    · intro closed execution member
      exact inv.late (sealedSame ▸ closed) execution (mem_of_taken split member)

end Steps

theorem GasSchedule.Inv.step {action : Action} (inv : s.Inv txNeedChargeGas)
    (step : GasStep txNeedChargeGas s action s') (counts : action.Counts txNeedChargeGas s) :
    s'.Inv txNeedChargeGas := by
  cases step with
  | fetch unsealed queued started => exact (inv.requeue _ _).enter (startExecution_free started)
  | run split => exact inv.run split counts
  | reject split refused => exact (inv.reject split counts refused).requeue _ _
  | accept split accepted => exact inv.accept split counts accepted
  | sealed unsealed =>
    refine ⟨inv.within, inv.total, ?_⟩
    intro _ execution member _ entry inside
    exact counts entry (List.mem_filterMap.mpr ⟨execution, member, inside⟩)
  | serialFetch closed alone queued started =>
    exact (inv.requeue _ _).enter (startExecution_free started)

def GasSchedule.counted (txNeedChargeGas : Transaction → Bool) (s : GasSchedule ε) : List BlockTx :=
  s.snapshot.txTable ++ s.pending.filter (·.chargedGas txNeedChargeGas ≠ 0)

theorem chargedTotal_counted (txAddressCache : AList fun _ : Bytes => Bytes) (address : Bytes) :
    chargedTotal txNeedChargeGas txAddressCache (s.counted txNeedChargeGas) address =
      chargedTotal txNeedChargeGas txAddressCache s.snapshot.txTable address +
        chargedTotal txNeedChargeGas txAddressCache s.pending address := by
  rw [GasSchedule.counted, chargedTotal_append, chargedTotal_filter]

section Counted

variable {serial : Bool} {stage : Stage} {earlier later : List Execution}

theorem counted_enter (free : ∀ entry ∈ stage.entry, entry.chargedGas txNeedChargeGas = 0) :
    (s.enter serial stage).counted txNeedChargeGas = s.counted txNeedChargeGas := by
  have none : stage.entry.toList.filter (·.chargedGas txNeedChargeGas ≠ 0) = [] := by
    simpa using free
  rw [GasSchedule.counted, pending_enter, List.filter_append, none]
  rfl

theorem counted_drop (split : s.executions = earlier ++ ⟨serial, stage⟩ :: later)
    (free : ∀ entry ∈ stage.entry, entry.chargedGas txNeedChargeGas = 0) :
    (s.counted txNeedChargeGas).Perm ({ s with executions := earlier ++ later }.counted txNeedChargeGas) := by
  have none : stage.entry.toList.filter (·.chargedGas txNeedChargeGas ≠ 0) = [] := by
    simpa using free
  refine ((pending_perm split).filter _).append_left _ |>.trans ?_
  rw [List.filter_append, none]
  rfl

end Counted

theorem GasStep.counted_subperm {action : Action} (step : GasStep txNeedChargeGas s action s') (counts : action.Counts txNeedChargeGas s) :
    (s.counted txNeedChargeGas).Subperm (s'.counted txNeedChargeGas) := by
  cases step with
  | fetch unsealed queued started =>
    rw [counted_enter (startExecution_free started)]
    exact List.Subperm.refl _
  | run split =>
    refine (counted_drop split (by simp [Stage.entry])).subperm.trans (List.Sublist.subperm ?_)
    rw [GasSchedule.counted, GasSchedule.counted, pending_enter, List.filter_append]
    exact (List.sublist_append_right _ _).append_left _
  | reject split refused =>
    obtain ⟨rfl, free⟩ := counts.of_refused refused
    exact (counted_drop split (by simp [Stage.entry, free])).subperm
  | accept split accepted =>
    rcases accepted.cases with ⟨special, parallel, rfl⟩ | ⟨_, applied⟩
    · have free := counts.of_first_run special parallel
      exact (counted_drop split (by simp [Stage.entry, free])).subperm
    · refine (((pending_perm split).filter _).append_left _).subperm.trans (List.Sublist.subperm ?_)
      rw [GasSchedule.counted, applied.txTable_eq.1, List.filter_append, List.append_assoc]
      exact (List.filter_sublist.append_right _).append_left _
  | sealed unsealed => exact List.Subperm.refl _
  | serialFetch closed alone queued started =>
    rw [counted_enter (startExecution_free started)]
    exact List.Subperm.refl _

/-- A step whose charge is counted. -/
def CountedStep (txNeedChargeGas : Transaction → Bool) (s s' : GasSchedule ε) : Prop :=
  ∃ action, GasStep txNeedChargeGas s action s' ∧ action.Counts txNeedChargeGas s

theorem GasSchedule.Inv.of_run (empty : snapshot.txTable = [])
    (run : Relation.ReflTransGen (CountedStep txNeedChargeGas) (.init snapshot collection) s) :
    s.Inv txNeedChargeGas := by
  induction run with
  | refl => exact .init empty
  | tail _ step ih =>
    obtain ⟨action, step, counts⟩ := step
    exact ih.step step counts

theorem counted_subperm_of_run (run : Relation.ReflTransGen (CountedStep txNeedChargeGas) s s') :
    (s.counted txNeedChargeGas).Subperm (s'.counted txNeedChargeGas) := by
  induction run with
  | refl => exact List.Subperm.refl _
  | tail _ step ih =>
    obtain ⟨action, step, counts⟩ := step
    exact ih.trans (step.counted_subperm counts)

theorem GasSchedule.Inv.counted_eq (inv : s.Inv txNeedChargeGas) (finished : s.Finished) :
    s.counted txNeedChargeGas = s.snapshot.txTable := by
  have idle : s.pending.filter (·.chargedGas txNeedChargeGas ≠ 0) = [] := by
    rw [List.filter_eq_nil_iff]
    intro entry member
    obtain ⟨execution, inside, executed⟩ := List.mem_filterMap.mp member
    simpa using inv.late finished.1 execution inside (finished.2 execution inside) entry executed
  rw [GasSchedule.counted, idle, List.append_nil]

/-- In a schedule whose steps all meet the condition, the totals are in the end those
of the charged transactions in the table. What a check meets on the way is the gas of
transactions that are in the table in the end. -/
theorem totalGasUsed_eq_committed {snapshot : SnapshotImpl BlockTx ExecResult ε}
    {collection : SenderCollection} {final : GasSchedule ε} (empty : snapshot.txTable = [])
    (before : Relation.ReflTransGen (CountedStep txNeedChargeGas) (.init snapshot collection) s)
    (after : Relation.ReflTransGen (CountedStep txNeedChargeGas) s final)
    (finished : final.Finished) :
    (∀ address account, final.collection.txsMap.lookup address = some account →
      account.totalGasUsed.toNat = chargedTotal txNeedChargeGas final.collection.txAddressCache
        final.snapshot.txTable address) ∧
    ∃ met : List BlockTx, met.Subperm final.snapshot.txTable ∧
      ∀ address account, s.collection.txsMap.lookup address = some account → account.totalGasUsed.toNat =
          chargedTotal txNeedChargeGas s.collection.txAddressCache met address := by
  have last := GasSchedule.Inv.of_run empty (before.trans after)
  have table := last.counted_eq finished
  refine ⟨?_, _, table ▸ counted_subperm_of_run after, ?_⟩
  · intro address account found
    rw [last.total address account found, ← chargedTotal_counted, table]
  · intro address account found
    rw [(GasSchedule.Inv.of_run empty before).total address account found, ← chargedTotal_counted]

section TwoTransactions

private def payingTx (txId : Bytes) : Transaction :=
  ⟨txId, ascii "contract", ascii "method", [], some 10, true⟩

private def gasAccounts (txs : List Transaction) : SenderCollection where
  txsMap := AList.insert (ascii "payer") ⟨100, 0, txs, .success⟩ ∅
  txAddressCache := (AList.insert [1] (ascii "payer") ∅).insert [2] (ascii "payer")
  specialTxTable := []

private def touching (value : Bytes) : VmRun where
  ctx := ⟨2030400, 0, [⟨ascii "contract", ascii "k", value⟩], [⟨ascii "contract", ascii "k", [1]⟩]⟩
  result := ⟨.success, 5⟩
  specialTxType := .normal
  runVmSuccess := true

private def touchingCall (txId : Bytes) (txExecSeq : Nat) (value : Bytes) :
    TxApply BlockTx ExecResult :=
  applyCall (payingTx txId) txExecSeq ((touching value).ctx.getTxRWSet txId true) ⟨.success, 5⟩ true

private def schedule (txs : List Transaction) : GasSchedule Empty :=
  .init (SnapshotImpl.newSnapshot 2030400 [] emptyStore) (gasAccounts txs)

variable (s : GasSchedule Empty)

private def fetched (txId : Bytes) (later : List Transaction) : GasSchedule Empty :=
  { s with runningTxC := later }.enter false (.running (payingTx txId) s.snapshot.getSnapshotSize)

private def ran (txId : Bytes) (txExecSeq : Nat) (value : Bytes) (later : List Execution) : GasSchedule Empty :=
  { s with
    collection :=
      (chargeExecution (fun _ => true) s.collection (payingTx txId) txExecSeq (touching value)).1
    executions := later }.enter false (.executed (touchingCall txId txExecSeq value) .normal)

private def appended (call : TxApply BlockTx ExecResult) (later : List Execution) : GasSchedule Empty :=
  { s with
    snapshot := s.snapshot.applied payloadOf call
      (s.snapshot.appliedReads call.runVmSuccess (finalReadKvs call.txRWSet))
      (finalWriteKvs call.txRWSet)
    executions := later }

private def closed : GasSchedule Empty :=
  { s with
    snapshot := { s.snapshot with isSealed := true }
    serialTxs := s.snapshot.specialTxTable.map (·.tx) ++ s.collection.specialTxTable }

private theorem fetched_step {s : GasSchedule Empty} {txId : Bytes} {later : List Transaction}
    (unsealed : s.snapshot.isSealed = false) (queued : s.runningTxC = payingTx txId :: later)
    (started : s.startExecution (fun _ => true) (payingTx txId) = some (.running (payingTx txId) s.snapshot.getSnapshotSize)) :
    GasStep (fun _ => true) s (.fetch (payingTx txId)) (fetched s txId later) :=
  @GasStep.fetch _ _ _ _ _ [] later unsealed queued started

private theorem appended_step {s : GasSchedule Empty} {call : TxApply BlockTx ExecResult} {earlier later : List Execution}
    (split : s.executions = earlier ++ ⟨false, .executed call .normal⟩ :: later)
    (plain : szContractList.contains (payloadOf call.tx).contractName = false)
    (unsealed : s.snapshot.isSealed = false)
    (clean : ∀ read ∈ call.txRWSet.txReads, s.snapshot.conflicted call.txExecSeq (constructKey read.contractName read.key) = false) :
    GasStep (fun _ => true) s (.apply false call .normal) (appended s call (earlier ++ later)) := by
  have accepted : s.snapshot.accepts call = true := by
    simp only [SnapshotImpl.accepts, Bool.or_eq_true, List.all_eq_true, Bool.not_eq_true']
    exact .inr clean
  refine @GasStep.accept _ _ s false call .normal ((appended s call []).snapshot.getSnapshotSize +
    (appended s call []).snapshot.specialTxTable.length) _ earlier later split ?_
  change s.snapshot.ApplyNormalTxSimContext payloadOf call _ _
  rw [SnapshotImpl.ApplyNormalTxSimContext, if_neg (by rw [plain]; simp),
    if_neg (by simp [unsealed]), if_neg (by simpa using clean), if_pos accepted]
  exact ⟨⟨_, _, ⟨.refl _, .refl _⟩, rfl⟩, rfl⟩

private def fetchedOne : GasSchedule Empty := fetched (schedule [payingTx [1]]) [1] []

private def ranOne : GasSchedule Empty := ran fetchedOne [1] 0 [] []

private def appendedOne : GasSchedule Empty := appended ranOne (touchingCall [1] 0 []) []

theorem totalGasUsed_eq_committed_one :
    Relation.ReflTransGen (CountedStep fun _ => true) (schedule [payingTx [1]]) (closed appendedOne) ∧
      (closed appendedOne).Finished ∧
      ∀ address account, (closed appendedOne).collection.txsMap.lookup address = some account →
        account.totalGasUsed.toNat = chargedTotal (fun _ => true)
          (closed appendedOne).collection.txAddressCache (closed appendedOne).snapshot.txTable
          address := by
  have fetch : CountedStep (fun _ => true) (schedule [payingTx [1]]) fetchedOne :=
    ⟨_, fetched_step rfl rfl rfl, trivial⟩
  have run : CountedStep (fun _ => true) fetchedOne ranOne := by
    refine ⟨_, @GasStep.run _ _ _ _ _ _ (touching []) [] [] rfl, fun _ => ⟨.inr rfl, ?_⟩⟩
    intro address account gasLimit cached found limit
    cases cached
    cases found
    cases limit
    decide
  have apply : CountedStep (fun _ => true) ranOne appendedOne :=
    ⟨_, @appended_step _ _ [] [] rfl rfl rfl (by decide), .inr (.inr (.inr ⟨rfl, rfl, by decide⟩))⟩
  have last : CountedStep (fun _ => true) appendedOne (closed appendedOne) :=
    ⟨_, GasStep.sealed rfl, fun entry member => by cases member⟩
  have finished : (closed appendedOne).Finished := ⟨rfl, fun execution member => by cases member⟩
  have whole := (((Relation.ReflTransGen.single fetch).tail run).tail apply).tail last
  exact ⟨whole, finished, (totalGasUsed_eq_committed rfl .refl whole finished).1⟩

private def running (txId : Bytes) : Execution := ⟨false, .running (payingTx txId) 0⟩

private def executed (txId : Bytes) : Execution := ⟨false, .executed (touchingCall txId 0 []) .normal⟩

private def fetchedBoth : GasSchedule Empty :=
  fetched (fetched (schedule [payingTx [1], payingTx [2]]) [1] [payingTx [2]]) [2] []

private def ranBoth : GasSchedule Empty :=
  ran (ran fetchedBoth [1] 0 [] [running [2]]) [2] 0 [] [executed [1]]

private def appendedFirst : GasSchedule Empty :=
  appended ranBoth (touchingCall [1] 0 []) [executed [2]]

private def refusedSecond : GasSchedule Empty :=
  { appendedFirst with runningTxC := [payingTx [2]], executions := [] }

private def appendedBoth : GasSchedule Empty :=
  appended (ran (fetched refusedSecond [2] []) [2] 1 [1] []) (touchingCall [2] 1 [1]) []

/-- Both transactions read and write one key. The second one is executed again after
its conflict, and the payer is charged for three executions. -/
theorem totalGasUsed_counts_refused_execution :
    Relation.ReflTransGen (fun s s' => ∃ action, GasStep (fun _ => true) s action s')
        (schedule [payingTx [1], payingTx [2]]) (closed appendedBoth) ∧
      (closed appendedBoth).Finished ∧
      ((closed appendedBoth).collection.txsMap.lookup (ascii "payer")).map (·.totalGasUsed) = some 15 ∧
      chargedTotal (fun _ => true) (closed appendedBoth).collection.txAddressCache
        (closed appendedBoth).snapshot.txTable (ascii "payer") = 10 := by
  refine ⟨?_, ⟨rfl, fun execution member => by cases member⟩, by decide, by decide⟩
  have conflict : appendedFirst.snapshot.ApplyNormalTxSimContext payloadOf (touchingCall [2] 0 [])
      (false, 1) appendedFirst.snapshot := by
    rw [SnapshotImpl.ApplyNormalTxSimContext, if_neg (by decide), if_neg (by decide), if_pos (by decide)]
    exact ⟨rfl, rfl⟩
  refine .head ⟨_, fetched_step rfl rfl rfl⟩ (.head ⟨_, fetched_step rfl rfl rfl⟩ ?_)
  refine .head ⟨_, @GasStep.run _ _ fetchedBoth _ _ _ (touching []) [running [2]] [] rfl⟩ ?_
  refine .head ⟨_, @GasStep.run _ _ _ _ _ _ (touching []) [executed [1]] [] rfl⟩ ?_
  refine .head ⟨_, @appended_step ranBoth (touchingCall [1] 0 []) [executed [2]] [] rfl rfl rfl (by decide)⟩ ?_
  refine .head ⟨_, @GasStep.reject _ _ appendedFirst false _ .normal _ _ [] [] rfl conflict⟩ ?_
  refine .head ⟨_, @fetched_step refusedSecond [2] [] rfl rfl rfl⟩ ?_
  refine .head ⟨_, @GasStep.run _ _ _ _ _ _ (touching [1]) [] [] rfl⟩ ?_
  refine .head ⟨_, @appended_step _ (touchingCall [2] 1 [1]) [] [] rfl rfl rfl (by decide)⟩ ?_
  exact .single ⟨_, GasStep.sealed rfl⟩

end TwoTransactions

end Account

end Pdcc.Scheduler.Gas
