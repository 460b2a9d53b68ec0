import Pdcc.Scheduler.SenderCollection
import Mathlib.Data.UInt

/-!
# Dispatching the transactions of a payer

Below version 2.3.4 the balance of a payer is reserved while its transactions
are dispatched: each takes its gas limit from what is left, or goes on with a
failure. Balance and limit are compared as signed numbers, so a limit above the
signed range counts as negative: it passes if it is so large that even the
difference stays in range, and the balance grows.
-/

set_option autoImplicit false

namespace Pdcc.Scheduler.Gas

open Ledger Library

section Model

def TxStatusCode.name : TxStatusCode → Bytes
  | success => ascii "SUCCESS"
  | contractFail => ascii "CONTRACT_FAIL"
  | gasLimitNotSet => ascii "GAS_LIMIT_NOT_SET"
  | gasBalanceNotEnoughFailed => ascii "GAS_BALANCE_NOT_ENOUGH_FAILED"
  | getAccountBalanceFailed => ascii "GET_ACCOUNT_BALANCE_FAILED"
  | parseAccountBalanceFailed => ascii "PARSE_ACCOUNT_BALANCE_FAILED"
  | getAccountStatusFailed => ascii "GET_ACCOUNT_STATUS_FAILED"
  | accountStatusFrozen => ascii "ACCOUNT_STATUS_FROZEN"

structure PresetResult where
  code : TxStatusCode
  message : Bytes
deriving DecidableEq

structure QueuedTx where
  tx : Transaction
  result : Option PresetResult
deriving DecidableEq

structure PayerQueue where
  accountBalance : UInt64
  txs : List QueuedTx
  failures : ∀ queued ∈ txs, ∀ result, queued.result = some result → result.code ≠ .success

def preHandleTxCollection (balance : Int) (failure : Option PresetResult)
    (failed : ∀ result, failure = some result → result.code ≠ .success)
    (txs : List Transaction) : PayerQueue where
  accountBalance := UInt64.ofInt balance
  txs := txs.map fun tx => ⟨tx, failure⟩
  failures := by
    intro queued member
    obtain ⟨tx, _, rfl⟩ := List.mem_map.mp member
    exact failed

def preHandleTxCollectionMap2310 (balance : Int) (err : Option Bytes) (txs : List Transaction) :
    PayerQueue :=
  preHandleTxCollection balance
    (err.map fun message => ⟨.contractFail, ascii "get account balance failed: err = " ++ message⟩)
    (by cases err <;> simp) txs

def preHandleTxCollectionMap2312 (balance : Int × TxStatusCode) (txs : List Transaction) :
    PayerQueue :=
  preHandleTxCollection balance.1
    (if balance.2 = .success then none
      else some ⟨balance.2, ascii "get account balance failed: errCode = " ++ balance.2.name⟩)
    (by by_cases read : balance.2 = .success <;> simp [read]) txs

def errMsgOfGasLimitNotSet : Bytes := ascii "field `GasLimit` must be set in payload."

variable (addr : Bytes) (txNeedChargeGas : Transaction → Bool)

def notEnoughBalance : PresetResult :=
  ⟨.gasBalanceNotEnoughFailed,
    ascii "`" ++ addr ++ ascii "` has no enough balance to execute tx."⟩

def dispatchTx (balance : UInt64) (queued : QueuedTx) : UInt64 × QueuedTx :=
  if queued.tx.gasLimit = none ∧ txNeedChargeGas queued.tx = true then
    (balance, { queued with result := some ⟨.gasLimitNotSet, errMsgOfGasLimitNotSet⟩ })
  else if txNeedChargeGas queued.tx = true ∧ queued.result ≠ none then (balance, queued)
  else
    let gasLimit : Int64 :=
      if txNeedChargeGas queued.tx = false then 0 else (queued.tx.gasLimit.getD 0).toInt64
    if balance.toInt64 - gasLimit < 0 then
      (balance, { queued with result := some (notEnoughBalance addr) })
    else (balance - gasLimit.toUInt64, queued)

def dispatchQueue : UInt64 → List QueuedTx → List QueuedTx
  | _, [] => []
  | balance, queued :: rest =>
    (dispatchTx addr txNeedChargeGas balance queued).2 ::
      dispatchQueue (dispatchTx addr txNeedChargeGas balance queued).1 rest

def dispatchTxsInSenderCollection (txsMap : List (Bytes × PayerQueue)) : List QueuedTx :=
  txsMap.flatMap fun entry =>
    dispatchQueue entry.1 txNeedChargeGas entry.2.accountBalance entry.2.txs

end Model

section Reservation

theorem toInt64_sub_lt_zero_iff {balance : UInt64} (signed : balance.toNat < 2 ^ 63) (gasLimit : UInt64) :
    balance.toInt64 - gasLimit.toInt64 < 0 ↔ balance.toNat < gasLimit.toNat ∧ gasLimit.toNat ≤ 2 ^ 63 + balance.toNat := by
  have balanceValue : balance.toInt64.toInt = (balance.toNat : Int).bmod (2 ^ 64) :=
    BitVec.toInt_eq_toNat_bmod balance.toBitVec
  have limitValue : gasLimit.toInt64.toInt = (gasLimit.toNat : Int).bmod (2 ^ 64) :=
    BitVec.toInt_eq_toNat_bmod gasLimit.toBitVec
  have bound := gasLimit.toNat_lt
  rw [Int64.lt_iff_toInt_lt, Int64.toInt_sub, balanceValue, limitValue]
  simp only [Int.bmod, Int64.toInt_zero]
  omega

variable (addr : Bytes) (txNeedChargeGas : Transaction → Bool)

def QueuedTx.asks (queued : QueuedTx) (gasLimit : UInt64) : Prop :=
  txNeedChargeGas queued.tx = true ∧ queued.result = none ∧ queued.tx.gasLimit = some gasLimit

def acceptedGas (sent : QueuedTx) : Nat :=
  if txNeedChargeGas sent.tx = true ∧ (sent.result.all fun result => result.code = .success) = true
  then (sent.tx.gasLimit.getD 0).toNat else 0

/-- No limit exceeds the balance at its turn by so much that the difference wraps. -/
def LimitsInRange : UInt64 → List QueuedTx → Prop
  | _, [] => True
  | balance, queued :: rest =>
    (∀ gasLimit, queued.asks txNeedChargeGas gasLimit →
      gasLimit.toNat ≤ 2 ^ 63 + balance.toNat) ∧
    LimitsInRange (dispatchTx addr txNeedChargeGas balance queued).1 rest

variable {addr txNeedChargeGas} {balance : UInt64} {queued : QueuedTx}

theorem dispatchTx_idle (signed : balance.toNat < 2 ^ 63) (failed : ∀ result, queued.result = some result → result.code ≠ .success)
    (idle : ∀ gasLimit, ¬ queued.asks txNeedChargeGas gasLimit) :
    (dispatchTx addr txNeedChargeGas balance queued).1 = balance ∧
      acceptedGas txNeedChargeGas (dispatchTx addr txNeedChargeGas balance queued).2 = 0 := by
  cases needed : txNeedChargeGas queued.tx with
  | false =>
    have enough : ¬ balance.toInt64 - (0 : UInt64).toInt64 < 0 := by
      rw [toInt64_sub_lt_zero_iff signed]
      exact fun short => Nat.not_lt_zero _ short.1
    have sent : dispatchTx addr txNeedChargeGas balance queued = (balance, queued) := by
      rw [dispatchTx, if_neg (by simp [needed]), if_neg (by simp [needed])]
      simp only [needed, if_true]
      exact (if_neg enough).trans (congrArg (·, queued) (UInt64.sub_zero balance))
    rw [sent]
    simp [acceptedGas, needed]
  | true =>
    cases limit : queued.tx.gasLimit with
    | none => simp [dispatchTx, acceptedGas, needed, limit]
    | some gasLimit =>
      cases preset : queued.result with
      | none => exact absurd ⟨needed, preset, limit⟩ (idle gasLimit)
      | some result => simp [dispatchTx, acceptedGas, needed, limit, preset, failed result preset]

section Asking

variable {gasLimit : UInt64} (asks : queued.asks txNeedChargeGas gasLimit)
include asks

private theorem dispatchTx_asking : dispatchTx addr txNeedChargeGas balance queued = if balance.toInt64 - gasLimit.toInt64 < 0 then
        (balance, { queued with result := some (notEnoughBalance addr) })
      else (balance - gasLimit, queued) := by
  obtain ⟨needed, unset, limit⟩ := asks
  simp [dispatchTx, needed, unset, limit]

theorem dispatchTx_refused (signed : balance.toNat < 2 ^ 63)
    (short : balance.toNat < gasLimit.toNat) (inRange : gasLimit.toNat ≤ 2 ^ 63 + balance.toNat) :
    (dispatchTx addr txNeedChargeGas balance queued).1 = balance ∧
      acceptedGas txNeedChargeGas (dispatchTx addr txNeedChargeGas balance queued).2 = 0 := by
  rw [dispatchTx_asking asks, if_pos ((toInt64_sub_lt_zero_iff signed gasLimit).mpr ⟨short, inRange⟩)]
  simp [acceptedGas, notEnoughBalance]

theorem dispatchTx_accepted (signed : balance.toNat < 2 ^ 63)
    (passes : gasLimit.toNat ≤ balance.toNat ∨ 2 ^ 63 + balance.toNat < gasLimit.toNat) :
    (dispatchTx addr txNeedChargeGas balance queued).1 = balance - gasLimit ∧
      acceptedGas txNeedChargeGas (dispatchTx addr txNeedChargeGas balance queued).2 = gasLimit.toNat := by
  rw [dispatchTx_asking asks, if_neg (by rw [toInt64_sub_lt_zero_iff signed]; omega)]
  obtain ⟨needed, unset, limit⟩ := asks
  simp [acceptedGas, needed, unset, limit]

end Asking

theorem dispatchTx_signed (signed : balance.toNat < 2 ^ 63) (failed : ∀ result, queued.result = some result → result.code ≠ .success) :
    (dispatchTx addr txNeedChargeGas balance queued).1.toNat < 2 ^ 63 := by
  by_cases asking : ∃ gasLimit, queued.asks txNeedChargeGas gasLimit
  · obtain ⟨gasLimit, asks⟩ := asking
    by_cases passes : gasLimit.toNat ≤ balance.toNat ∨ 2 ^ 63 + balance.toNat < gasLimit.toNat
    · have bound := gasLimit.toNat_lt
      rw [(dispatchTx_accepted asks signed passes).1, UInt64.toNat_sub]
      omega
    · rw [(dispatchTx_refused asks signed (by omega) (by omega)).1]
      exact signed
  · rw [(dispatchTx_idle signed failed (not_exists.mp asking)).1]
    exact signed

theorem dispatchQueue_within_iff {txs : List QueuedTx}
    (failed : ∀ queued ∈ txs, ∀ result, queued.result = some result → result.code ≠ .success)
    (signed : balance.toNat < 2 ^ 63) :
    ((dispatchQueue addr txNeedChargeGas balance txs).map (acceptedGas txNeedChargeGas)).sum ≤
        balance.toNat ↔ LimitsInRange addr txNeedChargeGas balance txs := by
  induction txs generalizing balance with
  | nil => simp [dispatchQueue, LimitsInRange]
  | cons queued rest ih =>
    have failedFirst := failed queued (.head _)
    have signedAfter : (dispatchTx addr txNeedChargeGas balance queued).1.toNat < 2 ^ 63 :=
      dispatchTx_signed signed failedFirst
    have later := ih (fun other member => failed other (.tail _ member)) signedAfter
    rw [dispatchQueue, List.map_cons, List.sum_cons, LimitsInRange, ← later]
    by_cases asking : ∃ gasLimit, queued.asks txNeedChargeGas gasLimit
    · obtain ⟨gasLimit, asks⟩ := asking
      have only : (∀ other, queued.asks txNeedChargeGas other →
          other.toNat ≤ 2 ^ 63 + balance.toNat) ↔ gasLimit.toNat ≤ 2 ^ 63 + balance.toNat := by
        constructor
        · exact fun bounded => bounded gasLimit asks
        · intro bounded other othersAsk
          have same := Option.some.inj (asks.2.2.symm.trans othersAsk.2.2)
          exact same ▸ bounded
      rw [only]
      by_cases passes : gasLimit.toNat ≤ balance.toNat ∨ 2 ^ 63 + balance.toNat < gasLimit.toNat
      · have turn : (dispatchTx addr txNeedChargeGas balance queued).1 = balance - gasLimit ∧ _ :=
          dispatchTx_accepted asks signed passes
        rw [turn.1, turn.2, UInt64.toNat_sub]
        omega
      · have turn : (dispatchTx addr txNeedChargeGas balance queued).1 = balance ∧ _ :=
          dispatchTx_refused asks signed (by omega) (by omega)
        rw [turn.1, turn.2]
        omega
    · have turn : (dispatchTx addr txNeedChargeGas balance queued).1 = balance ∧ _ :=
        dispatchTx_idle signed failedFirst (not_exists.mp asking)
      rw [turn.1, turn.2, Nat.zero_add, and_iff_right]
      intro gasLimit asks
      exact absurd ⟨gasLimit, asks⟩ asking

/-- What is sent on for one payer is a stretch of the whole dispatch, and the
limits accepted there stay within the balance exactly if they are in range. -/
theorem dispatch_reserves_iff (txNeedChargeGas : Transaction → Bool)
    (txsMap : List (Bytes × PayerQueue)) (addr : Bytes) (queue : PayerQueue)
    (collected : (addr, queue) ∈ txsMap) (signed : queue.accountBalance.toNat < 2 ^ 63) :
    dispatchQueue addr txNeedChargeGas queue.accountBalance queue.txs <:+:
        dispatchTxsInSenderCollection txNeedChargeGas txsMap ∧
      (((dispatchQueue addr txNeedChargeGas queue.accountBalance queue.txs).map
          (acceptedGas txNeedChargeGas)).sum ≤ queue.accountBalance.toNat ↔
        LimitsInRange addr txNeedChargeGas queue.accountBalance queue.txs) := by
  refine ⟨?_, dispatchQueue_within_iff queue.failures signed⟩
  obtain ⟨before, after, split⟩ := List.append_of_mem collected
  rw [split, dispatchTxsInSenderCollection, List.flatMap_append, List.flatMap_cons]
  exact ⟨_, _, List.append_assoc _ _ _⟩

end Reservation

section Samples

private def asking (gasLimit : UInt64) : Transaction :=
  ⟨[1], ascii "token", ascii "transfer", [], some gasLimit, true⟩

private def hundred (gasLimits : List UInt64) : PayerQueue :=
  preHandleTxCollectionMap2312 (100, .success) (gasLimits.map asking)

theorem dispatch_reserves_iff_small :
    ((dispatchQueue (ascii "payer") (fun _ => true) 100 (hundred [60, 60, 40]).txs).map
      (acceptedGas fun _ => true)).sum ≤ 100 := by
  have reserved := (dispatch_reserves_iff (fun _ => true)
    [(ascii "payer", hundred [60, 60, 40])] (ascii "payer") (hundred [60, 60, 40]) (.head _)
    (by decide)).2.mpr
  refine reserved ?_
  refine ⟨?_, ?_, ?_, trivial⟩
  all_goals
    intro gasLimit asks
    cases asks.2.2
    decide

/-- A limit of `2 ^ 64 - 1` is minus one to the check: it passes and the balance
grows. -/
theorem dispatch_accepts_overdraft :
    dispatchQueue (ascii "payer") (fun _ => true) (hundred [18446744073709551615, 101]).accountBalance
        (hundred [18446744073709551615, 101]).txs =
      (hundred [18446744073709551615, 101]).txs ∧
    (hundred [18446744073709551615, 101]).accountBalance = 100 ∧
    ((dispatchQueue (ascii "payer") (fun _ => true) 100
      (hundred [18446744073709551615, 101]).txs).map (acceptedGas fun _ => true)).sum =
        18446744073709551716 := by
  decide

end Samples

end Pdcc.Scheduler.Gas
