import Pdcc.Scheduler.ChargeGas
import Mathlib.Algebra.Order.Floor.Semiring
import Mathlib.Data.NNRat.Floor

/-!
# Adding up gas

The gas of a transaction is put together from a base amount and prices for the data
it carries, reads, writes and emits, and the gas of a payer from its transactions.
Every product is checked for overflow, the additions are plain `uint64` ones.
-/

set_option autoImplicit false

namespace Pdcc.Scheduler.Gas

open Ledger Library

section Pricing

structure Pricing (Price ε : Type) where
  multiplyGasPrice : Nat → Price → Except ε UInt64
  product : Nat → Price → Nat
  exact : ∀ dataSize gasPrice gas, multiplyGasPrice dataSize gasPrice = .ok gas →
    gas.toNat = product dataSize gasPrice

inductive PriceError where
  | overflow (gas : Nat)
  deriving DecidableEq, Repr

def decimalPricing : Pricing ℚ≥0 PriceError where
  multiplyGasPrice dataSize gasPrice :=
    if ⌈dataSize * gasPrice⌉₊ < 2 ^ 64 then .ok (UInt64.ofNat ⌈dataSize * gasPrice⌉₊)
    else .error (.overflow ⌈dataSize * gasPrice⌉₊)
  product dataSize gasPrice := ⌈dataSize * gasPrice⌉₊
  exact dataSize gasPrice gas priced := by
    split at priced
    · next small =>
      cases priced
      exact UInt64.toNat_ofNat_of_lt small
    · cases priced

structure GasConfig (Price : Type) where
  baseGasForInstall : UInt64
  baseGasForInvoke : UInt64
  gasPriceForInstall : Price
  gasPriceForInvoke : Price

end Pricing

section Model

def blockVersion2312 : Nat := 2030102

def nativeContracts : List Bytes :=
  ["CHAIN_CONFIG", "CHAIN_QUERY", "CERT_MANAGE", "GOVERNANCE", "MULTI_SIGN", "CONTRACT_MANAGE",
    "PRIVATE_COMPUTE", "DPOS_ERC20", "DPOS_STAKE", "SUBSCRIBE_MANAGE", "ARCHIVE_MANAGE",
    "CROSS_TRANSACTION", "PUBKEY_MANAGE", "ACCOUNT_MANAGER", "RELAY_CROSS", "TRANSACTION_MANAGER",
    "TX_ASSIGN", "T", "REAL_ESTATE", "RECEPIT", "DECLARATION", "EXPORT_REBATE", "SOCIAL_SECURITY",
    "ENDORSEMENT"].map ascii

def isNativeContract (contractName : Bytes) : Bool := nativeContracts.contains contractName

def parameterValue (parameters : List (Bytes × Bytes)) (key : Bytes) : Bytes :=
  parameters.foldl (fun found kvPair => if kvPair.1 = key then kvPair.2 else found) []

def installs (contractName method : Bytes) : Bool :=
  contractName = ascii "CONTRACT_MANAGE" &&
    (method = ascii "INIT_CONTRACT" || method = ascii "UPGRADE_CONTRACT")

inductive GasKind where
  | install
  | invoke
  | free
  deriving DecidableEq, Repr

def gasKind (tx : Transaction) : GasKind :=
  if isNativeContract tx.contractName = false then .invoke
  else if installs tx.contractName tx.method then .install
  else if tx.contractName = ascii "MULTI_SIGN" then
    if tx.method = ascii "REQ" ∧
        installs (parameterValue tx.parameters (ascii "SYS_CONTRACT_NAME"))
          (parameterValue tx.parameters (ascii "SYS_METHOD")) = true then .install
    else .invoke
  else .free

def payloadSize (tx : Transaction) : Nat :=
  tx.contractName.length + tx.method.length + tx.txId.length +
    (tx.parameters.map fun kvPair => kvPair.1.length + kvPair.2.length).sum

variable {Price ε : Type} (pricing : Pricing Price ε)

def calcPayloadGasUsed (baseGas : UInt64) (gasPrice : Price) (tx : Transaction) :
    Except ε UInt64 := do
  let dataGas ← pricing.multiplyGasPrice (payloadSize tx) gasPrice
  .ok (baseGas + dataGas)

def calcInstallTxGasUsed (gasConfig : GasConfig Price) : Transaction → Except ε UInt64 :=
  calcPayloadGasUsed pricing gasConfig.baseGasForInstall gasConfig.gasPriceForInstall

def calcInvokeTxGasUsed (gasConfig : GasConfig Price) : Transaction → Except ε UInt64 :=
  calcPayloadGasUsed pricing gasConfig.baseGasForInvoke gasConfig.gasPriceForInvoke

variable (blockVersion : Nat) (gasConfig : Option (GasConfig Price))

def calcTxGasUsed (tx : Transaction) : Except ε UInt64 :=
  if blockVersion < blockVersion2312 then .ok 0
  else match gasConfig with
    | none => .ok 0
    | some gasConfig =>
      match gasKind tx with
      | .install => calcInstallTxGasUsed pricing gasConfig tx
      | .invoke => calcInvokeTxGasUsed pricing gasConfig tx
      | .free => .ok 0

def itemSize (contractName key value : Bytes) : Nat :=
  contractName.length + ((key.splitOn 35).map List.length).sum + value.length

def rwSetSize (rwSet : TxRWSet) : Nat :=
  ((rwSet.txReads.filter fun txRead => !isNativeContract txRead.contractName).map fun txRead =>
      itemSize txRead.contractName txRead.key txRead.value).sum +
    ((rwSet.txWrites.filter fun txWrite => !isNativeContract txWrite.contractName).map fun txWrite =>
      itemSize txWrite.contractName txWrite.key txWrite.value).sum

structure ContractEvent where
  contractName : Bytes
  contractVersion : Bytes
  topic : Bytes
  eventData : List Bytes
  deriving DecidableEq, Repr

def eventsSize (events : List ContractEvent) : Nat :=
  ((events.filter fun event => !isNativeContract event.contractName).map fun event =>
    event.contractName.length + event.contractVersion.length + event.topic.length +
      (event.eventData.map List.length).sum).sum

def calcInvokeDataGas (dataSize : Nat) : Except ε UInt64 :=
  if blockVersion < blockVersion2312 then .ok 0
  else match gasConfig with
    | none => .ok 0
    | some gasConfig => pricing.multiplyGasPrice dataSize gasConfig.gasPriceForInvoke

def calcTxRWSetGasUsed (rwSet : TxRWSet) : Except ε UInt64 :=
  calcInvokeDataGas pricing blockVersion gasConfig (rwSetSize rwSet)

def calcTxEventGasUsed (events : List ContractEvent) : Except ε UInt64 :=
  calcInvokeDataGas pricing blockVersion gasConfig (eventsSize events)

structure VmReport where
  success : Bool
  gasUsed : UInt64
  contractEvent : List ContractEvent

inductive RunError (ε : Type) where
  | refused (cause : ε)
  | limitMissing (gasUsed : UInt64)
  | limitNotEnough (limit : UInt64)
  | refund (gasUsed : UInt64) (cause : ε)
  | contract (gasUsed : UInt64)
  deriving DecidableEq, Repr

structure VmCalls (ε : Type) where
  enableGas : Bool
  enableOptimizeChargeGas : Bool
  prepare : Except ε Unit
  chargeGasLimit : Except ε Unit
  runContract : UInt64 → VmReport
  getTxRWSet : Bool → TxRWSet
  checkNativeFilter : Bool
  refundGas : UInt64 → Except (UInt64 × ε) Unit

variable (v : VmCalls ε)

def VmCalls.checkRefundGas (tx : Transaction) (gasUsed : UInt64) : Except (RunError ε) Unit :=
  match tx.gasLimit with
  | none => .error (.limitMissing gasUsed)
  | some limit =>
    if limit < gasUsed then .error (.limitNotEnough limit)
    else if v.enableOptimizeChargeGas then .ok ()
    else (v.refundGas gasUsed).mapError fun failed => .refund failed.1 failed.2

def VmCalls.settle (tx : Transaction) (success : Bool) (gasUsed : UInt64) :
    Except (RunError ε) UInt64 :=
  if v.enableGas ∧ v.checkNativeFilter = false then .ok gasUsed
  else do
    (if v.enableGas then v.checkRefundGas tx gasUsed else .ok ())
    if success then .ok gasUsed else .error (.contract gasUsed)

def VmCalls.runVM2300 (tx : Transaction) : Except (RunError ε) UInt64 := do
  v.prepare.mapError .refused
  (if v.enableGas && !v.enableOptimizeChargeGas then v.chargeGasLimit else .ok ()).mapError .refused
  let gasUsed ← (calcTxGasUsed pricing blockVersion gasConfig tx).mapError .refused
  let report := v.runContract gasUsed
  let gasRWSet ← (calcTxRWSetGasUsed pricing blockVersion gasConfig
    (v.getTxRWSet report.success)).mapError .refused
  let gasEvents ← (calcTxEventGasUsed pricing blockVersion gasConfig
    report.contractEvent).mapError .refused
  v.settle tx report.success (report.gasUsed + gasRWSet + gasEvents)

end Model

section Exact

variable {Price ε : Type} (pricing : Pricing Price ε) (gasConfig : Option (GasConfig Price))

def txGas (tx : Transaction) : Nat :=
  match gasConfig with
  | none => 0
  | some gasConfig =>
    match gasKind tx with
    | .install => gasConfig.baseGasForInstall.toNat +
        pricing.product (payloadSize tx) gasConfig.gasPriceForInstall
    | .invoke => gasConfig.baseGasForInvoke.toNat +
        pricing.product (payloadSize tx) gasConfig.gasPriceForInvoke
    | .free => 0

def invokeDataGas (dataSize : Nat) : Nat :=
  match gasConfig with
  | none => 0
  | some gasConfig => pricing.product dataSize gasConfig.gasPriceForInvoke

def runGas (rwSet : TxRWSet) (report : VmReport) : Nat :=
  report.gasUsed.toNat + invokeDataGas pricing gasConfig (rwSetSize rwSet) +
    invokeDataGas pricing gasConfig (eventsSize report.contractEvent)

variable {pricing} {blockVersion : Nat} {gasConfig : Option (GasConfig Price)} {tx : Transaction}
  {gas : UInt64}

theorem calcPayloadGasUsed_toNat {baseGas : UInt64} {gasPrice : Price}
    (calculated : calcPayloadGasUsed pricing baseGas gasPrice tx = .ok gas) :
    gas.toNat = (baseGas.toNat + pricing.product (payloadSize tx) gasPrice) % 2 ^ 64 := by
  obtain ⟨dataGas, priced, same⟩ := bind_eq_ok.mp calculated
  cases same
  rw [UInt64.toNat_add, pricing.exact _ _ _ priced]

theorem calcTxGasUsed_toNat (version : blockVersion2312 ≤ blockVersion)
    (calculated : calcTxGasUsed pricing blockVersion gasConfig tx = .ok gas) :
    gas.toNat = txGas pricing gasConfig tx % 2 ^ 64 := by
  unfold calcTxGasUsed at calculated
  rw [if_neg (by omega)] at calculated
  cases gasConfig with
  | none =>
    cases calculated
    rfl
  | some gasConfig =>
    unfold txGas
    cases kind : gasKind tx with
    | install =>
      simp only [kind] at calculated
      exact calcPayloadGasUsed_toNat calculated
    | invoke =>
      simp only [kind] at calculated
      exact calcPayloadGasUsed_toNat calculated
    | free =>
      simp only [kind] at calculated
      cases calculated
      rfl

theorem calcInvokeDataGas_toNat (version : blockVersion2312 ≤ blockVersion) {dataSize : Nat}
    (calculated : calcInvokeDataGas pricing blockVersion gasConfig dataSize = .ok gas) :
    gas.toNat = invokeDataGas pricing gasConfig dataSize := by
  unfold calcInvokeDataGas at calculated
  rw [if_neg (by omega)] at calculated
  cases gasConfig with
  | none =>
    cases calculated
    rfl
  | some gasConfig => exact pricing.exact _ _ _ calculated

variable {v : VmCalls ε}

theorem settle_eq {success : Bool} {gasUsed : UInt64} (settled : v.settle tx success gasUsed = .ok gas) : gas = gasUsed := by
  unfold VmCalls.settle at settled
  split at settled
  · cases settled
    rfl
  · obtain ⟨_, _, settled⟩ := bind_eq_ok.mp settled
    split at settled
    · cases settled
      rfl
    · cases settled

theorem runVM2300_toNat (version : blockVersion2312 ≤ blockVersion) {gasUsed : UInt64}
    (calculated : calcTxGasUsed pricing blockVersion gasConfig tx = .ok gasUsed)
    (ran : v.runVM2300 pricing blockVersion gasConfig tx = .ok gas) :
    gas.toNat = runGas pricing gasConfig (v.getTxRWSet (v.runContract gasUsed).success) (v.runContract gasUsed) % 2 ^ 64 := by
  obtain ⟨_, _, ran⟩ := bind_eq_ok.mp ran
  obtain ⟨_, _, ran⟩ := bind_eq_ok.mp ran
  obtain ⟨used, charged, ran⟩ := bind_eq_ok.mp ran
  obtain ⟨gasRWSet, forRWSet, ran⟩ := bind_eq_ok.mp ran
  obtain ⟨gasEvents, forEvents, settled⟩ := bind_eq_ok.mp ran
  rw [mapError_eq_ok, calculated, Except.ok.injEq] at charged
  subst charged
  rw [settle_eq settled, UInt64.toNat_add, UInt64.toNat_add, Nat.mod_add_mod, runGas,
    calcInvokeDataGas_toNat version (mapError_eq_ok.mp forRWSet),
    calcInvokeDataGas_toNat version (mapError_eq_ok.mp forEvents)]

def payerGas (payer : Transaction → Option Bytes) (collection : SenderCollection)
    (txTable : List BlockTx) (address : Bytes) : List UInt64 :=
  (txTable.filter fun entry => collection.address payer entry.tx = some address).map fun entry =>
    ((getTxResultMap txTable).lookup entry.tx.txId).getD 0

theorem address2TotalGas_toNat {payer : Transaction → Option Bytes} {collection : SenderCollection}
    {txTable : List BlockTx} {address : Bytes} {total : UInt64}
    (found : (address2TotalGas payer collection txTable).lookup address = some total) :
    total.toNat = ((payerGas payer collection txTable address).map (·.toNat)).sum % 2 ^ 64 := by
  rw [address2TotalGas, tally_lookup, amountsOf_filterMap] at found
  split at found
  · cases found
  · cases found
    rw [uint64_sum_toNat]
    rfl

/-- Every reported amount is exact when its sum fits into 64 bits, and only then: no sum is
rejected. -/
theorem gasSums_exact_iff (pricing : Pricing Price ε) (v : VmCalls ε)
    (gasConfig : Option (GasConfig Price)) (tx : Transaction) {blockVersion : Nat}
    (version : blockVersion2312 ≤ blockVersion) :
    (∀ gas, calcTxGasUsed pricing blockVersion gasConfig tx = .ok gas →
      (gas.toNat = txGas pricing gasConfig tx ↔ txGas pricing gasConfig tx < 2 ^ 64)) ∧
    (∀ gasUsed gas, calcTxGasUsed pricing blockVersion gasConfig tx = .ok gasUsed →
      v.runVM2300 pricing blockVersion gasConfig tx = .ok gas →
      let sum := runGas pricing gasConfig (v.getTxRWSet (v.runContract gasUsed).success) (v.runContract gasUsed)
      (gas.toNat = sum ↔ sum < 2 ^ 64)) ∧
    (blockVersion2340 ≤ blockVersion → ∀ payer collection txTable,
      ∀ parameter ∈ chargeGasParameters payer collection txTable blockVersion,
        let sum := ((payerGas payer collection txTable parameter.1).map (·.toNat)).sum
        ∃ total : UInt64, parameter.2 = formatUint total.toNat ∧ (total.toNat = sum ↔ sum < 2 ^ 64)) := by
  refine ⟨?_, ?_, ?_⟩
  · intro gas calculated
    rw [calcTxGasUsed_toNat version calculated]
    exact Nat.mod_eq_iff_lt (by decide)
  · intro gasUsed gas calculated ran
    rw [runVM2300_toNat version calculated ran]
    exact Nat.mod_eq_iff_lt (by decide)
  · intro recent payer collection txTable parameter member
    rw [chargeGasParameters, if_neg (by omega)] at member
    obtain ⟨entry, listed, rfl⟩ := List.mem_map.mp member
    refine ⟨entry.2, rfl, ?_⟩
    rw [address2TotalGas_toNat (AList.mem_lookup_iff.mpr listed)]
    exact Nat.mod_eq_iff_lt (by decide)

def callTx (txId : Bytes) : Transaction := ⟨txId, ascii "c", ascii "m", [], none, true⟩

def invokeConfig (baseGas : UInt64) : GasConfig ℚ≥0 := ⟨0, baseGas, 1, 1⟩

def writingVm (gasUsed : UInt64) : VmCalls PriceError where
  enableGas := false
  enableOptimizeChargeGas := false
  prepare := .ok ()
  chargeGasLimit := .ok ()
  runContract _ := ⟨true, gasUsed, []⟩
  getTxRWSet _ := ⟨[1], [], [⟨ascii "c", ascii "k", [7]⟩]⟩
  checkNativeFilter := true
  refundGas _ := .ok ()

theorem gasSums_exact_small :
    calcTxGasUsed decimalPricing blockVersion2340 (some (invokeConfig 10)) (callTx [1]) = .ok 13 ∧
      (13 : UInt64).toNat = txGas decimalPricing (some (invokeConfig 10)) (callTx [1]) := by
  have calculated : calcTxGasUsed decimalPricing blockVersion2340 (some (invokeConfig 10))
      (callTx [1]) = .ok 13 := by decide +kernel
  obtain ⟨exact, _, _⟩ := gasSums_exact_iff decimalPricing (writingVm 0) (some (invokeConfig 10))
    (callTx [1]) (by decide : blockVersion2312 ≤ blockVersion2340)
  exact ⟨calculated, (exact 13 calculated).mpr (by decide +kernel)⟩

/-- Each of the three sums wraps: a base gas of 2^64 - 1, the same amount from the virtual
machine, and two transactions of a payer with 2^63 each. -/
theorem gasSums_wrap :
    calcTxGasUsed decimalPricing blockVersion2340 (some (invokeConfig 18446744073709551615))
        (callTx [1]) = .ok 2 ∧
      txGas decimalPricing (some (invokeConfig 18446744073709551615)) (callTx [1]) = 2 ^ 64 + 2 ∧
      (writingVm 18446744073709551615).runVM2300 decimalPricing blockVersion2340
        (some (invokeConfig 0)) (callTx [1]) = .ok 2 ∧
      runGas decimalPricing (some (invokeConfig 0)) ((writingVm 18446744073709551615).getTxRWSet true)
        ((writingVm 18446744073709551615).runContract 3) = 2 ^ 64 + 2 ∧
      chargeGasParameters (fun _ => some (ascii "payer")) ⟨∅, ∅, []⟩
        [⟨callTx [1], 9223372036854775808⟩, ⟨callTx [2], 9223372036854775808⟩] blockVersion2340 =
          [(ascii "payer", ascii "0")] := by
  refine ⟨by decide +kernel, by decide +kernel, by decide +kernel, by decide +kernel, ?_⟩
  decide +kernel

end Exact

end Pdcc.Scheduler.Gas
