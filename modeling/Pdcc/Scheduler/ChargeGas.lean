import Mathlib.Data.UInt
import Pdcc.Scheduler.SenderCollection
import Pdcc.Library.Fallible
import Pdcc.Library.Tally

/-!
# The transaction that charges gas

The proposer appends one transaction to a block that charges every payer the gas
of its transactions. The verifier computes the totals again and compares them
with the parameters.
-/

set_option autoImplicit false

namespace Pdcc.Scheduler.Gas

open Ledger Library

structure BlockTx where
  tx : Transaction
  gasUsed : UInt64
deriving DecidableEq

def chargeGasForMultiAccount : Bytes := ascii "CHARGE_GAS_FOR_MULTI_ACCOUNT"

def BlockTx.isChargeGas (entry : BlockTx) : Bool :=
  entry.tx.contractName = accountManager ∧ entry.tx.method = chargeGasForMultiAccount

section Proposer

variable (payer : Transaction → Option Bytes)

def getTxResultMap (txTable : List BlockTx) : AList fun _ : Bytes => UInt64 :=
  lastAmounts (txTable.map fun entry => (entry.tx.txId, entry.gasUsed))

def SenderCollection.address (collection : SenderCollection) (tx : Transaction) : Option Bytes :=
  match collection.txAddressCache.lookup tx.txId with
  | some address => some address
  | none => payer tx

def address2TotalGas (collection : SenderCollection) (txTable : List BlockTx) :
    AList fun _ : Bytes => UInt64 :=
  tally (txTable.filterMap fun entry =>
    (collection.address payer entry.tx).map fun address =>
      (address, ((getTxResultMap txTable).lookup entry.tx.txId).getD 0))

/-- The total of an account below version 2.3.4: a transaction without a result did
not reach the snapshot in time. The result of a transaction is the one in the map. -/
def TxCollection.totalGas (resultMap : AList fun _ : Bytes => UInt64)
    (txCollection : TxCollection) : Int64 :=
  ((txCollection.txs.filterMap fun tx => resultMap.lookup tx.txId).map (·.toInt64)).sum

def chargeGasParameters (collection : SenderCollection) (txTable : List BlockTx)
    (blockVersion : Nat) : List (Bytes × Bytes) :=
  if blockVersion < blockVersion2340 then
    collection.txsMap.entries.map fun entry =>
      (entry.1, formatInt (entry.2.totalGas (getTxResultMap txTable)).toInt)
  else
    (address2TotalGas payer collection txTable).entries.map fun entry =>
      (entry.1, formatUint entry.2.toNat)

def createChargeGasTx (txId : Bytes) (parameters : List (Bytes × Bytes)) : Transaction where
  txId := txId
  contractName := accountManager
  method := chargeGasForMultiAccount
  parameters := parameters
  gasLimit := some 0
  isInvoke := true

end Proposer

section Verifier

variable (payer : Transaction → Option Bytes)

inductive VerifyError where
  | parseUint (value : Bytes) (error : ParseError)
  | unknownPayer (tx : Transaction)
  | chargeGasTxMissing
  | accountCount (expect got : Nat)
  | accountMissing (address : Bytes)
  | wrongGas (address : Bytes) (expect got : UInt64)
deriving DecidableEq

def readAmount (parameter : Bytes × Bytes) : Except VerifyError (Bytes × UInt64) :=
  match parseUint parameter.2 with
  | .error error => .error (.parseUint parameter.2 error)
  | .ok total => .ok (parameter.1, UInt64.ofNat total)

structure GasMaps where
  gasCalc : AList fun _ : Bytes => UInt64
  gasNeedToCharge : AList fun _ : Bytes => UInt64
  found : Bool

def GasMaps.readTx (maps : GasMaps) (entry : BlockTx) : Except VerifyError GasMaps :=
  if entry.isChargeGas then
    match entry.tx.parameters.mapM readAmount with
    | .error error => .error error
    | .ok amounts => .ok { maps with
        gasNeedToCharge := amounts.foldl (fun m amount => m.insert amount.1 amount.2)
          maps.gasNeedToCharge
        found := true }
  else
    match payer entry.tx with
    | none => .error (.unknownPayer entry.tx)
    | some address => .ok { maps with gasCalc := addTo maps.gasCalc address entry.gasUsed }

def GasMaps.compareAccount (maps : GasMaps) (address : Bytes) (totalGasCalc : UInt64) :
    Except VerifyError Unit :=
  match maps.gasNeedToCharge.lookup address with
  | none => .error (.accountMissing address)
  | some totalGasNeedToCharge =>
    if totalGasCalc ≠ totalGasNeedToCharge then
      .error (.wrongGas address totalGasCalc totalGasNeedToCharge)
    else .ok ()

def GasMaps.compare (maps : GasMaps) : Except VerifyError Unit :=
  if maps.found = false then .error .chargeGasTxMissing
  else if maps.gasCalc.entries.length ≠ maps.gasNeedToCharge.entries.length then
    .error (.accountCount maps.gasCalc.entries.length maps.gasNeedToCharge.entries.length)
  else forM maps.gasCalc.entries fun entry => maps.compareAccount entry.1 entry.2

def verifyOptimizeChargeGasTx (block : List BlockTx) : Except VerifyError Unit :=
  if block.isEmpty then .ok ()
  else do
    let maps ← block.foldlM (GasMaps.readTx payer) ⟨∅, ∅, false⟩
    maps.compare

end Verifier

section Accepted

variable {payer : Transaction → Option Bytes}

def namedAmounts (parameters : List (Bytes × Bytes)) : List (Bytes × UInt64) :=
  parameters.filterMap fun parameter => (readAmount parameter).toOption

def readValue (text : Bytes) : UInt64 := UInt64.ofNat ((parseUint text).toOption.getD 0)

theorem namedAmounts_eq {parameters : List (Bytes × Bytes)}
    (readable : ∀ parameter ∈ parameters, ∃ amount, readAmount parameter = .ok amount) :
    namedAmounts parameters = parameters.map fun parameter =>
      (parameter.1, readValue parameter.2) := by
  rw [namedAmounts, ← List.filterMap_eq_map]
  refine List.filterMap_congr ?_
  intro parameter member
  obtain ⟨amount, read⟩ := readable parameter member
  unfold readAmount at read ⊢
  cases parsed : parseUint parameter.2 with
  | error error => simp [parsed] at read
  | ok total => simp [readValue, parsed, Except.toOption]

def gasNamed (block : List BlockTx) : List (Bytes × UInt64) :=
  block.flatMap fun entry => if entry.isChargeGas then namedAmounts entry.tx.parameters else []

variable (payer)

def gasPaid (block : List BlockTx) : List (Bytes × UInt64) :=
  block.filterMap fun entry =>
    if entry.isChargeGas then none else (payer entry.tx).map fun address => (address, entry.gasUsed)

def BlockTx.Readable (entry : BlockTx) : Prop :=
  if entry.isChargeGas then
    ∀ parameter ∈ entry.tx.parameters, ∃ amount, readAmount parameter = .ok amount
  else ∃ address, payer entry.tx = some address

theorem uint64_sum_toNat (amounts : List UInt64) : amounts.sum.toNat = (amounts.map (·.toNat)).sum % 2 ^ 64 := by
  induction amounts with
  | nil => rfl
  | cons amount rest ih =>
    rw [List.sum_cons, List.map_cons, List.sum_cons, UInt64.toNat_add, ih, Nat.add_mod_mod]

def GasMaps.read (maps : GasMaps) (entry : BlockTx) : GasMaps where
  gasCalc := (gasPaid payer [entry]).foldl (fun m paid => addTo m paid.1 paid.2) maps.gasCalc
  gasNeedToCharge := (gasNamed [entry]).foldl (fun m amount => m.insert amount.1 amount.2)
    maps.gasNeedToCharge
  found := maps.found || entry.isChargeGas

variable {payer}

theorem GasMaps.readTx_eq_ok (maps : GasMaps) (entry : BlockTx) (maps' : GasMaps) :
    maps.readTx payer entry = .ok maps' ↔ entry.Readable payer ∧ maps.read payer entry = maps' := by
  unfold readTx BlockTx.Readable GasMaps.read gasPaid gasNamed
  by_cases charge : entry.isChargeGas = true
  · simp only [if_pos charge]
    cases amounts : entry.tx.parameters.mapM readAmount with
    | error error =>
      have unreadable : ¬ ∀ parameter ∈ entry.tx.parameters, ∃ amount, readAmount parameter = .ok amount := by
        intro readable
        have ok := mapM_eq_ok.mpr ⟨readable, rfl⟩
        rw [amounts] at ok
        cases ok
      simp only [unreadable, false_and, reduceCtorEq]
    | ok named =>
      obtain ⟨readable, same⟩ := mapM_eq_ok.mp amounts
      rw [and_iff_right readable]
      simp [charge, namedAmounts, same]
  · simp only [if_neg charge]
    cases resolved : payer entry.tx with
    | none => simp
    | some address => simp [charge, resolved]

theorem foldl_read (block : List BlockTx) (maps : GasMaps) :
    block.foldl (GasMaps.read payer) maps = {
      gasCalc := (gasPaid payer block).foldl (fun m paid => addTo m paid.1 paid.2) maps.gasCalc
      gasNeedToCharge := (gasNamed block).foldl (fun m amount => m.insert amount.1 amount.2) maps.gasNeedToCharge
      found := maps.found || block.any (·.isChargeGas) } := by
  induction block generalizing maps with
  | nil => simp [gasPaid, gasNamed]
  | cons entry rest ih =>
    have paid : gasPaid payer (entry :: rest) = gasPaid payer [entry] ++ gasPaid payer rest := by
      rw [gasPaid, gasPaid, gasPaid, ← List.filterMap_append]
      rfl
    have named : gasNamed (entry :: rest) = gasNamed [entry] ++ gasNamed rest := by
      simp [gasNamed]
    rw [List.foldl_cons, ih, paid, named, List.foldl_append, List.foldl_append, List.any_cons]
    simp [GasMaps.read, Bool.or_assoc]

theorem GasMaps.compare_eq_ok (maps : GasMaps) : maps.compare = .ok () ↔ maps.found = true ∧
      ∀ address, maps.gasCalc.lookup address = maps.gasNeedToCharge.lookup address := by
  have account (address : Bytes) (total : UInt64) : maps.compareAccount address total = .ok () ↔
        maps.gasNeedToCharge.lookup address = some total := by
    unfold compareAccount
    cases maps.gasNeedToCharge.lookup address with
    | none => simp
    | some charged => simp [eq_comm]
  rw [← lookups_agree_iff]
  unfold compare
  by_cases found : maps.found = false
  · simp [found]
  · rw [if_neg found]
    by_cases sameLength : maps.gasCalc.entries.length = maps.gasNeedToCharge.entries.length
    · rw [if_neg (not_not_intro sameLength), forM_eq_ok]
      simp [account, sameLength, found]
    · simp [sameLength]

theorem verifyOptimizeChargeGasTx_eq_ok (block : List BlockTx) : verifyOptimizeChargeGasTx payer block = .ok () ↔ block = [] ∨
      (∀ entry ∈ block, entry.Readable payer) ∧ (∃ entry ∈ block, entry.isChargeGas = true) ∧
        ∀ address, (tally (gasPaid payer block)).lookup address = (lastAmounts (gasNamed block)).lookup address := by
  unfold verifyOptimizeChargeGasTx
  by_cases empty : block = []
  · simp [empty]
  · simp only [List.isEmpty_iff, empty, if_false, false_or, bind_eq_ok,
      foldlM_eq_ok GasMaps.readTx_eq_ok, foldl_read, Bool.false_or, GasMaps.compare_eq_ok]
    constructor
    · rintro ⟨_, ⟨readable, rfl⟩, found, agree⟩
      exact ⟨readable, List.any_eq_true.mp found, agree⟩
    · rintro ⟨readable, found, agree⟩
      exact ⟨_, ⟨readable, rfl⟩, List.any_eq_true.mpr found, agree⟩

end Accepted

end Pdcc.Scheduler.Gas
