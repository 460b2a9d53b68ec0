import Pdcc.Scheduler.ChargeGas

/-!
# Charging the accounts of a block

The native contract behind a charge takes the amounts of its parameter map from
the stored balances. What a verified block takes from a payer in total is compared
with the gas of the payer's transactions.
-/

set_option autoImplicit false

namespace Pdcc.Scheduler.Gas

open Ledger Library

section Native

abbrev Accounts := Bytes → Bytes

def getAccountBalance (gas : Bytes) : Option Int :=
  if gas = [] then some 0
  else
    match parseInt gas with
    | .error _ => none
    | .ok gasBalance => if gasBalance < 0 then none else some gasBalance

def chargeAccount (accounts : Accounts) (address : Bytes) (chargeGasAmount : Int) :
    Option Accounts :=
  match getAccountBalance (accounts address) with
  | none => none
  | some gasBalance =>
    if gasBalance < 0 then none
    else if chargeGasAmount < 0 then none
    else if gasBalance - chargeGasAmount < 0 then none
    else if maxKeyLength < (accountPrefix ++ address).length then none
    else some (Function.update accounts address (formatInt (gasBalance - chargeGasAmount)))

def chargeParameter (s : Accounts × Bool) (address chargeGasAmountBytes : Bytes) :
    Accounts × Bool :=
  match parseInt chargeGasAmountBytes with
  | .error _ => (s.1, true)
  | .ok chargeGasAmount =>
    match chargeAccount s.1 address chargeGasAmount with
    | none => (s.1, true)
    | some accounts => (accounts, s.2)

def chargeGasVmForMultiAccount (accounts : Accounts) (params : AList fun _ : Bytes => Bytes) :
    Option Accounts :=
  let (accounts, hasError) :=
    params.entries.foldl (fun s param => chargeParameter s param.1 param.2) (accounts, false)
  if hasError then none else some accounts

def executeChargeGasTx (accounts : Accounts) (tx : Transaction) : Option Accounts :=
  chargeGasVmForMultiAccount accounts (lastAmounts tx.parameters)

end Native

section Charged

def balanceOf (gas : Bytes) : Int := (getAccountBalance gas).getD 0

def amountOf (chargeGasAmountBytes : Bytes) : Int :=
  (parseInt chargeGasAmountBytes).toOption.getD 0

theorem getAccountBalance_lt {gas : Bytes} {gasBalance : Int} (read : getAccountBalance gas = some gasBalance) : gasBalance < 2 ^ 63 := by
  unfold getAccountBalance at read
  split at read
  · cases read
    decide
  · cases parsed : parseInt gas with
    | error error => simp [parsed] at read
    | ok value =>
      have bound := parseInt_lt parsed
      simp only [parsed, Option.ite_none_left_eq_some, Option.some.injEq] at read
      omega

theorem balanceOf_formatInt {balance : Int} (nonneg : 0 ≤ balance) (small : balance < 2 ^ 63) : balanceOf (formatInt balance) = balance := by
  have parsed := parseUint_formatInt nonneg (by omega)
  have signed := parseInt_of_parseUint parsed
  rw [if_neg (by omega), Int.toNat_of_nonneg nonneg] at signed
  have nonempty : formatInt balance ≠ [] := by
    intro empty
    rw [empty] at parsed
    cases parsed
  rw [balanceOf, getAccountBalance, if_neg nonempty, signed]
  simp [not_lt.mpr nonneg]

theorem chargeAccount_balanceOf {accounts accounts' : Accounts} {address : Bytes} {amount : Int}
    (charged : chargeAccount accounts address amount = some accounts') (payer : Bytes) :
    balanceOf (accounts payer) - balanceOf (accounts' payer) = if address = payer then amount else 0 := by
  unfold chargeAccount at charged
  cases read : getAccountBalance (accounts address) with
  | none => simp [read] at charged
  | some gasBalance =>
    have bound := getAccountBalance_lt read
    simp only [read, Option.ite_none_left_eq_some, Option.some.injEq, not_lt] at charged
    obtain ⟨_, nonneg, covered, _, rfl⟩ := charged
    by_cases same : address = payer
    · subst same
      rw [Function.update_self, balanceOf_formatInt covered (by omega), balanceOf, read, Option.getD_some, if_pos rfl]
      omega
    · rw [Function.update_of_ne (Ne.symm same), if_neg same, sub_self]

theorem chargeParameter_eq {s s' : Accounts × Bool} {address text : Bytes}
    (charged : chargeParameter s address text = s') (noError : s'.2 = false) :
    s.2 = false ∧ (∃ amount, parseInt text = .ok amount) ∧ ∀ payer,
      balanceOf (s.1 payer) - balanceOf (s'.1 payer) = if address = payer then amountOf text else 0 := by
  subst charged
  unfold chargeParameter at noError ⊢
  cases parsed : parseInt text with
  | error error => simp [parsed] at noError
  | ok amount =>
    cases account : chargeAccount s.1 address amount with
    | none => simp [parsed, account] at noError
    | some accounts =>
      simp only [parsed, account] at noError ⊢
      refine ⟨noError, ⟨amount, rfl⟩, ?_⟩
      intro payer
      rw [chargeAccount_balanceOf account payer, amountOf, parsed]
      rfl

theorem foldl_chargeParameter {params : List (Sigma fun _ : Bytes => Bytes)} {s s' : Accounts × Bool}
    (charged : params.foldl (fun s param => chargeParameter s param.1 param.2) s = s')
    (noError : s'.2 = false) :
    s.2 = false ∧ (∀ param ∈ params, ∃ amount, parseInt param.2 = .ok amount) ∧ ∀ payer,
      balanceOf (s.1 payer) - balanceOf (s'.1 payer) = ((params.lookupAll payer).map amountOf).sum := by
  induction params generalizing s with
  | nil =>
    cases charged
    exact ⟨noError, by simp, by simp⟩
  | cons param rest ih =>
    obtain ⟨midError, readable, later⟩ := ih charged
    obtain ⟨startError, parsed, here⟩ := chargeParameter_eq rfl midError
    refine ⟨startError, List.forall_mem_cons.mpr ⟨parsed, readable⟩, ?_⟩
    intro payer
    rw [← sub_add_sub_cancel _ (balanceOf ((chargeParameter s param.1 param.2).1 payer)), later payer, here payer]
    by_cases same : param.1 = payer
    · subst same
      rw [if_pos rfl, List.lookupAll_cons_eq, List.map_cons, List.sum_cons]
    · rw [if_neg same, List.lookupAll_cons_ne _ _ (Ne.symm same), zero_add]

theorem lookupAll_entries (m : AList fun _ : Bytes => Bytes) (key : Bytes) : m.entries.lookupAll key = (m.lookup key).toList := by
  have short := List.lookupAll_length_le_one key m.nodupKeys
  have first : (m.entries.lookupAll key).head? = m.lookup key := List.head?_lookupAll key _
  rw [← first]
  cases all : m.entries.lookupAll key with
  | nil => rfl
  | cons value rest =>
    rw [all, List.length_cons] at short
    rw [List.eq_nil_of_length_eq_zero (by omega : rest.length = 0)]
    rfl

theorem executeChargeGasTx_balanceOf {accounts accounts' : Accounts} {tx : Transaction}
    (executed : executeChargeGasTx accounts tx = some accounts') :
    (∀ address text, (lastAmounts tx.parameters).lookup address = some text → ∃ amount, parseInt text = .ok amount) ∧
    ∀ payer, balanceOf (accounts payer) - balanceOf (accounts' payer) = (((lastAmounts tx.parameters).lookup payer).map amountOf).getD 0 := by
  simp only [executeChargeGasTx, chargeGasVmForMultiAccount, Option.ite_none_left_eq_some, Bool.not_eq_true, Option.some.injEq] at executed
  obtain ⟨noError, rfl⟩ := executed
  obtain ⟨_, readable, charged⟩ := foldl_chargeParameter rfl noError
  refine ⟨fun address text found => readable _ (AList.mem_lookup_iff.mp found), ?_⟩
  intro payer
  rw [charged payer, lookupAll_entries]
  cases (lastAmounts tx.parameters).lookup payer with
  | none => rfl
  | some text => simp

end Charged

section Soundness

variable {payer : Transaction → Option Bytes} {block : List BlockTx}

structure ChargeRun where
  tx : Transaction
  before : Accounts
  after : Accounts
  executed : executeChargeGasTx before tx = some after

def ChargeRun.charged (run : ChargeRun) (address : Bytes) : Int :=
  balanceOf (run.before address) - balanceOf (run.after address)

def chargesTo (block : List BlockTx) (address : Bytes) : List UInt64 :=
  block.filterMap fun entry =>
    if entry.isChargeGas then (lastAmounts (namedAmounts entry.tx.parameters)).lookup address
    else none

def gasUsedBy (payer : Transaction → Option Bytes) (block : List BlockTx) (address : Bytes) : Nat :=
  ((amountsOf (gasPaid payer block) address).map (·.toNat)).sum

theorem chargesTo_getLast? (block : List BlockTx) (address : Bytes) :
    (amountsOf (gasNamed block) address).getLast? = (chargesTo block address).getLast? := by
  rw [gasNamed, amountsOf_flatMap, chargesTo]
  induction block using List.reverseRecOn with
  | nil => rfl
  | append_singleton block entry ih =>
    rw [List.flatMap_append, List.filterMap_append, List.getLast?_append, List.getLast?_append, ih]
    congr 1
    by_cases charge : entry.isChargeGas = true
    · simp only [List.flatMap_singleton, List.filterMap_cons, List.filterMap_nil, if_pos charge, lastAmounts_lookup]
      cases (amountsOf (namedAmounts entry.tx.parameters) address).getLast? with
      | none => rfl
      | some amount => rfl
    · simp [charge, amountsOf]

theorem amountOf_eq {parameter : Bytes × Bytes} {amount : Bytes × UInt64} {signed : Int}
    (read : readAmount parameter = .ok amount) (parsed : parseInt parameter.2 = .ok signed) :
    amountOf parameter.2 = (readValue parameter.2).toNat := by
  unfold readAmount at read
  cases unsigned : parseUint parameter.2 with
  | error error => simp [unsigned] at read
  | ok total =>
    have same := parseInt_of_parseUint unsigned
    rw [parsed] at same
    split at same
    · cases same
    · cases same
      rw [amountOf, parsed, readValue, unsigned]
      simp only [Except.toOption, Option.getD_some, UInt64.toNat_ofNat']
      omega

theorem ChargeRun.charged_eq (run : ChargeRun) (readable : ∀ parameter ∈ run.tx.parameters, ∃ amount, readAmount parameter = .ok amount)
    (address : Bytes) :
    run.charged address = (((lastAmounts (namedAmounts run.tx.parameters)).lookup address).map (·.toNat)).getD 0 := by
  obtain ⟨parsed, charged⟩ := executeChargeGasTx_balanceOf run.executed
  rw [ChargeRun.charged, charged address, lastAmounts_lookup (namedAmounts _), namedAmounts_eq readable,
    amountsOf_map, List.getLast?_map, ← lastAmounts_lookup]
  cases found : (lastAmounts run.tx.parameters).lookup address with
  | none => rfl
  | some text =>
    obtain ⟨signed, signedText⟩ := parsed address text found
    rw [lastAmounts_lookup] at found
    obtain ⟨amount, read⟩ := readable _ (mem_amountsOf.mp (List.mem_of_getLast? found))
    simpa using amountOf_eq read signedText

theorem charged_sum {runs : List ChargeRun} (executed : runs.map (·.tx) = (block.filter (·.isChargeGas)).map (·.tx))
    (readable : ∀ entry ∈ block, entry.Readable payer) (address : Bytes) :
    (runs.map (·.charged address)).sum = (((chargesTo block address).map (·.toNat)).sum : Nat) := by
  induction block generalizing runs with
  | nil =>
    obtain rfl : runs = [] := List.map_eq_nil_iff.mp executed
    rfl
  | cons entry rest ih =>
    obtain ⟨here, later⟩ := List.forall_mem_cons.mp readable
    by_cases charge : entry.isChargeGas = true
    · rw [List.filter_cons_of_pos charge, List.map_cons, List.map_eq_cons_iff] at executed
      obtain ⟨run, others, rfl, sameTx, executed⟩ := executed
      rw [BlockTx.Readable, if_pos charge, ← sameTx] at here
      rw [List.map_cons, List.sum_cons, ih executed later, run.charged_eq here, sameTx, chargesTo,
        chargesTo, List.filterMap_cons, if_pos charge]
      cases (lastAmounts (namedAmounts entry.tx.parameters)).lookup address with
      | none => simp
      | some amount => simp
    · rw [List.filter_cons_of_neg charge] at executed
      rw [ih executed later, chargesTo, chargesTo, List.filterMap_cons, if_neg charge]

theorem chargesTo_sum (accepted : verifyOptimizeChargeGasTx payer block = .ok ()) (address : Bytes) :
    ((chargesTo block address).map (·.toNat)).sum = ((chargesTo block address).dropLast.map
      (·.toNat)).sum + gasUsedBy payer block address % 2 ^ 64 := by
  rcases (verifyOptimizeChargeGasTx_eq_ok block).mp accepted with rfl | ⟨_, _, agree⟩
  · rfl
  · have last := agree address
    rw [lastAmounts_lookup, chargesTo_getLast?, tally_lookup] at last
    split at last
    · next none =>
      rw [List.getLast?_eq_none_iff.mp last.symm, gasUsedBy, none]
      rfl
    · rw [gasUsedBy, ← uint64_sum_toNat]
      conv_lhs => rw [← List.dropLast_append_getLast? _ last.symm]
      simp

/-- A verified block takes from every payer exactly the gas of its transactions if
and only if the charges before the last one make up for the wrapped part of it. -/
theorem charged_eq_gasUsed_iff (accepted : verifyOptimizeChargeGasTx payer block = .ok ())
    {runs : List ChargeRun}
    (executed : runs.map (·.tx) = (block.filter (·.isChargeGas)).map (·.tx)) :
    (∀ address, (runs.map (·.charged address)).sum = gasUsedBy payer block address) ↔
      ∀ address, ((chargesTo block address).dropLast.map (·.toNat)).sum =
        gasUsedBy payer block address / 2 ^ 64 * 2 ^ 64 := by
  have readable : ∀ entry ∈ block, entry.Readable payer := by
    rcases (verifyOptimizeChargeGasTx_eq_ok block).mp accepted with rfl | ⟨readable, _, _⟩
    · simp
    · exact readable
  refine forall_congr' ?_
  intro address
  rw [charged_sum executed readable, chargesTo_sum accepted]
  omega

section FiveGas

private def payerOfAll (_ : Transaction) : Option Bytes := some (ascii "payer")

private def paidTx : BlockTx :=
  ⟨⟨[1], ascii "contract", ascii "method", [], some 10, true⟩, 5⟩

private def chargeFive (txId : Bytes) : BlockTx :=
  ⟨createChargeGasTx txId [(ascii "payer", ascii "5")], 0⟩

private def holding (balance : Bytes) : Accounts :=
  Function.update (fun _ => []) (ascii "payer") balance

private def chargeFiveRun (txId : Bytes) : ChargeRun where
  tx := (chargeFive txId).tx
  before := holding (ascii "10")
  after := Function.update (holding (ascii "10")) (ascii "payer") (ascii "5")
  executed := rfl

private def chargeFiveAgain (txId : Bytes) : ChargeRun where
  tx := (chargeFive txId).tx
  before := (chargeFiveRun txId).after
  after := Function.update (chargeFiveRun txId).after (ascii "payer") (ascii "0")
  executed := rfl

theorem charged_eq_gasUsed_iff_once : verifyOptimizeChargeGasTx payerOfAll [paidTx, chargeFive [2]] = .ok () ∧
      ∀ address, ([chargeFiveRun [2]].map (·.charged address)).sum =
        gasUsedBy payerOfAll [paidTx, chargeFive [2]] address := by
  have accepted : verifyOptimizeChargeGasTx payerOfAll [paidTx, chargeFive [2]] = .ok () := by decide
  refine ⟨accepted, (charged_eq_gasUsed_iff accepted rfl).mpr ?_⟩
  intro address
  by_cases same : ascii "payer" = address
  · subst same
    decide
  · have charged : chargesTo [paidTx, chargeFive [2]] address = [] := by
      have named : gasNamed [paidTx, chargeFive [2]] = [(ascii "payer", 5)] := by decide
      rw [← List.getLast?_eq_none_iff, ← chargesTo_getLast?, named]
      simp [amountsOf, same]
    have paid : gasPaid payerOfAll [paidTx, chargeFive [2]] = [(ascii "payer", 5)] := by decide
    simp [charged, gasUsedBy, paid, amountsOf, same]

/-- The second charge overwrites the amount of the first one in the map of the
verifier, and both are executed. -/
theorem charged_twice : verifyOptimizeChargeGasTx payerOfAll [paidTx, chargeFive [2], chargeFive [3]] = .ok () ∧
      ([chargeFiveRun [2], chargeFiveAgain [3]].map (·.charged (ascii "payer"))).sum = 10 ∧
      gasUsedBy payerOfAll [paidTx, chargeFive [2], chargeFive [3]] (ascii "payer") = 5 := by
  decide

end FiveGas

end Soundness

end Pdcc.Scheduler.Gas
