import Pdcc.Library.Decimal
import Pdcc.Ledger.SimContext
import Mathlib.Data.List.AList
import Mathlib.Algebra.Order.BigOperators.Group.List

/-!
# Gas of the payers of a block

In optimized gas mode the transactions of a batch are collected by the account
that pays for them. Every execution is checked against the balance of its payer
before it runs, and charged afterwards.
-/

set_option autoImplicit false

namespace Pdcc.Scheduler.Gas

open Ledger Library

section Model

inductive TxStatusCode where
  | success
  | contractFail
  | gasLimitNotSet
  | gasBalanceNotEnoughFailed
  | getAccountBalanceFailed
  | parseAccountBalanceFailed
  | getAccountStatusFailed
  | accountStatusFrozen
deriving DecidableEq

structure Transaction where
  txId : Bytes
  contractName : Bytes
  method : Bytes
  parameters : List (Bytes × Bytes)
  gasLimit : Option UInt64
  isInvoke : Bool
deriving DecidableEq

structure TxCollection where
  accountBalance : UInt64
  totalGasUsed : UInt64
  txs : List Transaction
  accountStatus : TxStatusCode
deriving DecidableEq

structure SenderCollection where
  txsMap : AList fun _ : Bytes => TxCollection
  txAddressCache : AList fun _ : Bytes => Bytes
  specialTxTable : List Transaction

inductive GasError where
  | gasLimitNotSupplied
  | accountNotFound (txId : Bytes)
  | payerNotFound (txId : Bytes)
  | balanceNotEnough (txId : Bytes)
  | limitOverflow (txId : Bytes)
  | balanceNotEnoughForLimit (txId : Bytes)
  | chargedLimitOverflow (txId : Bytes)
  | limitExceeded (gasUsed gasLimit : UInt64) (txId : Bytes)
  | chargedGasOverflow (txId : Bytes)
  | balanceExhausted (gasAvailable : UInt64) (txId : Bytes)
deriving DecidableEq

def uint64SafeAdd (num1 num2 : UInt64) : UInt64 × Bool :=
  if num1 + num2 < num1 then (0, true) else (num1 + num2, false)

def uint64SafeSub (num1 num2 : UInt64) : UInt64 × Bool :=
  if (num1 - num2).toNat < 2 ^ 63 then (num1 - num2, false) else (0, true)

def TxCollection.addTxGas (g : TxCollection) (gas : UInt64) : Option TxCollection :=
  if g.totalGasUsed + gas < g.totalGasUsed then none
  else some { g with totalGasUsed := g.totalGasUsed + gas }

def TxCollection.checkBalance (senderTxs : TxCollection) (txId : Bytes) (gasLimit : UInt64) :
    Except GasError Unit :=
  if senderTxs.accountBalance ≤ senderTxs.totalGasUsed then .error (.balanceNotEnough txId)
  else
    let (totalGasUsed, overflow) := uint64SafeAdd senderTxs.totalGasUsed gasLimit
    if overflow then .error (.limitOverflow txId)
    else if senderTxs.accountBalance < totalGasUsed then .error (.balanceNotEnoughForLimit txId)
    else .ok ()

def TxCollection.chargeGas (senderTxs : TxCollection) (txId : Bytes) (gasLimit gasUsed : UInt64) :
    UInt64 × Option GasError × TxCollection :=
  if gasLimit < gasUsed then
    match senderTxs.addTxGas gasLimit with
    | none => (gasLimit, some (.chargedLimitOverflow txId), senderTxs)
    | some charged => (gasLimit, some (.limitExceeded gasUsed gasLimit txId), charged)
  else
    let (totalGasUsed, overflow) := uint64SafeAdd senderTxs.totalGasUsed gasUsed
    if overflow then (gasUsed, some (.chargedGasOverflow txId), senderTxs)
    else if senderTxs.accountBalance < totalGasUsed then
      let (gasAvailable, overflow2) :=
        uint64SafeSub senderTxs.accountBalance senderTxs.totalGasUsed
      let gasAvailable := if overflow2 then 0 else gasAvailable
      (gasAvailable, some (.balanceExhausted gasAvailable txId),
        { senderTxs with totalGasUsed := senderTxs.accountBalance })
    else (gasUsed, none, { senderTxs with totalGasUsed := totalGasUsed })

section Collect

variable {ε : Type} (getKey : StateKey → Except ε Bytes) (payer : Transaction → Option Bytes)
  (txNeedChargeGas : Transaction → Bool)

def accountPrefix : Bytes := ascii "__account_prefix__"

def frozenPrefix : Bytes := ascii "__frozen_account__"

def getAccountBalanceFromSnapshot2300 (address : Bytes) : Int × TxStatusCode :=
  match getKey ⟨accountManager, accountPrefix ++ address⟩ with
  | .error _ => (-1, .getAccountBalanceFailed)
  | .ok [] => (0, .success)
  | .ok balanceData =>
    match parseInt balanceData with
    | .error _ => (0, .parseAccountBalanceFailed)
    | .ok balance => (balance, .success)

def getAccountBalanceFromSnapshot2312 (address : Bytes) : Int × TxStatusCode :=
  match getAccountBalanceFromSnapshot2300 getKey address with
  | (balance, .success) =>
    match getKey ⟨accountManager, frozenPrefix ++ address⟩ with
    | .error _ => (-1, .getAccountStatusFailed)
    | .ok frozenData =>
      if frozenData = ascii "1" then (0, .accountStatusFrozen) else (balance, .success)
  | failed => failed

def blockVersion2310 : Nat := 2030100

def blockVersion2340 : Nat := 2030400

def newTxCollection (balance : Int × TxStatusCode) : TxCollection :=
  ⟨UInt64.ofInt balance.1, 0, [], balance.2⟩

def TxCollection.append (txCollection : TxCollection) (tx : Transaction) : TxCollection :=
  { txCollection with txs := txCollection.txs ++ [tx] }

def getSenderTxCollection (chainVersion : Nat) (txBatch : List Transaction) :
    AList fun _ : Bytes => TxCollection :=
  let balance (address : Bytes) :=
    if chainVersion < blockVersion2310 then getAccountBalanceFromSnapshot2300 getKey address
    else getAccountBalanceFromSnapshot2312 getKey address
  txBatch.foldl
    (fun txCollectionMap tx =>
      match payer tx with
      | none => txCollectionMap
      | some address =>
        let txCollection := (txCollectionMap.lookup address).getD
          (newTxCollection ((balance address).1, .success))
        txCollectionMap.insert address (txCollection.append tx))
    ∅

def TxCollection.route (txCollection : TxCollection) (tx : Transaction) (needed : Bool) :
    TxCollection × List Transaction :=
  if needed = false ∨ txCollection.accountStatus ≠ .success then (txCollection.append tx, [])
  else
    match txCollection.addTxGas (tx.gasLimit.getD 0) with
    | none => (txCollection, [])
    | some reserved =>
      if reserved.accountBalance < reserved.totalGasUsed then (reserved, [tx])
      else (reserved.append tx, [])

def collectTx234 (blockVersion : Nat) (s : SenderCollection) (tx : Transaction) :
    SenderCollection :=
  match payer tx with
  | none => s
  | some address =>
    let balance := if blockVersion < blockVersion2310 then
        ((getAccountBalanceFromSnapshot2300 getKey address).1, .success)
      else getAccountBalanceFromSnapshot2312 getKey address
    let (txCollection, special) :=
      ((s.txsMap.lookup address).getD (newTxCollection balance)).route tx (txNeedChargeGas tx)
    { txsMap := s.txsMap.insert address txCollection
      txAddressCache := s.txAddressCache.insert tx.txId address
      specialTxTable := s.specialTxTable ++ special }

def getSenderTxCollection234 (blockVersion : Nat) (txBatch : List Transaction) :
    SenderCollection :=
  txBatch.foldl (collectTx234 getKey payer txNeedChargeGas blockVersion) ⟨∅, ∅, []⟩

def newSenderCollection (chainVersion blockVersion : Nat) (txBatch : List Transaction) :
    SenderCollection :=
  if blockVersion < blockVersion2340 then
    ⟨getSenderTxCollection getKey payer chainVersion txBatch, ∅, []⟩
  else getSenderTxCollection234 getKey payer txNeedChargeGas blockVersion txBatch

end Collect

namespace SenderCollection

def checkBalanceInSenderCollection (s : SenderCollection) (tx : Transaction) :
    Except GasError Unit :=
  match tx.gasLimit with
  | none => .error .gasLimitNotSupplied
  | some gasLimit =>
    match s.txAddressCache.lookup tx.txId with
    | none => .error (.accountNotFound tx.txId)
    | some address =>
      match s.txsMap.lookup address with
      | none => .error (.accountNotFound tx.txId)
      | some senderTxs => senderTxs.checkBalance tx.txId gasLimit

def chargeGasInSenderCollection (s : SenderCollection) (tx : Transaction) (gasUsed : UInt64)
    (txNeedChargeGas : Bool) : UInt64 × Option GasError × SenderCollection :=
  if txNeedChargeGas = false then (0, none, s)
  else
    match tx.gasLimit with
    | none => (0, some .gasLimitNotSupplied, s)
    | some gasLimit =>
      match s.txAddressCache.lookup tx.txId with
      | none => (0, some (.accountNotFound tx.txId), s)
      | some address =>
        match s.txsMap.lookup address with
        | none => (0, some (.payerNotFound tx.txId), s)
        | some senderTxs =>
          let (amount, error, charged) := senderTxs.chargeGas tx.txId gasLimit gasUsed
          (amount, error, { s with txsMap := s.txsMap.insert address charged })

end SenderCollection

end Model

section Charge

theorem uint64_add_lt_iff (num1 num2 : UInt64) : num1 + num2 < num1 ↔ 2 ^ 64 ≤ num1.toNat + num2.toNat := by
  rw [UInt64.lt_iff_toNat_lt, UInt64.toNat_add]
  have bound1 := num1.toNat_lt
  have bound2 := num2.toNat_lt
  omega

theorem uint64_toNat_add {num1 num2 : UInt64} (fits : ¬ num1 + num2 < num1) : (num1 + num2).toNat = num1.toNat + num2.toNat := by
  rw [uint64_add_lt_iff] at fits
  rw [UInt64.toNat_add, Nat.mod_eq_of_lt (by omega)]

/-- What makes a charge report exactly what it adds and stay within the balance.
Beyond its gas limit a transaction is charged the limit without a look at the
balance, and a balance of which `2 ^ 63` is left counts as exhausted. -/
def TxCollection.ChargeFits (senderTxs : TxCollection) (gasLimit gasUsed : UInt64) : Prop :=
  if gasLimit < gasUsed then
    senderTxs.totalGasUsed.toNat + gasLimit.toNat ≤ senderTxs.accountBalance.toNat
  else
    senderTxs.totalGasUsed.toNat + gasUsed.toNat < 2 ^ 64 ∧
      (senderTxs.accountBalance.toNat < senderTxs.totalGasUsed.toNat + gasUsed.toNat →
        senderTxs.accountBalance.toNat - senderTxs.totalGasUsed.toNat < 2 ^ 63)

instance (senderTxs : TxCollection) (gasLimit gasUsed : UInt64) :
    Decidable (senderTxs.ChargeFits gasLimit gasUsed) :=
  inferInstanceAs (Decidable (if gasLimit < gasUsed then _ else _ ∧ (_ → _)))

theorem TxCollection.chargeGas_accountBalance (senderTxs : TxCollection) (txId : Bytes) (gasLimit gasUsed : UInt64) :
    (senderTxs.chargeGas txId gasLimit gasUsed).2.2.accountBalance = senderTxs.accountBalance := by
  unfold chargeGas addTxGas
  grind

theorem TxCollection.chargeGas_sound_iff (senderTxs : TxCollection) (txId : Bytes) (gasLimit gasUsed : UInt64)
    (within : senderTxs.totalGasUsed.toNat ≤ senderTxs.accountBalance.toNat) :
    ((senderTxs.chargeGas txId gasLimit gasUsed).2.2.totalGasUsed.toNat ≤ senderTxs.accountBalance.toNat ∧
      senderTxs.totalGasUsed.toNat + (senderTxs.chargeGas txId gasLimit gasUsed).1.toNat =
        (senderTxs.chargeGas txId gasLimit gasUsed).2.2.totalGasUsed.toNat) ↔
      senderTxs.ChargeFits gasLimit gasUsed := by
  have balanceBound := senderTxs.accountBalance.toNat_lt
  unfold chargeGas ChargeFits
  by_cases exceeded : gasLimit < gasUsed
  · simp only [if_pos exceeded, addTxGas]
    by_cases wraps : senderTxs.totalGasUsed + gasLimit < senderTxs.totalGasUsed
    · have large := (uint64_add_lt_iff _ _).mp wraps
      simp only [if_pos wraps]
      omega
    · simp only [if_neg wraps, uint64_toNat_add wraps, and_true]
  · simp only [if_neg exceeded, uint64SafeAdd]
    by_cases wraps : senderTxs.totalGasUsed + gasUsed < senderTxs.totalGasUsed
    · have large := (uint64_add_lt_iff _ _).mp wraps
      have used := gasUsed.toNat_lt
      simp only [if_pos wraps, if_true]
      omega
    · have small := mt (uint64_add_lt_iff _ _).mpr wraps
      simp only [if_neg wraps, Bool.false_eq_true, if_false]
      by_cases short : senderTxs.accountBalance < senderTxs.totalGasUsed + gasUsed
      · have exhausted := UInt64.lt_iff_toNat_lt.mp short
        have left : (senderTxs.accountBalance - senderTxs.totalGasUsed).toNat =
            senderTxs.accountBalance.toNat - senderTxs.totalGasUsed.toNat := by
          rw [UInt64.toNat_sub]
          omega
        rw [uint64_toNat_add wraps] at exhausted
        simp only [if_pos short, uint64SafeSub, left]
        by_cases signed : senderTxs.accountBalance.toNat - senderTxs.totalGasUsed.toNat < 2 ^ 63
        · simp only [if_pos signed, Bool.false_eq_true, if_false, left]
          omega
        · simp only [if_neg signed, if_true, UInt64.toNat_zero]
          omega
      · have fits := mt UInt64.lt_iff_toNat_lt.mpr short
        rw [uint64_toNat_add wraps] at fits
        simp only [if_neg short, uint64_toNat_add wraps, and_true]
        omega

end Charge

section Calls

inductive GasCall where
  | check (tx : Transaction)
  | charge (tx : Transaction) (gasUsed : UInt64)

structure GasLedger where
  collection : SenderCollection
  checked : List Transaction
  charged : List UInt64

def GasLedger.check (s : GasLedger) (tx : Transaction) : GasLedger :=
  match s.collection.checkBalanceInSenderCollection tx with
  | .ok _ => { s with checked := tx :: s.checked }
  | .error _ => s

def GasLedger.charge (s : GasLedger) (tx : Transaction) (gasUsed : UInt64) : GasLedger :=
  let (amount, _, collection) := s.collection.chargeGasInSenderCollection tx gasUsed true
  { s with collection := collection, charged := s.charged ++ [amount] }

/-- The interleavings of the calls for transactions of one payer, with the state
before each call. A transaction is charged only after its own check succeeded. -/
inductive GasCalls (address : Bytes) (start : GasLedger) :
    List (GasLedger × GasCall) → GasLedger → Prop where
  | nil : GasCalls address start [] start
  | check {trace : List (GasLedger × GasCall)} {s : GasLedger} {tx : Transaction} :
      GasCalls address start trace s → s.collection.txAddressCache.lookup tx.txId = some address →
      GasCalls address start (trace ++ [(s, .check tx)]) (s.check tx)
  | charge {trace : List (GasLedger × GasCall)} {s : GasLedger} {tx : Transaction}
      {gasUsed : UInt64} :
      GasCalls address start trace s → tx ∈ s.checked →
      GasCalls address start (trace ++ [(s, .charge tx gasUsed)]) (s.charge tx gasUsed)

def GasLedger.start (collection : SenderCollection) : GasLedger := ⟨collection, [], []⟩

/-- The payer is charged at most its balance, and the amounts add up to its total. -/
def GasLedger.Sound (address : Bytes) (s : GasLedger) : Prop :=
  ∃ senderTxs, s.collection.txsMap.lookup address = some senderTxs ∧
    senderTxs.totalGasUsed ≤ senderTxs.accountBalance ∧
    (s.charged.map (·.toNat)).sum = senderTxs.totalGasUsed.toNat

/-- A charge with which the total neither exceeds the balance nor wraps. -/
def GasCall.Fits (address : Bytes) (s : GasLedger) : GasCall → Prop
  | .check _ => True
  | .charge tx gasUsed => ∀ senderTxs gasLimit, s.collection.txsMap.lookup address = some senderTxs →
      tx.gasLimit = some gasLimit → senderTxs.ChargeFits gasLimit gasUsed

variable {address : Bytes} {start s : GasLedger} {trace : List (GasLedger × GasCall)}

theorem GasLedger.check_collection (s : GasLedger) (tx : Transaction) :
    (s.check tx).collection = s.collection ∧ (s.check tx).charged = s.charged := by
  unfold check
  split
  · exact ⟨rfl, rfl⟩
  · exact ⟨rfl, rfl⟩

variable {tx : Transaction}

theorem GasLedger.mem_checked_of_check {other : Transaction} (checked : other ∈ (s.check tx).checked) :
    other ∈ s.checked ∨ other = tx ∧ ∃ gasLimit, tx.gasLimit = some gasLimit := by
  unfold check at checked
  split at checked
  · next passed =>
    rcases List.mem_cons.mp checked with rfl | old
    · refine .inr ⟨rfl, ?_⟩
      unfold SenderCollection.checkBalanceInSenderCollection at passed
      cases limit : other.gasLimit with
      | none => simp [limit] at passed
      | some gasLimit => exact ⟨gasLimit, rfl⟩
    · exact .inl old
  · exact .inl checked

structure GasLedger.Valid (address : Bytes) (s : GasLedger) : Prop where
  account : ∃ senderTxs, s.collection.txsMap.lookup address = some senderTxs
  checked : ∀ tx ∈ s.checked, s.collection.txAddressCache.lookup tx.txId = some address ∧
    ∃ gasLimit, tx.gasLimit = some gasLimit

theorem GasLedger.charge_eq {gasLimit gasUsed : UInt64} {senderTxs : TxCollection} (limit : tx.gasLimit = some gasLimit)
    (cached : s.collection.txAddressCache.lookup tx.txId = some address)
    (found : s.collection.txsMap.lookup address = some senderTxs) :
    s.charge tx gasUsed =
      { s with
        collection := { s.collection with
          txsMap := s.collection.txsMap.insert address
            (senderTxs.chargeGas tx.txId gasLimit gasUsed).2.2 }
        charged := s.charged ++ [(senderTxs.chargeGas tx.txId gasLimit gasUsed).1] } := by
  unfold charge SenderCollection.chargeGasInSenderCollection
  simp only [limit, cached, found, Bool.true_eq_false, if_false]

theorem GasCalls.valid (account : ∃ senderTxs, start.collection.txsMap.lookup address = some senderTxs)
    (unchecked : start.checked = []) (run : GasCalls address start trace s) : s.Valid address := by
  induction run with
  | nil => exact ⟨account, by simp [unchecked]⟩
  | @check _ s tx _ cached ih =>
    obtain ⟨same, _⟩ := s.check_collection tx
    refine ⟨by rw [same]; exact ih.account, ?_⟩
    intro other member
    rw [same]
    rcases GasLedger.mem_checked_of_check member with old | ⟨rfl, limit⟩
    · exact ih.checked other old
    · exact ⟨cached, limit⟩
  | charge _ member ih =>
    obtain ⟨cached, gasLimit, limit⟩ := ih.checked _ member
    obtain ⟨senderTxs, found⟩ := ih.account
    rw [GasLedger.charge_eq limit cached found]
    exact ⟨⟨_, AList.lookup_insert _⟩, ih.checked⟩

theorem GasLedger.Valid.charge_sound_iff {gasUsed : UInt64} (valid : s.Valid address) (member : tx ∈ s.checked) (sound : s.Sound address) :
    (s.charge tx gasUsed).Sound address ↔ (GasCall.charge tx gasUsed).Fits address s := by
  obtain ⟨cached, gasLimit, limit⟩ := valid.checked tx member
  obtain ⟨senderTxs, found, within, total⟩ := sound
  have step := senderTxs.chargeGas_sound_iff tx.txId gasLimit gasUsed (UInt64.le_iff_toNat_le.mp within)
  have balance := senderTxs.chargeGas_accountBalance tx.txId gasLimit gasUsed
  have fits : (GasCall.charge tx gasUsed).Fits address s ↔ senderTxs.ChargeFits gasLimit gasUsed := by
    simp [GasCall.Fits, found, limit]
  rw [fits, ← step, charge_eq limit cached found, Sound]
  simp only [AList.lookup_insert, Option.some.injEq, exists_eq_left', UInt64.le_iff_toNat_le,
    balance, List.map_append, List.map_cons, List.map_nil, List.sum_append, List.sum_cons,
    List.sum_nil, Nat.add_zero, total]

/-- In a run of checks and charges of one payer, every state respects the balance
and adds up to the reported amounts exactly if every charge fits. -/
theorem charged_within_balance_iff {collection : SenderCollection} {senderTxs : TxCollection}
    (account : collection.txsMap.lookup address = some senderTxs)
    (unused : senderTxs.totalGasUsed = 0)
    (run : GasCalls address (.start collection) trace s) :
    (∀ state ∈ trace.map (·.1) ++ [s], state.Sound address) ↔ ∀ call ∈ trace, call.2.Fits address call.1 := by
  have valid {trace : List (GasLedger × GasCall)} {s : GasLedger}
      (run : GasCalls address (.start collection) trace s) : s.Valid address :=
    run.valid ⟨senderTxs, account⟩ rfl
  induction run with
  | nil =>
    have sound : (GasLedger.start collection).Sound address :=
      ⟨senderTxs, account, by simp [unused], by simp [unused, GasLedger.start]⟩
    simpa using sound
  | @check trace s tx run cached ih =>
    obtain ⟨same, charged⟩ := s.check_collection tx
    have kept : (s.check tx).Sound address ↔ s.Sound address := by
      rw [GasLedger.Sound, GasLedger.Sound, same, charged]
    simp only [List.map_append, List.map_cons, List.map_nil, List.mem_append,
      List.mem_singleton, or_imp, forall_and, forall_eq] at ih ⊢
    rw [kept, and_self_right]
    exact ih.trans (and_iff_left trivial).symm
  | @charge trace s tx gasUsed run member ih =>
    simp only [List.map_append, List.map_cons, List.map_nil, List.mem_append,
      List.mem_singleton, or_imp, forall_and, forall_eq] at ih ⊢
    refine Iff.trans (and_congr_right ?_) (and_congr_left' ih)
    intro sound
    exact (valid run).charge_sound_iff member sound.2

section TwoTransactions

private def gasTx (txId : Bytes) : Transaction :=
  ⟨txId, ascii "contract", ascii "method", [], some 10, true⟩

private def payerCollection (accountBalance : UInt64) : SenderCollection where
  txsMap := AList.insert (ascii "payer") ⟨accountBalance, 0, [gasTx [1], gasTx [2]], .success⟩ ∅
  txAddressCache := (AList.insert [1] (ascii "payer") ∅).insert [2] (ascii "payer")
  specialTxTable := []

private def bothChecked (accountBalance : UInt64) : GasLedger :=
  ((GasLedger.start (payerCollection accountBalance)).check (gasTx [1])).check (gasTx [2])

private theorem bothChecked_run (accountBalance : UInt64) : GasCalls (ascii "payer") (.start (payerCollection accountBalance))
      [(.start (payerCollection accountBalance), .check (gasTx [1])),
        ((GasLedger.start (payerCollection accountBalance)).check (gasTx [1]), .check (gasTx [2]))]
      (bothChecked accountBalance) := by
  refine @GasCalls.check _ _ [_] _ (gasTx [2]) (@GasCalls.check _ _ [] _ (gasTx [1]) .nil rfl) ?_
  rw [(GasLedger.check_collection _ _).1]
  rfl

theorem charged_within_balance_iff_two :
    ∃ trace s, GasCalls (ascii "payer") (.start (payerCollection 15)) trace s ∧
      s.charged = [8, 7] ∧ ∀ state ∈ trace.map (·.1) ++ [s], state.Sound (ascii "payer") := by
  have first := @GasCalls.charge _ _ _ _ (gasTx [1]) 8 (bothChecked_run 15) (by decide)
  have second := @GasCalls.charge _ _ _ _ (gasTx [2]) 9 first (by decide)
  refine ⟨_, _, second, by decide, (charged_within_balance_iff rfl rfl second).mpr ?_⟩
  intro call member
  simp only [List.cons_append, List.nil_append, List.mem_cons, List.not_mem_nil, or_false] at member
  rcases member with rfl | rfl | rfl | rfl
  · trivial
  · trivial
  · intro senderTxs gasLimit found limit
    cases found
    cases limit
    decide
  · intro senderTxs gasLimit found limit
    cases found
    cases limit
    decide

/-- Both transactions pass the check while nothing is charged yet. Then each uses
more than its limit and is charged the limit. -/
theorem charged_above_balance : ∃ trace s, GasCalls (ascii "payer") (.start (payerCollection 10)) trace s ∧
      trace.map (·.2) = [.check (gasTx [1]), .check (gasTx [2]), .charge (gasTx [1]) 11,
        .charge (gasTx [2]) 11] ∧
      (s.collection.txsMap.lookup (ascii "payer")).map
        (fun senderTxs => (senderTxs.totalGasUsed, senderTxs.accountBalance)) = some (20, 10) := by
  have first := @GasCalls.charge _ _ _ _ (gasTx [1]) 11 (bothChecked_run 10) (by decide)
  have second := @GasCalls.charge _ _ _ _ (gasTx [2]) 11 first (by decide)
  exact ⟨_, _, second, rfl, by decide⟩

end TwoTransactions

end Calls

end Pdcc.Scheduler.Gas
