import Pdcc.Scheduler.SenderCollection
import Mathlib.Data.List.Induction

/-!
# Grouping a batch by payer

From version 2.3.4 on a batch is split into the queues of its payers and a queue
for transactions the balance does not cover. A payer's gas limits are added up
on the way; a transaction whose limit makes the sum wrap is in no queue. The
grouping is complete exactly if no payer's limits add up to `2 ^ 64`.
-/

set_option autoImplicit false

namespace Pdcc.Scheduler.Gas

open Ledger Library

def SenderCollection.queued (s : SenderCollection) : List Transaction :=
  s.txsMap.entries.flatMap fun entry => entry.2.txs

/-- Each transaction is in one queue, and the queues keep the order of the batch. -/
structure SenderCollection.Groups (txBatch : List Transaction) (s : SenderCollection) : Prop where
  once : (s.specialTxTable ++ s.queued).Perm txBatch
  special : s.specialTxTable.Sublist txBatch
  queues : ∀ address txCollection, s.txsMap.lookup address = some txCollection →
    txCollection.txs.Sublist txBatch

section Queues

theorem entries_perm_kerase {Value : Type} (map : AList fun _ : Bytes => Value) {address : Bytes}
    {value : Value} (found : map.lookup address = some value) :
    map.entries.Perm (⟨address, value⟩ :: map.entries.kerase address) := by
  have present : address ∈ map.entries.keys := by
    rw [← List.dlookup_isSome]
    exact Option.isSome_of_eq_some found
  obtain ⟨other, before, after, absent, split, erased⟩ := List.exists_of_kerase present
  have same : other = value := by
    have member : (⟨address, other⟩ : Sigma fun _ : Bytes => Value) ∈ map.entries := by
      rw [split]
      exact List.mem_append_right _ (.head _)
    exact Option.some.inj ((AList.mem_lookup_iff.mpr member).symm.trans found)
  rw [erased, split, same]
  exact List.perm_middle

theorem queued_insert (s : SenderCollection) (address : Bytes) (fresh : TxCollection) (new : fresh.txs = []) :
    ∃ others, (((s.txsMap.lookup address).getD fresh).txs ++ others).Perm s.queued ∧
      ∀ replaced : TxCollection, (s.txsMap.insert address replaced).entries.flatMap (fun entry => entry.2.txs) = replaced.txs ++ others := by
  refine ⟨(s.txsMap.entries.kerase address).flatMap fun entry => entry.2.txs, ?_, ?_⟩
  · cases found : s.txsMap.lookup address with
    | none =>
      have absent : address ∉ s.txsMap.entries.keys := by
        rw [← List.dlookup_eq_none]
        exact found
      rw [List.kerase_of_notMem_keys absent, Option.getD_none, new]
      exact List.Perm.refl _
    | some txCollection =>
      rw [Option.getD_some]
      exact ((entries_perm_kerase s.txsMap found).flatMap_right fun entry => entry.2.txs).symm
  · intro replaced
    rfl

end Queues

section Route

def TxCollection.gasOf (txCollection : TxCollection) (tx : Transaction) (needed : Bool) : Nat :=
  if needed = true ∧ txCollection.accountStatus = .success then (tx.gasLimit.getD 0).toNat else 0

variable (txCollection : TxCollection) (tx : Transaction) (needed : Bool)

theorem TxCollection.route_accountStatus : (txCollection.route tx needed).1.accountStatus = txCollection.accountStatus := by
  unfold route addTxGas append
  grind

theorem TxCollection.route_dropped (wraps : 2 ^ 64 ≤ txCollection.totalGasUsed.toNat + txCollection.gasOf tx needed) :
    txCollection.route tx needed = (txCollection, []) := by
  have bound := txCollection.totalGasUsed.toNat_lt
  unfold gasOf at wraps
  by_cases counted : needed = true ∧ txCollection.accountStatus = .success
  · rw [if_pos counted, ← uint64_add_lt_iff] at wraps
    obtain ⟨isNeeded, success⟩ := counted
    simp [route, addTxGas, isNeeded, success, wraps]
  · rw [if_neg counted] at wraps
    omega

theorem TxCollection.route_kept (fits : txCollection.totalGasUsed.toNat + txCollection.gasOf tx needed < 2 ^ 64) :
    (((txCollection.route tx needed).1.txs = txCollection.txs ++ [tx] ∧ (txCollection.route tx needed).2 = []) ∨
      ((txCollection.route tx needed).1.txs = txCollection.txs ∧ (txCollection.route tx needed).2 = [tx])) ∧
      (txCollection.route tx needed).1.totalGasUsed.toNat = txCollection.totalGasUsed.toNat + txCollection.gasOf tx needed := by
  unfold gasOf at fits ⊢
  by_cases counted : needed = true ∧ txCollection.accountStatus = .success
  · rw [if_pos counted] at fits ⊢
    have noWrap := mt (uint64_add_lt_iff _ _).mp (Nat.not_le.mpr fits)
    obtain ⟨isNeeded, success⟩ := counted
    rw [← uint64_toNat_add noWrap]
    by_cases short : txCollection.accountBalance < txCollection.totalGasUsed + tx.gasLimit.getD 0
    · simp [route, addTxGas, isNeeded, success, noWrap, short]
    · simp [route, addTxGas, append, isNeeded, success, noWrap, short]
  · have free : needed = false ∨ txCollection.accountStatus ≠ .success := by
      rw [not_and_or, Bool.not_eq_true] at counted
      exact counted
    rw [if_neg counted, route, if_pos free]
    exact ⟨.inl ⟨rfl, rfl⟩, rfl⟩

end Route

section Collect

variable {ε : Type} (getKey : StateKey → Except ε Bytes) (payer : Transaction → Option Bytes)
  (txNeedChargeGas : Transaction → Bool) {blockVersion : Nat}

variable (txBatch : List Transaction)

def limitSum (address : Bytes) : Nat :=
  ((txBatch.filter fun tx => payer tx = some address ∧ txNeedChargeGas tx = true).map
    fun tx => (tx.gasLimit.getD 0).toNat).sum

/-- The limits of each payer that has a balance add up without overflow. -/
def LimitsFit : Prop :=
  ∀ address, (getAccountBalanceFromSnapshot2312 getKey address).2 = .success →
    limitSum payer txNeedChargeGas txBatch address < 2 ^ 64

theorem limitSum_concat (tx : Transaction) (address : Bytes) :
    limitSum payer txNeedChargeGas (txBatch ++ [tx]) address = limitSum payer txNeedChargeGas txBatch address +
        if payer tx = some address ∧ txNeedChargeGas tx = true then (tx.gasLimit.getD 0).toNat
        else 0 := by
  rw [limitSum, limitSum, List.filter_append, List.map_append, List.sum_append]
  by_cases counted : payer tx = some address ∧ txNeedChargeGas tx = true
  · simp [counted]
  · simp [counted]

def SenderCollection.account (s : SenderCollection) (address : Bytes) : TxCollection :=
  (s.txsMap.lookup address).getD (newTxCollection (getAccountBalanceFromSnapshot2312 getKey address))

variable {tx : Transaction} {address : Bytes}

theorem collectTx234_eq (version : blockVersion2340 ≤ blockVersion) (s : SenderCollection) (pays : payer tx = some address) :
    collectTx234 getKey payer txNeedChargeGas blockVersion s tx =
      { txsMap := s.txsMap.insert address
          ((s.account getKey address).route tx (txNeedChargeGas tx)).1
        txAddressCache := s.txAddressCache.insert tx.txId address
        specialTxTable := s.specialTxTable ++
          ((s.account getKey address).route tx (txNeedChargeGas tx)).2 } := by
  have current : ¬ blockVersion < blockVersion2310 := by
    have order : blockVersion2310 ≤ blockVersion2340 := by decide
    omega
  simp only [collectTx234, pays, if_neg current]
  rfl

variable {getKey payer txNeedChargeGas}

theorem collectTx234_perm (version : blockVersion2340 ≤ blockVersion) (s : SenderCollection)
    (pays : payer tx = some address) (kept : List Transaction)
    (routed : (((s.account getKey address).route tx (txNeedChargeGas tx)).2 ++
        ((s.account getKey address).route tx (txNeedChargeGas tx)).1.txs).Perm
      (kept ++ (s.account getKey address).txs)) :
    ((collectTx234 getKey payer txNeedChargeGas blockVersion s tx).specialTxTable ++
        (collectTx234 getKey payer txNeedChargeGas blockVersion s tx).queued).Perm
      (kept ++ (s.specialTxTable ++ s.queued)) := by
  obtain ⟨others, before, after⟩ := queued_insert s address (newTxCollection (getAccountBalanceFromSnapshot2312 getKey address)) rfl
  rw [collectTx234_eq getKey payer txNeedChargeGas version s pays, SenderCollection.queued, after]
  have exchanged := ((routed.append_right others).append_left s.specialTxTable)
  rw [List.append_assoc kept] at exchanged
  have restored := ((before.append_left kept).append_left s.specialTxTable)
  have sorted := (List.perm_append_comm_assoc s.specialTxTable kept s.queued)
  simpa only [List.append_assoc] using (exchanged.trans restored).trans sorted

theorem collectTx234_dropped (version : blockVersion2340 ≤ blockVersion) (s : SenderCollection) (pays : payer tx = some address)
    (wraps : 2 ^ 64 ≤ (s.account getKey address).totalGasUsed.toNat + (s.account getKey address).gasOf tx (txNeedChargeGas tx)) :
    ((collectTx234 getKey payer txNeedChargeGas blockVersion s tx).specialTxTable ++
        (collectTx234 getKey payer txNeedChargeGas blockVersion s tx).queued).Perm
      (s.specialTxTable ++ s.queued) := by
  refine collectTx234_perm version s pays [] ?_
  rw [TxCollection.route_dropped _ _ _ wraps]

theorem collectTx234_kept (version : blockVersion2340 ≤ blockVersion) (s : SenderCollection)
    (pays : payer tx = some address) (fits : (s.account getKey address).totalGasUsed.toNat +
      (s.account getKey address).gasOf tx (txNeedChargeGas tx) < 2 ^ 64) :
    ((collectTx234 getKey payer txNeedChargeGas blockVersion s tx).specialTxTable ++
        (collectTx234 getKey payer txNeedChargeGas blockVersion s tx).queued).Perm
      (tx :: (s.specialTxTable ++ s.queued)) := by
  refine collectTx234_perm version s pays [tx] ?_
  cases (TxCollection.route_kept _ _ _ fits).1 with
  | inl parallel =>
    rw [parallel.1, parallel.2, List.nil_append]
    exact List.perm_append_comm
  | inr serial =>
    rw [serial.1, serial.2]

structure Collected (getKey : StateKey → Except ε Bytes) (payer : Transaction → Option Bytes)
    (txNeedChargeGas : Transaction → Bool) (txBatch : List Transaction) (s : SenderCollection) : Prop
    extends s.Groups txBatch where
  status : ∀ address, (s.account getKey address).accountStatus =
    (getAccountBalanceFromSnapshot2312 getKey address).2
  total : ∀ address, (getAccountBalanceFromSnapshot2312 getKey address).2 = .success →
    (s.account getKey address).totalGasUsed.toNat = limitSum payer txNeedChargeGas txBatch address

theorem Collected.empty : Collected getKey payer txNeedChargeGas [] ⟨∅, ∅, []⟩ where
  once := List.Perm.refl _
  special := List.Sublist.refl _
  queues := by
    intro address txCollection found
    cases found
  status _ := rfl
  total _ _ := rfl

variable {s : SenderCollection}

theorem SenderCollection.Groups.account_sublist {txBatch : List Transaction} (groups : s.Groups txBatch) (address : Bytes) :
    (s.account getKey address).txs.Sublist txBatch := by
  rw [SenderCollection.account]
  cases found : s.txsMap.lookup address with
  | none => exact List.nil_sublist _
  | some txCollection => exact groups.queues address txCollection found

theorem account_collectTx234 (version : blockVersion2340 ≤ blockVersion) (s : SenderCollection)
    (pays : payer tx = some address) (other : Bytes) :
    (collectTx234 getKey payer txNeedChargeGas blockVersion s tx).account getKey other =
      if other = address then ((s.account getKey address).route tx (txNeedChargeGas tx)).1
      else s.account getKey other := by
  rw [collectTx234_eq getKey payer txNeedChargeGas version s pays, SenderCollection.account]
  by_cases same : other = address
  · rw [if_pos same, same, AList.lookup_insert, Option.getD_some]
  · rw [if_neg same, AList.lookup_insert_ne same]
    rfl

theorem Collected.gasOf_fits_iff {txBatch : List Transaction} (collected : Collected getKey payer txNeedChargeGas txBatch s)
    (pays : payer tx = some address) :
    ((s.account getKey address).totalGasUsed.toNat + (s.account getKey address).gasOf tx (txNeedChargeGas tx) < 2 ^ 64) ↔
      ((getAccountBalanceFromSnapshot2312 getKey address).2 = .success →
        limitSum payer txNeedChargeGas (txBatch ++ [tx]) address < 2 ^ 64) := by
  rw [TxCollection.gasOf, collected.status, limitSum_concat]
  by_cases success : (getAccountBalanceFromSnapshot2312 getKey address).2 = .success
  · rw [collected.total address success]
    simp [success, pays]
  · have bound := (s.account getKey address).totalGasUsed.toNat_lt
    simpa [success] using bound

theorem Collected.step {txBatch : List Transaction} (collected : Collected getKey payer txNeedChargeGas txBatch s)
    (version : blockVersion2340 ≤ blockVersion) (pays : payer tx = some address)
    (fits : (s.account getKey address).totalGasUsed.toNat + (s.account getKey address).gasOf tx (txNeedChargeGas tx) < 2 ^ 64) :
    Collected getKey payer txNeedChargeGas (txBatch ++ [tx]) (collectTx234 getKey payer txNeedChargeGas blockVersion s tx) where
  once := by
    refine (collectTx234_kept version s pays fits).trans ((collected.once.cons tx).trans ?_)
    exact (List.perm_append_singleton tx txBatch).symm
  special := by
    rw [collectTx234_eq getKey payer txNeedChargeGas version s pays]
    cases (TxCollection.route_kept _ _ _ fits).1 with
    | inl parallel =>
      simp only [parallel.2, List.append_nil]
      exact collected.special.trans (List.sublist_append_left _ _)
    | inr serial =>
      simp only [serial.2]
      exact collected.special.append (List.Sublist.refl _)
  queues := by
    intro other txCollection found
    have account : (collectTx234 getKey payer txNeedChargeGas blockVersion s tx).account getKey other = txCollection := by
      rw [SenderCollection.account, found, Option.getD_some]
    rw [← account, account_collectTx234 version s pays]
    by_cases same : other = address
    · rw [if_pos same]
      have before : (s.account getKey address).txs.Sublist txBatch :=
        collected.account_sublist address
      cases (TxCollection.route_kept _ _ _ fits).1 with
      | inl parallel =>
        rw [parallel.1]
        exact before.append (List.Sublist.refl _)
      | inr serial =>
        rw [serial.1]
        exact before.trans (List.sublist_append_left _ _)
    · rw [if_neg same]
      exact (collected.account_sublist other).trans (List.sublist_append_left _ _)
  status := by
    intro other
    rw [account_collectTx234 version s pays]
    by_cases same : other = address
    · rw [if_pos same, TxCollection.route_accountStatus, same, collected.status]
    · rw [if_neg same, collected.status]
  total := by
    intro other success
    rw [account_collectTx234 version s pays, limitSum_concat]
    by_cases same : other = address
    · subst same
      rw [if_pos rfl, (TxCollection.route_kept _ _ _ fits).2, collected.total other success, TxCollection.gasOf, collected.status other]
      simp [success, pays]
    · rw [if_neg same, collected.total other success]
      simp [pays, Ne.symm same]

variable {txBatch : List Transaction}

theorem LimitsFit.of_concat (fit : LimitsFit getKey payer txNeedChargeGas (txBatch ++ [tx])) :
    LimitsFit getKey payer txNeedChargeGas txBatch := by
  intro address success
  have whole := fit address success
  rw [limitSum_concat] at whole
  omega

theorem getSenderTxCollection234_concat (tx : Transaction) :
    getSenderTxCollection234 getKey payer txNeedChargeGas blockVersion (txBatch ++ [tx]) =
      collectTx234 getKey payer txNeedChargeGas blockVersion
        (getSenderTxCollection234 getKey payer txNeedChargeGas blockVersion txBatch) tx := by
  rw [getSenderTxCollection234, List.foldl_append]
  rfl

theorem collected_of_fit (version : blockVersion2340 ≤ blockVersion) (resolves : ∀ tx ∈ txBatch, ∃ address, payer tx = some address)
    (fit : LimitsFit getKey payer txNeedChargeGas txBatch) :
    Collected getKey payer txNeedChargeGas txBatch (getSenderTxCollection234 getKey payer txNeedChargeGas blockVersion txBatch) := by
  induction txBatch using List.reverseRecOn with
  | nil => exact .empty
  | append_singleton txBatch tx ih =>
    have collected := ih (fun other member => resolves other (List.mem_append_left _ member)) fit.of_concat
    obtain ⟨address, pays⟩ := resolves tx (List.mem_append_right _ (.head _))
    rw [getSenderTxCollection234_concat]
    exact collected.step version pays ((collected.gasOf_fits_iff pays).mpr (fit address))

def SenderCollection.size (s : SenderCollection) : Nat := (s.specialTxTable ++ s.queued).length

theorem size_collectTx234_le (version : blockVersion2340 ≤ blockVersion) (s : SenderCollection) (pays : payer tx = some address) :
    (collectTx234 getKey payer txNeedChargeGas blockVersion s tx).size ≤ s.size + 1 := by
  rw [SenderCollection.size, SenderCollection.size]
  by_cases fits : (s.account getKey address).totalGasUsed.toNat + (s.account getKey address).gasOf tx (txNeedChargeGas tx) < 2 ^ 64
  · rw [(collectTx234_kept version s pays fits).length_eq, List.length_cons]
  · rw [(collectTx234_dropped version s pays (Nat.not_lt.mp fits)).length_eq]
    exact Nat.le_succ _

theorem fit_of_size (version : blockVersion2340 ≤ blockVersion) (resolves : ∀ tx ∈ txBatch, ∃ address, payer tx = some address) :
    (getSenderTxCollection234 getKey payer txNeedChargeGas blockVersion txBatch).size ≤ txBatch.length ∧
      ((getSenderTxCollection234 getKey payer txNeedChargeGas blockVersion txBatch).size =
          txBatch.length → LimitsFit getKey payer txNeedChargeGas txBatch) := by
  induction txBatch using List.reverseRecOn with
  | nil =>
    refine ⟨Nat.le_refl _, ?_⟩
    intro _ address _
    exact Nat.two_pow_pos 64
  | append_singleton txBatch tx ih =>
    have resolvesBefore : ∀ other ∈ txBatch, ∃ address, payer other = some address :=
      fun other member => resolves other (List.mem_append_left _ member)
    obtain ⟨bound, fitBefore⟩ := ih resolvesBefore
    obtain ⟨address, pays⟩ := resolves tx (List.mem_append_right _ (.head _))
    rw [getSenderTxCollection234_concat, List.length_append, List.length_singleton]
    generalize stateEq : getSenderTxCollection234 getKey payer txNeedChargeGas blockVersion txBatch = s at *
    have step : (collectTx234 getKey payer txNeedChargeGas blockVersion s tx).size ≤ s.size + 1 :=
      size_collectTx234_le version s pays
    refine ⟨by omega, ?_⟩
    intro full other success
    have fit := fitBefore (by omega)
    have collected := collected_of_fit version resolvesBefore fit
    rw [stateEq] at collected
    by_cases same : other = address
    · rw [same]
      refine (collected.gasOf_fits_iff pays).mp ?_ (same ▸ success)
      by_contra wraps
      have lost := (collectTx234_dropped version s pays (Nat.not_lt.mp wraps)).length_eq
      rw [← SenderCollection.size, ← SenderCollection.size] at lost
      omega
    · have unchanged := fit other success
      rw [limitSum_concat]
      simpa [pays, Ne.symm same] using unchanged

/-- Grouping loses no transaction exactly if no payer's gas limits add up to
`2 ^ 64`. -/
theorem getSenderTxCollection234_groups_iff (getKey : StateKey → Except ε Bytes)
    (payer : Transaction → Option Bytes) (txNeedChargeGas : Transaction → Bool)
    (blockVersion : Nat) (txBatch : List Transaction)
    (version : blockVersion2340 ≤ blockVersion)
    (resolves : ∀ tx ∈ txBatch, ∃ address, payer tx = some address) :
    (getSenderTxCollection234 getKey payer txNeedChargeGas blockVersion txBatch).Groups txBatch ↔
      LimitsFit getKey payer txNeedChargeGas txBatch := by
  constructor
  · intro groups
    exact (fit_of_size version resolves).2 groups.once.length_eq
  · intro fit
    exact (collected_of_fit version resolves fit).toGroups

end Collect

section Overflow

private def limitTx (txId : Bytes) (gasLimit : UInt64) : Transaction :=
  ⟨txId, ascii "token", ascii "transfer", [], some gasLimit, true⟩

private def richStore : StateKey → Except Empty Bytes := fun loc =>
  if loc.key = accountPrefix ++ ascii "payer" then .ok (ascii "100") else .ok []

theorem getSenderTxCollection234_groups_iff_small :
    (getSenderTxCollection234 richStore (fun _ => some (ascii "payer")) (fun _ => true)
      blockVersion2340 [limitTx [1] 60, limitTx [2] 60]).Groups [limitTx [1] 60, limitTx [2] 60] := by
  refine (getSenderTxCollection234_groups_iff richStore (fun _ => some (ascii "payer"))
    (fun _ => true) blockVersion2340 [limitTx [1] 60, limitTx [2] 60] (Nat.le_refl _) ?_).mpr ?_
  · intro tx _
    exact ⟨_, rfl⟩
  · intro address _
    by_cases isPayer : ascii "payer" = address
    · simp [limitSum, isPayer, limitTx]
    · simp [limitSum, isPayer]

/-- The second limit makes the sum wrap: its transaction is in no queue. -/
theorem getSenderTxCollection234_drops :
    (getSenderTxCollection234 richStore (fun _ => some (ascii "payer")) (fun _ => true)
        blockVersion2340 [limitTx [1] 1, limitTx [2] 18446744073709551615]).specialTxTable = [] ∧
      (getSenderTxCollection234 richStore (fun _ => some (ascii "payer")) (fun _ => true)
        blockVersion2340 [limitTx [1] 1, limitTx [2] 18446744073709551615]).queued = [limitTx [1] 1] := by
  decide

end Overflow

end Pdcc.Scheduler.Gas
