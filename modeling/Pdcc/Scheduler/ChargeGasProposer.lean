import Pdcc.Scheduler.ChargeGas

/-!
# The charge of the proposer before the verifier

The proposer adds up the gas per payer from the accounts of the batch or from the
table of the snapshot. The verifier adds it up from the transactions of the block.
They agree under a condition on the batch and on what reached the snapshot.
-/

set_option autoImplicit false

namespace Pdcc.Scheduler.Gas

open Ledger Library

/-- The transactions of a batch that reached the snapshot. -/
structure Reached (txBatch : List Transaction) (txTable : List BlockTx) : Prop where
  distinct : (txBatch.map (·.txId)).Nodup
  once : (txTable.map (·.tx)).Nodup
  inBatch : ∀ entry ∈ txTable, entry.tx ∈ txBatch

def gasOf (payer : Transaction → Option Bytes) (txTable : List BlockTx) : List (Bytes × UInt64) :=
  txTable.filterMap fun entry => (payer entry.tx).map fun address => (address, entry.gasUsed)

def namedPayers (payer : Transaction → Option Bytes) (blockVersion : Nat)
    (txBatch : List Transaction) (txTable : List BlockTx) : List Bytes :=
  if blockVersion < blockVersion2340 then txBatch.filterMap payer
  else (txTable.map (·.tx)).filterMap payer

def printTotal (blockVersion : Nat) (total : UInt64) : Bytes :=
  if blockVersion < blockVersion2340 then formatInt total.toInt64.toInt
  else formatUint total.toNat

section Collection

variable {ε : Type} {getKey : StateKey → Except ε Bytes} {payer : Transaction → Option Bytes}
  {txNeedChargeGas : Transaction → Bool} {chainVersion blockVersion : Nat}
  {txBatch : List Transaction} {txTable : List BlockTx}

theorem getSenderTxCollection_lookup (address : Bytes) :
    ((getSenderTxCollection getKey payer chainVersion txBatch).lookup address).map (·.txs) =
      if txBatch.filter (payer · = some address) = [] then none
      else some (txBatch.filter (payer · = some address)) := by
  induction txBatch using List.reverseRecOn with
  | nil => rfl
  | append_singleton txBatch tx ih =>
    simp only [getSenderTxCollection, List.foldl_append, List.foldl_cons, List.foldl_nil, List.filter_append] at ih ⊢
    generalize txBatch.foldl _ (∅ : AList fun _ : Bytes => TxCollection) = collected at ih ⊢
    cases resolved : payer tx with
    | none => simpa [resolved] using ih
    | some other =>
      by_cases same : other = address
      · subst same
        have nonempty : txBatch.filter (payer · = some other) ++ [tx] ≠ [] := by simp
        rw [AList.lookup_insert, List.filter_cons_of_pos (by simp [resolved]), List.filter_nil,
          if_neg nonempty, Option.map_some, TxCollection.append]
        cases here : collected.lookup other with
        | none =>
          rw [here, Option.map_none, eq_comm, ite_eq_left_iff] at ih
          simp [newTxCollection, not_not.mp (mt ih (by simp))]
        | some txCollection =>
          rw [here, Option.map_some] at ih
          split at ih
          · cases ih
          · rw [← Option.some.inj ih]
            rfl
      · rw [AList.lookup_insert_ne (Ne.symm same), List.filter_cons_of_neg (by simp [resolved, same]), List.filter_nil, List.append_nil]
        exact ih

theorem getSenderTxCollection_txs {address : Bytes} {txCollection : TxCollection}
    (found : (getSenderTxCollection getKey payer chainVersion txBatch).lookup address = some txCollection) :
    txCollection.txs = txBatch.filter (payer · = some address) := by
  have collected := congrArg (Option.map (·.txs)) found
  rw [getSenderTxCollection_lookup, Option.map_some, eq_comm] at collected
  split at collected
  · cases collected
  · exact Option.some.inj collected

theorem mem_getSenderTxCollection (address : Bytes) :
    address ∈ getSenderTxCollection getKey payer chainVersion txBatch ↔ address ∈ txBatch.filterMap payer := by
  rw [← AList.lookup_isSome, ← Option.isSome_map, getSenderTxCollection_lookup, List.mem_filterMap]
  split
  · next empty => simpa using empty
  · next nonempty => simpa using nonempty

theorem collectTx234_txAddressCache (s : SenderCollection) (tx : Transaction) :
    (collectTx234 getKey payer txNeedChargeGas blockVersion s tx).txAddressCache =
      ((payer tx).map fun address => s.txAddressCache.insert tx.txId address).getD s.txAddressCache := by
  unfold collectTx234
  cases payer tx with
  | none => rfl
  | some address => rfl

theorem getSenderTxCollection234_txAddressCache :
    (getSenderTxCollection234 getKey payer txNeedChargeGas blockVersion txBatch).txAddressCache = lastAmounts (txBatch.filterMap fun tx =>
        (payer tx).map fun address => (tx.txId, address)) := by
  induction txBatch using List.reverseRecOn with
  | nil => rfl
  | append_singleton txBatch tx ih =>
    simp only [getSenderTxCollection234, List.foldl_append, List.foldl_cons, List.foldl_nil,
      lastAmounts, List.filterMap_append, collectTx234_txAddressCache] at ih ⊢
    rw [ih]
    cases resolved : payer tx with
    | none => simp [resolved]
    | some address => simp [resolved]

end Collection

section Totals

variable {ε : Type} {getKey : StateKey → Except ε Bytes} {payer : Transaction → Option Bytes}
  {txNeedChargeGas : Transaction → Bool} {chainVersion blockVersion : Nat}
  {txBatch : List Transaction} {txTable : List BlockTx}

theorem Reached.eq_of_txId (reached : Reached txBatch txTable) {tx other : Transaction}
    (member : tx ∈ txBatch) (other_member : other ∈ txBatch) (same : tx.txId = other.txId) :
    tx = other :=
  List.inj_on_of_nodup_map reached.distinct member other_member same

theorem Reached.distinctTable (reached : Reached txBatch txTable) : (txTable.map (·.tx.txId)).Nodup := by
  have renamed := List.Nodup.map_on (f := (·.txId)) (l := txTable.map (·.tx)) (by
    intro tx member other other_member same
    obtain ⟨entry, inside, rfl⟩ := List.mem_map.mp member
    obtain ⟨entry', inside', rfl⟩ := List.mem_map.mp other_member
    exact reached.eq_of_txId (reached.inBatch _ inside) (reached.inBatch _ inside') same)
    reached.once
  rwa [List.map_map] at renamed

theorem Reached.getTxResultMap_lookup (reached : Reached txBatch txTable) {entry : BlockTx} (member : entry ∈ txTable) :
    (getTxResultMap txTable).lookup entry.tx.txId = some entry.gasUsed := by
  have keyed := amountsOf_keyed (fun entry : BlockTx => entry.tx.txId) (fun entry => some entry.gasUsed) reached.distinctTable member
  rw [getTxResultMap, lastAmounts_lookup, ← List.filterMap_eq_map]
  exact congrArg List.getLast? keyed

theorem Reached.address_eq (reached : Reached txBatch txTable) {tx : Transaction} (member : tx ∈ txBatch) :
    (getSenderTxCollection234 getKey payer txNeedChargeGas blockVersion txBatch).address payer tx = payer tx := by
  have keyed := amountsOf_keyed (fun tx : Transaction => tx.txId) payer reached.distinct member
  rw [SenderCollection.address, getSenderTxCollection234_txAddressCache, lastAmounts_lookup, keyed]
  cases payer tx with
  | none => rfl
  | some address => rfl

theorem Reached.address2TotalGas_eq (reached : Reached txBatch txTable) : address2TotalGas payer
      (getSenderTxCollection234 getKey payer txNeedChargeGas blockVersion txBatch) txTable = tally (gasOf payer txTable) := by
  rw [address2TotalGas, gasOf]
  congr 1
  refine List.filterMap_congr ?_
  intro entry member
  rw [reached.address_eq (reached.inBatch _ member), reached.getTxResultMap_lookup member]
  rfl

theorem Reached.perm (reached : Reached txBatch txTable) :
    (txBatch.filterMap fun tx => ((getTxResultMap txTable).lookup tx.txId).map fun gasUsed =>
      (⟨tx, gasUsed⟩ : BlockTx)).Perm txTable := by
  have nodup : txTable.Nodup := reached.once.of_map _
  refine (List.perm_ext_iff_of_nodup ?_ nodup).mpr ?_
  · refine (reached.distinct.of_map _).filterMap ?_
    intro tx other entry member other_member
    obtain ⟨_, _, rfl⟩ := Option.map_eq_some_iff.mp member
    obtain ⟨_, _, same⟩ := Option.map_eq_some_iff.mp other_member
    exact (congrArg BlockTx.tx same).symm
  · intro entry
    rw [List.mem_filterMap]
    constructor
    · rintro ⟨tx, member, found⟩
      obtain ⟨gasUsed, result, rfl⟩ := Option.map_eq_some_iff.mp found
      rw [getTxResultMap, lastAmounts_lookup] at result
      obtain ⟨entry, inside, same⟩ :=
        List.mem_map.mp (mem_amountsOf.mp (List.mem_of_getLast? result))
      have sameTx : entry.tx = tx :=
        reached.eq_of_txId (reached.inBatch _ inside) member (congrArg Prod.fst same)
      cases sameTx
      cases congrArg Prod.snd same
      exact inside
    · intro member
      refine ⟨entry.tx, reached.inBatch _ member, ?_⟩
      rw [reached.getTxResultMap_lookup member]
      rfl

theorem uint64_sum_perm {amounts amounts' : List UInt64} (perm : amounts.Perm amounts') : amounts.sum = amounts'.sum := by
  rw [← UInt64.toNat_inj, uint64_sum_toNat, uint64_sum_toNat, (perm.map _).sum_eq]

theorem sum_toInt64 (amounts : List UInt64) : (amounts.map (·.toInt64)).sum = amounts.sum.toInt64 := by
  induction amounts with
  | nil => rfl
  | cons amount rest ih => rw [List.map_cons, List.sum_cons, ih, List.sum_cons, UInt64.toInt64_add]

def totalGasOf (payer : Transaction → Option Bytes) (txTable : List BlockTx) (address : Bytes) :
    UInt64 :=
  (amountsOf (gasOf payer txTable) address).sum

theorem Reached.totalGas_eq (reached : Reached txBatch txTable) {address : Bytes} {txCollection : TxCollection}
    (account : txCollection.txs = txBatch.filter (payer · = some address)) :
    txCollection.totalGas (getTxResultMap txTable) = (totalGasOf payer txTable address).toInt64 := by
  have paid (txs : List Transaction) : (txs.filter (payer · = some address)).filterMap (fun tx => (getTxResultMap txTable).lookup tx.txId) =
        amountsOf (gasOf payer (txs.filterMap fun tx =>
          ((getTxResultMap txTable).lookup tx.txId).map fun gasUsed => ⟨tx, gasUsed⟩)) address := by
    rw [gasOf, amountsOf_filterMap, List.filterMap_filter, List.filter_filterMap, List.map_filterMap]
    refine List.filterMap_congr ?_
    intro tx _
    cases (getTxResultMap txTable).lookup tx.txId with
    | none => simp
    | some gasUsed => simp [Option.filter, apply_ite]
  rw [TxCollection.totalGas, account, paid, sum_toInt64, totalGasOf]
  exact congrArg _ (uint64_sum_perm (amountsOf_perm (reached.perm.filterMap _) _))

structure Emits (blockVersion : Nat) (named : List Bytes) (total : Bytes → UInt64)
    (parameters : List (Bytes × Bytes)) : Prop where
  distinct : (parameters.map (·.1)).Nodup
  names : ∀ address, address ∈ parameters.map (·.1) ↔ address ∈ named
  totals : ∀ parameter ∈ parameters, parameter.2 = printTotal blockVersion (total parameter.1)

theorem Emits.perm {named : List Bytes} {total : Bytes → UInt64} {parameters parameters' : List (Bytes × Bytes)}
    (emits : Emits blockVersion named total parameters) (perm : parameters'.Perm parameters) :
    Emits blockVersion named total parameters' where
  distinct := (perm.map _).nodup_iff.mpr emits.distinct
  names address := (perm.map _).mem_iff.trans (emits.names address)
  totals parameter member := emits.totals parameter (perm.mem_iff.mp member)

theorem Emits.of_entries {V : Type} {named : List Bytes} {total : Bytes → UInt64} (m : AList fun _ : Bytes => V) (print : V → Bytes)
    (names : ∀ address, address ∈ m ↔ address ∈ named)
    (totals : ∀ address value, m.lookup address = some value → print value = printTotal blockVersion (total address)) :
    Emits blockVersion named total (m.entries.map fun entry => (entry.1, print entry.2)) := by
  have keys : (m.entries.map fun entry => (entry.1, print entry.2)).map (·.1) = m.keys := by
    rw [List.map_map]
    rfl
  refine ⟨keys ▸ m.keys_nodup, ?_, ?_⟩
  · intro address
    rw [keys, ← AList.mem_keys]
    exact names address
  · intro parameter member
    obtain ⟨entry, inside, rfl⟩ := List.mem_map.mp member
    exact totals entry.1 entry.2 (AList.mem_lookup_iff.mpr inside)

theorem Reached.emits (reached : Reached txBatch txTable) :
    Emits blockVersion (namedPayers payer blockVersion txBatch txTable) (totalGasOf payer txTable) (chargeGasParameters payer
        (newSenderCollection getKey payer txNeedChargeGas chainVersion blockVersion txBatch)
        txTable blockVersion) := by
  unfold chargeGasParameters newSenderCollection namedPayers
  by_cases below : blockVersion < blockVersion2340
  · simp only [if_pos below]
    refine Emits.of_entries _ (fun txCollection : TxCollection =>
      formatInt (txCollection.totalGas (getTxResultMap txTable)).toInt) mem_getSenderTxCollection ?_
    intro address txCollection found
    rw [printTotal, if_pos below, reached.totalGas_eq (getSenderTxCollection_txs found)]
  · simp only [if_neg below, reached.address2TotalGas_eq]
    refine Emits.of_entries _ (fun total : UInt64 => formatUint total.toNat) ?_ ?_
    · intro address
      rw [← AList.lookup_isSome, tally_lookup, gasOf, amountsOf_filterMap]
      split
      · next none => simpa using none
      · next some => simpa using some
    · intro address total found
      rw [tally_lookup] at found
      split at found
      · cases found
      · cases found
        rw [printTotal, if_neg below]
        rfl

end Totals

section Agreement

variable {ε : Type} {getKey : StateKey → Except ε Bytes} {payer : Transaction → Option Bytes}
  {txNeedChargeGas : Transaction → Bool} {chainVersion blockVersion : Nat}
  {txBatch : List Transaction} {txTable : List BlockTx}

theorem toInt_toInt64 (total : UInt64) : total.toInt64.toInt =
      if total.toNat < 2 ^ 63 then (total.toNat : Int) else total.toNat - 2 ^ 64 := by
  rw [Int64.toInt, UInt64.toBitVec_toInt64, BitVec.toInt_eq_toNat_cond]
  simp only [UInt64.toNat_toBitVec]
  by_cases small : total.toNat < 2 ^ 63
  · rw [if_pos small, if_pos (by omega)]
  · rw [if_neg small, if_neg (by omega)]
    rfl

theorem parseUint_printTotal (total : UInt64) : parseUint (printTotal blockVersion total) =
      if blockVersion < blockVersion2340 ∧ 2 ^ 63 ≤ total.toNat then .error .invalidSyntax
      else .ok total.toNat := by
  have bound := total.toNat_lt
  unfold printTotal
  by_cases below : blockVersion < blockVersion2340
  · rw [if_pos below, toInt_toInt64]
    by_cases small : total.toNat < 2 ^ 63
    · rw [if_pos small, if_neg (by omega), parseUint_formatInt (by omega) (by omega)]
      rfl
    · rw [if_neg small, if_pos ⟨below, by omega⟩, parseUint_formatInt_of_neg (by omega)]
  · rw [if_neg below, if_neg (by simp [below]), parseUint_formatUint bound]

theorem readAmount_eq_ok {parameter : Bytes × Bytes} {amount : Bytes × UInt64} : readAmount parameter = .ok amount ↔
      ∃ total, parseUint parameter.2 = .ok total ∧ (parameter.1, UInt64.ofNat total) = amount := by
  unfold readAmount
  cases parseUint parameter.2 with
  | error error => simp
  | ok total => simp

section Emitted

variable {named : List Bytes} {total : Bytes → UInt64} {parameters : List (Bytes × Bytes)}

theorem Emits.readable_iff (emits : Emits blockVersion named total parameters) :
    (∀ parameter ∈ parameters, ∃ amount, readAmount parameter = .ok amount) ↔
      (blockVersion < blockVersion2340 → ∀ address ∈ named, (total address).toNat < 2 ^ 63) := by
  have readable {parameter : Bytes × Bytes} (member : parameter ∈ parameters) : (∃ amount, readAmount parameter = .ok amount) ↔
        (blockVersion < blockVersion2340 → (total parameter.1).toNat < 2 ^ 63) := by
    simp only [readAmount_eq_ok, emits.totals parameter member, parseUint_printTotal]
    split
    · next large => simpa [large.1] using large.2
    · next small => simpa using small
  constructor
  · intro all below address member
    obtain ⟨parameter, inside, rfl⟩ := List.mem_map.mp ((emits.names address).mpr member)
    exact (readable inside).mp (all parameter inside) below
  · intro small parameter member
    refine (readable member).mpr fun below => small below _ ?_
    exact (emits.names _).mp (List.mem_map_of_mem member)

theorem Emits.amountsOf_eq (emits : Emits blockVersion named total parameters)
    (readable : ∀ parameter ∈ parameters, ∃ amount, readAmount parameter = .ok amount)
    (address : Bytes) :
    amountsOf (namedAmounts parameters) address = if address ∈ named then [total address] else [] := by
  have read : namedAmounts parameters = parameters.filterMap fun parameter =>
      (some (total parameter.1)).map fun amount => (parameter.1, amount) := by
    rw [namedAmounts]
    refine List.filterMap_congr ?_
    intro parameter member
    obtain ⟨amount, parsed⟩ := readable parameter member
    obtain ⟨value, text, rfl⟩ := readAmount_eq_ok.mp parsed
    rw [emits.totals parameter member, parseUint_printTotal] at text
    split at text
    · cases text
    · cases text
      rw [parsed]
      simp [Except.toOption]
  rw [read]
  by_cases member : address ∈ named
  · obtain ⟨parameter, inside, rfl⟩ := List.mem_map.mp ((emits.names address).mpr member)
    rw [if_pos member]
    exact amountsOf_keyed (fun parameter : Bytes × Bytes => parameter.1) (fun parameter => some (total parameter.1)) emits.distinct inside
  · rw [if_neg member, amountsOf_eq_nil_iff]
    intro entry found same
    obtain ⟨parameter, inside, some⟩ := List.mem_filterMap.mp found
    cases some
    exact member ((emits.names address).mp (same ▸ List.mem_map_of_mem inside))

end Emitted

/-- What the proposer and the verifier need to agree: only payers of the block
have a parameter, and charges among its transactions name only such payers and
use no gas. Below version 2.3.4 the totals are also within the signed range. -/
structure Agree (payer : Transaction → Option Bytes) (blockVersion : Nat)
    (txBatch : List Transaction) (txTable : List BlockTx) : Prop where
  resolved : ∀ entry ∈ txTable, entry.isChargeGas = false → ∃ address, payer entry.tx = some address
  paying : ∀ address ∈ namedPayers payer blockVersion txBatch txTable,
    ∃ entry ∈ txTable, entry.isChargeGas = false ∧ payer entry.tx = some address
  named : ∀ entry ∈ txTable, entry.isChargeGas = true → ∀ parameter ∈ entry.tx.parameters,
    (∃ amount, readAmount parameter = .ok amount) ∧
      parameter.1 ∈ namedPayers payer blockVersion txBatch txTable
  free : ∀ address ∈ namedPayers payer blockVersion txBatch txTable,
    totalGasOf payer (txTable.filter (·.isChargeGas)) address = 0
  signed : blockVersion < blockVersion2340 →
    ∀ address ∈ namedPayers payer blockVersion txBatch txTable,
      (totalGasOf payer txTable address).toNat < 2 ^ 63

theorem gasPaid_eq (txTable : List BlockTx) : gasPaid payer txTable = gasOf payer (txTable.filter (!·.isChargeGas)) := by
  rw [gasPaid, gasOf, List.filterMap_filter]
  refine List.filterMap_congr ?_
  intro entry _
  cases entry.isChargeGas with
  | false => rfl
  | true => rfl

theorem totalGasOf_eq (txTable : List BlockTx) (address : Bytes) :
    totalGasOf payer txTable address = (amountsOf (gasPaid payer txTable) address).sum +
      totalGasOf payer (txTable.filter (·.isChargeGas)) address := by
  have perm := (List.filter_append_perm (·.isChargeGas) txTable).symm.filterMap
    fun entry => (payer entry.tx).map fun address => (address, entry.gasUsed)
  have sums := uint64_sum_perm (amountsOf_perm perm address)
  rw [List.filterMap_append, amountsOf_append, List.sum_append] at sums
  rw [totalGasOf, totalGasOf, gasPaid_eq, UInt64.add_comm]
  exact sums

variable {address : Bytes}

theorem amountsOf_gasPaid_ne_nil : amountsOf (gasPaid payer txTable) address ≠ [] ↔
      ∃ entry ∈ txTable, entry.isChargeGas = false ∧ payer entry.tx = some address := by
  rw [gasPaid_eq, gasOf, amountsOf_filterMap]
  simp [and_comm]

theorem amountsOf_gasNamed_eq_nil (readable : ∀ entry ∈ txTable, entry.Readable payer) :
    amountsOf (gasNamed txTable) address = [] ↔ ∀ entry ∈ txTable, entry.isChargeGas = true →
      ∀ parameter ∈ entry.tx.parameters, parameter.1 ≠ address := by
  rw [gasNamed, amountsOf_flatMap, List.flatMap_eq_nil_iff]
  refine forall₂_congr ?_
  intro entry member
  have here := readable entry member
  by_cases charge : entry.isChargeGas = true
  · rw [BlockTx.Readable, if_pos charge] at here
    simp [charge, namedAmounts_eq here, amountsOf_map, amountsOf_eq_nil_iff]
  · simp [charge, amountsOf]

theorem Reached.mem_namedPayers (reached : Reached txBatch txTable) {entry : BlockTx}
    (member : entry ∈ txTable) (paid : payer entry.tx = some address) :
    address ∈ namedPayers payer blockVersion txBatch txTable := by
  unfold namedPayers
  split
  · exact List.mem_filterMap.mpr ⟨entry.tx, reached.inBatch entry member, paid⟩
  · exact List.mem_filterMap.mpr ⟨entry.tx, List.mem_map_of_mem member, paid⟩

theorem Emits.agree_iff {parameters : List (Bytes × Bytes)} (emits : Emits blockVersion (namedPayers payer blockVersion txBatch txTable)
      (totalGasOf payer txTable) parameters)
    (readable : ∀ parameter ∈ parameters, ∃ amount, readAmount parameter = .ok amount)
    (reached : Reached txBatch txTable) (address : Bytes) :
    (tally (gasPaid payer txTable)).lookup address = (lastAmounts (gasNamed txTable ++ namedAmounts parameters)).lookup address ↔
      if address ∈ namedPayers payer blockVersion txBatch txTable then
        amountsOf (gasPaid payer txTable) address ≠ [] ∧ totalGasOf payer (txTable.filter (·.isChargeGas)) address = 0
      else amountsOf (gasNamed txTable) address = [] := by
  rw [tally_lookup, lastAmounts_lookup, amountsOf_append, emits.amountsOf_eq readable]
  by_cases member : address ∈ namedPayers payer blockVersion txBatch txTable
  · rw [if_pos member, if_pos member, List.getLast?_concat, totalGasOf_eq]
    split
    · next none => simp [none]
    · next some => rw [and_iff_right some, Option.some.injEq, eq_comm, UInt64.add_eq_left]
  · have none : amountsOf (gasPaid payer txTable) address = [] := by
      by_contra some
      obtain ⟨entry, inside, _, paid⟩ := amountsOf_gasPaid_ne_nil.mp some
      exact member (reached.mem_namedPayers inside paid)
    rw [if_neg member, if_neg member, if_pos none, List.append_nil, eq_comm, List.getLast?_eq_none_iff]

theorem Agree.readable (agree : Agree payer blockVersion txBatch txTable) : ∀ entry ∈ txTable, entry.Readable payer := by
  intro entry member
  unfold BlockTx.Readable
  split
  · next charge => exact fun parameter inside => (agree.named entry member charge parameter inside).1
  · next other => exact agree.resolved entry member (by simpa using other)

theorem agree_iff_amounts : Agree payer blockVersion txBatch txTable ↔ (∀ entry ∈ txTable, entry.Readable payer) ∧
      (∀ address, if address ∈ namedPayers payer blockVersion txBatch txTable then
          amountsOf (gasPaid payer txTable) address ≠ [] ∧ totalGasOf payer (txTable.filter (·.isChargeGas)) address = 0
        else amountsOf (gasNamed txTable) address = []) ∧
      (blockVersion < blockVersion2340 → ∀ address ∈ namedPayers payer blockVersion txBatch txTable,
          (totalGasOf payer txTable address).toNat < 2 ^ 63) := by
  constructor
  · intro agree
    refine ⟨agree.readable, fun address => ?_, agree.signed⟩
    split
    · next member =>
      exact ⟨amountsOf_gasPaid_ne_nil.mpr (agree.paying address member), agree.free address member⟩
    · next unnamed =>
      rw [amountsOf_gasNamed_eq_nil agree.readable]
      intro entry member charge parameter inside same
      exact unnamed (same ▸ (agree.named entry member charge parameter inside).2)
  · intro amounts
    obtain ⟨readable, agrees, signed⟩ := amounts
    refine ⟨?_, ?_, ?_, ?_, signed⟩
    · intro entry member other
      have here := readable entry member
      rwa [BlockTx.Readable, if_neg (by simp [other])] at here
    · intro address member
      have here := agrees address
      rw [if_pos member] at here
      exact amountsOf_gasPaid_ne_nil.mp here.1
    · intro entry member charge parameter inside
      have here := readable entry member
      rw [BlockTx.Readable, if_pos charge] at here
      refine ⟨here parameter inside, ?_⟩
      by_contra unnamed
      have none := agrees parameter.1
      rw [if_neg unnamed, amountsOf_gasNamed_eq_nil readable] at none
      exact none entry member charge parameter inside rfl
    · intro address member
      have here := agrees address
      rw [if_pos member] at here
      exact here.2

/-- The verifier accepts the charge of the proposer exactly if they agree. -/
theorem verify_createChargeGasTx_iff (reached : Reached txBatch txTable) {parameters : List (Bytes × Bytes)}
    (emitted : parameters.Perm (chargeGasParameters payer
      (newSenderCollection getKey payer txNeedChargeGas chainVersion blockVersion txBatch)
      txTable blockVersion)) (txId : Bytes) (gasUsed : UInt64) :
    verifyOptimizeChargeGasTx payer (txTable ++ [⟨createChargeGasTx txId parameters, gasUsed⟩]) = .ok () ↔
      Agree payer blockVersion txBatch txTable := by
  have emits := reached.emits.perm emitted
  have charge : (⟨createChargeGasTx txId parameters, gasUsed⟩ : BlockTx).isChargeGas = true := by
    simp [BlockTx.isChargeGas, createChargeGasTx]
  have paid : gasPaid payer (txTable ++ [⟨createChargeGasTx txId parameters, gasUsed⟩]) =
      gasPaid payer txTable := by
    simp [gasPaid, charge]
  have named : gasNamed (txTable ++ [⟨createChargeGasTx txId parameters, gasUsed⟩]) =
      gasNamed txTable ++ namedAmounts parameters := by
    rw [gasNamed, List.flatMap_append, List.flatMap_singleton, if_pos charge]
    rfl
  have last : (⟨createChargeGasTx txId parameters, gasUsed⟩ : BlockTx).Readable payer ↔
      ∀ parameter ∈ parameters, ∃ amount, readAmount parameter = .ok amount := by
    rw [BlockTx.Readable, if_pos charge]
    rfl
  rw [verifyOptimizeChargeGasTx_eq_ok, or_iff_right (by simp), paid, named, List.forall_mem_append,
    List.forall_mem_singleton, last]
  rw [agree_iff_amounts]
  constructor
  · intro accepted
    obtain ⟨⟨readable, readableCharge⟩, _, agree⟩ := accepted
    exact ⟨readable, fun address => (emits.agree_iff readableCharge reached address).mp (agree address),
      emits.readable_iff.mp readableCharge⟩
  · intro amounts
    obtain ⟨readable, agrees, signed⟩ := amounts
    have readableCharge := emits.readable_iff.mpr signed
    refine ⟨⟨readable, readableCharge⟩, ⟨_, by simp, charge⟩, fun address => ?_⟩
    exact (emits.agree_iff readableCharge reached address).mpr (agrees address)

section TwoPayers

private def selfPaid (txId : Bytes) : Transaction :=
  ⟨txId, ascii "contract", ascii "method", [], some 10, true⟩

private def selfPayer (tx : Transaction) : Option Bytes := some tx.txId

private def emptyState (_ : StateKey) : Except Unit Bytes := .ok []

private def proposed (txTable : List BlockTx) : List (Bytes × Bytes) :=
  chargeGasParameters selfPayer
    (newSenderCollection emptyState selfPayer (fun _ => true) 2030300 2030300
      [selfPaid [1], selfPaid [2]]) txTable 2030300

private def bothReached : List BlockTx := [⟨selfPaid [2], 3⟩, ⟨selfPaid [1], 5⟩]

private def oneReached : List BlockTx := [⟨selfPaid [1], 5⟩]

theorem verify_createChargeGasTx_iff_both : Reached [selfPaid [1], selfPaid [2]] bothReached ∧
      verifyOptimizeChargeGasTx selfPayer
        (bothReached ++ [⟨createChargeGasTx [3] (proposed bothReached), 0⟩]) = .ok () := by
  have reached : Reached [selfPaid [1], selfPaid [2]] bothReached :=
    ⟨by decide, by decide, by decide⟩
  refine ⟨reached, (verify_createChargeGasTx_iff reached (List.Perm.refl _) [3] 0).mpr ?_⟩
  refine ⟨fun _ _ _ => ⟨_, rfl⟩, by decide, ?_, by decide, fun _ => by decide⟩
  intro entry member charge
  exact absurd charge (by revert entry; decide)

/-- The second transaction did not reach the snapshot in time. Its payer has a
parameter with the total zero. -/
theorem verify_rejects_payer_without_transaction : Reached [selfPaid [1], selfPaid [2]] oneReached ∧
      proposed oneReached = [([2], ascii "0"), ([1], ascii "5")] ∧
      verifyOptimizeChargeGasTx selfPayer (oneReached ++ [⟨createChargeGasTx [3] (proposed oneReached), 0⟩]) =
          .error (.accountCount 1 2) :=
  ⟨⟨by decide, by decide, by decide⟩, by decide, by decide⟩

end TwoPayers

end Agreement

end Pdcc.Scheduler.Gas
