import Pdcc.Core.BlockRecovery

/-!
# The round trip of a proposal through the batch pool

The proposer lists the positions of its transactions in the batches it fetched and cuts
the transactions off; the receiver fetches the same batches and puts them back. Whether
the last transaction travels with the block is for both sides a matter of the
configuration.
-/

set_option autoImplicit false

namespace Pdcc.Core

open Ledger Library

variable {Result Signers Data : Type}

section Positions

variable {fetched : List (Transaction Result Signers)}

theorem txIndex_lookup_some (distinct : (fetched.map (·.txId)).Nodup) {tx : Transaction Result Signers} (member : tx ∈ fetched) :
    ∃ position, fetched[position]? = some tx ∧ (txIndex fetched).lookup tx.txId = some (UInt32.ofNat position) := by
  obtain ⟨position, inside, rfl⟩ := List.mem_iff_getElem.mp member
  refine ⟨position, List.getElem?_eq_getElem inside, ?_⟩
  have names : (fetched.zipIdx.map fun entry => (entry.1.txId, UInt32.ofNat entry.2)).map (·.1) = fetched.map (·.txId) := by
    conv_rhs => rw [← List.zipIdx_map_fst 0 fetched, List.map_map]
    rw [List.map_map]
    rfl
  have listed : (fetched[position].txId, UInt32.ofNat position) ∈ fetched.zipIdx.map fun entry => (entry.1.txId, UInt32.ofNat entry.2) :=
    List.mem_map.mpr ⟨(fetched[position], position), List.mk_mem_zipIdx_iff_getElem?.mpr (List.getElem?_eq_getElem inside), rfl⟩
  exact lastAmounts_lookup_of_mem (names ▸ distinct) listed

theorem txIndex_lookup_none {txId : Bytes} (missing : txId ∉ fetched.map (·.txId)) : (txIndex fetched).lookup txId = none := by
  rw [txIndex, lastAmounts_lookup, List.getLast?_eq_none_iff, amountsOf_eq_nil_iff]
  intro entry member same
  obtain ⟨⟨tx, position⟩, inside, rfl⟩ := List.mem_map.mp member
  exact missing (List.mem_map.mpr ⟨tx, (List.mem_zipIdx' inside).2 ▸ List.getElem_mem _, same⟩)

theorem positions_of_fetched (distinct : (fetched.map (·.txId)).Nodup)
    (few : fetched.length < 2 ^ 32) {txs : List (Transaction Result Signers)}
    (known : ∀ tx ∈ txs, tx ∈ fetched) :
    (txs.filterMap fun tx => (txIndex fetched).lookup tx.txId).mapM (fun v => (index fetched v.toNat : Recovering _)) = .ok txs := by
  induction txs with
  | nil => rfl
  | cons tx rest ih =>
    obtain ⟨here, later⟩ := List.forall_mem_cons.mp known
    obtain ⟨position, found, listed⟩ := txIndex_lookup_some distinct here
    have inside := (List.getElem?_eq_some_iff.mp found).1
    have same : (UInt32.ofNat position).toNat = position :=
      UInt32.toNat_ofNat_of_lt' (by simpa [UInt32.size] using inside.trans few)
    rw [List.filterMap_cons, listed]
    dsimp only
    rw [List.mapM_cons, same, index_eq_ok.mpr found, ih later]
    rfl

theorem length_positions (distinct : (fetched.map (·.txId)).Nodup)
    {txs : List (Transaction Result Signers)} (known : ∀ tx ∈ txs, tx ∈ fetched) :
    (txs.filterMap fun tx => (txIndex fetched).lookup tx.txId).length = txs.length := by
  induction txs with
  | nil => rfl
  | cons tx rest ih =>
    obtain ⟨here, later⟩ := List.forall_mem_cons.mp known
    obtain ⟨position, _, listed⟩ := txIndex_lookup_some distinct here
    rw [List.filterMap_cons, listed]
    dsimp only
    rw [List.length_cons, ih later, List.length_cons]

end Positions

/-- What a proposer packs into a block: every transaction of the batches it fetched, in
an order of its own, and a transaction that charges gas if that is done for the whole
block. -/
structure Packing (Result Signers : Type) where
  batchIds : List Bytes
  batchOf : Bytes → List (Transaction Result Signers)
  distinct : ((batchIds.map batchOf).flatten.map (·.txId)).Nodup
  order : List (Transaction Result Signers)
  reordered : order.Perm (batchIds.map batchOf).flatten
  chargeGas : Transaction Result Signers
  charges : isGasTx chargeGas = true

namespace Packing

variable (p : Packing Result Signers) (conf : ChainConfig)

def fetchBatches : List (List (Transaction Result Signers)) := p.batchIds.map p.batchOf

def kept : List (Transaction Result Signers) :=
  if conf.isOptimizeChargeGasEnabled then [p.chargeGas] else []

def txs : List (Transaction Result Signers) := p.order ++ p.kept conf

def block (codec : BatchCodec Data) (header : Header) (dag : List (List Nat)) :
    Block (Transaction Result Signers) Data :=
  fillBatchPoolAdditionalData codec .batch p.batchIds p.fetchBatches
    { header := { header with txCount := UInt32.ofNat (p.txs conf).length }
      dag := dag
      txs := p.txs conf
      extraData := ∅ }

variable {p conf} {codec : BatchCodec Data} {header : Header} {dag : List (List Nat)}

theorem block_txs : (p.block conf codec header dag).txs = p.txs conf := by
  unfold block fillBatchPoolAdditionalData
  split <;> rfl

theorem block_txCount : (p.block conf codec header dag).header.txCount = UInt32.ofNat (p.txs conf).length := by
  unfold block fillBatchPoolAdditionalData
  split <;> rfl

theorem block_proposer : (p.block conf codec header dag).header.proposer = header.proposer := by
  unfold block fillBatchPoolAdditionalData
  split <;> rfl

variable (p conf) in
def positions : List UInt32 :=
  (p.txs conf).filterMap fun tx => (txIndex p.fetchBatches.flatten).lookup tx.txId

theorem getBatchIds_block {node : Receiver Result Signers Data} {kept : List (Transaction Result Signers)} (nonempty : p.txs conf ≠ []) :
    node.getBatchIds ((p.block conf node.codec header dag).withTxs kept) = .ok (p.batchIds, p.positions conf) := by
  have packed : TxPoolType.batch = TxPoolType.batch ∧ (p.txs conf).length ≠ 0 :=
    ⟨rfl, mt List.length_eq_zero_iff.mp nonempty⟩
  unfold Receiver.getBatchIds block fillBatchPoolAdditionalData
  rw [if_pos packed]
  simp only [Block.withTxs, AList.lookup_insert, serializeTxBatchInfo, node.codec.unmarshal_marshal]
  rfl

theorem known (tx : Transaction Result Signers) (member : tx ∈ p.order) : tx ∈ p.fetchBatches.flatten :=
  p.reordered.mem_iff.mp member

theorem distinct_fetched : (p.fetchBatches.flatten.map (·.txId)).Nodup := p.distinct

theorem length_positions_block : (p.positions conf).length = p.order.length +
      if conf.isOptimizeChargeGasEnabled ∧ p.chargeGas.txId ∈ p.fetchBatches.flatten.map (·.txId)
      then 1 else 0 := by
  unfold positions txs kept
  rw [List.filterMap_append, List.length_append, length_positions p.distinct_fetched known]
  cases conf.isOptimizeChargeGasEnabled with
  | false => simp
  | true =>
    by_cases taken : p.chargeGas.txId ∈ p.fetchBatches.flatten.map (·.txId)
    · obtain ⟨tx, member, same⟩ := List.mem_map.mp taken
      obtain ⟨position, _, listed⟩ := txIndex_lookup_some p.distinct_fetched member
      rw [same] at listed
      rw [if_pos rfl, if_pos ⟨rfl, taken⟩, List.filterMap_cons, listed]
      rfl
    · rw [if_pos rfl, if_neg fun both => taken both.2, List.filterMap_cons, txIndex_lookup_none taken]
      rfl

end Packing

/-- The receiver's pool has the packed batches. -/
def Receiver.Fetches (node : Receiver Result Signers Data) (p : Packing Result Signers) : Prop :=
  ∀ proposerId height timeOut,
    node.getAllTxsByBatchIds p.batchIds proposerId height timeOut = some p.fetchBatches

/-- The block cut down to its batch ids is rebuilt with all its transactions. -/
def RoundTrips (node : Receiver Result Signers Data) (conf : ChainConfig) (mode : VerifyMode)
    (block : Block (Transaction Result Signers) Data) : Prop :=
  ∃ turboBlock newBlock batchIds, getTurboBlock .batch conf block = .ok turboBlock ∧
    recoverBlockByBatch node conf mode turboBlock = .ok (newBlock, batchIds) ∧
    newBlock.txs = block.txs.map some

section RoundTrip

variable {node : Receiver Result Signers Data} {conf : ChainConfig} {mode : VerifyMode}
  {block : Block (Transaction Result Signers) Data}
  {newBlock : Block (Option (Transaction Result Signers)) Data} {batchIds : List Bytes}

theorem recoverBlockByBatch_counted (rebuilds : block.header.txCount ≠ 0 ∧ mode ≠ .syncVerify ∧ conf.consensusType ≠ .raft)
    (recovered : recoverBlockByBatch node conf mode block = .ok (newBlock, batchIds)) :
    (∃ proposerId, node.getProposerId block.header.proposer = .ok proposerId) ∧
      ∃ listed indexes, node.getBatchIds block = .ok (listed, indexes) ∧ expectedCount conf indexes = block.header.txCount.toNat := by
  unfold recoverBlockByBatch at recovered
  rw [if_pos rebuilds] at recovered
  obtain ⟨proposerId, proposer, recovered⟩ := bind_eq_ok.mp recovered
  obtain ⟨⟨listed, indexes⟩, listedIs, recovered⟩ := bind_eq_ok.mp recovered
  refine ⟨⟨proposerId, proposer⟩, listed, indexes, listedIs, ?_⟩
  by_contra different
  dsimp only at recovered
  rw [if_pos different] at recovered
  cases recovered

theorem recoverBlockByBatch_uncounted (empty : block.header.txCount = 0)
    (recovered : recoverBlockByBatch node conf mode block = .ok (newBlock, batchIds)) :
    newBlock = block.received := by
  unfold recoverBlockByBatch at recovered
  rw [if_neg fun rebuilds => rebuilds.1 empty] at recovered
  obtain ⟨_, _, recovered⟩ := bind_eq_ok.mp recovered
  cases recovered
  rfl

theorem getTurboBlock_batch {turboBlock : Block (Transaction Result Signers) Data} (cut : getTurboBlock .batch conf block = .ok turboBlock) :
    ∃ kept, turboBlock = block.withTxs kept ∧ kept.length ≤ 1 ∧
      (conf.checkCoinbaseEnable = true → ∃ last, lastListed block = .ok last ∧ kept = [last]) := by
  unfold getTurboBlock at cut
  rw [if_pos rfl] at cut
  cases coinbase : conf.checkCoinbaseEnable with
  | true =>
    rw [if_pos coinbase] at cut
    obtain ⟨last, listed, cut⟩ := bind_eq_ok.mp cut
    cases cut
    exact ⟨[last], rfl, le_rfl, fun _ => ⟨last, listed, rfl⟩⟩
  | false =>
    rw [if_neg (by simp [coinbase])] at cut
    cases cut
    exact ⟨[], rfl, Nat.zero_le 1, fun enabled => by cases enabled⟩

theorem txs_length (p : Packing Result Signers) :
    (p.txs conf).length = p.order.length + if conf.isOptimizeChargeGasEnabled then 1 else 0 := by
  unfold Packing.txs Packing.kept
  cases conf.isOptimizeChargeGasEnabled <;> simp

theorem expectedCount_eq (indexes : List UInt32) : expectedCount conf indexes =
      indexes.length + if conf.checkCoinbaseEnable then 1 else 0 := by
  unfold expectedCount
  split <;> rfl

theorem gas_le_coinbase : (if conf.isOptimizeChargeGasEnabled then 1 else 0) ≤ if conf.checkCoinbaseEnable then 1 else 0 := by
  unfold ChainConfig.checkCoinbaseEnable
  cases conf.isOptimizeChargeGasEnabled <;> simp

theorem counts_agree {order extra coinbase gas : Nat}
    (counted : order + extra + coinbase = (order + gas) % 2 ^ 32) (atMost : gas ≤ coinbase) :
    order + gas < 2 ^ 32 ∧ extra = 0 ∧ coinbase = gas := by
  omega

theorem roundTrips_counted {p : Packing Result Signers} {header : Header} {dag : List (List Nat)}
    (notRaft : conf.consensusType ≠ .raft) (consensus : mode ≠ .syncVerify)
    (nonempty : p.txs conf ≠ [])
    (trips : RoundTrips node conf mode (p.block conf node.codec header dag)) :
    (∃ proposerId, node.getProposerId header.proposer = .ok proposerId) ∧
      expectedCount conf (p.positions conf) = (p.txs conf).length % 2 ^ 32 := by
  obtain ⟨turboBlock, newBlock, batchIds, cut, recovered, same⟩ := trips
  obtain ⟨kept, rfl, few, _⟩ := getTurboBlock_batch cut
  rw [Packing.block_txs] at same
  have count : ((p.block conf node.codec header dag).withTxs kept).header.txCount = UInt32.ofNat (p.txs conf).length := Packing.block_txCount
  by_cases empty : UInt32.ofNat (p.txs conf).length = 0
  · -- a multiple of the range of the counter: the block comes back with what was kept
    rw [recoverBlockByBatch_uncounted (count.trans empty) recovered] at same
    have length := congrArg List.length same
    simp only [Block.received, Block.withTxs, List.length_map] at length
    have positive := List.length_pos_of_ne_nil nonempty
    have wraps := congrArg UInt32.toNat empty
    rw [UInt32.toNat_ofNat'] at wraps
    simp at wraps
    omega
  · obtain ⟨proposer, listed, indexes, listedIs, counted⟩ :=
      recoverBlockByBatch_counted ⟨count ▸ empty, consensus, notRaft⟩ recovered
    rw [Packing.getBatchIds_block nonempty] at listedIs
    cases listedIs
    rw [count, UInt32.toNat_ofNat'] at counted
    refine ⟨?_, counted⟩
    rwa [show ((p.block conf node.codec header dag).withTxs kept).header.proposer = header.proposer from Packing.block_proposer] at proposer

section Recovered

variable {p : Packing Result Signers} {header : Header} {dag : List (List Nat)}

theorem checkCoinbaseEnable_eq (appended : conf.consensusType = .dpos → conf.isOptimizeChargeGasEnabled) :
    conf.checkCoinbaseEnable = conf.isOptimizeChargeGasEnabled := by
  unfold ChainConfig.checkCoinbaseEnable
  cases enabled : conf.isOptimizeChargeGasEnabled with
  | true => rfl
  | false =>
    have other : conf.consensusType ≠ .dpos := fun dpos => by simp [appended dpos] at enabled
    simp [other]

theorem lastListed_block (few : (p.txs conf).length < 2 ^ 32) (enabled : conf.isOptimizeChargeGasEnabled = true) :
    lastListed (p.block conf node.codec header dag) = .ok p.chargeGas := by
  have txs : p.txs conf = p.order ++ [p.chargeGas] := by
    rw [Packing.txs, Packing.kept, if_pos enabled]
  have length : (p.txs conf).length = p.order.length + 1 := by
    rw [txs, List.length_append, List.length_singleton]
  have count : (UInt32.ofNat (p.txs conf).length).toNat = p.order.length + 1 := by
    rw [UInt32.toNat_ofNat', Nat.mod_eq_of_lt few, length]
  have counted : UInt32.ofNat (p.txs conf).length ≠ 0 := by
    intro zero
    rw [zero] at count
    cases count
  have last := toNat_sub_one counted
  rw [count] at last
  refine index_eq_ok.mpr ?_
  rw [Packing.block_txs, Packing.block_txCount, Nat.add_right_cancel last, txs]
  simp

theorem getTurboBlock_block (appended : conf.consensusType = .dpos → conf.isOptimizeChargeGasEnabled) (few : (p.txs conf).length < 2 ^ 32) :
    getTurboBlock .batch conf (p.block conf node.codec header dag) = .ok ((p.block conf node.codec header dag).withTxs (p.kept conf)) := by
  unfold getTurboBlock Packing.kept
  rw [if_pos rfl, checkCoinbaseEnable_eq appended]
  by_cases enabled : conf.isOptimizeChargeGasEnabled = true
  · rw [if_pos enabled, if_pos enabled, lastListed_block few enabled]
    rfl
  · rw [if_neg enabled, if_neg enabled]

theorem fillSlots_order {turboBlock : Block (Transaction Result Signers) Data}
    (appended : conf.consensusType = .dpos → conf.isOptimizeChargeGasEnabled)
    (kept : turboBlock.txs = p.kept conf)
    (count : turboBlock.header.txCount.toNat = (p.txs conf).length) :
    fillSlots conf turboBlock p.order = .ok ((p.txs conf).map some) := by
  unfold fillSlots
  rw [checkCoinbaseEnable_eq appended, count, kept]
  unfold Packing.txs Packing.kept
  by_cases enabled : conf.isOptimizeChargeGasEnabled = true
  · rw [if_pos enabled, if_pos enabled]
    simp
  · rw [if_neg enabled, if_neg enabled]
    simp

theorem positions_order (fresh : conf.isOptimizeChargeGasEnabled → p.chargeGas.txId ∉ p.fetchBatches.flatten.map (·.txId)) :
    p.positions conf = p.order.filterMap fun tx => (txIndex p.fetchBatches.flatten).lookup tx.txId := by
  unfold Packing.positions Packing.txs Packing.kept
  rw [List.filterMap_append]
  by_cases enabled : conf.isOptimizeChargeGasEnabled = true
  · rw [if_pos enabled, List.filterMap_cons, txIndex_lookup_none (fresh enabled)]
    simp
  · rw [if_neg enabled]
    simp

theorem rebuildFromBatches_block {proposerId : Bytes} (appended : conf.consensusType = .dpos → conf.isOptimizeChargeGasEnabled)
    (few : (p.txs conf).length < 2 ^ 32) (fetches : node.Fetches p)
    (fresh : conf.isOptimizeChargeGasEnabled → p.chargeGas.txId ∉ p.fetchBatches.flatten.map (·.txId)) :
    rebuildFromBatches node conf ((p.block conf node.codec header dag).withTxs (p.kept conf)) proposerId p.batchIds (p.positions conf) =
      .ok ((p.block conf node.codec header dag).withTxs ((p.txs conf).map some)) := by
  have count : ((p.block conf node.codec header dag).withTxs (p.kept conf)).header.txCount.toNat = (p.txs conf).length := by
    change (p.block conf node.codec header dag).header.txCount.toNat = _
    rw [Packing.block_txCount, UInt32.toNat_ofNat', Nat.mod_eq_of_lt few]
  have fetched : p.fetchBatches.flatten.length = p.order.length := p.reordered.length_eq.symm
  have fewFetched : p.fetchBatches.flatten.length < 2 ^ 32 := by
    have length : (p.txs conf).length = _ := txs_length p
    omega
  have sameLength : p.fetchBatches.flatten.length = (p.positions conf).length := by
    rw [positions_order fresh, length_positions p.distinct_fetched Packing.known, fetched]
  refine bind_eq_ok.mpr ⟨p.fetchBatches, by rw [fetches]; rfl, ?_⟩
  rw [if_neg (not_not.mpr sameLength), positions_order fresh]
  refine bind_eq_ok.mpr ⟨p.order, positions_of_fetched p.distinct_fetched fewFetched Packing.known, ?_⟩
  refine bind_eq_ok.mpr ⟨_, fillSlots_order appended rfl count, ?_⟩
  rw [if_neg (by rw [count, List.length_map]; simp)]
  rfl

theorem recoverBlockByBatch_block {proposerId : Bytes} (rebuilds : mode ≠ .syncVerify ∧ conf.consensusType ≠ .raft)
    (appended : conf.consensusType = .dpos → conf.isOptimizeChargeGasEnabled)
    (nonempty : p.txs conf ≠ []) (few : (p.txs conf).length < 2 ^ 32) (fetches : node.Fetches p)
    (proposer : node.getProposerId header.proposer = .ok proposerId)
    (fresh : conf.isOptimizeChargeGasEnabled → p.chargeGas.txId ∉ p.fetchBatches.flatten.map (·.txId)) :
    recoverBlockByBatch node conf mode ((p.block conf node.codec header dag).withTxs (p.kept conf)) =
      .ok ((p.block conf node.codec header dag).withTxs ((p.txs conf).map some), p.batchIds) := by
  have count : ((p.block conf node.codec header dag).withTxs (p.kept conf)).header.txCount.toNat = (p.txs conf).length := by
    change (p.block conf node.codec header dag).header.txCount.toNat = _
    rw [Packing.block_txCount, UInt32.toNat_ofNat', Nat.mod_eq_of_lt few]
  have counted : ((p.block conf node.codec header dag).withTxs (p.kept conf)).header.txCount ≠ 0 := by
    intro zero
    rw [zero] at count
    exact nonempty (List.length_eq_zero_iff.mp count.symm)
  have expected : expectedCount conf (p.positions conf) = (p.txs conf).length := by
    unfold expectedCount
    rw [checkCoinbaseEnable_eq appended, positions_order fresh, length_positions p.distinct_fetched Packing.known, txs_length]
    split <;> rfl
  unfold recoverBlockByBatch
  rw [if_pos ⟨counted, rebuilds⟩]
  refine bind_eq_ok.mpr ⟨proposerId, by rw [← proposer]; exact congrArg _ Packing.block_proposer, ?_⟩
  refine bind_eq_ok.mpr ⟨_, Packing.getBatchIds_block nonempty, ?_⟩
  dsimp only
  rw [if_neg (not_not.mpr (expected.trans count.symm))]
  by_cases empty : p.batchIds.length = 0
  · -- without batches, the one transaction of the block came with it
    have none : p.order = [] := by
      have fetched := p.reordered
      rw [List.length_eq_zero_iff.mp empty] at fetched
      exact fetched.eq_nil
    rw [if_pos empty]
    simp only [Block.received, Block.withTxs, Packing.txs, none, List.nil_append]
  · rw [if_neg empty]
    exact bind_eq_ok.mpr ⟨_, rebuildFromBatches_block appended few fetches fresh, rfl⟩

theorem roundTrips_empty (appended : conf.consensusType = .dpos → conf.isOptimizeChargeGasEnabled)
    (empty : p.txs conf = []) : RoundTrips node conf mode (p.block conf node.codec header dag) := by
  have few : (p.txs conf).length < 2 ^ 32 := by simp [empty]
  have kept : p.kept conf = [] := (List.append_eq_nil_iff.mp empty).2
  have block : p.block conf node.codec header dag = { header := { header with txCount := 0 }, dag := dag, txs := [], extraData := ∅ } := by
    simp [Packing.block, fillBatchPoolAdditionalData, empty]
  refine ⟨_, (p.block conf node.codec header dag).received, [], getTurboBlock_block appended few, ?_, rfl⟩
  rw [kept, block]
  rfl

end Recovered

end RoundTrip

theorem recoverBlockByBatch_roundTrips_iff {node : Receiver Result Signers Data}
    {conf : ChainConfig} (notRaft : conf.consensusType ≠ .raft) {mode : VerifyMode}
    (consensus : mode ≠ .syncVerify) (p : Packing Result Signers) (fetches : node.Fetches p)
    (header : Header) (dag : List (List Nat)) :
    RoundTrips node conf mode (p.block conf node.codec header dag) ↔
      (conf.consensusType = .dpos → conf.isOptimizeChargeGasEnabled) ∧ (p.txs conf ≠ [] →
          (p.txs conf).length < 2 ^ 32 ∧ (∃ proposerId, node.getProposerId header.proposer = .ok proposerId) ∧
            (conf.isOptimizeChargeGasEnabled → p.chargeGas.txId ∉ p.fetchBatches.flatten.map (·.txId))) := by
  constructor
  · intro trips
    by_cases empty : p.txs conf = []
    · refine ⟨?_, fun nonempty => absurd empty nonempty⟩
      intro dpos
      obtain ⟨_, _, _, cut, _, _⟩ := trips
      obtain ⟨_, _, _, last⟩ := getTurboBlock_batch cut
      obtain ⟨tx, listed, _⟩ := last (by simp [ChainConfig.checkCoinbaseEnable, dpos])
      have present := index_eq_ok.mp listed
      rw [Packing.block_txs, empty] at present
      cases present
    · obtain ⟨proposer, counted⟩ := roundTrips_counted notRaft consensus empty trips
      rw [expectedCount_eq, Packing.length_positions_block, txs_length] at counted
      obtain ⟨few, extra, coinbase⟩ := counts_agree counted gas_le_coinbase
      refine ⟨?_, fun _ => ⟨(txs_length p).symm ▸ few, proposer, ?_⟩⟩
      · intro dpos
        by_contra disabled
        simp [ChainConfig.checkCoinbaseEnable, dpos, disabled] at coinbase
      · intro enabled taken
        rw [if_pos ⟨enabled, taken⟩] at extra
        cases extra
  · intro ⟨appended, packed⟩
    by_cases empty : p.txs conf = []
    · exact roundTrips_empty appended empty
    · obtain ⟨few, ⟨proposerId, proposer⟩, fresh⟩ := packed empty
      exact ⟨_, _, _, getTurboBlock_block appended few, recoverBlockByBatch_block
        ⟨consensus, notRaft⟩ appended empty few fetches proposer fresh,
        congrArg (List.map some) Packing.block_txs.symm⟩

section Sample

def chargeGasTx : Transaction Unit Unit where
  payload :=
    { txId := ascii "g", txType := .invokeContract, contractName := accountManager
      method := Scheduler.Gas.chargeGasForMultiAccount, parameters := [] }
  result := none
  signers := ()

def singlePacking : Packing Unit Unit where
  batchIds := [ascii "b"]
  batchOf _ := [plainTx (ascii "t")]
  distinct := by decide
  order := [plainTx (ascii "t")]
  reordered := .refl _
  chargeGas := chargeGasTx
  charges := rfl

def twoBatches : Packing Unit Unit where
  batchIds := [ascii "a", ascii "b"]
  batchOf batchId :=
    if batchId = ascii "a" then [plainTx (ascii "t"), plainTx (ascii "u")] else [plainTx (ascii "v")]
  distinct := by decide
  order := [plainTx (ascii "v"), plainTx (ascii "t"), plainTx (ascii "u")]
  reordered := (List.perm_append_singleton (plainTx (ascii "v")) [plainTx (ascii "t"), plainTx (ascii "u")]).symm
  chargeGas := chargeGasTx
  charges := rfl

/-- The transactions of two batches, in another order than the batches have them. -/
theorem roundTrips_tbft :
    let node := { singleBatchNode chargeGasTx with
      getAllTxsByBatchIds := fun _ _ _ _ => some twoBatches.fetchBatches }
    RoundTrips node (turboConf .tbft) .consensusVerify
      (twoBatches.block (turboConf .tbft) node.codec (singleIndexBlock 0).header [[], [0], [1]]) :=
  (recoverBlockByBatch_roundTrips_iff (by decide) (by decide) twoBatches (fun _ _ _ => rfl) _ _).mpr
    ⟨by decide, fun _ => ⟨by decide, ⟨[], rfl⟩, by decide⟩⟩

/-- Without gas, a block of this consensus has no coinbase transaction; yet one is expected
in addition to the listed positions. -/
theorem not_roundTrips_dpos :
    ¬ RoundTrips (singleBatchNode (plainTx (ascii "t"))) (turboConf .dpos) .consensusVerify
      (singlePacking.block (turboConf .dpos) (singleBatchNode (plainTx (ascii "t"))).codec
        (singleIndexBlock 0).header []) := by
  intro ⟨turboBlock, newBlock, batchIds, cut, recovered, _⟩
  cases cut
  cases recovered

end Sample

end Pdcc.Core
