import Pdcc.Core.BlockBuilder

/-!
# Giving back the transactions of losing proposals

When a block is kept, the transactions of the other proposals of its height return to
the pool, except those the kept block has. The transactions of all proposals are put
into one list first; one that charges gas is then taken off its end.
-/

set_option autoImplicit false

namespace Pdcc.Core

open Ledger Library

section Model

variable {Result Signers Data Event ε : Type}

structure TxPool (Result Signers : Type) where
  retried : List (Transaction Result Signers)
  removed : List (Transaction Result Signers)
  retriedBatches : List Bytes
  removedBatches : List Bytes

namespace TxPool

variable (pool : TxPool Result Signers)

def retryAndRemoveTxs (txsRetry txsRem : List (Transaction Result Signers)) :
    TxPool Result Signers :=
  { pool with
    retried := pool.retried ++ filterCoinBaseTxOrGasTx txsRetry
    removed := pool.removed ++ filterCoinBaseTxOrGasTx txsRem }

def retryAndRemoveTxBatches (batchRetry batchIds : List Bytes) : TxPool Result Signers :=
  { pool with
    retriedBatches := pool.retriedBatches ++ batchRetry
    removedBatches := pool.removedBatches ++ batchIds }

end TxPool

def ProposalCache.getProposedBlocksAt {Tx : Type} (cache : ProposalCache Tx Data Event)
    (height : UInt64) : List (Block Tx Data) :=
  (cache.filter fun entry => entry.height = height).map (·.data.block)

def otherBlocks {Tx : Type} (hash : Bytes) (proposedBlocks : List (Block Tx Data)) :
    List (Block Tx Data) :=
  proposedBlocks.filter fun b => b.header.blockHash ≠ hash

def leftTxs (keep b : Block (Transaction Result Signers) Data) :
    List (Transaction Result Signers) :=
  b.txs.filter fun tx => !(keep.txs.map (·.txId)).contains tx.txId

def leftBatches (keepBatchIds batchIds : List Bytes) : List Bytes :=
  batchIds.filter fun batchId => !keepBatchIds.contains batchId

structure PoolSync (Result Signers : Type) where
  txRetry : List (Transaction Result Signers)
  batchRetry : List Bytes
  batchIds : List Bytes

section Pool

variable (poolType : TxPoolType)
  (getBatchIds : Block (Transaction Result Signers) Data → Except ε (List Bytes))

def syncWithTxPool (block : Block (Transaction Result Signers) Data)
    (proposedBlocks : List (Block (Transaction Result Signers) Data)) :
    Except ε (PoolSync Result Signers) :=
  let others := otherBlocks block.header.blockHash proposedBlocks
  if poolType = .batch then do
    let batchIds ← getBatchIds block
    let retryBatchIds ← others.mapM getBatchIds
    return ⟨[], retryBatchIds.flatMap (leftBatches batchIds), batchIds⟩
  else return ⟨others.flatMap (leftTxs block), [], []⟩

def PoolSync.passOn (sync : PoolSync Result Signers)
    (block : Block (Transaction Result Signers) Data) (pool : TxPool Result Signers) :
    TxPool Result Signers :=
  if poolType = .batch then pool.retryAndRemoveTxBatches sync.batchRetry sync.batchIds
  else pool.retryAndRemoveTxs sync.txRetry block.txs

def cutBlocksForBatchPool (blocksToCut : List (Block (Transaction Result Signers) Data))
    (blockToKeep : Block (Transaction Result Signers) Data) (pool : TxPool Result Signers) :
    Except ε (TxPool Result Signers) := do
  let batchIds ← getBatchIds blockToKeep
  let cutBatchIds := (blocksToCut.filterMap fun b => (getBatchIds b).toOption).flatMap
    (leftBatches batchIds)
  return if cutBatchIds.isEmpty then pool else pool.retryAndRemoveTxBatches cutBatchIds []

def cutBlocks (blocksToCut : List (Block (Transaction Result Signers) Data))
    (blockToKeep : Block (Transaction Result Signers) Data) (pool : TxPool Result Signers) :
    TxPool Result Signers :=
  if poolType = .batch then
    -- an error is only logged
    (cutBlocksForBatchPool getBatchIds blocksToCut blockToKeep pool).toOption.getD pool
  else
    let cutTxs := blocksToCut.flatMap (leftTxs blockToKeep)
    if cutTxs.isEmpty then pool else pool.retryAndRemoveTxs cutTxs []

end Pool

end Model

section GasTx

variable {Result Signers : Type} {txs before : List (Transaction Result Signers)}

theorem filterCoinBaseTxOrGasTx_concat (txs : List (Transaction Result Signers)) (last : Transaction Result Signers) :
    filterCoinBaseTxOrGasTx (txs ++ [last]) = if isGasTx last then txs else txs ++ [last] := by
  unfold filterCoinBaseTxOrGasTx
  simp

theorem filter_filterCoinBaseTxOrGasTx (txs : List (Transaction Result Signers)) :
    (filterCoinBaseTxOrGasTx txs).filter (fun tx => !isGasTx tx) = txs.filter fun tx => !isGasTx tx := by
  cases List.eq_nil_or_concat' txs with
  | inl empty => rw [empty]; rfl
  | inr ending =>
    obtain ⟨init, last, rfl⟩ := ending
    rw [filterCoinBaseTxOrGasTx_concat]
    cases charges : isGasTx last with
    | true => simp [charges]
    | false => simp

theorem filterCoinBaseTxOrGasTx_of_ordinary (ordinary : ∀ tx ∈ txs, isGasTx tx = false) : filterCoinBaseTxOrGasTx txs = txs := by
  cases List.eq_nil_or_concat' txs with
  | inl empty => rw [empty]; rfl
  | inr ending =>
    obtain ⟨init, last, rfl⟩ := ending
    rw [filterCoinBaseTxOrGasTx_concat, ordinary last (by simp)]
    rfl

theorem mem_filterCoinBaseTxOrGasTx_append {after : List (Transaction Result Signers)}
    (more : after ≠ []) {tx : Transaction Result Signers} (member : tx ∈ before) :
    tx ∈ filterCoinBaseTxOrGasTx (before ++ after) := by
  obtain ⟨init, last, rfl⟩ := (List.eq_nil_or_concat' after).resolve_left more
  rw [← List.append_assoc, filterCoinBaseTxOrGasTx_concat]
  split <;> simp [member]

theorem ordinary_filterCoinBaseTxOrGasTx_iff : (∀ tx ∈ filterCoinBaseTxOrGasTx txs, isGasTx tx = false) ↔
      filterCoinBaseTxOrGasTx txs = txs.filter fun tx => !isGasTx tx := by
  rw [← filter_filterCoinBaseTxOrGasTx, eq_comm, List.filter_eq_self]
  simp

/-- At most one transaction charges gas, the last one. -/
def GasLast (txs : List (Transaction Result Signers)) : Prop :=
  ∃ (ordinary : List (Transaction Result Signers)) (gas : Option (Transaction Result Signers)),
    txs = ordinary ++ gas.toList ∧ (∀ tx ∈ ordinary, isGasTx tx = false) ∧
      ∀ tx ∈ gas, isGasTx tx = true

theorem GasLast.filter (gasLast : GasLast txs) (keep : Transaction Result Signers → Bool) : GasLast (txs.filter keep) := by
  obtain ⟨ordinary, gas, rfl, free, charges⟩ := gasLast
  refine ⟨ordinary.filter keep, gas.filter keep, ?_, ?_, ?_⟩
  · rw [List.filter_append]
    cases gas with
    | none => rfl
    | some tx =>
      cases keptTx : keep tx <;> simp [Option.filter, keptTx]
  · intro tx member
    exact free tx (List.mem_of_mem_filter member)
  · intro tx member
    exact charges tx (Option.mem_filter_iff.mp member).1

theorem GasLast.filterCoinBaseTxOrGasTx_eq (gasLast : GasLast txs) : filterCoinBaseTxOrGasTx txs = txs.filter fun tx => !isGasTx tx := by
  obtain ⟨ordinary, gas, rfl, free, charges⟩ := gasLast
  refine ordinary_filterCoinBaseTxOrGasTx_iff.mp ?_
  cases gas with
  | none =>
    rw [Option.toList_none, List.append_nil, filterCoinBaseTxOrGasTx_of_ordinary free]
    exact free
  | some tx =>
    rw [Option.toList_some, filterCoinBaseTxOrGasTx_concat, if_pos (charges tx rfl)]
    exact free

end GasTx

section GivenBack

variable {Result Signers Data Event ε : Type}
  {keep : Block (Transaction Result Signers) Data}
  {others order : List (Block (Transaction Result Signers) Data)}

/-- The ordinary transactions that only the other proposals have, each once. -/
structure GivenBack (keep : Block (Transaction Result Signers) Data)
    (others : List (Block (Transaction Result Signers) Data))
    (retried : List (Transaction Result Signers)) : Prop where
  ordinary : ∀ tx ∈ retried, isGasTx tx = false
  left : ∀ tx ∈ retried, ∃ b ∈ others, tx ∈ leftTxs keep b
  complete : ∀ b ∈ others, ∀ tx ∈ leftTxs keep b, isGasTx tx = false →
    tx.txId ∈ retried.map (·.txId)
  once : (retried.map (·.txId)).Nodup

def leftOrdinary (keep : Block (Transaction Result Signers) Data)
    (others : List (Block (Transaction Result Signers) Data)) :
    List (Transaction Result Signers) :=
  (others.flatMap (leftTxs keep)).filter fun tx => !isGasTx tx

/-- What is left over charges no gas, or comes from one proposal at most. -/
def GasAtEnd (keep : Block (Transaction Result Signers) Data)
    (others : List (Block (Transaction Result Signers) Data)) : Prop :=
  (∀ b ∈ others, ∀ tx ∈ leftTxs keep b, isGasTx tx = false) ∨
    (others.filter fun b => !(leftTxs keep b).isEmpty).length ≤ 1

theorem mem_leftOrdinary {tx : Transaction Result Signers} : tx ∈ leftOrdinary keep others ↔
      (∃ b ∈ others, tx ∈ leftTxs keep b) ∧ isGasTx tx = false := by
  simp [leftOrdinary]

theorem GasAtEnd.perm (atEnd : GasAtEnd keep others) (same : order.Perm others) : GasAtEnd keep order := by
  cases atEnd with
  | inl free => exact Or.inl fun b member => free b (same.mem_iff.mp member)
  | inr single =>
    refine Or.inr ?_
    rwa [(same.filter _).length_eq]

theorem flatMap_leftTxs_filter (others : List (Block (Transaction Result Signers) Data)) :
    (others.filter fun b => !(leftTxs keep b).isEmpty).flatMap (leftTxs keep) = others.flatMap (leftTxs keep) := by
  induction others with
  | nil => rfl
  | cons b others ih =>
    cases left : leftTxs keep b with
    | nil => simpa [left] using ih
    | cons tx txs => simpa [left] using ih

theorem GasAtEnd.filter_flatMap (atEnd : GasAtEnd keep others) (gasLast : ∀ b ∈ others, GasLast b.txs) :
    filterCoinBaseTxOrGasTx (others.flatMap (leftTxs keep)) = leftOrdinary keep others := by
  cases atEnd with
  | inl free =>
    refine ordinary_filterCoinBaseTxOrGasTx_iff.mp fun tx member => ?_
    have left := (filterCoinBaseTxOrGasTx_sublist _).subset member
    obtain ⟨b, listed, inBlock⟩ := List.mem_flatMap.mp left
    exact free b listed tx inBlock
  | inr single =>
    unfold leftOrdinary
    rw [← flatMap_leftTxs_filter]
    cases leaving : others.filter fun b => !(leftTxs keep b).isEmpty with
    | nil => rfl
    | cons b rest =>
      have listed : b ∈ others :=
        List.mem_of_mem_filter (leaving ▸ List.mem_cons_self)
      rw [leaving, List.length_cons] at single
      have none : rest = [] := List.eq_nil_of_length_eq_zero (by omega)
      rw [none, List.flatMap_singleton]
      exact ((gasLast b listed).filter _).filterCoinBaseTxOrGasTx_eq

theorem givenBack_leftOrdinary (once : ((leftOrdinary keep others).map (·.txId)).Nodup) :
    GivenBack keep others (leftOrdinary keep others) where
  ordinary _ member := (mem_leftOrdinary.mp member).2
  left _ member := (mem_leftOrdinary.mp member).1
  complete b listed _ left free :=
    List.mem_map_of_mem (mem_leftOrdinary.mpr ⟨⟨b, listed, left⟩, free⟩)
  once := once

theorem gasAtEnd_of_ordinary (ordinary : ∀ order : List (Block (Transaction Result Signers) Data), order.Perm others →
      ∀ tx ∈ filterCoinBaseTxOrGasTx (order.flatMap (leftTxs keep)), isGasTx tx = false) :
    GasAtEnd keep others := by
  refine or_iff_not_imp_left.mpr fun charged => ?_
  push Not at charged
  obtain ⟨b, listed, tx, left, charges⟩ := charged
  obtain ⟨before, after, rfl⟩ := List.append_of_mem listed
  have first : (b :: (before ++ after)).Perm (before ++ b :: after) := List.perm_middle.symm
  rw [← (first.filter _).length_eq]
  by_contra several
  -- with the proposal first, the others' transactions follow the one for the gas
  have follows : (before ++ after).flatMap (leftTxs keep) ≠ [] := by
    intro nothing
    have skipped : (before ++ after).filter (fun b => !(leftTxs keep b).isEmpty) = [] := by
      refine List.filter_eq_nil_iff.mpr fun other member => ?_
      have leaves := List.flatMap_eq_nil_iff.mp nothing other member
      simp [leaves]
    rw [List.filter_cons, skipped] at several
    split at several <;> simp at several
  have kept := mem_filterCoinBaseTxOrGasTx_append follows left
  exact charges (ordinary _ first tx (by rwa [List.flatMap_cons]))

theorem givenBack_orders_iff (gasLast : ∀ b ∈ others, GasLast b.txs) :
    (∀ order : List (Block (Transaction Result Signers) Data), order.Perm others →
      GivenBack keep order (filterCoinBaseTxOrGasTx (order.flatMap (leftTxs keep)))) ↔
      ((leftOrdinary keep others).map (·.txId)).Nodup ∧ GasAtEnd keep others := by
  constructor
  · intro givenBack
    refine ⟨?_, gasAtEnd_of_ordinary fun order same => (givenBack order same).ordinary⟩
    have back := givenBack others (List.Perm.refl _)
    have all := ordinary_filterCoinBaseTxOrGasTx_iff.mp back.ordinary
    have once := back.once
    rw [all] at once
    exact once
  · rintro ⟨once, atEnd⟩ order same
    rw [(atEnd.perm same).filter_flatMap fun b member => gasLast b (same.mem_iff.mp member)]
    have sameLeft : (leftOrdinary keep order).Perm (leftOrdinary keep others) :=
      (same.flatMap_right _).filter _
    exact givenBack_leftOrdinary ((sameLeft.map _).nodup_iff.mpr once)

theorem otherBlocks_perm {hash : Bytes} (same : order.Perm others) : (otherBlocks hash order).Perm (otherBlocks hash others) :=
  same.filter _

theorem exists_perm_otherBlocks {hash : Bytes} (same : order.Perm (otherBlocks hash others)) :
    ∃ whole : List (Block (Transaction Result Signers) Data), whole.Perm others ∧ otherBlocks hash whole = order := by
  refine ⟨order ++ others.filter (fun b => b.header.blockHash = hash), ?_, ?_⟩
  · have parts := List.filter_append_perm (fun b : Block (Transaction Result Signers) Data =>
      decide (b.header.blockHash ≠ hash)) others
    simp only [ne_eq, decide_not, Bool.not_not] at parts
    refine (same.append_right _).trans ?_
    simpa [otherBlocks] using parts
  · have others' : ∀ b ∈ order, b.header.blockHash ≠ hash := fun b member => by
      simpa using List.of_mem_filter (same.mem_iff.mp member)
    unfold otherBlocks
    rw [List.filter_append, List.filter_filter, List.filter_eq_self.mpr (by simpa using others')]
    simp

section NormalPool

variable {poolType : TxPoolType} (notBatch : poolType ≠ .batch)
  (getBatchIds : Block (Transaction Result Signers) Data → Except ε (List Bytes))
  (block : Block (Transaction Result Signers) Data) (pool : TxPool Result Signers)

include notBatch

theorem syncWithTxPool_normal (order : List (Block (Transaction Result Signers) Data)) : syncWithTxPool poolType getBatchIds block order =
      .ok ⟨(otherBlocks block.header.blockHash order).flatMap (leftTxs block), [], []⟩ := by
  unfold syncWithTxPool
  rw [if_neg notBatch]
  rfl

theorem PoolSync.passOn_retried (sync : PoolSync Result Signers) : (sync.passOn poolType block pool).retried =
      pool.retried ++ filterCoinBaseTxOrGasTx sync.txRetry := by
  unfold passOn
  rw [if_neg notBatch]
  rfl

theorem cutBlocks_retried (order : List (Block (Transaction Result Signers) Data)) :
    (cutBlocks poolType getBatchIds order block pool).retried = pool.retried ++ filterCoinBaseTxOrGasTx (order.flatMap (leftTxs block)) := by
  unfold cutBlocks
  rw [if_neg notBatch]
  cases left : order.flatMap (leftTxs block) with
  | nil => simp [filterCoinBaseTxOrGasTx]
  | cons tx txs => rfl

/-- In both places where a block is kept, the other proposals are given back cleanly in
every order of the iteration exactly if no ordinary transaction is left by two proposals
or twice by one, and a transaction for the gas is left only if no second proposal leaves
any. -/
theorem losingProposals_givenBack_iff (cache : ProposalCache (Transaction Result Signers) Data Event)
    (gasLast : ∀ b ∈ cache.getProposedBlocksAt block.header.blockHeight, GasLast b.txs) :
    let proposed := cache.getProposedBlocksAt block.header.blockHeight
    let others := otherBlocks block.header.blockHash proposed
    let clean := ((leftOrdinary block others).map (·.txId)).Nodup ∧ GasAtEnd block others
    ((∀ order : List (Block (Transaction Result Signers) Data), order.Perm proposed →
      ∃ sync retried, syncWithTxPool poolType getBatchIds block order = .ok sync ∧
        (sync.passOn poolType block pool).retried = pool.retried ++ retried ∧
        GivenBack block (otherBlocks block.header.blockHash order) retried) ↔ clean) ∧
    ((∀ order : List (Block (Transaction Result Signers) Data), order.Perm others →
      ∃ retried, (cutBlocks poolType getBatchIds order block pool).retried =
        pool.retried ++ retried ∧ GivenBack block order retried) ↔ clean) := by
  intro proposed others clean
  have orders : (∀ order : List (Block (Transaction Result Signers) Data), order.Perm others →
      GivenBack block order (filterCoinBaseTxOrGasTx (order.flatMap (leftTxs block)))) ↔ clean :=
    givenBack_orders_iff fun b member => gasLast b (List.mem_of_mem_filter member)
  constructor
  · refine Iff.trans ?_ orders
    constructor
    · intro given order same
      obtain ⟨whole, permuted, rfl⟩ := exists_perm_otherBlocks same
      obtain ⟨sync, retried, ran, passed, back⟩ := given whole permuted
      rw [syncWithTxPool_normal notBatch] at ran
      cases ran
      rw [PoolSync.passOn_retried notBatch] at passed
      rwa [List.append_cancel_left passed]
    · intro given order same
      exact ⟨_, _, syncWithTxPool_normal notBatch getBatchIds block order,
        PoolSync.passOn_retried notBatch block pool _, given _ (otherBlocks_perm same)⟩
  · refine Iff.trans ?_ orders
    refine forall_congr' fun order => forall_congr' fun same => ?_
    rw [cutBlocks_retried notBatch]
    constructor
    · rintro ⟨retried, passed, back⟩
      rwa [List.append_cancel_left passed]
    · intro back
      exact ⟨_, rfl, back⟩

end NormalPool

end GivenBack

section Proposals

def ordinaryTx (id : UInt8) : Transaction Unit Unit :=
  ⟨⟨[id], .invokeContract, [], [], []⟩, none, ()⟩

def chargingTx (id : UInt8) : Transaction Unit Unit :=
  ⟨⟨[id], .invokeContract, accountManager, Scheduler.Gas.chargeGasForMultiAccount, []⟩, none, ()⟩

def proposalOf (hash : UInt8) (ids : List UInt8) (gas : Option UInt8) :
    Block (Transaction Unit Unit) Unit where
  header := ⟨1, [hash], [], 2300, 0, 0, none⟩
  dag := []
  txs := ids.map ordinaryTx ++ (gas.map chargingTx).toList
  extraData := ∅

def cacheOf (blocks : List (Block (Transaction Unit Unit) Unit)) :
    ProposalCache (Transaction Unit Unit) Unit Unit :=
  blocks.map fun b => ⟨b.header.blockHeight, b.header.blockHash, ⟨b, ∅, none⟩⟩

theorem gasLast_proposalOf (hash : UInt8) (ids : List UInt8) (gas : Option UInt8) : GasLast (proposalOf hash ids gas).txs := by
  refine ⟨ids.map ordinaryTx, gas.map chargingTx, rfl, ?_, ?_⟩
  · intro tx member
    obtain ⟨id, _, rfl⟩ := List.mem_map.mp member
    rfl
  · intro tx member
    obtain ⟨id, _, rfl⟩ := Option.map_eq_some_iff.mp member
    rfl

def readBatchIds (_ : Block (Transaction Unit Unit) Unit) : Except Unit (List Bytes) := .ok []

theorem losingProposals_givenBack_one :
    let keep := proposalOf 1 [1, 2] (some 9)
    let proposed := [keep, proposalOf 2 [2, 3] (some 8)]
    ∀ order : List (Block (Transaction Unit Unit) Unit), order.Perm proposed →
      ∃ sync retried, syncWithTxPool .normal readBatchIds keep order = .ok sync ∧
        (sync.passOn .normal keep ⟨[], [], [], []⟩).retried = retried ∧
        GivenBack keep (otherBlocks [1] order) retried := by
  intro keep proposed
  have gasLast : ∀ b ∈ (cacheOf proposed).getProposedBlocksAt 1, GasLast b.txs := by
    rw [show (cacheOf proposed).getProposedBlocksAt 1 = proposed from rfl]
    simp [proposed, keep, gasLast_proposalOf]
  refine (losingProposals_givenBack_iff (by decide) readBatchIds keep ⟨[], [], [], []⟩
    (cacheOf proposed) gasLast).1.mpr ⟨?_, .inr ?_⟩
  · decide
  · decide

/-- Of two losing proposals the first one's transaction for the gas goes to the pool, and a
transaction that both have goes there twice. -/
theorem losingProposals_notGivenBack :
    let keep := proposalOf 1 [1] (some 7)
    let charged := [keep, proposalOf 2 [2] (some 8), proposalOf 3 [3] (some 9)]
    let shared := [keep, proposalOf 2 [2] none, proposalOf 3 [2] none]
    (∀ b ∈ charged ++ shared, GasLast b.txs) ∧
      (∀ proposed ∈ [charged, shared], (cacheOf proposed).getProposedBlocksAt 1 = proposed) ∧
      (∃ sync, syncWithTxPool .normal readBatchIds keep charged = .ok sync ∧
        (sync.passOn .normal keep ⟨[], [], [], []⟩).retried = [ordinaryTx 2, chargingTx 8, ordinaryTx 3]) ∧
      (cutBlocks .normal readBatchIds (otherBlocks [1] shared) keep ⟨[], [], [], []⟩).retried =
        [ordinaryTx 2, ordinaryTx 2] ∧
      ¬ GivenBack keep (otherBlocks [1] charged) [ordinaryTx 2, chargingTx 8, ordinaryTx 3] ∧
      ¬ GivenBack keep (otherBlocks [1] shared) [ordinaryTx 2, ordinaryTx 2] := by
  refine ⟨?_, ?_, ⟨_, rfl, by decide⟩, by decide, ?_, ?_⟩
  · simp [gasLast_proposalOf]
  · simp [cacheOf, ProposalCache.getProposedBlocksAt, proposalOf]
  · intro back
    exact absurd (back.ordinary (chargingTx 8) (by simp)) (by decide)
  · intro back
    exact absurd back.once (by decide)

end Proposals

end Pdcc.Core
