import Pdcc.Core.Block

/-!
# Recovering the transactions of a proposal

A proposer sends a block without the transactions that every node has in its pool. The
receiver takes them from its own pool: by the batches and positions listed in the extra
data, or by the listed transaction ids. The block has not been validated by then.
-/

set_option autoImplicit false

namespace Pdcc.Core

open Ledger Library
open AccessControl (PbMember)

variable {Result Signers Data : Type}

structure TxBatchInfo where
  batchIds : List Bytes
  index : List UInt32
  deriving DecidableEq, Repr

structure BatchCodec (Data : Type) where
  marshal : TxBatchInfo → Data
  unmarshal : Data → Option TxBatchInfo
  unmarshal_marshal : ∀ info, unmarshal (marshal info) = some info

structure PoolTxs (Result Signers : Type) where
  table : AList fun _ : Bytes => Transaction Result Signers
  keyed : ∀ txId tx, table.lookup txId = some tx → tx.txId = txId

inductive RecoverError where
  | unknownProposer
  | invalidBatchInfo
  | poolError
  | indexCount (height : UInt64) (txs : UInt32) (indexes expectedCount : Nat)
  | fetchedCount (height : UInt64) (txs : UInt32) (want got : Nat)
  | recoveredCount (height : UInt64) (want : UInt32) (got : Nat)
  | coinbaseMissing (height : UInt64) (hash : Bytes)
  | invalidCoinbase (height : UInt64) (hash : Bytes) (txCount : UInt32) (txId : Bytes)
  deriving DecidableEq, Repr

abbrev Recovering (α : Type) := Except (Failure RecoverError) α

structure Receiver (Result Signers Data : Type) where
  memberId : PbMember → Option Bytes
  nodeUid : Bytes → Option Bytes
  codec : BatchCodec Data
  getAllTxsByBatchIds : List Bytes → Bytes → UInt64 → Int →
    Option (List (List (Transaction Result Signers)))
  getAllTxsByTxIds : List Bytes → Bytes → UInt64 → Int → Option (PoolTxs Result Signers)

def batchPoolAddtionalDataKey : Bytes := ascii "BatchPoolAddtionalDataKey"

def defaultTimeout : Int := 5000

def lastListed (block : Block (Transaction Result Signers) Data) :
    Recovering (Transaction Result Signers) :=
  index block.txs (block.header.txCount - 1).toNat

section Proposer

def txIndex (fetchTxs : List (Transaction Result Signers)) : AList fun _ : Bytes => UInt32 :=
  lastAmounts (fetchTxs.zipIdx.map fun entry => (entry.1.txId, UInt32.ofNat entry.2))

def serializeTxBatchInfo (codec : BatchCodec Data) (batchIds : List Bytes)
    (txs : List (Transaction Result Signers))
    (fetchBatches : List (List (Transaction Result Signers))) : Data :=
  codec.marshal
    { batchIds, index := txs.filterMap fun tx => (txIndex fetchBatches.flatten).lookup tx.txId }

def fillBatchPoolAdditionalData (codec : BatchCodec Data) (poolType : TxPoolType)
    (batchIds : List Bytes) (fetchBatches : List (List (Transaction Result Signers)))
    (block : Block (Transaction Result Signers) Data) :
    Block (Transaction Result Signers) Data :=
  if poolType = .batch ∧ block.txs.length ≠ 0 then
    { block with
      extraData := block.extraData.insert batchPoolAddtionalDataKey
        (serializeTxBatchInfo codec batchIds block.txs fetchBatches) }
  else block

def normalBlock : Nat := 0
def configBlock : Nat := 1
def contractMgrBlock : Nat := 2
def hasCoinbase : Nat := 4

def Transaction.cut (tx : Transaction Result Signers) : Transaction Result Signers :=
  { tx with
    payload :=
      { txId := tx.txId, txType := .invokeContract, contractName := [], method := [],
        parameters := [] } }

def getTurboBlock (poolType : TxPoolType) (conf : ChainConfig)
    (block : Block (Transaction Result Signers) Data) :
    Recovering (Block (Transaction Result Signers) Data) :=
  if poolType = .batch then
    if conf.checkCoinbaseEnable then do
      let last ← lastListed block
      return block.withTxs [last]
    else .ok (block.withTxs [])
  else
    let newTxs := block.txs.map Transaction.cut
    if block.header.blockType = configBlock ||| hasCoinbase ∨
        block.header.blockType = normalBlock ||| hasCoinbase ∨
        block.header.blockType = contractMgrBlock ||| hasCoinbase then do
      let last ← lastListed block
      return block.withTxs (newTxs.set (block.header.txCount - 1).toNat last)
    else .ok (block.withTxs newTxs)

end Proposer

section Receiver

variable (node : Receiver Result Signers Data)

def Receiver.getProposerId : Option PbMember → Recovering Bytes
  | none => .error (.panic .nilDereference)
  | some proposer =>
    match (node.memberId proposer).bind node.nodeUid with
    | none => .error (.error .unknownProposer)
    | some proposerId => .ok proposerId

def Receiver.getBatchIds (block : Block (Transaction Result Signers) Data) :
    Recovering (List Bytes × List UInt32) :=
  match block.extraData.lookup batchPoolAddtionalDataKey with
  | none => .ok ([], [])
  | some data =>
    match node.codec.unmarshal data with
    | none => .error (.error .invalidBatchInfo)
    | some info => .ok (info.batchIds, info.index)

def answer {α : Type} : Option α → Recovering α
  | none => .error (.error .poolError)
  | some value => .ok value

def ConsensusTurboConfig.wait (turbo : ConsensusTurboConfig) : Int :=
  (turbo.retryTime * turbo.retryInterval).toInt64.toInt

def batchTimeOut (turbo : ConsensusTurboConfig) : Int :=
  if turbo.wait ≤ 0 then defaultTimeout else turbo.wait

def expectedCount (conf : ChainConfig) (indexes : List UInt32) : Nat :=
  if conf.checkCoinbaseEnable then indexes.length + 1 else indexes.length

def Block.received (block : Block (Transaction Result Signers) Data) :
    Block (Option (Transaction Result Signers)) Data :=
  block.withTxs (block.txs.map some)

/-- The transactions of the block once its positions are filled: one more slot than
positions is for the coinbase transaction, which comes with the block. -/
def fillSlots (conf : ChainConfig) (block : Block (Transaction Result Signers) Data)
    (found : List (Transaction Result Signers)) :
    Recovering (List (Option (Transaction Result Signers))) :=
  let slots := found.map some ++ List.replicate (block.header.txCount.toNat - found.length) none
  if conf.checkCoinbaseEnable then
    match block.txs with
    | [] => .error (.error (.coinbaseMissing block.header.blockHeight block.header.blockHash))
    | coinbase :: _ => .ok (slots.set (slots.length - 1) (some coinbase))
  else .ok slots

def rebuildFromBatches (conf : ChainConfig) (block : Block (Transaction Result Signers) Data)
    (proposerId : Bytes) (batchIds : List Bytes) (indexes : List UInt32) :
    Recovering (Block (Option (Transaction Result Signers)) Data) := do
  let batches ← answer (node.getAllTxsByBatchIds batchIds proposerId block.header.blockHeight
    (batchTimeOut conf.core.consensusTurboConfig))
  let newTxs := batches.flatten
  if newTxs.length ≠ indexes.length then
    .error (.error (.fetchedCount block.header.blockHeight block.header.txCount indexes.length
      newTxs.length))
  else do
    let found ← indexes.mapM fun v => index newTxs v.toNat
    let txs ← fillSlots conf block found
    if txs.length ≠ block.header.txCount.toNat then
      .error (.error (.recoveredCount block.header.blockHeight block.header.txCount txs.length))
    else return block.withTxs txs

def recoverBlockByBatch (conf : ChainConfig) (mode : VerifyMode)
    (block : Block (Transaction Result Signers) Data) :
    Recovering (Block (Option (Transaction Result Signers)) Data × List Bytes) :=
  if block.header.txCount ≠ 0 ∧ mode ≠ .syncVerify ∧ conf.consensusType ≠ .raft then do
    let proposerId ← node.getProposerId block.header.proposer
    let (batchIds, indexes) ← node.getBatchIds block
    if expectedCount conf indexes ≠ block.header.txCount.toNat then
      .error (.error (.indexCount block.header.blockHeight block.header.txCount indexes.length
        (expectedCount conf indexes)))
    else if batchIds.length = 0 then .ok (block.received, batchIds)
    else do
      let newBlock ← rebuildFromBatches node conf block proposerId batchIds indexes
      return (newBlock, batchIds)
  else do
    let (batchIds, _) ← node.getBatchIds block
    return (block.received, batchIds)

/-- The transactions listed by id, as the pool has them. A transaction listed twice is one
object of the pool, and the result it is listed with last overwrites the others. -/
def lookUpListed (pool : PoolTxs Result Signers) (listed : List (Transaction Result Signers)) :
    Recovering (List (Transaction Result Signers)) :=
  listed.mapM fun tx =>
    match pool.table.lookup tx.txId with
    | none => .error (.panic .nilDereference)
    | some found =>
      .ok { found with
        result := ((listed.findRev? fun other => other.txId = tx.txId).getD tx).result }

def recoverBlockWithCoinBaseTx (conf : ChainConfig) (proposerId : Bytes)
    (block : Block (Transaction Result Signers) Data) :
    Recovering (Block (Option (Transaction Result Signers)) Data) := do
  let coinbase ← lastListed block
  if !isGasTx coinbase then
    .error (.error (.invalidCoinbase block.header.blockHeight block.header.blockHash
      block.header.txCount coinbase.txId))
  else do
    let pool ← answer (node.getAllTxsByTxIds (block.txs.map (·.txId)).dropLast proposerId
      block.header.blockHeight conf.core.consensusTurboConfig.wait)
    let last := (block.header.txCount - 1).toNat
    let found ← lookUpListed pool (block.txs.take last)
    -- there are as many slots as listed transactions, whatever the header counts
    let slots := found.map some ++ List.replicate (block.txs.length - found.length) none
    return block.withTxs (slots.set last (some coinbase))

def recoverBlockByTxIds (conf : ChainConfig) (mode : VerifyMode)
    (block : Block (Transaction Result Signers) Data) :
    Recovering (Block (Option (Transaction Result Signers)) Data) :=
  if conf.ifOpenConsensusMessageTurbo ∧ mode ≠ .syncVerify ∧ block.txs.length ≠ 0 then do
    let proposerId ← node.getProposerId block.header.proposer
    if conf.checkCoinbaseEnable then recoverBlockWithCoinBaseTx node conf proposerId block
    else do
      let pool ← answer (node.getAllTxsByTxIds (block.txs.map (·.txId)) proposerId
        block.header.blockHeight conf.core.consensusTurboConfig.wait)
      let found ← lookUpListed pool block.txs
      return block.withTxs (found.map some)
  else .ok block.received

def recoverBlock (poolType : TxPoolType) (conf : ChainConfig) (mode : VerifyMode)
    (block : Block (Transaction Result Signers) Data) :
    Recovering (Block (Option (Transaction Result Signers)) Data × List Bytes) :=
  if block.header.txCount = 0 then .ok (block.received, [])
  else if poolType = .batch then recoverBlockByBatch node conf mode block
  else do
    let newBlock ← recoverBlockByTxIds node conf mode block
    return (newBlock, [])

end Receiver

section Safety

variable {node : Receiver Result Signers Data} {conf : ChainConfig} {mode : VerifyMode}
  {block : Block (Transaction Result Signers) Data}

theorem panics_getProposerId {proposer : Option PbMember} : Panics (node.getProposerId proposer) ↔ proposer = none := by
  cases proposer with
  | none => simp [Receiver.getProposerId]
  | some proposer =>
    unfold Receiver.getProposerId
    dsimp only
    split <;> simp

@[simp] theorem not_panics_getBatchIds : ¬ Panics (node.getBatchIds block) := by
  unfold Receiver.getBatchIds
  split
  · simp
  · split <;> simp

variable {α : Type} {listed : List (Transaction Result Signers)}

@[simp] theorem not_panics_answer (value : Option α) : ¬ Panics (answer value) := by
  cases value with
  | none => simp [answer]
  | some value => simp [answer]

@[simp] theorem not_panics_fillSlots (found : List (Transaction Result Signers)) : ¬ Panics (fillSlots conf block found) := by
  unfold fillSlots
  split
  · split <;> simp
  · simp

theorem panics_positions (newTxs : List (Transaction Result Signers)) (indexes : List UInt32) :
    Panics (indexes.mapM fun v => (index newTxs v.toNat : Recovering _)) ↔ ∃ v ∈ indexes, newTxs.length ≤ v.toNat := by
  rw [panics_mapM fun v _ => index_cases newTxs v.toNat]
  simp only [panics_index]

theorem panics_lookUpListed (pool : PoolTxs Result Signers) (listed : List (Transaction Result Signers)) :
    Panics (lookUpListed pool listed) ↔ ∃ tx ∈ listed, pool.table.lookup tx.txId = none := by
  unfold lookUpListed
  rw [panics_mapM]
  · refine exists_congr fun tx => and_congr_right fun _ => ?_
    split <;> simp_all
  · intro tx _
    split <;> simp

variable {pool : PoolTxs Result Signers} {found : List (Transaction Result Signers)}

theorem exists_lookUpListed (present : ∀ tx ∈ listed, pool.table.lookup tx.txId ≠ none) : ∃ found, lookUpListed pool listed = .ok found := by
  refine ⟨_, mapM_eq_ok.mpr ⟨?_, rfl⟩⟩
  intro tx member
  split
  · next missing => exact absurd missing (present tx member)
  · exact ⟨_, rfl⟩

theorem lookUpListed_txIds (looked : lookUpListed pool listed = .ok found) : found.map (·.txId) = listed.map (·.txId) := by
  refine map_eq_of_mapM ?_ looked
  intro tx result here
  split at here
  · cases here
  · next entry present =>
    cases here
    exact pool.keyed tx.txId entry present

/-- Every position in the extra data is one of the transactions they account for. It
matters only when the batches in the pool have as many transactions as there are positions. -/
def BatchListed (node : Receiver Result Signers Data) (conf : ChainConfig)
    (block : Block (Transaction Result Signers) Data) : Prop :=
  ∀ proposerId batchIds indexes batches,
    node.getProposerId block.header.proposer = .ok proposerId →
    node.getBatchIds block = .ok (batchIds, indexes) →
    expectedCount conf indexes = block.header.txCount.toNat → batchIds ≠ [] →
    node.getAllTxsByBatchIds batchIds proposerId block.header.blockHeight
      (batchTimeOut conf.core.consensusTurboConfig) = some batches →
    batches.flatten.length = indexes.length →
    ∀ v ∈ indexes, v.toNat < indexes.length

theorem answer_eq_ok {value : Option α} {result : α} : answer value = .ok result ↔ value = some result := by
  cases value with
  | none => simp [answer]
  | some value => simp [answer]

theorem panics_rebuildFromBatches {proposerId : Bytes} {batchIds : List Bytes} {indexes : List UInt32} :
    Panics (rebuildFromBatches node conf block proposerId batchIds indexes) ↔
      ∃ batches, node.getAllTxsByBatchIds batchIds proposerId block.header.blockHeight
          (batchTimeOut conf.core.consensusTurboConfig) = some batches ∧
        batches.flatten.length = indexes.length ∧ ∃ v ∈ indexes, indexes.length ≤ v.toNat := by
  unfold rebuildFromBatches
  simp only [panics_bind, not_panics_answer, false_or, answer_eq_ok]
  refine exists_congr fun batches => and_congr_right fun _ => ?_
  by_cases sameLength : batches.flatten.length = indexes.length
  · rw [if_neg (not_not.mpr sameLength), panics_bind, panics_positions, sameLength]
    have filled (found : List (Transaction Result Signers)) : ¬ Panics (do
          let txs ← fillSlots conf block found
          if txs.length ≠ block.header.txCount.toNat then
            .error (.error (.recoveredCount block.header.blockHeight block.header.txCount txs.length))
          else return block.withTxs txs : Recovering _) := by
      rw [panics_bind]
      rintro (panics | ⟨txs, _, panics⟩)
      · exact not_panics_fillSlots found panics
      · split at panics
        · exact not_panics_error _ panics
        · exact not_panics_ok _ panics
    simp only [filled, and_false, exists_false, or_false, true_and]
  · rw [if_pos sameLength]
    simp only [not_panics_error, sameLength, false_and]

theorem panics_recoverBlockByBatch : Panics (recoverBlockByBatch node conf mode block) ↔
      (block.header.txCount ≠ 0 ∧ mode ≠ .syncVerify ∧ conf.consensusType ≠ .raft) ∧
        ¬ (block.header.proposer ≠ none ∧ BatchListed node conf block) := by
  unfold recoverBlockByBatch
  by_cases rebuilds : block.header.txCount ≠ 0 ∧ mode ≠ .syncVerify ∧ conf.consensusType ≠ .raft
  · rw [if_pos rebuilds]
    have inner (proposerId : Bytes) (batchIds : List Bytes) (indexes : List UInt32) :
        Panics (if expectedCount conf indexes ≠ block.header.txCount.toNat then
            .error (.error (.indexCount block.header.blockHeight block.header.txCount indexes.length (expectedCount conf indexes)))
          else if batchIds.length = 0 then .ok (block.received, batchIds)
          else do
            let newBlock ← rebuildFromBatches node conf block proposerId batchIds indexes
            return (newBlock, batchIds) : Recovering _) ↔
        expectedCount conf indexes = block.header.txCount.toNat ∧ batchIds ≠ [] ∧
          Panics (rebuildFromBatches node conf block proposerId batchIds indexes) := by
      by_cases counted : expectedCount conf indexes = block.header.txCount.toNat
      · by_cases empty : batchIds = []
        · simp [counted, empty]
        · simp [counted, empty, panics_bind, pure, Except.pure]
      · simp [counted]
    simp only [panics_bind, panics_getProposerId, not_panics_getBatchIds, false_or, inner,
      panics_rebuildFromBatches, BatchListed, Prod.exists]
    simp only [not_and_or, not_not, not_forall, not_lt, exists_prop]
    grind
  · rw [if_neg rebuilds]
    simp [panics_bind, rebuilds, pure, Except.pure]

/-- Every transaction that has to come from the pool is there. With a coinbase
transaction the header has to count the listed transactions, unless the one it puts last
does not charge gas. -/
def IdsListed (node : Receiver Result Signers Data) (conf : ChainConfig)
    (block : Block (Transaction Result Signers) Data) : Prop :=
  ∀ proposerId, node.getProposerId block.header.proposer = .ok proposerId →
    if conf.checkCoinbaseEnable then
      ∃ coinbase, block.txs[(block.header.txCount - 1).toNat]? = some coinbase ∧
        (isGasTx coinbase → ∀ pool,
          node.getAllTxsByTxIds (block.txs.map (·.txId)).dropLast proposerId
            block.header.blockHeight conf.core.consensusTurboConfig.wait = some pool →
          block.txs.length = block.header.txCount.toNat ∧
            ∀ tx ∈ block.txs.dropLast, pool.table.lookup tx.txId ≠ none)
    else ∀ pool,
      node.getAllTxsByTxIds (block.txs.map (·.txId)) proposerId block.header.blockHeight
        conf.core.consensusTurboConfig.wait = some pool →
      ∀ tx ∈ block.txs, pool.table.lookup tx.txId ≠ none

variable (block)

/-- Each position holds the transaction with the id listed there. -/
def HoldsListed (newBlock : Block (Option (Transaction Result Signers)) Data) : Prop :=
  newBlock.txs.map (Option.map (·.txId)) = block.txs.map fun tx => some tx.txId

theorem received_holdsListed : HoldsListed block block.received := by
  simp [HoldsListed, Block.received, Block.withTxs]

def SafelyListed (call : Recovering (Block (Option (Transaction Result Signers)) Data)) : Prop :=
  ¬ Panics call ∧ ∀ newBlock, call = .ok newBlock → HoldsListed block newBlock

variable {block}

theorem safelyListed_bind {call : Recovering α} {next : α → Recovering (Block (Option (Transaction Result Signers)) Data)}
    (safe : ¬ Panics call) :
    SafelyListed block (call >>= next) ↔ ∀ value, call = .ok value → SafelyListed block (next value) := by
  unfold SafelyListed
  rw [panics_bind]
  simp only [bind_eq_ok]
  grind

theorem safelyListed_error (cause : RecoverError) : SafelyListed block (.error (.error cause)) :=
  ⟨not_panics_error cause, fun _ returned => by cases returned⟩

theorem safelyListed_lookUp {rebuilt : List (Transaction Result Signers) →
      Block (Option (Transaction Result Signers)) Data} :
    SafelyListed block (do
        let found ← lookUpListed pool listed
        return rebuilt found) ↔
      (∀ tx ∈ listed, pool.table.lookup tx.txId ≠ none) ∧
        ∀ found, lookUpListed pool listed = .ok found → HoldsListed block (rebuilt found) := by
  have present : (∀ tx ∈ listed, pool.table.lookup tx.txId ≠ none) ↔ ¬ Panics (lookUpListed pool listed) := by
    simp [panics_lookUpListed]
  rw [present]
  constructor
  · intro safe
    have returns : ¬ Panics (lookUpListed pool listed) :=
      fun panics => safe.1 (panics_bind.mpr (.inl panics))
    exact ⟨returns, fun found looked => ((safelyListed_bind returns).mp safe found looked).2 _ rfl⟩
  · intro ⟨returns, holds⟩
    refine (safelyListed_bind returns).mpr ?_
    intro found looked
    refine ⟨not_panics_ok _, ?_⟩
    intro newBlock returned
    cases returned
    exact holds found looked

theorem toNat_sub_one {count : UInt32} (counted : count ≠ 0) : (count - 1).toNat + 1 = count.toNat := by
  have positive : 1 ≤ count := by
    rw [UInt32.le_iff_toNat_le]
    have := mt UInt32.toNat_inj.mp counted
    simp at this ⊢
    omega
  rw [UInt32.toNat_sub_of_le _ _ positive]
  have := UInt32.le_iff_toNat_le.mp positive
  simp at this ⊢
  omega

private theorem set_first_empty (found : List (Transaction Result Signers)) (coinbase : Transaction Result Signers) (rest : Nat) :
    (found.map some ++ List.replicate (rest + 1) none).set found.length (some coinbase) =
      found.map some ++ some coinbase :: List.replicate rest none := by
  have past : (found.map some).length ≤ found.length := (List.length_map _).le
  rw [List.set_append_right _ _ past, List.length_map, Nat.sub_self, List.replicate_succ, List.set_cons_zero]

private theorem map_txId_eq_replicate_iff (listed : List (Transaction Result Signers)) :
    List.replicate listed.length none = listed.map (fun tx => some tx.txId) ↔ listed = [] := by
  cases listed with
  | nil => simp
  | cons tx others => simp [List.replicate_succ]

theorem holdsListed_withCoinbase {coinbase : Transaction Result Signers} {last : Nat} (present : block.txs[last]? = some coinbase)
    (sameIds : found.map (·.txId) = (block.txs.take last).map (·.txId)) :
    HoldsListed block (block.withTxs ((found.map some ++ List.replicate (block.txs.length - found.length) none).set last (some coinbase))) ↔
      block.txs.length = last + 1 := by
  obtain ⟨inside, same⟩ := List.getElem?_eq_some_iff.mp present
  have length : found.length = last := by
    have := congrArg List.length sameIds
    rw [List.length_map, List.length_map, List.length_take] at this
    omega
  have after : (block.txs.drop (last + 1)).length + 1 = block.txs.length - last := by
    rw [List.length_drop]
    omega
  have listed : block.txs = block.txs.take last ++ coinbase :: block.txs.drop (last + 1) := by
    rw [← same, ← List.drop_eq_getElem_cons inside, List.take_append_drop]
  have listedIds : (block.txs.map fun tx => some tx.txId) = ((block.txs.take last).map fun tx => some tx.txId) ++ some coinbase.txId ::
        (block.txs.drop (last + 1)).map fun tx => some tx.txId := by
    conv_lhs => rw [listed]
    rw [List.map_append, List.map_cons]
  have ids : found.map (fun tx => some tx.txId) = (block.txs.take last).map fun tx => some tx.txId := by
    have wrapped := congrArg (List.map some) sameIds
    rwa [List.map_map, List.map_map] at wrapped
  unfold HoldsListed Block.withTxs
  rw [listedIds, length, ← after, ← length, set_first_empty, length]
  simp only [List.map_append, List.map_map, List.map_cons, Function.comp_def, Option.map_some, ids,
    List.append_cancel_left_eq, List.cons.injEq, true_and, List.map_replicate, Option.map_none]
  rw [map_txId_eq_replicate_iff, List.drop_eq_nil_iff]
  omega

theorem safelyListed_recoverBlockWithCoinBaseTx {proposerId : Bytes} (counted : block.header.txCount ≠ 0) :
    SafelyListed block (recoverBlockWithCoinBaseTx node conf proposerId block) ↔
      ∃ coinbase, block.txs[(block.header.txCount - 1).toNat]? = some coinbase ∧ (isGasTx coinbase → ∀ pool,
          node.getAllTxsByTxIds (block.txs.map (·.txId)).dropLast proposerId
            block.header.blockHeight conf.core.consensusTurboConfig.wait = some pool →
          block.txs.length = block.header.txCount.toNat ∧ ∀ tx ∈ block.txs.dropLast, pool.table.lookup tx.txId ≠ none) := by
  have count := toNat_sub_one counted
  unfold recoverBlockWithCoinBaseTx lastListed
  generalize (block.header.txCount - 1).toNat = last at count ⊢
  cases present : block.txs[last]? with
  | none =>
    have panics : Panics (index block.txs last : Recovering _) :=
      panics_index.mpr (List.getElem?_eq_none_iff.mp present)
    simp only [reduceCtorEq, false_and, exists_false, iff_false]
    exact fun safe => safe.1 (panics_bind.mpr (.inl panics))
  | some coinbase =>
    have returned : (index block.txs last : Recovering _) = .ok coinbase :=
      index_eq_ok.mpr present
    rw [safelyListed_bind (not_panics_of_eq_ok returned), returned]
    simp only [Except.ok.injEq, forall_eq', Option.some.injEq, exists_eq_left']
    cases gas : isGasTx coinbase with
    | false =>
      simp [safelyListed_error]
    | true =>
      simp only [Bool.not_true, Bool.false_eq_true, ↓reduceIte, forall_const]
      rw [safelyListed_bind (not_panics_answer _)]
      simp only [answer_eq_ok]
      refine forall_congr' fun pool => imp_congr_right fun _ => ?_
      rw [safelyListed_lookUp]
      have holds (found : List (Transaction Result Signers)) (looked : lookUpListed pool (block.txs.take last) = .ok found) :=
        holdsListed_withCoinbase present (lookUpListed_txIds looked)
      constructor
      · intro ⟨found, rebuilt⟩
        obtain ⟨txs, looked⟩ := exists_lookUpListed found
        have sameCount := (holds txs looked).mp (rebuilt txs looked)
        rw [List.dropLast_eq_take, sameCount, Nat.add_sub_cancel]
        exact ⟨by omega, found⟩
      · intro ⟨sameCount, found⟩
        rw [List.dropLast_eq_take, sameCount, ← count, Nat.add_sub_cancel] at found
        refine ⟨found, fun txs looked => ?_⟩
        exact (holds txs looked).mpr (by omega)

theorem safelyListed_recoverBlockByTxIds (counted : block.header.txCount ≠ 0) :
    SafelyListed block (recoverBlockByTxIds node conf mode block) ↔ (conf.ifOpenConsensusMessageTurbo ∧ mode ≠ .syncVerify ∧ block.txs ≠ [] →
        block.header.proposer ≠ none ∧ IdsListed node conf block) := by
  unfold recoverBlockByTxIds
  by_cases rebuilds : conf.ifOpenConsensusMessageTurbo ∧ mode ≠ .syncVerify ∧ block.txs ≠ []
  · have nonempty : conf.ifOpenConsensusMessageTurbo ∧ mode ≠ .syncVerify ∧ block.txs.length ≠ 0 :=
      ⟨rebuilds.1, rebuilds.2.1, mt List.length_eq_zero_iff.mp rebuilds.2.2⟩
    rw [if_pos nonempty]
    simp only [rebuilds, ne_eq, not_false_eq_true, and_self, forall_const]
    by_cases unnamed : block.header.proposer = none
    · have panics : Panics (node.getProposerId block.header.proposer) :=
        panics_getProposerId.mpr unnamed
      exact ⟨fun safe => absurd (panics_bind.mpr (.inl panics)) safe.1, fun named => absurd unnamed named.1⟩
    rw [safelyListed_bind (mt panics_getProposerId.mp unnamed), and_iff_right unnamed]
    refine forall_congr' fun proposerId => imp_congr_right fun _ => ?_
    split
    · exact safelyListed_recoverBlockWithCoinBaseTx counted
    · rw [safelyListed_bind (not_panics_answer _)]
      simp only [answer_eq_ok]
      refine forall_congr' fun pool => imp_congr_right fun _ => ?_
      rw [safelyListed_lookUp, and_iff_left]
      intro found looked
      have same := congrArg (List.map some) (lookUpListed_txIds looked)
      unfold HoldsListed Block.withTxs
      rw [List.map_map, List.map_map] at same
      rw [List.map_map]
      exact same
  · have passes : ¬ (conf.ifOpenConsensusMessageTurbo ∧ mode ≠ .syncVerify ∧ block.txs.length ≠ 0) := by
      intro ⟨turbo, consensus, nonempty⟩
      exact rebuilds ⟨turbo, consensus, mt List.length_eq_zero_iff.mpr nonempty⟩
    rw [if_neg passes]
    refine ⟨fun _ rebuild => absurd rebuild rebuilds, fun _ => ⟨not_panics_ok _, ?_⟩⟩
    intro newBlock returned
    cases returned
    exact received_holdsListed block

/-- The safety of a recovery: it does not panic, and where transactions are looked up by
their ids, every position holds the transaction that was listed there. -/
def Safe (poolType : TxPoolType) (block : Block (Transaction Result Signers) Data)
    (call : Recovering (Block (Option (Transaction Result Signers)) Data × List Bytes)) : Prop :=
  ¬ Panics call ∧ ∀ newBlock batchIds, call = .ok (newBlock, batchIds) →
    poolType ≠ .batch → HoldsListed block newBlock

/-- Where a block is rebuilt, it names its proposer, and what it lists can be looked up. -/
def Recoverable (node : Receiver Result Signers Data) (poolType : TxPoolType)
    (conf : ChainConfig) (mode : VerifyMode) (block : Block (Transaction Result Signers) Data) :
    Prop :=
  block.header.txCount ≠ 0 → mode ≠ .syncVerify →
    if poolType = .batch then
      conf.consensusType ≠ .raft → block.header.proposer ≠ none ∧ BatchListed node conf block
    else
      conf.ifOpenConsensusMessageTurbo → block.txs ≠ [] →
        block.header.proposer ≠ none ∧ IdsListed node conf block

theorem recoverBlock_safe_iff (node : Receiver Result Signers Data) (poolType : TxPoolType)
    (conf : ChainConfig) (mode : VerifyMode) (block : Block (Transaction Result Signers) Data) :
    Safe poolType block (recoverBlock node poolType conf mode block) ↔
      Recoverable node poolType conf mode block := by
  unfold recoverBlock Recoverable
  by_cases empty : block.header.txCount = 0
  · rw [if_pos empty]
    refine ⟨fun _ counted => absurd empty counted, fun _ => ⟨not_panics_ok _, ?_⟩⟩
    intro newBlock batchIds returned _
    cases returned
    exact received_holdsListed block
  rw [if_neg empty]
  by_cases batch : poolType = .batch
  · simp only [Safe, batch, ↓reduceIte, panics_recoverBlockByBatch, ne_eq, not_true_eq_false,
      false_implies, implies_true, and_true]
    grind
  · rw [if_neg batch, if_neg batch]
    have listed : SafelyListed block (recoverBlockByTxIds node conf mode block) ↔ _ :=
      safelyListed_recoverBlockByTxIds empty
    have paired : Safe poolType block (do
          let newBlock ← recoverBlockByTxIds node conf mode block
          return (newBlock, [])) ↔
        SafelyListed block (recoverBlockByTxIds node conf mode block) := by
      simp [Safe, SafelyListed, panics_bind, bind_eq_ok, batch, pure, Except.pure]
    rw [paired, listed]
    grind

end Safety

section Sample

def plainCodec : BatchCodec TxBatchInfo where
  marshal := id
  unmarshal := some
  unmarshal_marshal _ := rfl

def singleBatchNode (tx : Transaction Unit Unit) : Receiver Unit Unit TxBatchInfo where
  memberId _ := some []
  nodeUid _ := some []
  codec := plainCodec
  getAllTxsByBatchIds _ _ _ _ := some [[tx]]
  getAllTxsByTxIds _ _ _ _ := none

def turboConf (consensusType : ConsensusType) : ChainConfig where
  consensusType := consensusType
  processType := .executeOnPropose
  enableSqlSupport := false
  accountConfig := none
  core :=
    { enableOptimizeChargeGas := false
      consensusTurboConfig :=
        { consensusMessageTurbo := true, retryTime := 0, retryInterval := 0 } }

def plainTx (txId : Bytes) : Transaction Unit Unit where
  payload :=
    { txId, txType := .invokeContract, contractName := [], method := [], parameters := [] }
  result := none
  signers := ()

def singleIndexBlock (position : UInt32) : Block (Transaction Unit Unit) TxBatchInfo where
  header :=
    { blockHeight := 1, blockHash := [], preBlockHash := [], blockVersion := blockVersion2300
      blockType := 0, txCount := 1
      proposer := some { orgId := [], memberType := .cert, memberInfo := [] } }
  dag := []
  txs := []
  extraData := (∅ : AList fun _ : Bytes => TxBatchInfo).insert batchPoolAddtionalDataKey
    { batchIds := [ascii "b"], index := [position] }

theorem recoverBlock_panics_on_position : ¬ Safe .batch (singleIndexBlock 7)
      (recoverBlock (singleBatchNode (plainTx (ascii "t"))) .batch (turboConf .tbft)
        .consensusVerify (singleIndexBlock 7)) :=
  fun safe => safe.1 ⟨.indexOutOfRange, rfl⟩

end Sample

end Pdcc.Core
