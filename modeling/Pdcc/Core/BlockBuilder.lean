import Pdcc.Core.BlockRecovery
import Pdcc.Core.BlockVerifier
import Pdcc.Scheduler.QuickSchedule

/-!
# The block builder

A proposer lets the scheduler run a batch and makes a block of the transactions that were
applied in time. The others go back to the transaction pool.
-/

set_option autoImplicit false

namespace Pdcc.Core

open Ledger Library Effectful
open AccessControl (PbMember)

variable {Result Signers Data Event : Type}

abbrev Executed (Result Signers : Type) := Transaction Result Signers × TxRWSet

/-- What a run of the scheduler leaves. The quick schedule runs the whole batch. Otherwise
the snapshot holds the transactions that were applied before the time limit, in the order
they were applied; `chargeGas` is the transaction for their gas, if it could be made. -/
inductive ScheduleRun (Result Signers : Type) where
  | quick (executed : List (Executed Result Signers))
  | parallel (applied : List (Executed Result Signers))
      (chargeGas : Option (Executed Result Signers))

namespace ScheduleRun

variable (conf : ChainConfig)

def applied : ScheduleRun Result Signers → List (Executed Result Signers)
  | .quick executed => executed
  | .parallel applied _ => applied

def appended : ScheduleRun Result Signers → Option (Executed Result Signers)
  | .quick _ => none
  | .parallel applied chargeGas =>
    if conf.isOptimizeChargeGasEnabled ∧ applied.length > 0 then chargeGas else none

variable (run : ScheduleRun Result Signers)

def table : List (Executed Result Signers) :=
  run.applied ++ (run.appended conf).toList

def txs : List (Transaction Result Signers) :=
  (run.table conf).map (·.1)

def getTxRWSetTable : TxRWSetMap :=
  lastAmounts ((run.table conf).map fun executed => (executed.2.txId, executed.2))

def getContractEventMap (contractEvent : Transaction Result Signers → List Event)
    (run : ScheduleRun Result Signers) : AList fun _ : Bytes => List Event :=
  match run with
  | .quick _ => ∅
  | .parallel _ _ => lastAmounts ((run.txs conf).map fun tx => (tx.txId, contractEvent tx))

end ScheduleRun

inductive BuildError where
  | noPreBlock
  | identity
  | schedule
  | noTxs
  | finalizeBlock
  | currentHeight
  | setProposedBlock
  deriving DecidableEq, Repr

structure Builder (Result Signers Data Event : Type) where
  conf : ChainConfig
  poolType : TxPoolType
  codec : BatchCodec Data
  calcBlockFingerPrint : Header → Bytes
  currentHeight : Except BuildError UInt64
  lastCommittedBlock : Option (Block (Transaction Result Signers) Data)
  identity : Except BuildError PbMember
  blockVersion : Nat
  schedule : Block (Transaction Result Signers) Data → List (Transaction Result Signers) →
    Except BuildError (ScheduleRun Result Signers × List (List Nat))
  contractEvent : Transaction Result Signers → List Event
  finalizeBlock : Block (Transaction Result Signers) Data → TxRWSetMap → Except BuildError Header
  reGenTxBatchesWithRetryTxs : UInt64 → List Bytes → List (Transaction Result Signers) →
    List Bytes × List (List (Transaction Result Signers))

structure BuildState (Result Signers Data Event : Type) where
  proposalCache : ProposalCache (Transaction Result Signers) Data Event
  retried : List (Transaction Result Signers)
  removed : List (Transaction Result Signers)

abbrev Building (Result Signers Data Event α : Type) :=
  Effectful (BuildState Result Signers Data Event) BuildError α

def defaultBlockVersion : Nat := 2030800

def isConfigTx (tx : Transaction Result Signers) : Bool :=
  tx.payload.contractName = ascii "CHAIN_CONFIG"

def retryAndRemoveTxs (txsRetry txsRem : List (Transaction Result Signers)) :
    Building Result Signers Data Event Unit :=
  update fun state => { state with
    retried := state.retried ++ filterCoinBaseTxOrGasTx txsRetry
    removed := state.removed ++ filterCoinBaseTxOrGasTx txsRem }

namespace Builder

variable (b : Builder Result Signers Data Event)

def findLastBlockFromCache (cache : ProposalCache (Transaction Result Signers) Data Event)
    (proposingHeight : UInt64) (preHash : Bytes) :
    Option (Block (Transaction Result Signers) Data) :=
  -- the height is zero if it cannot be read
  if (b.currentHeight.toOption.getD 0) + 1 = proposingHeight then b.lastCommittedBlock
  else cache.getProposedBlockByHashAndHeight preHash (proposingHeight - 1)

def initNewBlock (lastBlock : Block (Transaction Result Signers) Data) (isConfigBlock : Bool) :
    Except BuildError (Block (Transaction Result Signers) Data) := do
  let proposer ← b.identity
  return {
    header :=
      { blockHeight := lastBlock.header.blockHeight + 1
        blockHash := []
        preBlockHash := lastBlock.header.blockHash
        blockVersion := if b.blockVersion = 0 then defaultBlockVersion else b.blockVersion
        blockType := if isConfigBlock then configBlock else normalBlock
        txCount := 0
        proposer := some proposer }
    dag := []
    txs := []
    extraData := ∅ }

def putBackTimeouts (block : Block (Transaction Result Signers) Data) (txRWSetMap : TxRWSetMap)
    (txBatch : List (Transaction Result Signers)) (batchIds : List Bytes)
    (fetchBatches : List (List (Transaction Result Signers))) :
    Building Result Signers Data Event
      (List Bytes × List (List (Transaction Result Signers))) :=
  if txRWSetMap.entries.length < txBatch.length then
    if b.poolType = .batch then
      return b.reGenTxBatchesWithRetryTxs block.header.blockHeight batchIds
        (filterCoinBaseTxOrGasTx block.txs)
    else do
      let txsTimeout := txBatch.filter fun tx => (txRWSetMap.lookup tx.txId).isNone
      retryAndRemoveTxs txsTimeout []
      return (batchIds, fetchBatches)
  else return (batchIds, fetchBatches)

def setProposedBlock (data : ProposalData (Transaction Result Signers) Data Event) :
    Building Result Signers Data Event Unit := do
  let height := data.block.header.blockHeight
  let currentHeight ← step b.currentHeight
  if currentHeight ≥ height ∧ height ≠ 0 then fail .setProposedBlock
  else update fun state => { state with
    proposalCache := state.proposalCache.put
      { height, fingerPrint := b.calcBlockFingerPrint data.block.header, data } }

def sealBlock (block : Block (Transaction Result Signers) Data)
    (run : ScheduleRun Result Signers) (dag : List (List Nat))
    (txBatch : List (Transaction Result Signers)) (batchIds : List Bytes)
    (fetchBatches : List (List (Transaction Result Signers))) :
    Building Result Signers Data Event (Block (Transaction Result Signers) Data) := do
  let block := { block with txs := run.txs b.conf, dag := dag }
  let txRWSetMap := run.getTxRWSetTable b.conf
  if !b.conf.canProposeEmptyBlock ∧ block.txs.length = 0 then fail .noTxs
  else
    let header ← step (b.finalizeBlock block txRWSetMap)
    let block := { block with header := { header with txCount := UInt32.ofNat block.txs.length } }
    let (batchIds, fetchBatches) ← b.putBackTimeouts block txRWSetMap txBatch batchIds fetchBatches
    let block := fillBatchPoolAdditionalData b.codec b.poolType batchIds fetchBatches block
    b.setProposedBlock
      { block
        txRwSetMap := txRWSetMap
        contractEventMap := some (run.getContractEventMap b.conf b.contractEvent) }
    return block

def generateNewBlock (proposingHeight : UInt64) (preHash : Bytes)
    (txBatch : List (Transaction Result Signers)) (batchIds : List Bytes)
    (fetchBatches : List (List (Transaction Result Signers))) :
    Building Result Signers Data Event (Block (Transaction Result Signers) Data) := do
  let state ← current
  match b.findLastBlockFromCache state.proposalCache proposingHeight preHash with
  | none => fail .noPreBlock
  | some lastBlock =>
    let isConfigBlock := decide (txBatch.length = 1) && txBatch.all isConfigTx
    let block ← step (b.initNewBlock lastBlock isConfigBlock)
    let (run, dag) ← step (b.schedule block txBatch)
    b.sealBlock block run dag txBatch batchIds fetchBatches

end Builder

section Timeouts

namespace ScheduleRun

/-- A run over a batch: each applied transaction is of the batch, once, and the one for the gas
is new. -/
structure Over (conf : ChainConfig) (run : ScheduleRun Result Signers)
    (txBatch : List (Transaction Result Signers)) : Prop where
  keyed : ∀ executed ∈ run.table conf, executed.2.txId = executed.1.txId
  fromBatch : ∀ executed ∈ run.applied, executed.1 ∈ txBatch
  once : (run.applied.map (·.1)).Nodup
  newGasTx : ∀ executed ∈ run.appended conf, executed.1 ∉ txBatch

def appliedIds (run : ScheduleRun Result Signers) : List Bytes := run.applied.map (·.1.txId)

def leftOut (run : ScheduleRun Result Signers) (txBatch : List (Transaction Result Signers)) :
    List (Transaction Result Signers) :=
  txBatch.filter fun tx => !run.appliedIds.contains tx.txId

def handedBack (conf : ChainConfig) (run : ScheduleRun Result Signers)
    (txBatch : List (Transaction Result Signers)) : List (Transaction Result Signers) :=
  if (run.getTxRWSetTable conf).entries.length < txBatch.length then
    filterCoinBaseTxOrGasTx
      (txBatch.filter fun tx => ((run.getTxRWSetTable conf).lookup tx.txId).isNone)
  else []

/-- Nothing was left out; or the last transaction left out does not look like one for the
gas and, with a transaction for the gas in the block, its id is not that of one left out
and it is not taken for the only one. -/
def KeepsAll (conf : ChainConfig) (run : ScheduleRun Result Signers)
    (txBatch : List (Transaction Result Signers)) : Prop :=
  run.leftOut txBatch = [] ∨
    ((∀ tx ∈ (run.leftOut txBatch).getLast?, ¬ isGasTx tx) ∧
      ∀ executed ∈ run.appended conf,
        (∀ tx ∈ run.leftOut txBatch, tx.txId ≠ executed.1.txId) ∧
          (2 ≤ (run.leftOut txBatch).length ∨ executed.1.txId ∈ run.appliedIds))

variable {conf : ChainConfig} {run : ScheduleRun Result Signers}
  {txBatch : List (Transaction Result Signers)}

theorem mem_leftOut {tx : Transaction Result Signers} : tx ∈ run.leftOut txBatch ↔ tx ∈ txBatch ∧ tx.txId ∉ run.appliedIds := by
  simp [leftOut]

section Over

variable (ofBatch : run.Over conf txBatch)

include ofBatch

theorem Over.names : (run.table conf).map (·.2.txId) = run.appliedIds ++ ((run.appended conf).map (·.1.txId)).toList := by
  rw [List.map_congr_left ofBatch.keyed, table, List.map_append, appliedIds]
  cases run.appended conf with
  | none => rfl
  | some executed => rfl

theorem Over.lookup_isNone (txId : Bytes) : ((run.getTxRWSetTable conf).lookup txId).isNone ↔
      txId ∉ run.appliedIds ∧ ∀ executed ∈ run.appended conf, txId ≠ executed.1.txId := by
  rw [Option.isNone_iff_eq_none, getTxRWSetTable, lastAmounts_lookup_eq_none, List.map_map]
  have names := ofBatch.names
  simp only [Function.comp_def] at names ⊢
  rw [names, List.mem_append, not_or]
  cases run.appended conf with
  | none => simp
  | some executed => simp

variable (distinct : (txBatch.map (·.txId)).Nodup)

include distinct

theorem Over.appliedIds_nodup : run.appliedIds.Nodup := by
  have ids : run.appliedIds = (run.applied.map (·.1)).map (·.txId) := by
    rw [appliedIds, List.map_map]
    rfl
  rw [ids]
  refine List.Nodup.map_on ?_ ofBatch.once
  intro tx member other otherMember same
  obtain ⟨executed, applied, rfl⟩ := List.mem_map.mp member
  obtain ⟨otherExecuted, otherApplied, rfl⟩ := List.mem_map.mp otherMember
  exact List.inj_on_of_nodup_map distinct (ofBatch.fromBatch _ applied) (ofBatch.fromBatch _ otherApplied) same

theorem Over.length_eq : txBatch.length = run.appliedIds.length + (run.leftOut txBatch).length := by
  have kept : ((txBatch.filter fun tx => run.appliedIds.contains tx.txId).map (·.txId)).Perm run.appliedIds := by
    rw [List.perm_ext_iff_of_nodup (distinct.sublist (List.filter_sublist.map _)) (ofBatch.appliedIds_nodup distinct)]
    intro txId
    rw [List.mem_map]
    constructor
    · intro ⟨tx, member, same⟩
      rw [← same]
      simpa using (List.mem_filter.mp member).2
    · intro applied
      obtain ⟨executed, member, same⟩ := List.mem_map.mp applied
      refine ⟨executed.1, List.mem_filter.mpr ⟨ofBatch.fromBatch _ member, ?_⟩, same⟩
      simpa [same] using applied
  rw [List.length_eq_length_filter_add fun tx => run.appliedIds.contains tx.txId, leftOut, ← kept.length_eq, List.length_map]

theorem Over.fewer_sets_iff : (run.getTxRWSetTable conf).entries.length < txBatch.length ↔
      run.leftOut txBatch ≠ [] ∧ ∀ executed ∈ run.appended conf, 2 ≤ (run.leftOut txBatch).length ∨ executed.1.txId ∈ run.appliedIds := by
  have ids := ofBatch.appliedIds_nodup distinct
  have total := ofBatch.length_eq distinct
  have names := ofBatch.names
  rw [getTxRWSetTable, lastAmounts_length, List.map_map, ← List.length_pos_iff]
  simp only [Function.comp_def] at names ⊢
  rw [names]
  cases run.appended conf with
  | none =>
    simp only [Option.map_none, Option.toList_none, List.append_nil, List.dedup_eq_self.mpr ids]
    simp [total]
  | some executed =>
    simp only [Option.map_some, Option.toList_some, Option.mem_some_iff, forall_eq']
    by_cases applied : executed.1.txId ∈ run.appliedIds
    · have same : (run.appliedIds ++ [executed.1.txId]).dedup.Perm run.appliedIds := by
        rw [List.perm_ext_iff_of_nodup (List.nodup_dedup _) ids]
        intro txId
        rw [List.mem_dedup, List.mem_append, List.mem_singleton]
        exact ⟨fun either => either.elim id fun own => own ▸ applied, .inl⟩
      rw [same.length_eq]
      simp [applied, total]
    · have new : (run.appliedIds ++ [executed.1.txId]).Nodup := by
        rw [List.nodup_append_comm, List.singleton_append, List.nodup_cons]
        exact ⟨applied, ids⟩
      rw [List.dedup_eq_self.mpr new, List.length_append, List.length_singleton]
      simp only [applied, or_false]
      omega

end Over

theorem Over.timeouts_eq (ofBatch : run.Over conf txBatch)
    (apart : ∀ executed ∈ run.appended conf, ∀ tx ∈ run.leftOut txBatch, tx.txId ≠ executed.1.txId) :
    (txBatch.filter fun tx => ((run.getTxRWSetTable conf).lookup tx.txId).isNone) = run.leftOut txBatch := by
  refine List.filter_congr fun tx member => ?_
  rw [Bool.eq_iff_iff, ofBatch.lookup_isNone]
  simp only [Bool.not_eq_true', List.contains_eq_mem, decide_eq_false_iff_not, and_iff_left_iff_imp]
  intro notApplied executed appended
  exact apart executed appended tx (mem_leftOut.mpr ⟨member, notApplied⟩)

end ScheduleRun

theorem filterCoinBaseTxOrGasTx_sublist (txs : List (Transaction Result Signers)) : (filterCoinBaseTxOrGasTx txs).Sublist txs := by
  unfold filterCoinBaseTxOrGasTx
  split
  · exact List.Sublist.refl _
  · split
    · exact List.dropLast_sublist _
    · exact List.Sublist.refl _

theorem mem_filterCoinBaseTxOrGasTx_iff {txs : List (Transaction Result Signers)} (once : txs.Nodup) :
    (∀ tx ∈ txs, tx ∈ filterCoinBaseTxOrGasTx txs) ↔ ∀ tx ∈ txs.getLast?, ¬ isGasTx tx := by
  unfold filterCoinBaseTxOrGasTx
  cases last : txs.getLast? with
  | none => simp
  | some lastTx =>
    have split := List.dropLast_append_getLast? lastTx last
    simp only [Option.mem_some_iff, forall_eq']
    constructor
    · intro all gas
      rw [if_pos gas] at all
      rw [← split] at once
      exact (List.nodup_append.mp once).2.2 lastTx (all lastTx (List.mem_of_getLast? last)) lastTx (List.mem_singleton_self _) rfl
    · intro notGas tx member
      rwa [if_neg notGas]

namespace ScheduleRun

variable {conf : ChainConfig} {run : ScheduleRun Result Signers}
  {txBatch : List (Transaction Result Signers)} {tx : Transaction Result Signers}

theorem Over.mem_txs (ofBatch : run.Over conf txBatch) (distinct : (txBatch.map (·.txId)).Nodup) (member : tx ∈ txBatch) :
    tx ∈ run.txs conf ↔ tx.txId ∈ run.appliedIds := by
  simp only [txs, table, List.map_append, List.mem_append, List.mem_map, appliedIds]
  constructor
  · intro listed
    rcases listed with ⟨executed, applied, rfl⟩ | ⟨executed, appended, rfl⟩
    · exact ⟨executed, applied, rfl⟩
    · exact absurd member (ofBatch.newGasTx executed (Option.mem_toList.mp appended))
  · intro ⟨executed, applied, same⟩
    exact .inl ⟨executed, applied, List.inj_on_of_nodup_map distinct (ofBatch.fromBatch executed applied) member same⟩

theorem Over.not_applied_of_handedBack (ofBatch : run.Over conf txBatch) (handed : tx ∈ run.handedBack conf txBatch) :
    tx.txId ∉ run.appliedIds := by
  unfold handedBack at handed
  split at handed
  · have timeout := (filterCoinBaseTxOrGasTx_sublist _).subset handed
    exact ((ofBatch.lookup_isNone tx.txId).mp (List.mem_filter.mp timeout).2).1
  · exact absurd handed List.not_mem_nil

theorem Over.handedBack_iff (ofBatch : run.Over conf txBatch) (distinct : (txBatch.map (·.txId)).Nodup) :
    (∀ tx ∈ run.leftOut txBatch, tx ∈ run.handedBack conf txBatch) ↔ run.KeepsAll conf txBatch := by
  have once : (run.leftOut txBatch).Nodup := (List.Nodup.of_map _ distinct).filter _
  have fewer := ofBatch.fewer_sets_iff distinct
  unfold handedBack KeepsAll
  constructor
  · intro all
    by_cases none : run.leftOut txBatch = []
    · exact .inl none
    · obtain ⟨some, member⟩ := List.exists_mem_of_ne_nil _ none
      split at all
      · next less =>
        have apart : ∀ executed ∈ run.appended conf, ∀ tx ∈ run.leftOut txBatch, tx.txId ≠ executed.1.txId := by
          intro executed appended tx member
          have timeout := (filterCoinBaseTxOrGasTx_sublist _).subset (all tx member)
          have absent := (ofBatch.lookup_isNone tx.txId).mp (List.mem_filter.mp timeout).2
          exact absent.2 executed appended
        rw [ofBatch.timeouts_eq apart, mem_filterCoinBaseTxOrGasTx_iff once] at all
        exact .inr ⟨all, fun executed appended =>
          ⟨apart executed appended, (fewer.mp less).2 executed appended⟩⟩
      · exact absurd (all some member) List.not_mem_nil
  · intro keeps tx member
    obtain ⟨notGas, gas⟩ := keeps.resolve_left (List.ne_nil_of_mem member)
    rw [if_pos (fewer.mpr ⟨List.ne_nil_of_mem member, fun executed appended =>
        (gas executed appended).2⟩),
      ofBatch.timeouts_eq fun executed appended => (gas executed appended).1]
    exact (mem_filterCoinBaseTxOrGasTx_iff once).mpr notGas tx member

end ScheduleRun

end Timeouts

section Lost

variable {b : Builder Result Signers Data Event} {txBatch : List (Transaction Result Signers)}
  {batchIds : List Bytes} {fetchBatches : List (List (Transaction Result Signers))}

theorem Builder.ensures_putBackTimeouts (notBatch : b.poolType ≠ .batch)
    (run : ScheduleRun Result Signers) (block : Block (Transaction Result Signers) Data) :
    Ensures (·.retried = []) (b.putBackTimeouts block (run.getTxRWSetTable b.conf) txBatch batchIds fetchBatches)
      (fun _ state => state.retried = run.handedBack b.conf txBatch) fun _ => True := by
  unfold Builder.putBackTimeouts ScheduleRun.handedBack
  split
  · refine ensures_bind (ensures_update ?_) fun _ => ensures_pure fun _ returned => returned
    intro state fresh
    simp only [fresh, List.nil_append]
  · exact ensures_pure fun _ fresh => fresh

theorem Builder.ensures_setProposedBlock (data : ProposalData (Transaction Result Signers) Data Event)
    (handed : List (Transaction Result Signers)) :
    Ensures (·.retried = handed) (b.setProposedBlock data) (fun _ state => state.retried = handed) fun _ => True := by
  unfold Builder.setProposedBlock
  refine ensures_step (fun _ _ => trivial) fun currentHeight _ => ?_
  split
  · exact ensures_fail fun _ _ => trivial
  · exact ensures_update fun _ same => same

theorem Builder.ensures_sealBlock (notBatch : b.poolType ≠ .batch) (run : ScheduleRun Result Signers) (dag : List (List Nat))
    (block : Block (Transaction Result Signers) Data) :
    Ensures (·.retried = []) (b.sealBlock block run dag txBatch batchIds fetchBatches) (fun built state => built.txs = run.txs b.conf ∧
        state.retried = run.handedBack b.conf txBatch) fun _ => True := by
  unfold Builder.sealBlock
  dsimp only
  split
  · exact ensures_fail fun _ _ => trivial
  · refine ensures_step (fun _ _ => trivial) fun header _ => ?_
    refine ensures_bind (b.ensures_putBackTimeouts notBatch run _) fun (batchIds, fetchBatches) => ?_
    refine ensures_bind (b.ensures_setProposedBlock _ _) fun _ => ensures_pure ?_
    intro state handed
    refine ⟨?_, handed⟩
    unfold fillBatchPoolAdditionalData
    rw [if_neg fun batch => notBatch batch.1]

theorem Builder.ensures_generateNewBlock (notBatch : b.poolType ≠ .batch) {run : ScheduleRun Result Signers} {dag : List (List Nat)}
    (scheduled : ∀ block, b.schedule block txBatch = .ok (run, dag)) (proposingHeight : UInt64)
    (preHash : Bytes) :
    Ensures (·.retried = []) (b.generateNewBlock proposingHeight preHash txBatch batchIds fetchBatches)
      (fun built state => built.txs = run.txs b.conf ∧ state.retried = run.handedBack b.conf txBatch) fun _ => True := by
  unfold Builder.generateNewBlock
  refine ensures_current fun now fresh => ?_
  split
  · exact ensures_fail fun _ _ => trivial
  · refine ensures_step (fun _ _ => trivial) fun block _ => ?_
    rw [scheduled]
    refine ensures_step (fun _ _ => trivial) fun result same => ?_
    cases same
    exact (b.ensures_sealBlock notBatch run dag block).mono (fun state same => same ▸ fresh) (fun _ _ built => built) fun _ _ => trivial

/-- Every transaction of the batch is in the block or goes back to the pool, and none does
both, exactly if the scheduler's run keeps all. -/
theorem transactions_kept_iff {run : ScheduleRun Result Signers} {dag : List (List Nat)}
    {proposingHeight : UInt64} {preHash : Bytes}
    {start after : BuildState Result Signers Data Event}
    {block : Block (Transaction Result Signers) Data}
    (notBatch : b.poolType ≠ .batch)
    (scheduled : ∀ block, b.schedule block txBatch = .ok (run, dag))
    (distinct : (txBatch.map (·.txId)).Nodup) (ofBatch : run.Over b.conf txBatch)
    (fresh : start.retried = [])
    (built : b.generateNewBlock proposingHeight preHash txBatch batchIds fetchBatches start =
      (.ok block, after)) :
    (∀ tx ∈ txBatch, (tx ∈ block.txs ∨ tx ∈ after.retried) ∧
        ¬ (tx ∈ block.txs ∧ tx ∈ after.retried)) ↔ run.KeepsAll b.conf txBatch := by
  obtain ⟨txs, retried⟩ := (b.ensures_generateNewBlock notBatch scheduled proposingHeight preHash
    start fresh).1 block after built
  rw [txs, retried, ← ofBatch.handedBack_iff distinct]
  constructor
  · intro kept tx leftOut
    obtain ⟨member, notApplied⟩ := ScheduleRun.mem_leftOut.mp leftOut
    refine (kept tx member).1.resolve_left ?_
    rwa [ofBatch.mem_txs distinct member]
  · intro handed tx member
    by_cases applied : tx.txId ∈ run.appliedIds
    · exact ⟨.inl ((ofBatch.mem_txs distinct member).mpr applied),
        fun both => ofBatch.not_applied_of_handedBack both.2 applied⟩
    · exact ⟨.inr (handed tx (ScheduleRun.mem_leftOut.mpr ⟨member, applied⟩)),
        fun both => applied ((ofBatch.mem_txs distinct member).mp both.1)⟩

def gasConf : ChainConfig :=
  { turboConf .tbft with
    accountConfig := some { enableGas := true }
    core := { (turboConf .tbft).core with enableOptimizeChargeGas := true } }

def gasTx : Transaction Unit Unit where
  payload :=
    { txId := ascii "gas", txType := .invokeContract, contractName := accountManager
      method := Scheduler.Gas.chargeGasForMultiAccount, parameters := [] }
  result := none
  signers := ()

def emptySet (tx : Transaction Unit Unit) : Executed Unit Unit :=
  (tx, { txId := tx.txId, txReads := [], txWrites := [] })

def firstProposer (run : ScheduleRun Unit Unit) : Builder Unit Unit TxBatchInfo Unit where
  conf := gasConf
  poolType := .normal
  codec := plainCodec
  calcBlockFingerPrint := fun _ => []
  currentHeight := .ok 0
  lastCommittedBlock := some
    { header :=
        { blockHeight := 0, blockHash := [], preBlockHash := [], blockVersion := blockVersion2300
          blockType := 0, txCount := 0, proposer := none }
      dag := [], txs := [], extraData := ∅ }
  identity := .ok { orgId := [], memberType := .cert, memberInfo := [] }
  blockVersion := blockVersion2300
  schedule := fun _ _ => .ok (run, [])
  contractEvent := fun _ => []
  finalizeBlock := fun block _ => .ok block.header
  reGenTxBatchesWithRetryTxs := fun _ batchIds txs => (batchIds, [txs])

theorem transactions_kept_without_gas :
    let txBatch := [plainTx (ascii "a"), plainTx (ascii "b")]
    let run := .parallel [emptySet (plainTx (ascii "a"))] none
    ∃ block after, (firstProposer run).generateNewBlock 1 [] txBatch [] [] ⟨[], [], []⟩ = (.ok block, after) ∧
        ∀ tx ∈ txBatch, (tx ∈ block.txs ∨ tx ∈ after.retried) ∧ ¬ (tx ∈ block.txs ∧ tx ∈ after.retried) := by
  intro txBatch run
  have scheduled : ∀ block, (firstProposer run).schedule block txBatch = .ok (run, []) :=
    fun _ => rfl
  have ofBatch : run.Over gasConf txBatch := ⟨by decide, by decide, by decide, by simp [run,
    ScheduleRun.appended]⟩
  obtain ⟨block, after, built⟩ : ∃ block after, (firstProposer run).generateNewBlock 1 [] txBatch
      [] [] ⟨[], [], []⟩ = (.ok block, after) := ⟨_, _, rfl⟩
  refine ⟨block, after, built,
    (transactions_kept_iff (by decide) scheduled (by decide) ofBatch rfl built).mpr (.inr ⟨?_, ?_⟩)⟩
  · intro tx last
    cases last
    decide
  · intro executed appended
    cases appended

/-- One of two transactions is applied in time, and the block gets one more for the gas. -/
theorem transaction_lost_with_gas :
    let late := plainTx (ascii "b")
    let txBatch := [plainTx (ascii "a"), late]
    let run := .parallel [emptySet (plainTx (ascii "a"))] (some (emptySet gasTx))
    ∃ block after, (firstProposer run).generateNewBlock 1 [] txBatch [] [] ⟨[], [], []⟩ = (.ok block, after) ∧
        run.Over gasConf txBatch ∧ late ∉ block.txs ∧ late ∉ after.retried := by
  intro late txBatch run
  have ofBatch : run.Over gasConf txBatch := by
    refine ⟨by decide, by decide, by decide, ?_⟩
    intro executed appended
    cases appended
    decide
  exact ⟨_, _, rfl, ofBatch, by decide, by decide⟩

end Lost

end Pdcc.Core
