import Pdcc.Core.Block
import Pdcc.Library.Effectful

/-!
# The deterministic block verifier

A follower executes a proposed block and answers the consensus module on the message
bus. A block that is in the proposal cache was executed before and is answered from
there.
-/

set_option autoImplicit false

namespace Pdcc.Core

open Ledger Library

variable {Tx Data Event : Type}

abbrev TxRWSetMap := AList fun _ : Bytes => TxRWSet

structure ProposalData (Tx Data Event : Type) where
  block : Block Tx Data
  txRwSetMap : TxRWSetMap
  contractEventMap : Option (AList fun _ : Bytes => List Event)

structure BlockProposal (Tx Data Event : Type) where
  height : UInt64
  fingerPrint : Bytes
  data : ProposalData Tx Data Event

abbrev ProposalCache (Tx Data Event : Type) := List (BlockProposal Tx Data Event)

namespace ProposalCache

variable (cache : ProposalCache Tx Data Event) (calcBlockFingerPrint : Header → Bytes)

def getProposedBlock (header : Header) : Option (ProposalData Tx Data Event) :=
  (cache.find? fun entry =>
    entry.height = header.blockHeight ∧ entry.fingerPrint = calcBlockFingerPrint header).map (·.data)

def getProposedBlockByHashAndHeight (hash : Bytes) (height : UInt64) : Option (Block Tx Data) :=
  (cache.find? fun entry => entry.height = height ∧ entry.data.block.header.blockHash = hash).map
    (·.data.block)

def put (proposal : BlockProposal Tx Data Event) : ProposalCache Tx Data Event :=
  cache.filter (fun entry =>
    ¬ (entry.height = proposal.height ∧ entry.fingerPrint = proposal.fingerPrint)) ++ [proposal]

def keepProposedBlock (hash : Bytes) (height : UInt64) : ProposalCache Tx Data Event :=
  cache.filter fun entry => entry.height ≠ height ∨ entry.data.block.header.blockHash = hash

end ProposalCache

inductive VerifyResultCode where
  | success
  | fail
  deriving DecidableEq, Repr

structure RwSetVerifyFailTx where
  txIds : List Bytes
  blockHeight : UInt64

structure VerifyResult (Tx Data : Type) where
  verifiedBlock : Block Tx Data
  code : VerifyResultCode
  msg : Bytes
  txsRwSet : TxRWSetMap
  rwSetVerifyFailTxs : Option RwSetVerifyFailTx

def parseVerifyResult (block : Block Tx Data) (isValid : Bool) (txsRwSet : TxRWSetMap)
    (rwSetVerifyFailTxs : Option RwSetVerifyFailTx) : VerifyResult Tx Data :=
  if isValid then
    { verifiedBlock := block, code := .success, msg := ascii "OK", txsRwSet
      rwSetVerifyFailTxs := none }
  else
    { verifiedBlock := block, code := .fail, msg := ascii "FAIL", txsRwSet, rwSetVerifyFailTxs }

@[simp] theorem parseVerifyResult_code (block : Block Tx Data) (isValid : Bool) (txsRwSet : TxRWSetMap) (failed : Option RwSetVerifyFailTx) :
    (parseVerifyResult block isValid txsRwSet failed).code = if isValid then .success else .fail := by
  unfold parseVerifyResult
  split <;> rfl

inductive VerifyError where
  | invalidBlock
  | concurrentVerify
  | lastBlock
  | recoverBlock
  | validateBlock
  | noTxs
  | finalizeBlock
  | blockHash
  | setProposedBlock
  | chargeGasTx
  | voteSig
  deriving DecidableEq, Repr

structure Validation (Event : Type) where
  txRWSetMap : TxRWSetMap
  contractEventMap : Option (AList fun _ : Bytes => List Event)
  rwSetVerifyFailTx : Option RwSetVerifyFailTx
  valid : Bool

structure Verifier (Tx Data Event : Type) where
  conf : ChainConfig
  calcBlockFingerPrint : Header → Bytes
  isEmptyBlock : Block Tx Data → Bool
  locked : Bytes → Bool
  fetchLastBlock : Block Tx Data → Except VerifyError (Block Tx Data)
  recoverBlock : Block Tx Data → VerifyMode → Except VerifyError (Block Tx Data)
  validateBlock : Block Tx Data → Block Tx Data → VerifyMode → Validation Event
  schedule : Block Tx Data → Block Tx Data → List Tx × TxRWSetMap
  finalizeBlock : Block Tx Data → TxRWSetMap → Except VerifyError Header
  calcBlockHash : Block Tx Data → Except VerifyError Bytes
  currentHeight : Except VerifyError UInt64
  verifyOptimizeChargeGasTx : Block Tx Data → Block Tx Data → Except VerifyError Unit
  verifyVoteSig : Block Tx Data → Except VerifyError Unit

structure VerifierState (Tx Data Event : Type) where
  proposalCache : ProposalCache Tx Data Event
  published : List (Option (VerifyResult Tx Data))

abbrev Verifying (Tx Data Event α : Type) := Effectful (VerifierState Tx Data Event) VerifyError α

open Effectful

def publish (answer : Option (VerifyResult Tx Data)) : Verifying Tx Data Event Unit :=
  update fun state => { state with published := state.published ++ [answer] }

def publishIn (mode : VerifyMode) (answer : Option (VerifyResult Tx Data)) :
    Verifying Tx Data Event Unit :=
  if mode = .consensusVerify then publish answer else pure ()

namespace Verifier

variable (v : Verifier Tx Data Event)

def setProposedBlock (data : ProposalData Tx Data Event) : Verifying Tx Data Event Unit := do
  let height := data.block.header.blockHeight
  let currentHeight ← step v.currentHeight
  if currentHeight ≥ height ∧ height ≠ 0 then fail .setProposedBlock
  else update fun state => { state with
    proposalCache := state.proposalCache.put
      { height, fingerPrint := v.calcBlockFingerPrint data.block.header, data } }

def keepLastBlock (header : Header) (cache : ProposalCache Tx Data Event) :
    ProposalCache Tx Data Event :=
  match cache.getProposedBlockByHashAndHeight header.preBlockHash (header.blockHeight - 1) with
  | none => cache
  | some lastBlock =>
    cache.keepProposedBlock lastBlock.header.blockHash lastBlock.header.blockHeight

def verifyRepeat (block : Block Tx Data) (mode : VerifyMode) : Verifying Tx Data Event Bool := do
  let state ← current
  match state.proposalCache.getProposedBlock v.calcBlockFingerPrint block.header with
  | none => return false
  | some proposalData =>
    -- the proposer has cached the block before its execution
    if mode = .proposerVerify ∧ proposalData.txRwSetMap.entries.length = 0 then return false
    else if v.conf.consensusType ≠ .solo ∨ v.conf.enableSqlSupport then do
      publishIn mode (some (parseVerifyResult proposalData.block true proposalData.txRwSetMap none))
      update fun state => { state with
        proposalCache := keepLastBlock block.header state.proposalCache }
      return true
    else return false

def executeNewBlock (block : Block Tx Data) (mode : VerifyMode) :
    Verifying Tx Data Event (Option (VerifyResult Tx Data)) := do
  let preHash := block.header.blockHash
  let lastBlock ← step (v.fetchLastBlock block)
  let newBlock ← step (v.recoverBlock block mode)
  if !(v.validateBlock newBlock lastBlock mode).valid then do
    publishIn mode (some (parseVerifyResult newBlock false ∅ none))
    fail .validateBlock
  else
    -- the error of the scheduler is overwritten before anyone looks at it
    let (txs, txRWSetMap) := v.schedule lastBlock newBlock
    if !v.conf.canProposeEmptyBlock && txs.length = 0 then fail .noTxs
    else do
      let scheduled := newBlock.withTxs txs
      let finalized ← step (v.finalizeBlock scheduled txRWSetMap)
      let blockHash ← step (v.calcBlockHash { scheduled with header := finalized })
      let finalBlock := { scheduled with header := { finalized with blockHash } }
      -- no event map is assigned on this path
      v.setProposedBlock
        { block := finalBlock, txRwSetMap := txRWSetMap, contractEventMap := none }
      return some { parseVerifyResult finalBlock true txRWSetMap none with msg := preHash }

def verifyBlockWithoutDag (block : Block Tx Data) (mode : VerifyMode) :
    Verifying Tx Data Event (Option (VerifyResult Tx Data)) :=
  if v.isEmptyBlock block then fail .invalidBlock
  else if v.locked block.header.blockHash then fail .concurrentVerify
  else do
    let isRepeat ← v.verifyRepeat block mode
    if isRepeat then return none else v.executeNewBlock block mode

def checkChargeGas (newBlock lastBlock : Block Tx Data) (validation : Validation Event)
    (mode : VerifyMode) : Verifying Tx Data Event Unit :=
  if v.conf.isOptimizeChargeGasEnabled then
    match v.verifyOptimizeChargeGasTx newBlock lastBlock with
    | .ok () => pure ()
    | .error cause => do
      publishIn mode (some (parseVerifyResult newBlock false validation.txRWSetMap
        validation.rwSetVerifyFailTx))
      fail cause
  else pure ()

def validateNewBlock (block : Block Tx Data) (mode : VerifyMode) :
    Verifying Tx Data Event Unit := do
  let lastBlock ← step (v.fetchLastBlock block)
  let newBlock ← step (v.recoverBlock block mode)
  let validation := v.validateBlock newBlock lastBlock mode
  if !validation.valid then do
    publishIn mode (some (parseVerifyResult newBlock false validation.txRWSetMap
      validation.rwSetVerifyFailTx))
    fail .validateBlock
  else do
    v.checkChargeGas newBlock lastBlock validation mode
    step (if mode = .syncVerify then v.verifyVoteSig newBlock else .ok ())
    v.setProposedBlock
      { block := newBlock, txRwSetMap := validation.txRWSetMap
        contractEventMap := validation.contractEventMap }
    publishIn mode (some (parseVerifyResult newBlock true validation.txRWSetMap none))

def verifyBlockWithDag (block : Block Tx Data) (mode : VerifyMode) :
    Verifying Tx Data Event Unit :=
  if v.isEmptyBlock block then fail .invalidBlock
  else if v.locked block.header.blockHash then fail .concurrentVerify
  else do
    let isRepeat ← v.verifyRepeat block mode
    if isRepeat then return () else v.validateNewBlock block mode

def verifyBlock (block : Block Tx Data) (mode : VerifyMode) : Verifying Tx Data Event Unit :=
  if v.conf.processType = .executeOnPropose ∧ mode ≠ .syncVerify then do
    let verifyResult ← v.verifyBlockWithoutDag block mode
    publishIn mode verifyResult
  else v.verifyBlockWithDag block mode

section Answers

variable {v} {block : Block Tx Data} {before : List (Option (VerifyResult Tx Data))}

def Refused (before : List (Option (VerifyResult Tx Data))) (state : VerifierState Tx Data Event) :
    Prop :=
  ∃ answers, state.published = before ++ answers ∧
    ∀ answer ∈ answers, ∃ result, answer = some result ∧ result.code ≠ .success

variable {state : VerifierState Tx Data Event}

theorem refused_silent (silent : state.published = before) : Refused before state :=
  ⟨[], by simp [silent], by simp⟩

theorem ensures_publishIn {answer : Option (VerifyResult Tx Data)} {failed : VerifierState Tx Data Event → Prop} :
    Ensures (fun state => state.published = before) (publishIn .consensusVerify answer : Verifying Tx Data Event Unit)
      (fun _ state => state.published = before ++ [answer]) failed := by
  refine ensures_update ?_
  intro state silent
  rw [← silent]

variable {result : VerifyResult Tx Data}

theorem ensures_refuse {α : Type} (cause : VerifyError) {post : α → VerifierState Tx Data Event → Prop} (refusal : result.code ≠ .success) :
    Ensures (fun state => state.published = before) (do
        publishIn .consensusVerify (some result)
        fail cause : Verifying Tx Data Event α) post (Refused before) := by
  refine ensures_bind ensures_publishIn fun _ => ensures_fail ?_
  intro state published
  exact ⟨[some result], published, by simp [refusal]⟩

theorem ensures_setProposedBlock (data : ProposalData Tx Data Event) :
    Ensures (fun state => state.published = before) (v.setProposedBlock data) (fun _ state => state.published = before) (Refused before) := by
  unfold setProposedBlock
  refine ensures_step (fun _ => refused_silent) ?_
  intro currentHeight _
  split
  · exact ensures_fail fun _ => refused_silent
  · exact ensures_update fun _ silent => silent

theorem ensures_executeNewBlock (block : Block Tx Data) : Ensures (fun state => state.published = before)
      (v.executeNewBlock block .consensusVerify)
      (fun returned state => state.published = before ∧ ∃ result, returned = some result ∧ result.code = .success)
      (Refused before) := by
  unfold executeNewBlock
  refine ensures_step (fun _ => refused_silent) fun lastBlock _ => ?_
  refine ensures_step (fun _ => refused_silent) fun newBlock _ => ?_
  split
  · exact ensures_refuse _ (by simp)
  · dsimp only
    split
    · exact ensures_fail fun _ => refused_silent
    · refine ensures_step (fun _ => refused_silent) fun finalized _ => ?_
      refine ensures_step (fun _ => refused_silent) fun blockHash _ => ?_
      refine ensures_bind (ensures_setProposedBlock _) fun _ => ensures_pure ?_
      intro state silent
      exact ⟨silent, _, rfl, by simp⟩

theorem ensures_checkChargeGas (newBlock lastBlock : Block Tx Data) (validation : Validation Event) :
    Ensures (fun state => state.published = before) (v.checkChargeGas newBlock lastBlock validation .consensusVerify)
      (fun _ state => state.published = before) (Refused before) := by
  unfold checkChargeGas
  split
  · split
    · exact ensures_pure fun _ silent => silent
    · exact ensures_refuse _ (by simp)
  · exact ensures_pure fun _ silent => silent

theorem ensures_validateNewBlock (block : Block Tx Data) : Ensures (fun state => state.published = before)
      (v.validateNewBlock block .consensusVerify)
      (fun _ state => ∃ result, state.published = before ++ [some result] ∧ result.code = .success)
      (Refused before) := by
  unfold validateNewBlock
  refine ensures_step (fun _ => refused_silent) fun lastBlock _ => ?_
  refine ensures_step (fun _ => refused_silent) fun newBlock _ => ?_
  dsimp only
  split
  · exact ensures_refuse _ (by simp)
  · refine ensures_bind (ensures_checkChargeGas _ _ _) fun _ => ?_
    refine ensures_step (fun _ => refused_silent) fun _ _ => ?_
    refine ensures_bind (ensures_setProposedBlock _) fun _ => ?_
    refine ensures_publishIn.mono (fun _ silent => silent) ?_ (fun _ failed => failed)
    intro _ state published
    exact ⟨_, published, by simp⟩

variable (v) in
/-- The block was verified before, and the earlier result is used. -/
def Repeated (cache : ProposalCache Tx Data Event) (header : Header) : Prop :=
  cache.getProposedBlock v.calcBlockFingerPrint header ≠ none ∧
    (v.conf.consensusType ≠ .solo ∨ v.conf.enableSqlSupport)

theorem verifyRepeat_repeated (state : VerifierState Tx Data Event) (repeated : v.Repeated state.proposalCache block.header) :
    ∃ result cache, result.code = .success ∧ v.verifyRepeat block .consensusVerify state =
        (.ok true, ⟨cache, state.published ++ [some result]⟩) := by
  obtain ⟨cached, kept⟩ := repeated
  obtain ⟨data, found⟩ := Option.ne_none_iff_exists'.mp cached
  refine ⟨parseVerifyResult data.block true data.txRwSetMap none, keepLastBlock block.header state.proposalCache, by simp, ?_⟩
  unfold verifyRepeat
  rw [current_bind, found]
  dsimp only
  rw [if_neg (by simp), if_pos kept]
  rfl

theorem verifyRepeat_new (state : VerifierState Tx Data Event) (new : ¬ v.Repeated state.proposalCache block.header) :
    v.verifyRepeat block .consensusVerify state = (.ok false, state) := by
  unfold verifyRepeat
  rw [current_bind]
  cases found : state.proposalCache.getProposedBlock v.calcBlockFingerPrint block.header with
  | none => rfl
  | some data =>
    have dropped : ¬ (v.conf.consensusType ≠ .solo ∨ v.conf.enableSqlSupport = true) :=
      fun kept => new ⟨by simp [found], kept⟩
    dsimp only
    rw [if_neg (by simp), if_neg dropped]
    rfl

/-- One accepting answer for a call that returns, none for a call that fails, and never nil. -/
def Answered (ended : Except VerifyError Unit × VerifierState Tx Data Event) : Prop :=
  none ∉ ended.2.published ∧
    (ended.1 = .ok () → ∃ result, ended.2.published = [some result] ∧ result.code = .success) ∧
    (ended.1 ≠ .ok () → ∀ result, some result ∈ ended.2.published → result.code ≠ .success)

theorem answered_of_refused {cause : VerifyError} (refused : Refused [] state) : Answered (.error cause, state) := by
  obtain ⟨answers, published, failed⟩ := refused
  rw [List.nil_append] at published
  refine ⟨?_, fun returned => (by cases returned), ?_⟩
  · intro silent
    obtain ⟨_, same, _⟩ := failed none (published ▸ silent)
    cases same
  · intro _ result member
    obtain ⟨_, same, failure⟩ := failed (some result) (published ▸ member)
    cases same
    exact failure

theorem answered_of_single (published : state.published = [some result]) (success : result.code = .success) : Answered (.ok (), state) :=
  ⟨by simp [published], fun _ => ⟨result, published, success⟩, fun failed => absurd rfl failed⟩

theorem answered_of_ensures {call : Verifying Tx Data Event Unit} (silent : state.published = [])
    (ensures : Ensures (fun state => state.published = []) call
      (fun _ state => ∃ result, state.published = [some result] ∧ result.code = .success)
      (Refused [])) : Answered (call state) := by
  obtain ⟨returns, fails⟩ := ensures state silent
  cases ended : call state with
  | mk outcome after =>
    cases outcome with
    | ok value =>
      obtain ⟨result, published, success⟩ := returns value after ended
      exact answered_of_single published success
    | error cause => exact answered_of_refused (fails cause after ended)

theorem answered_fail (cause : VerifyError) (cache : ProposalCache Tx Data Event) :
    Answered (fail cause (⟨cache, []⟩ : VerifierState Tx Data Event)) :=
  answered_of_refused (refused_silent rfl)

theorem answered_verifyBlockWithDag (block : Block Tx Data) (cache : ProposalCache Tx Data Event) :
    Answered (v.verifyBlockWithDag block .consensusVerify ⟨cache, []⟩) := by
  unfold verifyBlockWithDag
  split
  · exact answered_fail _ cache
  · split
    · exact answered_fail _ cache
    · by_cases repeated : v.Repeated cache block.header
      · obtain ⟨result, kept, success, found⟩ := verifyRepeat_repeated ⟨cache, []⟩ repeated
        rw [bind_of_ok found]
        exact answered_of_single rfl success
      · rw [bind_of_ok (verifyRepeat_new ⟨cache, []⟩ repeated)]
        exact answered_of_ensures rfl (ensures_validateNewBlock block)

theorem answered_executeNewBlock (block : Block Tx Data) (cache : ProposalCache Tx Data Event) : Answered ((do
      let verifyResult ← v.executeNewBlock block .consensusVerify
      publishIn .consensusVerify verifyResult : Verifying Tx Data Event Unit) ⟨cache, []⟩) := by
  refine answered_of_ensures rfl (ensures_bind (ensures_executeNewBlock block) ?_)
  intro returned state ⟨silent, result, same, success⟩
  subst same
  exact ensures_publishIn.mono (fun _ silent => silent)
    (fun _ _ published => ⟨result, published, success⟩) (fun _ failed => failed) state silent

theorem not_answered_repeated {cache : ProposalCache Tx Data Event}
    (present : v.isEmptyBlock block = false) (unlocked : v.locked block.header.blockHash = false)
    (repeated : v.Repeated cache block.header) :
    ¬ Answered ((do
      let verifyResult ← v.verifyBlockWithoutDag block .consensusVerify
      publishIn .consensusVerify verifyResult : Verifying Tx Data Event Unit) ⟨cache, []⟩) := by
  obtain ⟨result, kept, _, found⟩ := verifyRepeat_repeated ⟨cache, []⟩ repeated
  have returned : v.verifyBlockWithoutDag block .consensusVerify ⟨cache, []⟩ = (.ok none, ⟨kept, [] ++ [some result]⟩) := by
    unfold verifyBlockWithoutDag
    rw [present, unlocked, if_neg (by decide), if_neg (by decide), bind_of_ok found]
    rfl
  rw [bind_of_ok returned]
  intro answered
  exact answered.1 (by simp [publishIn, publish, update])

end Answers

/-- Every call is answered, except when the block was verified before and the caller
publishes what the verification of a new block would have returned. -/
theorem verifyBlock_answered_iff (v : Verifier Tx Data Event) (block : Block Tx Data)
    (cache : ProposalCache Tx Data Event) :
    Answered (v.verifyBlock block .consensusVerify ⟨cache, []⟩) ↔
      ¬ (v.conf.processType = .executeOnPropose ∧ v.isEmptyBlock block = false ∧
        v.locked block.header.blockHash = false ∧ v.Repeated cache block.header) := by
  unfold verifyBlock
  by_cases propose : v.conf.processType = .executeOnPropose
  · rw [if_pos ⟨propose, by decide⟩]
    cases empty : v.isEmptyBlock block with
    | true =>
      refine iff_of_true ?_ (by simp)
      unfold verifyBlockWithoutDag
      rw [if_pos empty]
      exact answered_fail _ cache
    | false =>
      cases locked : v.locked block.header.blockHash with
      | true =>
        refine iff_of_true ?_ (by simp)
        unfold verifyBlockWithoutDag
        rw [if_neg (by simp [empty]), if_pos locked]
        exact answered_fail _ cache
      | false =>
        by_cases repeated : v.Repeated cache block.header
        · refine iff_of_false (not_answered_repeated empty locked repeated) ?_
          exact fun new => new ⟨propose, rfl, rfl, repeated⟩
        · refine iff_of_true ?_ fun all => repeated all.2.2.2
          have executed : v.verifyBlockWithoutDag block .consensusVerify ⟨cache, []⟩ =
              v.executeNewBlock block .consensusVerify ⟨cache, []⟩ := by
            unfold verifyBlockWithoutDag
            rw [if_neg (by simp [empty]), if_neg (by simp [locked]),
              bind_of_ok (verifyRepeat_new ⟨cache, []⟩ repeated)]
            rfl
          rw [bind_of_same executed]
          exact answered_executeNewBlock block cache
  · rw [if_neg fun both => propose both.1]
    exact iff_of_true (answered_verifyBlockWithDag block cache) fun both => propose both.1

end Verifier

section Sample

def willingVerifier (schedule : Block Tx Unit → List Tx) : Verifier Tx Unit Unit where
  conf :=
    { consensusType := .tbft, processType := .executeOnPropose, enableSqlSupport := false
      accountConfig := none
      core :=
        { enableOptimizeChargeGas := false
          consensusTurboConfig :=
            { consensusMessageTurbo := false, retryTime := 0, retryInterval := 0 } } }
  calcBlockFingerPrint header := header.preBlockHash
  isEmptyBlock _ := false
  locked _ := false
  fetchLastBlock block := .ok block
  recoverBlock block _ := .ok block
  validateBlock _ _ _ :=
    { txRWSetMap := ∅, contractEventMap := none, rwSetVerifyFailTx := none, valid := true }
  schedule _ newBlock := (schedule newBlock, ∅)
  finalizeBlock block _ := .ok block.header
  calcBlockHash _ := .ok []
  currentHeight := .ok 0
  verifyOptimizeChargeGasTx _ _ := .ok ()
  verifyVoteSig _ := .ok ()

def singleTxBlock (tx : Tx) : Block Tx Unit where
  header :=
    { blockHeight := 1, blockHash := [], preBlockHash := [], blockVersion := blockVersion2300
      blockType := 0, txCount := 1, proposer := none }
  dag := []
  txs := [tx]
  extraData := ∅

def verifiedOnce : ProposalCache Unit Unit Unit :=
  ((willingVerifier (·.txs)).verifyBlock (singleTxBlock ()) .consensusVerify ⟨[], []⟩).2.proposalCache

theorem repeated_block_answered_twice :
    ¬ Verifier.Answered ((willingVerifier (·.txs)).verifyBlock (singleTxBlock ()) .consensusVerify
      ⟨verifiedOnce, []⟩) :=
  fun answered => answered.1 (List.mem_cons_of_mem _ (List.mem_singleton.mpr rfl))

end Sample

end Pdcc.Core
