import Pdcc.Core.BlockCommitter
import Pdcc.Core.RetryTxs
import Pdcc.Scheduler.CompareDag

/-!
# What a commit reports

`AddBlock` prepares the block, commits it, synchronizes the transaction pool and
publishes the block on the message bus. A deferred function rolls the store back when the
call panics or returns an error.
-/

set_option autoImplicit false

namespace Pdcc.Core

open Ledger Library Effectful

variable {Result Signers Data Event Governance ε : Type}

structure BlockInfo (Result Signers Data : Type) where
  block : Block (Transaction Result Signers) Data
  rwsetList : List TxRWSet

inductive BusMessage (Result Signers Data Governance : Type) where
  | blockInfo (info : Option (BlockInfo Result Signers Data))
  | maxbftEpochConf (governance : Governance)

inductive IllegalBlock where
  | noLastBlock
  | hadBeenCommited
  | height
  | preHash
  | blockHash
  deriving DecidableEq, Repr

inductive AddBlockError (ε : Type) where
  | illegal (cause : IllegalBlock)
  | commit (cause : CommitError)
  | batchIds (cause : ε)
  | governance (cause : ε)

def AddBlockError.isBlockHadBeenCommited : AddBlockError ε → Bool
  | .illegal .hadBeenCommited => true
  | _ => false

inductive AddBlockPanic where
  | store
  | nilBlockInfo
  | rollBack
  deriving DecidableEq, Repr

inductive AddBlockFailure (ε : Type) where
  | panic (cause : AddBlockPanic)
  | error (cause : AddBlockError ε)

def CommitError.failure : CommitError → AddBlockFailure ε
  | .panic => .panic .store
  | cause => .error (.commit cause)

structure BlockCommitter (Result Signers Data Event Governance ε : Type) where
  verifier : Verifier (Transaction Result Signers) Data Event
  lastCommittedBlock : Option (Block (Transaction Result Signers) Data)
  calcBlockHash : Block (Transaction Result Signers) Data → Except ε Bytes
  putBlock : Block (Transaction Result Signers) Data → Bool
  hasTxFilter : Bool
  addsAndSetHeight : Block (Transaction Result Signers) Data → Bool
  notifyBlockCommitted : Block (Transaction Result Signers) Data → Bool
  notifyChainConf : Block (Transaction Result Signers) Data → Bool
  poolType : TxPoolType
  getBatchIds : Block (Transaction Result Signers) Data → Except ε (List Bytes)
  getGovernanceFromBlock : Block (Transaction Result Signers) Data →
    Except ε (Option Governance)
  rollBack : Block (Transaction Result Signers) Data → Bool
  monitorEnabled : Bool

structure AddBlockState (Result Signers Data Event Governance : Type) where
  commit : CommitState Result Signers Data Event
  pool : TxPool Result Signers
  published : List (BusMessage Result Signers Data Governance)
  rolledBack : List (Block (Transaction Result Signers) Data)

abbrev Adding (Result Signers Data Event Governance ε α : Type) :=
  Effectful (AddBlockState Result Signers Data Event Governance) (AddBlockFailure ε) α

def AddBlockState.start (cache : ProposalCache (Transaction Result Signers) Data Event)
    (pool : TxPool Result Signers) : AddBlockState Result Signers Data Event Governance :=
  ⟨⟨cache, []⟩, pool, [], []⟩

def onCommit {α : Type} (call : Committing Result Signers Data Event α) :
    Adding Result Signers Data Event Governance ε α :=
  within AddBlockState.commit (fun commit state => { state with commit }) CommitError.failure call

def publishSafe (message : BusMessage Result Signers Data Governance) :
    Adding Result Signers Data Event Governance ε Unit :=
  update fun state => { state with published := state.published ++ [message] }

namespace BlockCommitter

variable (n : BlockCommitter Result Signers Data Event Governance ε) (block : Block (Transaction Result Signers) Data)

def isBlockLegal : Except IllegalBlock Unit :=
  match n.lastCommittedBlock with
  | none => .error .noLastBlock
  | some lastBlock =>
    if lastBlock.header.blockHeight ≥ block.header.blockHeight then .error .hadBeenCommited
    else if block.header.blockHeight ≠ lastBlock.header.blockHeight + 1 then .error .height
    else if block.header.preBlockHash ≠ lastBlock.header.blockHash then .error .preHash
    else match n.calcBlockHash block with
      | .error _ => .error .blockHash
      | .ok hash => if block.header.blockHash ≠ hash then .error .blockHash else .ok ()

def commonCommit : Committer Result Signers Data Event where
  verifier := n.verifier
  isBlockLegal block := (n.isBlockLegal block).isOk
  putBlock := n.putBlock
  addsAndSetHeight block := !n.hasTxFilter || n.addsAndSetHeight block
  notifyBlockCommitted := n.notifyBlockCommitted
  notifyChainConf := n.notifyChainConf
  syncWithTxPool _ := true

def prepare :
    Adding Result Signers Data Event Governance ε
      (Block (Transaction Result Signers) Data ×
        ProposalData (Transaction Result Signers) Data Event) := do
  step ((n.isBlockLegal block).mapError fun cause => .error (.illegal cause))
  let lastProposed ← onCommit (n.commonCommit.getLastProposed block)
  return (n.commonCommit.getCommittedBlock lastProposed.block block, lastProposed)

def blockInfo (proposal : ProposalData (Transaction Result Signers) Data Event) : BlockInfo Result Signers Data where
  block
  rwsetList :=
    Scheduler.Special.rearrangeRWSet (block.txs.map (·.txId)) (proposal.txRwSetMap.lookup ·)

def commitBlock (proposal : ProposalData (Transaction Result Signers) Data Event) :
    Adding Result Signers Data Event Governance ε
      (Except CommitError (BlockInfo Result Signers Data)) := do
  let committed ← onCommit (n.commonCommit.commitBlock block proposal.contractEventMap)
  return committed.map fun _ => blockInfo block proposal

def synchronize (block commitBlock : Block (Transaction Result Signers) Data) :
    Adding Result Signers Data Event Governance ε Unit := do
  let state ← current
  let height := block.header.blockHeight
  let sync ← step ((syncWithTxPool n.poolType n.getBatchIds commitBlock
    (state.commit.proposalCache.getProposedBlocksAt height)).mapError
      fun cause => .error (.batchIds cause))
  update fun state => { state with
    pool := sync.passOn n.poolType commitBlock state.pool
    commit := { state.commit with
      proposalCache := state.commit.proposalCache.filter (·.height ≠ height) } }

def publishGovernance :
    Adding Result Signers Data Event Governance ε Unit := do
  let governance ← step ((n.getGovernanceFromBlock block).mapError
    fun cause => .error (.governance cause))
  match governance with
  | none => return ()
  | some governance => publishSafe (.maxbftEpochConf governance)

def updateMetrics (blockInfo : Option (BlockInfo Result Signers Data)) :
    Adding Result Signers Data Event Governance ε Unit :=
  if n.monitorEnabled ∧ blockInfo.isNone then fail (.panic .nilBlockInfo) else pure ()

def report (blockInfo : Option (BlockInfo Result Signers Data)) :
    Adding Result Signers Data Event Governance ε Unit := do
  publishSafe (.blockInfo blockInfo)
  if n.verifier.conf.consensusType = .maxbft then n.publishGovernance block
  n.updateMetrics blockInfo

def addBlockBody :
    Adding Result Signers Data Event Governance ε Unit := do
  let (commitBlock, lastProposed) ← n.prepare block
  -- an error of the commit is logged, and overwritten by the result of the next call
  let committed ← n.commitBlock commitBlock lastProposed
  n.synchronize block commitBlock
  n.report block committed.toOption

def askRollBack : Adding Result Signers Data Event Governance ε Unit :=
  update fun state => { state with rolledBack := state.rolledBack ++ [block] }

def rollBackAfter :
    Except (AddBlockFailure ε) Unit → Adding Result Signers Data Event Governance ε Unit
  | .ok () => pure ()
  | .error (.panic cause) => do
    askRollBack block
    fail (.panic cause)
  | .error (.error cause) =>
    if cause.isBlockHadBeenCommited then fail (.error cause)
    else do
      askRollBack block
      if n.rollBack block then fail (.error cause) else fail (.panic .rollBack)

def addBlock : Adding Result Signers Data Event Governance ε Unit :=
  deferred (n.addBlockBody block) (n.rollBackAfter block)

end BlockCommitter

section Quiet

variable {α β : Type}

/-- The call sends nothing and dereferences no nil pointer. -/
def Quiet (call : Adding Result Signers Data Event Governance ε α) : Prop :=
  ∀ state, (call state).2.published = state.published ∧
    (call state).1 ≠ .error (.panic .nilBlockInfo)

theorem quiet_pure (value : α) : Quiet (pure value : Adding Result Signers Data Event Governance ε α) :=
  fun _ => ⟨rfl, fun failed => (by cases failed)⟩

theorem quiet_mapError {δ : Type} {value : Except δ α} {wrap : δ → AddBlockFailure ε} (other : ∀ cause, wrap cause ≠ .panic .nilBlockInfo) :
    Quiet (step (value.mapError wrap) : Adding Result Signers Data Event Governance ε α) := by
  refine fun _ => ⟨rfl, ?_⟩
  cases value with
  | ok value => exact fun failed => (by cases failed)
  | error cause => exact fun failed => other cause (Except.error.inj failed)

theorem CommitError.failure_ne (cause : CommitError) : (cause.failure : AddBlockFailure ε) ≠ .panic .nilBlockInfo := by
  cases cause <;> exact fun same => (by cases same)

theorem quiet_onCommit (call : Committing Result Signers Data Event α) :
    Quiet (onCommit call : Adding Result Signers Data Event Governance ε α) :=
  fun state => ⟨rfl, (quiet_mapError CommitError.failure_ne state).2⟩

theorem quiet_bind {call : Adding Result Signers Data Event Governance ε α}
    {next : α → Adding Result Signers Data Event Governance ε β} (first : Quiet call)
    (second : ∀ value, Quiet (next value)) : Quiet (call >>= next) := by
  intro state
  obtain ⟨silent, other⟩ := first state
  cases ran : call state with
  | mk result after =>
    rw [ran] at silent other
    cases result with
    | error cause =>
      rw [bind_of_error ran]
      exact ⟨silent, fun failed => other (by cases failed; rfl)⟩
    | ok value =>
      rw [bind_of_ok ran]
      exact ⟨(second value after).1.trans silent, (second value after).2⟩

theorem quiet_current {next : AddBlockState Result Signers Data Event Governance →
      Adding Result Signers Data Event Governance ε β} (rest : ∀ now, Quiet (next now)) :
    Quiet (current >>= next) :=
  fun state => rest state state

end Quiet

namespace BlockCommitter

variable (n : BlockCommitter Result Signers Data Event Governance ε)
  (block commitBlock : Block (Transaction Result Signers) Data)

theorem quiet_prepare : Quiet (n.prepare block) := by
  unfold prepare
  refine quiet_bind (quiet_mapError ?_) fun _ => quiet_bind (quiet_onCommit _) fun _ => quiet_pure _
  exact fun _ same => (by cases same)

theorem quiet_commitBlock (proposal : ProposalData (Transaction Result Signers) Data Event) : Quiet (n.commitBlock block proposal) := by
  unfold BlockCommitter.commitBlock
  exact quiet_bind (quiet_onCommit _) fun _ => quiet_pure _

theorem quiet_synchronize : Quiet (n.synchronize block commitBlock) := by
  unfold synchronize
  refine quiet_current fun _ => quiet_bind (quiet_mapError ?_) fun _ => ?_
  · exact fun _ same => (by cases same)
  · exact fun _ => ⟨rfl, fun failed => (by cases failed)⟩

end BlockCommitter

def Committer.commitOutcome (c : Committer Result Signers Data Event)
    (block : Block (Transaction Result Signers) Data) :
    Except CommitError (Except CommitError Unit) :=
  if !c.putBlock block || !c.addsAndSetHeight block then .error .panic
  else if !c.notifyBlockCommitted block then .ok (.error .snapshot)
  else if block.header.blockVersion < blockVersion2300 ∧ !c.notifyChainConf block then
    .ok (.error .chainConf)
  else .ok (.ok ())

theorem handIf_eq (due : Bool) (call : Handed Event) (state : CommitState Result Signers Data Event) :
    handIf due call state = (.ok (), { state with handed := state.handed ++ if due then [call] else [] }) := by
  cases due with
  | true => rfl
  | false => simp [handIf]; rfl

theorem orPanic_bind (next : Unit → Committing Result Signers Data Event (Except CommitError Unit))
    (state : CommitState Result Signers Data Event) :
    (orPanic true >>= next) state = next () state := rfl

theorem Committer.commitBlock_spec (c : Committer Result Signers Data Event) (block : Block (Transaction Result Signers) Data)
    (conEventMap : Option (AList fun _ : Bytes => List Event))
    (state : CommitState Result Signers Data Event) :
    (c.commitBlock block conEventMap state).1 = c.commitOutcome block ∧
      (c.commitBlock block conEventMap state).2.proposalCache = state.proposalCache := by
  unfold Committer.commitBlock commitOutcome
  rw [bind_of_ok (handIf_eq _ _ state)]
  cases c.putBlock block with
  | false => exact ⟨rfl, rfl⟩
  | true =>
    cases c.addsAndSetHeight block with
    | false => exact ⟨rfl, rfl⟩
    | true =>
      rw [orPanic_bind, orPanic_bind]
      cases c.notifyBlockCommitted block with
      | false => exact ⟨rfl, rfl⟩
      | true =>
        by_cases unnoticed : block.header.blockVersion < blockVersion2300 ∧ !c.notifyChainConf block
        · simp only [unnoticed]
          exact ⟨rfl, rfl⟩
        · simp only [unnoticed]
          exact ⟨rfl, rfl⟩

namespace BlockCommitter

section Ends

variable (n : BlockCommitter Result Signers Data Event Governance ε)
  (block commitBlock : Block (Transaction Result Signers) Data)
  (proposal : ProposalData (Transaction Result Signers) Data Event)
  (state : AddBlockState Result Signers Data Event Governance)

theorem commitBlock_fst : (n.commitBlock commitBlock proposal state).1 =
      ((n.commonCommit.commitOutcome commitBlock).mapError CommitError.failure).map (·.map fun _ => blockInfo commitBlock proposal) := by
  unfold BlockCommitter.commitBlock
  rw [bind_pure_apply, ← (n.commonCommit.commitBlock_spec commitBlock proposal.contractEventMap state.commit).1]
  rfl

theorem commitBlock_proposalCache : (n.commitBlock commitBlock proposal state).2.commit.proposalCache = state.commit.proposalCache := by
  unfold BlockCommitter.commitBlock
  rw [bind_pure_apply]
  exact (n.commonCommit.commitBlock_spec commitBlock proposal.contractEventMap state.commit).2

theorem synchronize_fst : (n.synchronize block commitBlock state).1 = ((syncWithTxPool n.poolType n.getBatchIds commitBlock
        (state.commit.proposalCache.getProposedBlocksAt block.header.blockHeight)).mapError
          fun cause => .error (.batchIds cause)).map fun _ => () := by
  unfold synchronize
  rw [current_bind]
  cases syncWithTxPool n.poolType n.getBatchIds commitBlock (state.commit.proposalCache.getProposedBlocksAt block.header.blockHeight) with
  | error cause => rfl
  | ok sync => rfl

theorem rollBackAfter_returned (cause : AddBlockError ε) : n.rollBackAfter block (.error (.error cause)) state =
      if cause.isBlockHadBeenCommited then (.error (.error cause), state)
      else (.error (if n.rollBack block then .error cause else .panic .rollBack),
        { state with rolledBack := state.rolledBack ++ [block] }) := by
  dsimp only [rollBackAfter]
  split
  · rfl
  · cases n.rollBack block <;> rfl

theorem rollBackAfter_published (result : Except (AddBlockFailure ε) Unit) :
    (n.rollBackAfter block result state).2.published = state.published := by
  cases result with
  | ok value => rfl
  | error failure =>
    cases failure with
    | panic cause => rfl
    | error cause =>
      rw [rollBackAfter_returned]
      split <;> rfl

theorem rollBackAfter_error (failure : AddBlockFailure ε) : ∃ failure', (n.rollBackAfter block (.error failure) state).1 = .error failure' ∧
      (failure' = .panic .nilBlockInfo → failure = .panic .nilBlockInfo) := by
  cases failure with
  | panic cause => exact ⟨.panic cause, rfl, id⟩
  | error cause =>
    rw [rollBackAfter_returned]
    split
    · exact ⟨.error cause, rfl, id⟩
    · refine ⟨_, rfl, fun same => ?_⟩
      split at same <;> cases same

end Ends

variable {n : BlockCommitter Result Signers Data Event Governance ε}
  {block commitBlock : Block (Transaction Result Signers) Data}
  {proposal : ProposalData (Transaction Result Signers) Data Event}
  {state after : AddBlockState Result Signers Data Event Governance}

theorem addBlock_of_error {failure : AddBlockFailure ε} (failed : n.addBlockBody block state = (.error failure, after)) :
    n.addBlock block state = n.rollBackAfter block (.error failure) after := by
  unfold addBlock deferred
  rw [failed]

theorem nil_of_addBlock (nil : (n.addBlock block state).1 = .error (.panic .nilBlockInfo)) :
    (n.addBlockBody block state).1 = .error (.panic .nilBlockInfo) := by
  cases ran : n.addBlockBody block state with
  | mk result after =>
    cases result with
    | ok value =>
      unfold addBlock deferred at nil
      rw [ran] at nil
      cases nil
    | error failure =>
      obtain ⟨failure', ended, same⟩ := n.rollBackAfter_error block after failure
      rw [addBlock_of_error ran, ended] at nil
      rw [same (Except.error.inj nil)]

theorem addBlock_published : (n.addBlock block state).2.published = (n.addBlockBody block state).2.published :=
  rollBackAfter_published ..

/-- The call gets as far as the commit, which ends with this result. -/
def Commits (n : BlockCommitter Result Signers Data Event Governance ε)
    (block : Block (Transaction Result Signers) Data)
    (state : AddBlockState Result Signers Data Event Governance)
    (committed : Except CommitError (BlockInfo Result Signers Data)) : Prop :=
  ∃ commitBlock proposal prepared after,
    n.prepare block state = (.ok (commitBlock, proposal), prepared) ∧
      n.commitBlock commitBlock proposal prepared = (.ok committed, after)

/-- The call returns nil only if the commit completed; if the commit returned an error, so
does the call, without a message on the block; the pointer to the block is never nil where
it is sent or looked into. -/
structure Reported (n : BlockCommitter Result Signers Data Event Governance ε)
    (block : Block (Transaction Result Signers) Data)
    (state : AddBlockState Result Signers Data Event Governance) : Prop where
  completed : (n.addBlock block state).1 = .ok () → ∃ info, n.Commits block state (.ok info)
  returned : ∀ cause, n.Commits block state (.error cause) →
    (∃ error, (n.addBlock block state).1 = .error (.error error)) ∧
      ∀ info, .blockInfo info ∉ (n.addBlock block state).2.published
  notNil : .blockInfo none ∉ (n.addBlock block state).2.published ∧
    (n.addBlock block state).1 ≠ .error (.panic .nilBlockInfo)

theorem reported_of_error {failure : AddBlockFailure ε} (silent : after.published = [])
    (failed : n.addBlockBody block state = (.error failure, after))
    (other : failure ≠ .panic .nilBlockInfo)
    (returned : ∀ cause, n.Commits block state (.error cause) →
      ∃ error, (n.rollBackAfter block (.error failure) after).1 = .error (.error error)) :
    n.Reported block state := by
  have published : (n.addBlock block state).2.published = [] := by
    rw [addBlock_published, failed, silent]
  refine ⟨?_, ?_, ?_, ?_⟩
  · obtain ⟨failure', ended, _⟩ := n.rollBackAfter_error block after failure
    intro nil
    rw [addBlock_of_error failed, ended] at nil
    cases nil
  · intro cause committed
    rw [published, addBlock_of_error failed]
    exact ⟨returned cause committed, fun _ => List.not_mem_nil⟩
  · rw [published]
    exact List.not_mem_nil
  · intro nil
    have same := nil_of_addBlock nil
    rw [failed] at same
    exact other (Except.error.inj same)

section Report

variable (n : BlockCommitter Result Signers Data Event Governance ε)
  (block : Block (Transaction Result Signers) Data)
  (info : Option (BlockInfo Result Signers Data))
  (state : AddBlockState Result Signers Data Event Governance)

theorem publishGovernance_spec : (∃ sent, (n.publishGovernance block state).2.published = state.published ++ sent ∧
      ∀ info, .blockInfo info ∉ sent) ∧
      (n.publishGovernance block state).1 ≠ .error (.panic .nilBlockInfo) := by
  unfold publishGovernance
  cases n.getGovernanceFromBlock block with
  | error cause =>
    exact ⟨⟨[], (List.append_nil _).symm, fun _ => List.not_mem_nil⟩, fun nil => (by cases nil)⟩
  | ok governance =>
    cases governance with
    | none =>
      exact ⟨⟨[], (List.append_nil _).symm, fun _ => List.not_mem_nil⟩, fun nil => (by cases nil)⟩
    | some governance =>
      exact ⟨⟨[.maxbftEpochConf governance], rfl, by simp⟩, fun nil => (by cases nil)⟩

theorem updateMetrics_spec : (n.updateMetrics info state).2 = state ∧
      ((n.updateMetrics info state).1 = .error (.panic .nilBlockInfo) → info = none) := by
  unfold updateMetrics
  split
  · next absent => exact ⟨rfl, fun _ => Option.isNone_iff_eq_none.mp absent.2⟩
  · exact ⟨rfl, fun nil => (by cases nil)⟩

theorem report_spec : (∃ sent, (n.report block info state).2.published =
        state.published ++ .blockInfo info :: sent ∧ ∀ info, .blockInfo info ∉ sent) ∧
      ((n.report block info state).1 = .error (.panic .nilBlockInfo) → info = none) := by
  let told : AddBlockState Result Signers Data Event Governance :=
    { state with published := state.published ++ [.blockInfo info] }
  by_cases maxbft : n.verifier.conf.consensusType = .maxbft
  · have unfolded : n.report block info state = (n.publishGovernance block >>= fun _ => n.updateMetrics info) told := by
      unfold report
      rw [if_pos maxbft]
      rfl
    obtain ⟨⟨sent, published, free⟩, other⟩ := n.publishGovernance_spec block told
    rw [unfolded]
    cases ran : n.publishGovernance block told with
    | mk result after =>
      rw [ran] at published other
      have grown : after.published = state.published ++ .blockInfo info :: sent := by
        rw [published]
        exact List.append_assoc _ [_] sent
      cases result with
      | error cause =>
        rw [bind_of_error ran]
        exact ⟨⟨sent, grown, free⟩, fun nil => absurd (by cases nil; rfl) other⟩
      | ok value =>
        obtain ⟨kept, absent⟩ := n.updateMetrics_spec info after
        rw [bind_of_ok ran]
        exact ⟨⟨sent, (congrArg _ kept).trans grown, free⟩, absent⟩
  · have unfolded : n.report block info state = n.updateMetrics info told := by
      unfold report
      rw [if_neg maxbft]
      rfl
    obtain ⟨kept, absent⟩ := n.updateMetrics_spec info told
    rw [unfolded, kept]
    exact ⟨⟨[], rfl, fun _ => List.not_mem_nil⟩, absent⟩

end Report

section Committed

variable {prepared : AddBlockState Result Signers Data Event Governance}
  (ran : n.prepare block state = (.ok (commitBlock, proposal), prepared))

include ran

variable {committed : Except CommitError (BlockInfo Result Signers Data)}

theorem commits_iff : n.Commits block state committed ↔ (n.commitBlock commitBlock proposal prepared).1 = .ok committed := by
  constructor
  · rintro ⟨_, _, _, after, other, returned⟩
    cases ran.symm.trans other
    rw [returned]
  · intro returned
    exact ⟨commitBlock, proposal, prepared, _, ran, Prod.ext returned rfl⟩

theorem addBlockBody_of_committed (returned : n.commitBlock commitBlock proposal prepared = (.ok committed, after)) :
    n.addBlockBody block state = (n.synchronize block commitBlock >>= fun _ => n.report block committed.toOption) after := by
  unfold addBlockBody
  rw [bind_of_ok ran]
  exact bind_of_ok returned _

theorem reported_of_panicked {cause : CommitError} (silent : prepared.published = [])
    (panicked : n.commonCommit.commitOutcome commitBlock = .error cause) :
    n.Reported block state := by
  have commits := n.quiet_commitBlock commitBlock proposal prepared
  have ended := n.commitBlock_fst commitBlock proposal prepared
  rw [panicked] at ended
  refine reported_of_error (commits.1.trans silent) ?_ (CommitError.failure_ne cause) ?_
  · unfold addBlockBody
    rw [bind_of_ok ran]
    exact bind_of_error (Prod.ext ended rfl) _
  · intro _ committed
    rw [commits_iff ran, ended] at committed
    cases committed

theorem reported_of_completed (silent : prepared.published = [])
    (done : n.commonCommit.commitOutcome commitBlock = .ok (.ok ())) : n.Reported block state := by
  have commits := n.quiet_commitBlock commitBlock proposal prepared
  have ended := n.commitBlock_fst commitBlock proposal prepared
  rw [done] at ended
  have completed : n.Commits block state (.ok (blockInfo commitBlock proposal)) :=
    (commits_iff ran).mpr ended
  have noError : ∀ cause, ¬ n.Commits block state (.error cause) := by
    intro cause failed
    rw [commits_iff ran, ended] at failed
    cases failed
  have body := addBlockBody_of_committed ran (Prod.ext ended rfl)
  have syncs := n.quiet_synchronize block commitBlock (n.commitBlock commitBlock proposal prepared).2
  cases synced : n.synchronize block commitBlock (n.commitBlock commitBlock proposal prepared).2 with
  | mk result after =>
    rw [synced] at syncs
    have quietly : after.published = [] := (syncs.1.trans commits.1).trans silent
    cases result with
    | error failure =>
      rw [bind_of_error synced] at body
      refine reported_of_error quietly body ?_ fun cause failed => absurd failed (noError cause)
      exact fun nil => syncs.2 (congrArg _ nil)
    | ok value =>
      replace body : n.addBlockBody block state = n.report block (some (blockInfo commitBlock proposal)) after :=
        body.trans (bind_of_ok synced _)
      obtain ⟨⟨sent, published, free⟩, absent⟩ := n.report_spec block (some (blockInfo commitBlock proposal)) after
      refine ⟨fun _ => ⟨_, completed⟩, fun cause failed => absurd failed (noError cause), ?_, ?_⟩
      · rw [addBlock_published, body, published, quietly]
        simpa using free none
      · intro nil
        have same := nil_of_addBlock nil
        rw [body] at same
        cases absent same

theorem reported_iff_of_failed {cause : CommitError} (silent : prepared.published = [])
    (failed : n.commonCommit.commitOutcome commitBlock = .ok (.error cause)) :
    n.Reported block state ↔ (∃ cause, syncWithTxPool n.poolType n.getBatchIds commitBlock
        (prepared.commit.proposalCache.getProposedBlocksAt block.header.blockHeight) = .error cause) ∧ n.rollBack block = true := by
  have commits := n.quiet_commitBlock commitBlock proposal prepared
  have ended := n.commitBlock_fst commitBlock proposal prepared
  rw [failed] at ended
  have body := addBlockBody_of_committed ran (Prod.ext ended rfl)
  have syncs := n.quiet_synchronize block commitBlock (n.commitBlock commitBlock proposal prepared).2
  have syncEnds := n.synchronize_fst block commitBlock (n.commitBlock commitBlock proposal prepared).2
  rw [commitBlock_proposalCache] at syncEnds
  cases sync : syncWithTxPool n.poolType n.getBatchIds commitBlock
      (prepared.commit.proposalCache.getProposedBlocksAt block.header.blockHeight) with
  | error cause' =>
    rw [sync] at syncEnds
    rw [bind_of_error (Prod.ext syncEnds rfl)] at body
    constructor
    · intro reported
      obtain ⟨⟨error, returned⟩, _⟩ := reported.returned cause ((commits_iff ran).mpr ended)
      rw [addBlock_of_error body, rollBackAfter_returned] at returned
      refine ⟨⟨cause', rfl⟩, ?_⟩
      by_contra stuck
      rw [if_neg stuck] at returned
      cases returned
    · rintro ⟨_, rolled⟩
      refine reported_of_error ((syncs.1.trans commits.1).trans silent) body ?_ ?_
      · exact fun nil => (by cases nil)
      · intro _ _
        rw [rollBackAfter_returned, if_pos rolled]
        exact ⟨_, rfl⟩
  | ok synced =>
    rw [sync] at syncEnds
    replace body : n.addBlockBody block state = n.report block none
        (n.synchronize block commitBlock (n.commitBlock commitBlock proposal prepared).2).2 :=
      body.trans (bind_of_ok (Prod.ext syncEnds rfl) _)
    refine iff_of_false ?_ fun other => (by cases other.1.choose_spec)
    intro reported
    -- the pointer of the failed commit is sent
    obtain ⟨⟨sent, published, _⟩, _⟩ := n.report_spec block none
      (n.synchronize block commitBlock (n.commitBlock commitBlock proposal prepared).2).2
    refine reported.notNil.1 ?_
    rw [addBlock_published, body, published]
    exact List.mem_append_right _ List.mem_cons_self

end Committed

/-- A commit is reported exactly if an error of it comes together with one of the pool
synchronization, and the roll back after that succeeds. -/
theorem addBlock_reported_iff (n : BlockCommitter Result Signers Data Event Governance ε)
    (block : Block (Transaction Result Signers) Data)
    (cache : ProposalCache (Transaction Result Signers) Data Event)
    (pool : TxPool Result Signers) :
    n.Reported block (.start cache pool) ↔ ∀ commitBlock proposal prepared cause,
        n.prepare block (.start cache pool) = (.ok (commitBlock, proposal), prepared) →
        n.commonCommit.commitOutcome commitBlock = .ok (.error cause) →
        (∃ cause, syncWithTxPool n.poolType n.getBatchIds commitBlock
          (prepared.commit.proposalCache.getProposedBlocksAt block.header.blockHeight) =
            .error cause) ∧ n.rollBack block = true := by
  have prepares := n.quiet_prepare block (.start cache pool)
  -- the call fails before the commit, or the commit panics, completes or returns an error
  cases ran : n.prepare block (.start cache pool) with
  | mk result prepared =>
    rw [ran] at prepares
    cases result with
    | error failure =>
      refine iff_of_true ?_ (fun _ _ _ _ other => (by cases other))
      refine reported_of_error prepares.1 (bind_of_error ran _) ?_ ?_
      · intro nil
        exact prepares.2 (congrArg _ nil)
      · rintro cause ⟨commitBlock, proposal, prepared', after, other, _⟩
        cases ran.symm.trans other
    | ok found =>
      obtain ⟨commitBlock, proposal⟩ := found
      cases outcome : n.commonCommit.commitOutcome commitBlock with
      | error cause =>
        refine iff_of_true (reported_of_panicked ran prepares.1 outcome) ?_
        intro _ _ _ _ same failed
        cases same
        cases outcome.symm.trans failed
      | ok committed =>
        cases committed with
        | ok value =>
          refine iff_of_true (reported_of_completed ran prepares.1 outcome) ?_
          intro _ _ _ _ same failed
          cases same
          cases outcome.symm.trans failed
        | error cause =>
          rw [reported_iff_of_failed ran prepares.1 outcome]
          constructor
          · intro recovered _ _ _ _ same _
            cases same
            exact recovered
          · intro recovered
            exact recovered _ _ _ cause rfl outcome

end BlockCommitter

section Sample

def firstCommitter (notifyBlockCommitted monitorEnabled : Bool) :
    BlockCommitter Unit Unit Unit Unit Unit Unit where
  verifier := willingVerifier (·.txs)
  lastCommittedBlock := some { proposalOf 0 [] none with header := ⟨0, [], [], 2300, 0, 0, none⟩ }
  calcBlockHash block := .ok block.header.blockHash
  putBlock _ := true
  hasTxFilter := true
  addsAndSetHeight _ := true
  notifyBlockCommitted _ := notifyBlockCommitted
  notifyChainConf _ := true
  poolType := .normal
  getBatchIds := readBatchIds
  getGovernanceFromBlock _ := .ok none
  rollBack _ := true
  monitorEnabled

def firstCache : ProposalCache (Transaction Unit Unit) Unit Unit :=
  [⟨1, [], ⟨proposalOf 1 [1] none, ∅, none⟩⟩]

/-- The snapshot manager fails: the call returns nil and sends a nil pointer, which the
monitor looks into. -/
theorem addBlock_hides_snapshot_error :
    let block := proposalOf 1 [1] none
    let start := AddBlockState.start firstCache ⟨[], [], [], []⟩
    (firstCommitter false false).Commits block start (.error .snapshot) ∧
      ((firstCommitter false false).addBlock block start).1 = .ok () ∧
      ((firstCommitter false false).addBlock block start).2.published = [.blockInfo none] ∧
      ((firstCommitter false true).addBlock block start).1 = .error (.panic .nilBlockInfo) := by
  exact ⟨⟨_, _, _, _, rfl, rfl⟩, rfl, rfl, rfl⟩

end Sample

end Pdcc.Core
