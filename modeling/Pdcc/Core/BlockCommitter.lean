import Pdcc.Core.BlockVerifier
import Pdcc.Core.BlockRecovery
import Pdcc.Scheduler.Wria

/-!
# The delivery of contract events

When a block is committed, its contract events go to the subscribers and to the modules
that follow the configuration. They come from the proposal cache, where the verifier put
them with the block.
-/

set_option autoImplicit false

namespace Pdcc.Core

open Ledger Library Effectful

variable {Result Signers Data Event : Type}

inductive Handed (Event : Type) where
  | notifyMessage (events : List Event)
  | publishContractEvent (events : List Event)

def Handed.events : Handed Event → List Event
  | .notifyMessage events => events
  | .publishContractEvent events => events

inductive CommitError where
  | panic
  | illegalBlock
  | notVerified (cause : VerifyError)
  | notProposed
  | snapshot
  | chainConf
  | txPool
  deriving DecidableEq, Repr

structure Committer (Result Signers Data Event : Type) where
  verifier : Verifier (Transaction Result Signers) Data Event
  isBlockLegal : Block (Transaction Result Signers) Data → Bool
  putBlock : Block (Transaction Result Signers) Data → Bool
  addsAndSetHeight : Block (Transaction Result Signers) Data → Bool
  notifyBlockCommitted : Block (Transaction Result Signers) Data → Bool
  notifyChainConf : Block (Transaction Result Signers) Data → Bool
  syncWithTxPool : Block (Transaction Result Signers) Data → Bool

structure CommitState (Result Signers Data Event : Type) where
  proposalCache : ProposalCache (Transaction Result Signers) Data Event
  handed : List (Handed Event)

abbrev Committing (Result Signers Data Event α : Type) :=
  Effectful (CommitState Result Signers Data Event) CommitError α

def hand (call : Handed Event) : Committing Result Signers Data Event Unit :=
  update fun state => { state with handed := state.handed ++ [call] }

def handIf (due : Bool) (call : Handed Event) : Committing Result Signers Data Event Unit :=
  if due then hand call else pure ()

def rearrangeContractEvent (block : Block (Transaction Result Signers) Data)
    (conEventMap : Option (AList fun _ : Bytes => List Event)) : List Event :=
  match conEventMap with
  | none => []
  | some events => block.txs.flatMap fun tx => (events.lookup tx.txId).getD []

def orPanic (done : Bool) : Committing Result Signers Data Event Unit :=
  if done then pure () else fail .panic

def orFail (done : Bool) (cause : CommitError) : Except CommitError Unit :=
  if done then .ok () else .error cause

namespace Committer

variable (c : Committer Result Signers Data Event) (block : Block (Transaction Result Signers) Data)

def commitBlock (conEventMap : Option (AList fun _ : Bytes => List Event)) :
    Committing Result Signers Data Event (Except CommitError Unit) := do
  let events := rearrangeContractEvent block conEventMap
  handIf (blockVersion2300 ≤ block.header.blockVersion) (.notifyMessage events)
  orPanic (c.putBlock block)
  orPanic (c.addsAndSetHeight block)
  if !c.notifyBlockCommitted block then return .error .snapshot
  else if block.header.blockVersion < blockVersion2300 ∧ !c.notifyChainConf block then
    return .error .chainConf
  else do
    hand (.publishContractEvent events)
    return .ok ()

def getCommittedBlock (lastProposed block : Block (Transaction Result Signers) Data) :
    Block (Transaction Result Signers) Data where
  header := if c.verifier.conf.ifOpenConsensusMessageTurbo then block.header
    else lastProposed.header
  dag := lastProposed.dag
  txs := lastProposed.txs
  extraData :=
    let kept := match lastProposed.extraData.lookup batchPoolAddtionalDataKey with
      | none => ∅
      | some data => (∅ : AList fun _ : Bytes => Data).insert batchPoolAddtionalDataKey data
    block.extraData.entries.foldl (fun extra entry => extra.insert entry.1 entry.2) kept

def checkLastProposedBlock :
    Committing Result Signers Data Event
      (ProposalData (Transaction Result Signers) Data Event) := do
  let state ← current
  let (verified, after) := c.verifier.verifyBlock block .syncVerify ⟨state.proposalCache, []⟩
  update fun state => { state with proposalCache := after.proposalCache }
  match verified with
  | .error cause => fail (.notVerified cause)
  | .ok () =>
    match after.proposalCache.getProposedBlock c.verifier.calcBlockFingerPrint block.header with
    | none => fail .notProposed
    | some data => return data

def getLastProposed :
    Committing Result Signers Data Event
      (ProposalData (Transaction Result Signers) Data Event) := do
  let state ← current
  match state.proposalCache.getProposedBlock c.verifier.calcBlockFingerPrint block.header with
  | some data => return data
  | none => c.checkLastProposedBlock block

def addBlock :
    Committing Result Signers Data Event Unit := do
  step (orFail (c.isBlockLegal block) .illegalBlock)
  let lastProposed ← c.getLastProposed block
  let commitBlock := c.getCommittedBlock lastProposed.block block
  -- an error of the commit is only logged
  let _ ← c.commitBlock commitBlock lastProposed.contractEventMap
  step (orFail (c.syncWithTxPool commitBlock) .txPool)
  update fun state => { state with
    proposalCache := state.proposalCache.filter (·.height ≠ block.header.blockHeight) }

section Delivery

variable {c} {before : List (Handed Event)}

def HandsNothing (state : CommitState Result Signers Data Event) : Prop :=
  ∀ call ∈ state.handed, call.events = []

theorem ensures_handIf {due : Bool} {call : Handed Event} (empty : call.events = []) :
    Ensures HandsNothing (handIf due call : Committing Result Signers Data Event Unit) (fun _ => HandsNothing) HandsNothing := by
  unfold handIf
  split
  · refine ensures_update ?_
    intro state nothing other member
    rcases List.mem_append.mp member with old | new
    · exact nothing other old
    · rw [List.mem_singleton.mp new, empty]
  · exact ensures_pure fun _ nothing => nothing

theorem ensures_publish : Ensures HandsNothing (hand (.publishContractEvent []) : Committing Result Signers Data Event Unit)
      (fun _ => HandsNothing) HandsNothing := by
  have due : (handIf true (.publishContractEvent []) : Committing Result Signers Data Event Unit) = hand (.publishContractEvent []) := rfl
  exact due ▸ ensures_handIf rfl

theorem ensures_orPanic (done : Bool) : Ensures HandsNothing (orPanic done : Committing Result Signers Data Event Unit)
      (fun _ => HandsNothing) HandsNothing := by
  unfold orPanic
  split
  · exact ensures_pure fun _ nothing => nothing
  · exact ensures_fail fun _ nothing => nothing

theorem ensures_commitBlock (block : Block (Transaction Result Signers) Data) :
    Ensures HandsNothing (c.commitBlock block none) (fun _ => HandsNothing) HandsNothing := by
  unfold commitBlock
  refine ensures_bind (ensures_handIf rfl) fun _ => ?_
  refine ensures_bind (ensures_orPanic _) fun _ => ?_
  refine ensures_bind (ensures_orPanic _) fun _ => ?_
  split
  · exact ensures_pure fun _ nothing => nothing
  · split
    · exact ensures_pure fun _ nothing => nothing
    · exact ensures_bind ensures_publish fun _ => ensures_pure fun _ nothing => nothing

variable {data : ProposalData (Transaction Result Signers) Data Event}
  {block : Block (Transaction Result Signers) Data}

theorem ensures_getLastProposed : Ensures (fun state => HandsNothing state ∧
        state.proposalCache.getProposedBlock c.verifier.calcBlockFingerPrint block.header = some data)
      (c.getLastProposed block) (fun found state => HandsNothing state ∧ found = data)
      HandsNothing := by
  refine ensures_current ?_
  intro now ⟨nothing, cached⟩
  rw [cached]
  exact ensures_pure fun state same => ⟨same ▸ nothing, rfl⟩

theorem ensures_addBlock (eventless : data.contractEventMap = none) : Ensures (fun state => HandsNothing state ∧
        state.proposalCache.getProposedBlock c.verifier.calcBlockFingerPrint block.header = some data)
      (c.addBlock block) (fun _ => HandsNothing) HandsNothing := by
  unfold addBlock
  refine ensures_step (fun _ start => start.1) fun _ _ => ?_
  refine ensures_bind ensures_getLastProposed fun lastProposed => ?_
  intro state ⟨nothing, same⟩
  have rest : Ensures HandsNothing (do
      let _ ← c.commitBlock (c.getCommittedBlock lastProposed.block block) lastProposed.contractEventMap
      step (orFail (c.syncWithTxPool (c.getCommittedBlock lastProposed.block block)) .txPool)
      update fun state => { state with
        proposalCache := state.proposalCache.filter (·.height ≠ block.header.blockHeight) })
      (fun _ => HandsNothing) HandsNothing := by
    rw [same, eventless]
    refine ensures_bind (ensures_commitBlock _) fun _ => ?_
    refine ensures_step (fun _ nothing => nothing) fun _ _ => ?_
    exact ensures_update fun _ nothing => nothing
  exact rest state nothing

end Delivery

end Committer

section Execution

theorem ProposalCache.getProposedBlock_put {Tx : Type} (cache : ProposalCache Tx Data Event)
    (calcBlockFingerPrint : Header → Bytes) (proposal : BlockProposal Tx Data Event) {header : Header}
    (height : header.blockHeight = proposal.height)
    (fingerPrint : calcBlockFingerPrint header = proposal.fingerPrint) :
    (cache.put proposal).getProposedBlock calcBlockFingerPrint header = some proposal.data := by
  unfold getProposedBlock put
  rw [height, fingerPrint, List.find?_append]
  have others : (cache.filter fun entry => ¬ (entry.height = proposal.height ∧ entry.fingerPrint = proposal.fingerPrint)).find? (fun entry =>
        decide (entry.height = proposal.height ∧ entry.fingerPrint = proposal.fingerPrint)) = none := by
    rw [List.find?_eq_none]
    intro entry member
    have different := (List.mem_filter.mp member).2
    rw [decide_eq_true_eq] at different ⊢
    exact different
  rw [others]
  simp

variable {v : Verifier (Transaction Result Signers) Data Event}
  {block : Block (Transaction Result Signers) Data}

structure Verifier.Cached (v : Verifier (Transaction Result Signers) Data Event)
    (block : Block (Transaction Result Signers) Data) (mode : VerifyMode)
    (verified : Block (Transaction Result Signers) Data)
    (state : VerifierState (Transaction Result Signers) Data Event) : Prop where
  executed : ∃ lastBlock newBlock, v.fetchLastBlock block = .ok lastBlock ∧
    v.recoverBlock block mode = .ok newBlock ∧ verified.txs = (v.schedule lastBlock newBlock).1
  cached : ∀ header : Header, header.blockHeight = verified.header.blockHeight →
    v.calcBlockFingerPrint header = v.calcBlockFingerPrint verified.header →
    ∃ data, state.proposalCache.getProposedBlock v.calcBlockFingerPrint header = some data ∧
      data.contractEventMap = none

theorem ensures_setProposedBlock_cached (data : ProposalData (Transaction Result Signers) Data Event) :
    Ensures (fun _ => True) (v.setProposedBlock data) (fun _ state => ∀ header : Header, header.blockHeight = data.block.header.blockHeight →
        v.calcBlockFingerPrint header = v.calcBlockFingerPrint data.block.header →
        state.proposalCache.getProposedBlock v.calcBlockFingerPrint header = some data)
      (fun _ => True) := by
  unfold Verifier.setProposedBlock
  refine ensures_step (fun _ _ => trivial) fun currentHeight _ => ?_
  split
  · exact ensures_fail fun _ _ => trivial
  · refine ensures_update ?_
    intro state _ header height fingerPrint
    exact ProposalCache.getProposedBlock_put _ _ _ height fingerPrint

theorem ensures_executeNewBlock_cached (mode : VerifyMode) : Ensures (fun _ => True) (v.executeNewBlock block mode)
      (fun returned state => ∀ result, returned = some result → v.Cached block mode result.verifiedBlock state)
      (fun _ => True) := by
  unfold Verifier.executeNewBlock
  refine ensures_step (fun _ _ => trivial) fun lastBlock fetched => ?_
  refine ensures_step (fun _ _ => trivial) fun newBlock recovered => ?_
  split
  · exact ensures_bind ensures_true fun _ => ensures_fail fun _ _ => trivial
  · dsimp only
    split
    · exact ensures_fail fun _ _ => trivial
    · refine ensures_step (fun _ _ => trivial) fun finalized _ => ?_
      refine ensures_step (fun _ _ => trivial) fun blockHash _ => ?_
      refine ensures_bind (ensures_setProposedBlock_cached _) fun _ => ensures_pure ?_
      intro state stored result returned
      cases returned
      exact ⟨⟨lastBlock, newBlock, fetched, recovered, rfl⟩, fun header height fingerPrint => ⟨_, stored header height fingerPrint, rfl⟩⟩

theorem cached_of_verifyBlockWithoutDag {mode : VerifyMode} {start state : VerifierState (Transaction Result Signers) Data Event}
    {result : VerifyResult (Transaction Result Signers) Data}
    (executed : v.verifyBlockWithoutDag block mode start = (.ok (some result), state)) :
    v.Cached block mode result.verifiedBlock state := by
  have ensures : Ensures (fun _ => True) (v.verifyBlockWithoutDag block mode) (fun returned state => ∀ result, returned = some result →
        v.Cached block mode result.verifiedBlock state) (fun _ => True) := by
    unfold Verifier.verifyBlockWithoutDag
    split
    · exact ensures_fail fun _ _ => trivial
    · split
      · exact ensures_fail fun _ _ => trivial
      · refine ensures_bind ensures_true fun isRepeat => ?_
        split
        · exact ensures_pure fun _ _ _ returned => (by cases returned)
        · exact ensures_executeNewBlock_cached mode
  exact (ensures start trivial).1 _ _ executed _ rfl

end Execution

section Events

def withResult (entry : Transaction Result Signers × Result) : Transaction Result Signers :=
  { entry.1 with result := some entry.2 }

structure PdccExecution (v : Verifier (Transaction Result Signers) Data Event)
    (block : Block (Transaction Result Signers) Data) (mode : VerifyMode) where
  lastBlock : Block (Transaction Result Signers) Data
  newBlock : Block (Transaction Result Signers) Data
  fetched : v.fetchLastBlock block = .ok lastBlock
  recovered : v.recoverBlock block mode = .ok newBlock
  vm : VirtualMachine (Transaction Result Signers) Result
  ws : Scheduler.Wria.WriaScheduler
  ws' : Scheduler.Wria.WriaScheduler
  snapshot : Snapshot.SnapshotImpl (Transaction Result Signers) Result Empty
  timedOut : Bool
  final : Scheduler.Progress (Transaction Result Signers) Result
  run : Scheduler.Wria.Schedule vm ws newBlock.txs snapshot timedOut final ws'
  scheduled : (v.schedule lastBlock newBlock).1 = final.block.map withResult

def emitted (contractEvent : Result → List Event)
    (block : Block (Transaction Result Signers) Data) : List Event :=
  block.txs.flatMap fun tx => (tx.result.map contractEvent).getD []

theorem emitted_eq_nil_iff {contractEvent : Result → List Event} {block : Block (Transaction Result Signers) Data}
    {entries : List (Transaction Result Signers × Result)}
    (txs : block.txs = entries.map withResult) :
    emitted contractEvent block = [] ↔ ∀ entry ∈ entries, contractEvent entry.2 = [] := by
  unfold emitted
  rw [txs, List.flatMap_map, List.flatMap_eq_nil_iff]
  rfl

/-- The events of a block executed by the PDCC scheduler arrive exactly if there are none. -/
theorem contractEvents_delivered_iff {c : Committer Result Signers Data Event}
    {block : Block (Transaction Result Signers) Data} {mode : VerifyMode}
    (execution : PdccExecution c.verifier block mode)
    {start state : VerifierState (Transaction Result Signers) Data Event}
    {result : VerifyResult (Transaction Result Signers) Data}
    (verified : c.verifier.verifyBlockWithoutDag block mode start = (.ok (some result), state))
    {committed : Block (Transaction Result Signers) Data}
    (height : committed.header.blockHeight = result.verifiedBlock.header.blockHeight)
    (fingerPrint : c.verifier.calcBlockFingerPrint committed.header =
      c.verifier.calcBlockFingerPrint result.verifiedBlock.header)
    {after : CommitState Result Signers Data Event}
    (added : c.addBlock committed ⟨state.proposalCache, []⟩ = (.ok (), after))
    (published : ∃ events, .publishContractEvent events ∈ after.handed)
    (contractEvent : Result → List Event) :
    (∀ call ∈ after.handed, call.events = emitted contractEvent result.verifiedBlock) ↔
      ∀ entry ∈ execution.final.block, contractEvent entry.2 = [] := by
  obtain ⟨⟨lastBlock, newBlock, fetched, recovered, txs⟩, cached⟩ :=
    cached_of_verifyBlockWithoutDag verified
  cases fetched.symm.trans execution.fetched
  cases recovered.symm.trans execution.recovered
  obtain ⟨data, found, eventless⟩ := cached committed.header height fingerPrint
  have nothing : Committer.HandsNothing after :=
    (Committer.ensures_addBlock eventless _ ⟨fun _ member => (by cases member), found⟩).1 _ _ added
  rw [← emitted_eq_nil_iff (txs.trans execution.scheduled)]
  constructor
  · intro delivered
    obtain ⟨events, member⟩ := published
    rw [← delivered _ member, nothing _ member]
  · intro none call member
    rw [nothing call member, none]

end Events

section Sample

open Scheduler Scheduler.Wria Snapshot

variable (events : List Unit)

def eventMachine : VirtualMachine (Transaction (List Unit) Unit) (List Unit) where
  txId := Transaction.txId
  executeTx tx _ := ({ txId := tx.txId, txReads := [], txWrites := [] }, events)
  txId_eq _ _ := rfl
  read_value _ _ read member := by cases member
  reads_determine _ _ _ _ := rfl
  writes_distinct _ _ := List.nodup_nil

def eventTx : Transaction (List Unit) Unit where
  payload :=
    { txId := ascii "t", txType := .invokeContract, contractName := [], method := []
      parameters := [] }
  result := none
  signers := ()

def eventStart : Progress (Transaction (List Unit) Unit) (List Unit) :=
  Progress.start [eventTx] (SnapshotImpl.newSnapshot v235 [] fun _ => .ok [])

def eventFinal : Progress (Transaction (List Unit) Unit) (List Unit) :=
  afterRound (eventMachine events) 10 eventStart eventStart.snapshot

theorem eventFinal_block : (eventFinal events).block = [(eventTx, events)] := rfl

theorem eventLoop : Loop (eventMachine events) 10 eventStart false (eventFinal events) := by
  have nothingWritten : mergedWrites (eventStart.execInfos (eventMachine events) 10) = [] := rfl
  have round : CommitWrites eventStart.snapshot (mergedWrites (eventStart.execInfos (eventMachine events) 10)) eventStart.snapshot := by
    rw [nothingWritten]
    exact .inl ⟨rfl, rfl⟩
  exact .round (List.cons_ne_nil _ _) round (.done rfl)

def eventCommitter : Committer (List Unit) Unit Unit Unit where
  verifier := willingVerifier fun _ => (eventFinal events).block.map withResult
  isBlockLegal _ := true
  putBlock _ := true
  addsAndSetHeight _ := true
  notifyBlockCommitted _ := true
  notifyChainConf _ := true
  syncWithTxPool _ := true

def eventExecution : PdccExecution (eventCommitter events).verifier (singleTxBlock eventTx) .consensusVerify where
  lastBlock := singleTxBlock eventTx
  newBlock := singleTxBlock eventTx
  fetched := rfl
  recovered := rfl
  vm := eventMachine events
  ws := newWriaScheduler 1 (by decide)
  ws' := newWriaScheduler 1 (by decide)
  snapshot := eventStart.snapshot
  timedOut := false
  final := eventFinal events
  run := ⟨eventLoop events, rfl⟩
  scheduled := rfl

def eventBlock : Block (Transaction (List Unit) Unit) Unit :=
  (singleTxBlock eventTx).withTxs [withResult (eventTx, events)]

def eventResult : VerifyResult (Transaction (List Unit) Unit) Unit :=
  { parseVerifyResult (eventBlock events) true ∅ none with msg := [] }

def eventCache : ProposalCache (Transaction (List Unit) Unit) Unit Unit :=
  [⟨1, [], ⟨eventBlock events, ∅, none⟩⟩]

theorem eventBlock_verified : (eventCommitter events).verifier.verifyBlockWithoutDag (singleTxBlock eventTx)
      .consensusVerify ⟨[], []⟩ = (.ok (some (eventResult events)), ⟨eventCache events, []⟩) :=
  rfl

theorem eventBlock_lastProposed : (eventCommitter events).getLastProposed (eventBlock events) ⟨eventCache events, []⟩ =
      (.ok ⟨eventBlock events, ∅, none⟩, ⟨eventCache events, []⟩) :=
  rfl

theorem eventBlock_committed (cache : ProposalCache (Transaction (List Unit) Unit) Unit Unit) :
    (eventCommitter events).commitBlock ((eventCommitter events).getCommittedBlock (eventBlock events) (eventBlock events)) none ⟨cache, []⟩ =
      (.ok (.ok ()), ⟨cache, [.notifyMessage [], .publishContractEvent []]⟩) := by
  have version : ((eventCommitter events).getCommittedBlock (eventBlock events)
      (eventBlock events)).header.blockVersion = blockVersion2300 := rfl
  unfold Committer.commitBlock
  simp only [version, le_refl, decide_true, lt_self_iff_false, false_and, if_false]
  rfl

theorem eventBlock_added : (eventCommitter events).addBlock (eventBlock events) ⟨eventCache events, []⟩ =
      (.ok (), ⟨[], [.notifyMessage [], .publishContractEvent []]⟩) := by
  have legal : (step (orFail ((eventCommitter events).isBlockLegal (eventBlock events))
      .illegalBlock) : Committing (List Unit) Unit Unit Unit Unit) ⟨eventCache events, []⟩ =
      (.ok (), ⟨eventCache events, []⟩) := rfl
  unfold Committer.addBlock
  rw [bind_of_ok legal, bind_of_ok (eventBlock_lastProposed events), bind_of_ok (eventBlock_committed events (eventCache events))]
  rfl

theorem delivered_without_events : Handed.events (.notifyMessage []) = emitted id (eventBlock []) ∧
      Handed.events (.publishContractEvent []) = emitted id (eventBlock []) := by
  have delivered := contractEvents_delivered_iff (eventExecution []) (eventBlock_verified [])
    rfl rfl (eventBlock_added []) ⟨[], List.mem_cons_of_mem _ List.mem_cons_self⟩ id
  have bare : ∀ call ∈ [Handed.notifyMessage [], .publishContractEvent []],
      call.events = emitted id (eventBlock []) := by
    refine delivered.mpr ?_
    intro entry member
    have single : entry = (eventTx, []) := List.mem_singleton.mp (eventFinal_block [] ▸ member)
    rw [single]
    rfl
  exact ⟨bare _ List.mem_cons_self, bare _ (List.mem_cons_of_mem _ List.mem_cons_self)⟩

theorem event_not_delivered :
    (eventCommitter [()]).verifier.verifyBlockWithoutDag (singleTxBlock eventTx) .consensusVerify
        ⟨[], []⟩ = (.ok (some (eventResult [()])), ⟨eventCache [()], []⟩) ∧
      emitted id (eventResult [()]).verifiedBlock = [()] ∧
      (eventCommitter [()]).addBlock (eventResult [()]).verifiedBlock ⟨eventCache [()], []⟩ =
        (.ok (), ⟨[], [.notifyMessage [], .publishContractEvent []]⟩) :=
  ⟨eventBlock_verified [()], rfl, eventBlock_added [()]⟩

end Sample

end Pdcc.Core
