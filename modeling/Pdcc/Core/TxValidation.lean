import Pdcc.Core.BlockVerifier

/-!
# Validating a transaction of a block

`ValidateTx` looks for a transaction in the pending blocks below its own, compares it
with the one in the pool, or asks the filter and the access control. Where the walk over
the pending blocks ends and whether it runs at all decides what can be spent twice.
-/

set_option autoImplicit false

namespace Pdcc.Core

open Ledger Library

section Model

variable {Result Signers Data Event ε : Type}

def branchDepth : Nat := 3

def findInBranch (cache : ProposalCache (Transaction Result Signers) Data Event) (txId : Bytes) :
    Nat → UInt64 → Bytes → Option UInt64
  | 0, _, _ => none
  | depth + 1, height, hash =>
    if hash = [] then none
    else match cache.getProposedBlockByHashAndHeight hash (height - 1) with
      | none => none
      | some b =>
        if b.txs.any (·.txId = txId) then some b.header.blockHeight
        else findInBranch cache txId depth (height - 1) b.header.preBlockHash

def ifExitInSameBranch (height : UInt64) (txId : Bytes)
    (proposalCache : ProposalCache (Transaction Result Signers) Data Event)
    (preBlockHash : Bytes) : Option UInt64 :=
  findInBranch proposalCache txId branchDepth height preBlockHash

inductive TxError (ε : Type) where
  | duplicateInPending (txId : Bytes) (txInBlockHeight found : UInt64)
  | calcPoolTxBytes (txId : Bytes) (cause : ε)
  | calcReqTxBytes (txId : Bytes) (cause : ε)
  | txHash (txId expect got : Bytes)
  | duplicateInDB (txId : Bytes) (cause : Option ε)
  | acl (txId : Bytes) (cause : ε)
  deriving DecidableEq, Repr

structure TxValidator (Result Signers Data Event ε : Type) where
  txPoolType : TxPoolType
  consensusType : ConsensusType
  mode : VerifyMode
  quickSyncVerifyMode : Bool
  proposalCache : ProposalCache (Transaction Result Signers) Data Event
  isExists : Bytes → Except ε Bool
  verifyTxWithoutPayload : Transaction Result Signers → Except ε Unit
  calcUnsignedTxBytes : Transaction Result Signers → Except ε Bytes

variable (v : TxValidator Result Signers Data Event ε)

def TxValidator.isTxRequestValid (tx txInPool : Transaction Result Signers) :
    Except (TxError ε) Unit :=
  match v.calcUnsignedTxBytes txInPool with
  | .error cause => .error (.calcPoolTxBytes tx.txId cause)
  | .ok poolTxRawBytes =>
    match v.calcUnsignedTxBytes tx with
    | .error cause => .error (.calcReqTxBytes tx.txId cause)
    | .ok txRawBytes =>
      if txRawBytes ≠ poolTxRawBytes then .error (.txHash tx.txId poolTxRawBytes txRawBytes)
      else .ok ()

def TxValidator.checkBranch (header : Header) (tx : Transaction Result Signers) :
    Except (TxError ε) Unit :=
  match ifExitInSameBranch header.blockHeight tx.txId v.proposalCache header.preBlockHash with
  | none => .ok ()
  | some found =>
    if v.consensusType = .maxbft then
      .error (.duplicateInPending tx.txId header.blockHeight found)
    else .ok ()

def TxValidator.checkNew (tx : Transaction Result Signers) : Except (TxError ε) Unit :=
  match (if v.quickSyncVerifyMode then .ok false else v.isExists tx.txId) with
  | .error cause => .error (.duplicateInDB tx.txId (some cause))
  | .ok true => .error (.duplicateInDB tx.txId none)
  | .ok false => (v.verifyTxWithoutPayload tx).mapError (.acl tx.txId)

def TxValidator.validateTx (txsRet : Bytes → Option (Transaction Result Signers))
    (header : Header) (tx : Transaction Result Signers) : Except (TxError ε) Unit :=
  if v.txPoolType = .batch then v.checkBranch header tx
  else match txsRet tx.txId with
    | none => v.checkNew tx
    | some txInPool => do
      v.checkBranch header tx
      if v.mode = .consensusVerify then v.isTxRequestValid tx txInPool else v.checkNew tx

end Model

section Branch

variable {Result Signers Data Event ε : Type}

/-- The pending ancestors of a block, the nearest first, as the cache finds them. -/
inductive PendingChain (cache : ProposalCache (Transaction Result Signers) Data Event) :
    UInt64 → Bytes → List (Block (Transaction Result Signers) Data) → Prop where
  | nil {height hash} : PendingChain cache height hash []
  | cons {height hash b rest} : height ≠ 0 → hash ≠ [] →
      cache.getProposedBlockByHashAndHeight hash (height - 1) = some b →
      PendingChain cache (height - 1) b.header.preBlockHash rest →
      PendingChain cache height hash (b :: rest)

def Block.HasTx (b : Block (Transaction Result Signers) Data) (txId : Bytes) : Prop :=
  ∃ tx ∈ b.txs, tx.txId = txId

variable {cache : ProposalCache (Transaction Result Signers) Data Event} {height : UInt64}
  {hash txId : Bytes} {blocks : List (Block (Transaction Result Signers) Data)}

variable {v : TxValidator Result Signers Data Event ε} {header : Header}
  {tx : Transaction Result Signers} {txsRet : Bytes → Option (Transaction Result Signers)}

end Branch

section PendingBlocks

variable {Result Signers Data Event : Type}

def pendingHash (height : UInt64) : Bytes := List.replicate (height.toNat + 1) 0

def pendingBlock (Data : Type) (tx : Transaction Result Signers) (oldest height : UInt64) :
    Block (Transaction Result Signers) Data where
  header := ⟨height, pendingHash height, pendingHash (height - 1), 2030500, 0, 0, none⟩
  dag := []
  txs := if height = oldest then [tx] else []
  extraData := ∅

variable {tx : Transaction Result Signers} {oldest : UInt64} {count : Nat}

variable {n : Nat}

variable {ε : Type}

end PendingBlocks

section Theorem

variable {Result Signers : Type}

end Theorem

end Pdcc.Core
