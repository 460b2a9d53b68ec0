import Pdcc.AccessControl.TxPrincipal
import Pdcc.Scheduler.ChargeGas

/-!
# Blocks and the configuration of the core

What the modules that propose, verify and commit a block share: transactions, blocks
as they travel between nodes, and the parts of the chain configuration they read.
-/

set_option autoImplicit false

namespace Pdcc.Core

open Ledger AccessControl

inductive ConsensusType where
  | solo
  | tbft
  | mbft
  | maxbft
  | raft
  | dpos
  | pow
  | unknown (value : Int)
  deriving DecidableEq, Repr

inductive TxPoolType where
  | single
  | normal
  | batch
  deriving DecidableEq, Repr

inductive VerifyMode where
  | consensusVerify
  | syncVerify
  | proposerVerify
  | syncFilterVerify
  deriving DecidableEq, Repr

inductive ProcessType where
  | executeOnPropose
  | executeAfterPropose
  | unknown (value : Int)
  deriving DecidableEq, Repr

structure AccountConfig where
  enableGas : Bool

structure ConsensusTurboConfig where
  consensusMessageTurbo : Bool
  retryTime : UInt64
  retryInterval : UInt64

structure CoreConfig where
  enableOptimizeChargeGas : Bool
  consensusTurboConfig : ConsensusTurboConfig

structure ChainConfig where
  consensusType : ConsensusType
  processType : ProcessType
  enableSqlSupport : Bool
  accountConfig : Option AccountConfig
  core : CoreConfig

namespace ChainConfig

variable (conf : ChainConfig)

def isOptimizeChargeGasEnabled : Bool :=
  match conf.accountConfig with
  | none => false
  | some accountConfig => accountConfig.enableGas && conf.core.enableOptimizeChargeGas

def checkCoinbaseEnable : Bool :=
  conf.isOptimizeChargeGasEnabled || conf.consensusType = .dpos

def ifOpenConsensusMessageTurbo : Bool :=
  conf.core.consensusTurboConfig.consensusMessageTurbo && conf.consensusType ≠ .solo

def canProposeEmptyBlock : Bool :=
  conf.consensusType = .maxbft || conf.consensusType = .pow

end ChainConfig

structure Payload where
  txId : Bytes
  txType : TxType
  contractName : Bytes
  method : Bytes
  parameters : List (Bytes × Bytes)
  deriving DecidableEq, Repr

structure Transaction (Result Signers : Type) where
  payload : Payload
  result : Option Result
  signers : Signers
  deriving DecidableEq, Repr

variable {Result Signers : Type}

def Transaction.txId (tx : Transaction Result Signers) : Bytes := tx.payload.txId

def isGasTx (tx : Transaction Result Signers) : Bool :=
  tx.payload.contractName = accountManager ∧
    tx.payload.method = Scheduler.Gas.chargeGasForMultiAccount ∧
    tx.payload.txType = .invokeContract

def filterCoinBaseTxOrGasTx (txs : List (Transaction Result Signers)) :
    List (Transaction Result Signers) :=
  match txs.getLast? with
  | none => txs
  | some lastTx => if isGasTx lastTx then txs.dropLast else txs

structure Header where
  blockHeight : UInt64
  blockHash : Bytes
  preBlockHash : Bytes
  blockVersion : Nat
  blockType : Nat
  txCount : UInt32
  proposer : Option PbMember

structure Block (Tx Data : Type) where
  header : Header
  dag : List (List Nat)
  txs : List Tx
  extraData : AList fun _ : Bytes => Data

def Block.withTxs {Tx Tx' Data : Type} (block : Block Tx Data) (txs : List Tx') :
    Block Tx' Data :=
  { header := block.header, dag := block.dag, txs := txs, extraData := block.extraData }

end Pdcc.Core
