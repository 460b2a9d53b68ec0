import Pdcc.Snapshot.Isolation

/-!
# The snapshot manager

The manager keeps the snapshots of the blocks that are not committed yet under
the fingerprints of their blocks. A new snapshot is linked to the one of the
previous block, and a committed block is cut out of the links.
-/

set_option autoImplicit false

namespace Pdcc.Snapshot

open Ledger Library

section FingerPrint

structure Block where
  chainId : List Char
  blockHeight : Nat
  blockVersion : Nat
  blockTimestamp : Int
  proposer : Bytes
  preBlockHash : Bytes
deriving DecidableEq

def timestampText : Int → List Char
  | .ofNat n => Nat.toDigits 10 n
  | .negSucc n => '-' :: Nat.toDigits 10 (n + 1)

def bytesText (bytes : Bytes) : List Char :=
  '[' :: [' '].intercalate (bytes.map fun byte => Nat.toDigits 10 byte.toNat) ++ [']']

def calcFingerPrintText (chainId : List Char) (height : Nat) (timestamp : Int)
    (proposer preHash txRoot dagHash rwSetRoot : Bytes) : List Char :=
  chainId ++ '-' :: (Nat.toDigits 10 height ++ '-' :: (timestampText timestamp ++ '-' ::
    (bytesText proposer ++ '-' :: (bytesText preHash ++ '-' :: (bytesText txRoot ++ '-' ::
      (bytesText dagHash ++ '-' :: bytesText rwSetRoot))))))

def Block.fingerPrintText (block : Block) : List Char :=
  calcFingerPrintText block.chainId block.blockHeight block.blockTimestamp block.proposer
    block.preBlockHash [] [] []

variable {Digest : Type} (sha256 : List Char → Digest)

def calcBlockFingerPrintWithoutTx (block : Block) : Digest := sha256 block.fingerPrintText

def calcNotConsensusFingerPrint (block : Block) : Digest :=
  calcBlockFingerPrintWithoutTx sha256 { block with blockVersion := 0 }

end FingerPrint

section Manager

variable {Tx Result ε Digest : Type}

structure ManagedSnapshot (Tx Result ε : Type) where
  block : Block
  history : History Tx Result ε
  preSnapshot : Option Nat

structure ManagerImpl (Tx Result ε Digest : Type) where
  heap : List (ManagedSnapshot Tx Result ε)
  snapshots : List (Digest × Nat)
  blockchainStore : StateKey → Except ε Bytes

def linkedTables (heap : List (ManagedSnapshot Tx Result ε)) : Nat → Option Nat → List Layer
  | 0, _ => []
  | _ + 1, none => []
  | fuel + 1, some pointer =>
    match heap[pointer]? with
    | none => []
    | some iter => iter.history.snapshot.toLayer :: linkedTables heap fuel iter.preSnapshot

namespace ManagerImpl

variable (m : ManagerImpl Tx Result ε Digest)

def tablesBelow (preSnapshot : Option Nat) : List Layer :=
  linkedTables m.heap m.heap.length preSnapshot

def current (s : ManagedSnapshot Tx Result ε) : SnapshotImpl Tx Result ε :=
  { s.history.snapshot with
    preSnapshot := m.tablesBelow s.preSnapshot
    blockchainStore := m.blockchainStore }

variable [DecidableEq Digest] (sha256 : List Char → Digest) (snapshots : List (Digest × Nat))

def remove (fingerPrint : Digest) : List (Digest × Nat) :=
  snapshots.filter fun entry => entry.1 ≠ fingerPrint

def lookup (fingerPrint : Digest) : Option Nat :=
  (snapshots.find? fun entry => entry.1 = fingerPrint).map (·.2)

def newSnapshot (prevBlock block : Block) : ManagerImpl Tx Result ε Digest :=
  let snapshots := remove m.snapshots (calcBlockFingerPrintWithoutTx sha256 block) ++
    [(calcBlockFingerPrintWithoutTx sha256 block, m.heap.length)]
  let preSnapshot := lookup snapshots (calcBlockFingerPrintWithoutTx sha256 prevBlock)
  { m with
    heap := m.heap ++ [⟨block, .start (.newSnapshot block.blockVersion
      (m.tablesBelow preSnapshot) m.blockchainStore), preSnapshot⟩]
    snapshots := snapshots }

def isStored (pointer : Nat) : Bool :=
  snapshots.any fun entry => entry.2 = pointer

def follows (fingerPrint : Digest) (s : ManagedSnapshot Tx Result ε) : Bool :=
  match s.preSnapshot.bind (m.heap[·]?) with
  | none => false
  | some previous => calcBlockFingerPrintWithoutTx sha256 previous.block = fingerPrint

def isTooOld (block : Block) (s : ManagedSnapshot Tx Result ε) : Bool :=
  8 < (block.blockHeight : Int) - s.block.blockHeight

def notifyBlockCommitted (block : Block) : ManagerImpl Tx Result ε Digest :=
  let deleteFp := calcBlockFingerPrintWithoutTx sha256 block
  let deleteFpEx := calcNotConsensusFingerPrint sha256 block
  let unlinked := m.heap.mapIdx fun pointer s =>
    if isStored m.snapshots pointer && m.follows sha256 deleteFp s then
      { s with preSnapshot := none }
    else s
  let snapshots := remove (remove m.snapshots deleteFp) deleteFpEx
  { m with
    heap := unlinked.mapIdx fun pointer s =>
      if isStored snapshots pointer && isTooOld block s then { s with preSnapshot := none } else s
    snapshots := snapshots.filter fun entry =>
      (unlinked[entry.2]?.map (isTooOld block)).getD false = false }

end ManagerImpl

end Manager

section Chain

variable {Tx Result ε Digest : Type} [DecidableEq Digest]

structure Chain (Tx Result ε Digest : Type) extends ManagerImpl Tx Result ε Digest where
  lastBlock : Block
  committed : Nat
  notified : Nat

def Chain.start (genesis : Block) (store : StateKey → Except ε Bytes) : Chain Tx Result ε Digest where
  heap := []
  snapshots := []
  blockchainStore := store
  lastBlock := genesis
  committed := 0
  notified := 0

def Chain.create (sha256 : List Char → Digest) (c : Chain Tx Result ε Digest) (block : Block) :
    Chain Tx Result ε Digest :=
  { c with
    toManagerImpl := c.newSnapshot sha256 c.lastBlock block
    lastBlock := block }

variable (c : Chain Tx Result ε Digest)

def Chain.setHistory (index : Nat)
    (s : ManagedSnapshot Tx Result ε) (h : History Tx Result ε) : Chain Tx Result ε Digest :=
  { c with heap := c.heap.set index { s with history := h } }

def Chain.putBlock (s : ManagedSnapshot Tx Result ε) : Chain Tx Result ε Digest :=
  { c with
    blockchainStore := isolatedValue c.blockchainStore s.history.writes
    committed := c.committed + 1 }

def Chain.notify (sha256 : List Char → Digest) (c : Chain Tx Result ε Digest) (block : Block) :
    Chain Tx Result ε Digest :=
  { c with
    toManagerImpl := c.notifyBlockCommitted sha256 block
    notified := c.notified + 1 }

/-- First the store takes the writes of the next block, then the manager is told. -/
inductive Chain.Commit (sha256 : List Char → Digest) :
    Chain Tx Result ε Digest → Chain Tx Result ε Digest → Prop where
  | store {c : Chain Tx Result ε Digest} {s : ManagedSnapshot Tx Result ε} :
      c.committed = c.notified → c.heap[c.committed]? = some s → Commit sha256 c (c.putBlock s)
  | notify {c : Chain Tx Result ε Digest} {s : ManagedSnapshot Tx Result ε} :
      c.notified < c.committed → c.heap[c.notified]? = some s →
      Commit sha256 c (c.notify sha256 s.block)

/-- Snapshots for consecutive blocks are created, the last one is read and filled
until the next is created or its block is committed, and blocks are committed at
any time. -/
inductive Chain.Step (payload : Tx → Payload) (sha256 : List Char → Digest)
    (scope : Set StateKey) : Chain Tx Result ε Digest → Chain Tx Result ε Digest → Prop where
  | create {c : Chain Tx Result ε Digest} {block : Block} :
      block.chainId = c.lastBlock.chainId → block.blockHeight = c.lastBlock.blockHeight + 1 →
      Step payload sha256 scope c (c.create sha256 block)
  | observe {c : Chain Tx Result ε Digest} {last : Nat} {s : ManagedSnapshot Tx Result ε} :
      c.heap.length = last + 1 → c.committed ≤ last → c.heap[last]? = some s →
      Step payload sha256 scope c (c.setHistory last s (s.history.next (c.current s) []))
  | fill {c : Chain Tx Result ε Digest} {last : Nat} {s : ManagedSnapshot Tx Result ε}
      {h : History Tx Result ε} :
      c.heap.length = last + 1 → c.committed ≤ last → c.heap[last]? = some s →
      History.Step payload scope (s.history.next (c.current s) []) h →
      Step payload sha256 scope c (c.setHistory last s h)
  | commit {c c' : Chain Tx Result ε Digest} :
      Commit sha256 c c' → Step payload sha256 scope c c'

def Chain.getKey (n : Nat) (loc : StateKey) : Option (Except ε Bytes) :=
  c.heap[n]?.map fun s => (c.current s).getKey loc

def Chain.blocks : List Block := c.heap.map (·.block)

def Chain.histories : List (History Tx Result ε) :=
  c.heap.map (·.history)

def writesBefore (histories : List (History Tx Result ε)) (n : Nat) : List (StateKey × Bytes) :=
  (histories.take n).flatMap (·.writes)

def chainValue (store : StateKey → Except ε Bytes) (histories : List (History Tx Result ε))
    (n : Nat) (loc : StateKey) : Except ε Bytes :=
  isolatedValue store (writesBefore histories n) loc

end Chain

end Pdcc.Snapshot
