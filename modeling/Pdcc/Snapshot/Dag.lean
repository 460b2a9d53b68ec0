import Pdcc.Snapshot.Impl
import Pdcc.Library.PrunedReach

/-!
# The dependency graph of a block

`BuildDAG` numbers the transactions of a block and gives each one its direct
predecessors. It works on dictionaries of the transactions that read or write
some key bytes, whatever the contract, and on the position of each transaction
in them.
-/

set_option autoImplicit false

namespace Pdcc.Snapshot

open Ledger Library

abbrev Dag := List (List Nat)

structure KeyPositions where
  readKeyDict : Bytes → List Nat
  writeKeyDict : Bytes → List Nat
  readPos : Nat → Bytes → Option Nat
  writePos : Nat → Bytes → Option Nat

namespace KeyPositions

def empty : KeyPositions where
  readKeyDict := fun _ => []
  writeKeyDict := fun _ => []
  readPos := fun _ _ => none
  writePos := fun _ _ => none

def setPos (pos : Nat → Bytes → Option Nat) (i : Nat) (key : Bytes) (value : Nat) :
    Nat → Bytes → Option Nat :=
  Function.update pos i (Function.update (pos i) key (some value))

def noteRead (i : Nat) (dict : KeyPositions) (keyForI : TxRead) : KeyPositions where
  readKeyDict := Function.update dict.readKeyDict keyForI.key
    (dict.readKeyDict keyForI.key ++ [i])
  writeKeyDict := dict.writeKeyDict
  readPos := setPos dict.readPos i keyForI.key (dict.readKeyDict keyForI.key).length
  writePos := setPos dict.writePos i keyForI.key (dict.writeKeyDict keyForI.key).length

def noteWrite (i : Nat) (dict : KeyPositions) (keyForI : TxWrite) : KeyPositions where
  readKeyDict := dict.readKeyDict
  writeKeyDict := Function.update dict.writeKeyDict keyForI.key
    (dict.writeKeyDict keyForI.key ++ [i])
  readPos :=
    if (dict.readPos i keyForI.key).isSome then dict.readPos
    else setPos dict.readPos i keyForI.key (dict.readKeyDict keyForI.key).length
  writePos := setPos dict.writePos i keyForI.key (dict.writeKeyDict keyForI.key).length

def noteTx (dict : KeyPositions) (entry : TxRWSet × Nat) : KeyPositions :=
  entry.1.txWrites.foldl (noteWrite entry.2) (entry.1.txReads.foldl (noteRead entry.2) dict)

end KeyPositions

def buildDictAndPos (txRWSetTable : List TxRWSet) : KeyPositions :=
  txRWSetTable.zipIdx.foldl KeyPositions.noteTx .empty

section BuildReachMap

variable (i : Nat) (dict : KeyPositions) (reachMap : List Bitmap)

def reachAt (j : Nat) : Bitmap := reachMap.getD j .empty

def checkWriter (state : Bitmap × Bitmap) (key : Bytes) : Bitmap × Bitmap :=
  match (dict.writePos i key).getD 0 with
  | 0 => state
  | j + 1 =>
    match (dict.writeKeyDict key)[j]? with
    | none => state
    | some writer => PrunedReach.link (reachAt reachMap) state writer

def checkReaders (state : Bitmap × Bitmap) (key : Bytes) : Bitmap × Bitmap :=
  ((dict.readKeyDict key).take ((dict.readPos i key).getD 0)).reverse.foldl
    (PrunedReach.link (reachAt reachMap)) state

def buildReachMap (txRWSet : TxRWSet) : Bitmap × Bitmap :=
  let afterReads := txRWSet.txReads.foldl
    (fun state keyForI => checkWriter i dict reachMap state keyForI.key)
    (Bitmap.empty, Bitmap.empty.set i)
  txRWSet.txWrites.foldl
    (fun state keyForI => checkWriter i dict reachMap
      (checkReaders i dict reachMap state keyForI.key) keyForI.key) afterReads

end BuildReachMap

def addVertex (dict : KeyPositions) (built : Dag × List Bitmap) (entry : TxRWSet × Nat) :
    Dag × List Bitmap :=
  let reach := buildReachMap entry.2 dict built.2 entry.1
  (built.1 ++ [reach.1.pos1], built.2 ++ [reach.2])

def buildDAG (isSql : Bool) (txRWSets : List TxRWSet) : Dag :=
  if isSql then
    (List.range txRWSets.length).map fun i => if i = 0 then [] else [i - 1]
  else (txRWSets.zipIdx.foldl (addVertex (buildDictAndPos txRWSets)) ([], [])).1

def SnapshotImpl.buildDAG {Tx Result ε : Type} (s : SnapshotImpl Tx Result ε) (isSql : Bool)
    (txRWSetTable : Option (List TxRWSet)) : Dag :=
  Snapshot.buildDAG isSql (txRWSetTable.getD s.txRWSetTable)

def Dag.Edge (dag : Dag) (j i : Nat) : Prop := ∃ neighbors, dag[j]? = some neighbors ∧ i ∈ neighbors

def Dag.Reaches (dag : Dag) : Nat → Nat → Prop := Relation.TransGen dag.Edge

end Pdcc.Snapshot
