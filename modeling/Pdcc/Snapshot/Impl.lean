import Pdcc.Snapshot.ShardSet
import Pdcc.Library.Interleaving

/-!
# Snapshots

A snapshot collects the effects of the transactions of one block over the
snapshots of earlier, not yet committed blocks and over the store. This module
holds its state, its read path and its apply paths.
-/

set_option autoImplicit false

namespace Pdcc.Snapshot

open Ledger Library

structure Layer where
  readTable : ShardSet
  writeTable : ShardSet

def Layer.cached (layer : Layer) (finalKey : Bytes) : Option Bytes :=
  match layer.writeTable.getByLock finalKey with
  | some sv => some sv.value
  | none => (layer.readTable.getByLock finalKey).map (·.value)

structure SnapshotImpl (Tx Result ε : Type) extends Layer where
  isSealed : Bool
  blockVersion : Nat
  txRWSetTable : List TxRWSet
  txTable : List Tx
  specialTxTable : List Tx
  txResultMap : Overlay Bytes Result
  preSnapshot : List Layer
  blockchainStore : StateKey → Except ε Bytes

def getKeyBelow {ε : Type} (readObject : StateKey → Except ε Bytes) (loc : StateKey) :
    List Layer → Except ε Bytes
  | [] => readObject loc
  | iter :: older =>
    match iter.cached loc.composed with
    | some value => .ok value
    | none =>
      match getKeyBelow readObject loc older with
      | .ok value => .ok value
      | .error _ => getKeyBelow readObject loc older

namespace SnapshotImpl

variable {Tx Result ε : Type}

def newSnapshot (blockVersion : Nat) (preSnapshot : List Layer)
    (blockchainStore : StateKey → Except ε Bytes) : SnapshotImpl Tx Result ε where
  readTable := ShardSet.newShardSet
  writeTable := ShardSet.newShardSet
  isSealed := false
  blockVersion := blockVersion
  txRWSetTable := []
  txTable := []
  specialTxTable := []
  txResultMap := fun _ => none
  preSnapshot := preSnapshot
  blockchainStore := blockchainStore

def getSnapshotSize (s : SnapshotImpl Tx Result ε) : Nat := s.txTable.length

def base (s : SnapshotImpl Tx Result ε) (loc : StateKey) : Except ε Bytes :=
  getKeyBelow s.blockchainStore loc s.preSnapshot

def getKey (s : SnapshotImpl Tx Result ε) (loc : StateKey) : Except ε Bytes :=
  match s.writeTable.getByLock loc.composed with
  | some sv => .ok sv.value
  | none =>
    match s.readTable.getByLock loc.composed with
    | some sv => .ok sv.value
    | none => s.base loc

end SnapshotImpl

section ApplyWrites

def concurrentThreshold : Nat := 50

def numWorkers : Nat := 8

def workerBatches {Write : Type} (batchSize : Nat) : Nat → List Write → List (List Write)
  | 0, _ => []
  | _ + 1, [] => []
  | workers + 1, write :: rest =>
    (write :: rest).take batchSize ::
      workerBatches batchSize workers ((write :: rest).drop batchSize)

variable {Write : Type}

theorem workerBatches_flatten (batchSize workers : Nat) (writes : List Write) (enough : writes.length ≤ workers * batchSize) :
    (workerBatches batchSize workers writes).flatten = writes := by
  induction workers generalizing writes with
  | zero =>
    have empty : writes = [] := List.eq_nil_of_length_eq_zero (by omega)
    simp [workerBatches, empty]
  | succ workers ih =>
    cases writes with
    | nil => rfl
    | cons write rest =>
      rw [workerBatches, List.flatten_cons, ih, List.take_append_drop]
      rw [List.length_drop]
      rw [Nat.add_mul, Nat.one_mul] at enough
      omega

theorem workerBatches_map {Write' : Type} (f : Write → Write') (batchSize workers : Nat) (writes : List Write) :
    workerBatches batchSize workers (writes.map f) = (workerBatches batchSize workers writes).map (·.map f) := by
  induction workers generalizing writes with
  | zero => rfl
  | succ workers ih =>
    cases writes with
    | nil => rfl
    | cons write rest =>
      have later := ih ((write :: rest).drop batchSize)
      rw [List.map_drop] at later
      rw [workerBatches, List.map_cons, List.map_cons, ← later, List.map_take]
      rfl

/-- The orders in which the workers can apply a write set. -/
def WriteOrder (writes order : List Write) : Prop :=
  if writes.length < concurrentThreshold then order = writes
  else Interleaves
    (workerBatches ((writes.length + numWorkers - 1) / numWorkers) numWorkers writes) order

theorem workers_suffice (writes : List Write) : writes.length ≤ numWorkers * ((writes.length + numWorkers - 1) / numWorkers) := by
  simp only [numWorkers]
  omega

theorem WriteOrder.perm {writes order : List Write} (ordered : WriteOrder writes order) : order.Perm writes := by
  unfold WriteOrder at ordered
  split at ordered
  · rw [ordered]
  · have perm := ordered.perm
    rwa [workerBatches_flatten _ _ _ (workers_suffice writes)] at perm

theorem WriteOrder.refl (writes : List Write) : WriteOrder writes writes := by
  unfold WriteOrder
  split
  · rfl
  · have sequential := Interleaves.sequential (workerBatches ((writes.length + numWorkers - 1) / numWorkers) numWorkers writes)
    rwa [workerBatches_flatten _ _ _ (workers_suffice writes)] at sequential

theorem WriteOrder.map {Write' : Type} (f : Write → Write') {writes order : List Write}
    (ordered : WriteOrder writes order) : WriteOrder (writes.map f) (order.map f) := by
  unfold WriteOrder at ordered ⊢
  rw [List.length_map]
  split
  · next small =>
    rw [if_pos small] at ordered
    rw [ordered]
  · next large =>
    rw [if_neg large] at ordered
    rw [workerBatches_map]
    exact ordered.map f

end ApplyWrites

def composedEntry (write : TxWrite) : Bytes × Bytes :=
  (constructKey write.contractName write.key, write.value)

namespace SnapshotImpl

variable {Tx Result ε : Type} (s : SnapshotImpl Tx Result ε)

def putWrites (order : List TxWrite) : SnapshotImpl Tx Result ε :=
  { s with writeTable := s.writeTable.putAll s.txTable.length (order.map composedEntry) }

def ApplyWritesToWriteTable (writes : List TxWrite) (s' : SnapshotImpl Tx Result ε) : Prop :=
  if s.isSealed then s' = s
  else ∃ order, WriteOrder writes order ∧ s' = s.putWrites order

def writeValues : Overlay Bytes Bytes := s.writeTable.values

theorem writeValues_putWrites (order : List TxWrite) :
    (s.putWrites order).writeValues = s.writeValues.puts StateKey.composed (order.map (·.entry)) := by
  rw [writeValues, putWrites, ShardSet.values_putAll, writeValues, Overlay.puts, Overlay.puts, List.foldl_map, List.foldl_map]
  rfl

end SnapshotImpl

/-! ## Snapshots over a store that answers every read -/

def readValue : Except Empty Bytes → Bytes
  | .ok value => value

def emptyStore (_ : StateKey) : Except Empty Bytes := .ok []

namespace SnapshotImpl

variable {Tx Result : Type} (s : SnapshotImpl Tx Result Empty)

def view (loc : StateKey) : Bytes := readValue (s.getKey loc)

def under (loc : StateKey) : Bytes :=
  match s.readTable.getByLock loc.composed with
  | some sv => sv.value
  | none => readValue (s.base loc)

theorem view_eq : s.view = s.writeValues.view StateKey.composed s.under := by
  funext loc
  unfold view getKey Overlay.view writeValues ShardSet.values under
  cases s.writeTable.getByLock loc.composed with
  | some sv => rfl
  | none =>
    cases s.readTable.getByLock loc.composed with
    | some sv => rfl
    | none => rfl

@[simp] theorem putWrites_under (order : List TxWrite) : (s.putWrites order).under = s.under := rfl

@[simp] theorem putWrites_isSealed (order : List TxWrite) :
    (s.putWrites order).isSealed = s.isSealed := rfl

theorem under_newSnapshot (blockVersion : Nat) :
    (newSnapshot blockVersion [] emptyStore : SnapshotImpl Tx Result Empty).under = fun _ => [] := by
  funext loc
  simp [under, newSnapshot, base, getKeyBelow, emptyStore, readValue]

theorem writeValues_newSnapshot {ε : Type} (blockVersion : Nat) (preSnapshot : List Layer) (store : StateKey → Except ε Bytes) :
    (newSnapshot blockVersion preSnapshot store : SnapshotImpl Tx Result ε).writeValues = fun _ => none :=
  ShardSet.values_newShardSet

theorem view_newSnapshot (blockVersion : Nat) :
    (newSnapshot blockVersion [] emptyStore : SnapshotImpl Tx Result Empty).view = fun _ => [] := by
  rw [view_eq, writeValues_newSnapshot, under_newSnapshot]
  rfl

end SnapshotImpl

end Pdcc.Snapshot
