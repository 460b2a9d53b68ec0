import Pdcc.Ledger.ReadWriteSet

/-!
# Sharded tables

The read and write tables of a snapshot are split into shards by a hash of the
key. Seen from outside, a sharded table is a finite map: a lookup returns what
was put last under exactly that key.
-/

set_option autoImplicit false

namespace Pdcc.Snapshot

open Ledger Library

structure Sv where
  seq : Nat
  value : Bytes
  deriving DecidableEq, Repr

def prime32 : UInt32 := 16777619

def shardCount : Nat := 64

def fnv32 (key : Bytes) : UInt32 :=
  key.foldl (fun hash byte => (hash * prime32) ^^^ byte.toUInt32) 2166136261

def shardNum (key : Bytes) (shardedNum : Nat) : Nat :=
  (fnv32 key % UInt32.ofNat shardedNum).toNat

theorem shardNum_lt (key : Bytes) : shardNum key shardCount < shardCount := by
  have positive : 0 < (UInt32.ofNat shardCount).toNat := by decide
  have bound := Nat.mod_lt (fnv32 key).toNat positive
  rwa [← UInt32.toNat_mod] at bound

abbrev Shard := Overlay Bytes Sv

structure ShardSet where
  shards : Vector Shard shardCount

namespace ShardSet

def newShardSet : ShardSet := ⟨Vector.replicate shardCount fun _ => none⟩

def shard (table : ShardSet) (key : Bytes) : Shard :=
  have inside := shardNum_lt key
  table.shards[shardNum key shardCount]

def getByLock (table : ShardSet) (key : Bytes) : Option Sv := table.shard key key

def putByLock (table : ShardSet) (key : Bytes) (sv : Sv) : ShardSet :=
  ⟨table.shards.set (shardNum key shardCount) ((table.shard key).put key sv) (shardNum_lt key)⟩

@[simp] theorem getByLock_newShardSet (key : Bytes) : newShardSet.getByLock key = none := by
  simp [newShardSet, getByLock, shard]

theorem getByLock_putByLock (table : ShardSet) (key : Bytes) (sv : Sv) (other : Bytes) :
    (table.putByLock key sv).getByLock other = if key = other then some sv else table.getByLock other := by
  unfold getByLock putByLock
  by_cases same : key = other
  · subst same
    simp [shard, Overlay.put]
  · have different : other ≠ key := fun equal => same equal.symm
    rw [if_neg same]
    by_cases sameShard : shardNum key shardCount = shardNum other shardCount
    · simp [shard, sameShard, Overlay.put, Function.update_of_ne different]
    · simp [shard, Vector.getElem_set_ne _ _ sameShard]

def values (table : ShardSet) : Overlay Bytes Bytes :=
  fun key => (table.getByLock key).map (·.value)

@[simp] theorem values_newShardSet : newShardSet.values = fun _ => none := by
  funext key
  simp [values]

theorem values_putByLock (table : ShardSet) (key : Bytes) (sv : Sv) : (table.putByLock key sv).values = table.values.put key sv.value := by
  funext other
  simp only [values, getByLock_putByLock, Overlay.put, Function.update_apply]
  by_cases same : key = other
  · simp [same]
  · simp [same, Ne.symm same]

def putAll (table : ShardSet) (seq : Nat) (entries : List (Bytes × Bytes)) : ShardSet :=
  entries.foldl (fun table entry => table.putByLock entry.1 ⟨seq, entry.2⟩) table

@[simp] theorem putAll_nil (table : ShardSet) (seq : Nat) : table.putAll seq [] = table := rfl

@[simp] theorem putAll_cons (table : ShardSet) (seq : Nat) (entry : Bytes × Bytes) (rest : List (Bytes × Bytes)) :
    table.putAll seq (entry :: rest) = (table.putByLock entry.1 ⟨seq, entry.2⟩).putAll seq rest :=
  rfl

theorem values_putAll (table : ShardSet) (seq : Nat) (entries : List (Bytes × Bytes)) :
    (table.putAll seq entries).values = table.values.puts id entries := by
  induction entries generalizing table with
  | nil => rfl
  | cons entry rest ih =>
    rw [putAll_cons, ih, values_putByLock]
    rfl

theorem getByLock_putAll (table : ShardSet) (seq : Nat) (entries : List (Bytes × Bytes)) (key : Bytes) :
    (table.putAll seq entries).getByLock key = ((lastWrite id entries key).map (Sv.mk seq)).or (table.getByLock key) := by
  induction entries generalizing table with
  | nil => simp
  | cons entry rest ih =>
    rw [putAll_cons, ih, getByLock_putByLock, lastWrite]
    by_cases same : entry.1 = key
    · cases lastWrite id rest key with
      | none => simp [same]
      | some value => simp
    · simp [same]

end ShardSet

end Pdcc.Snapshot
