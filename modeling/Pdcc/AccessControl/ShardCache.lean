import Mathlib.Data.List.AList
import Pdcc.Snapshot.ShardSet

/-!
# The sharded member cache

A cache of bounded size: the shard of a key is emptied when an entry is put into
it while it holds more entries than its capacity. Whatever is evicted, a lookup
never returns a value that was not put under its key.
-/

set_option autoImplicit false

namespace Pdcc.AccessControl

open Ledger Snapshot

structure Shard (V : Type) where
  cap : Nat
  m : AList fun _ : Bytes => V

structure ShardCache (V : Type) where
  shards : Vector (Shard V) shardCount

namespace Shard

variable {V : Type}

def size (shard : Shard V) : Nat := shard.m.entries.length

def get (shard : Shard V) (k : Bytes) : Option V := shard.m.lookup k

def put (shard : Shard V) (k : Bytes) (v : V) : Shard V :=
  { shard with m := (if shard.cap < shard.size then ∅ else shard.m).insert k v }

def clear (shard : Shard V) : Shard V := { shard with m := ∅ }

def remove (shard : Shard V) (k : Bytes) : Shard V := { shard with m := shard.m.erase k }

theorem get_put_self (shard : Shard V) (k : Bytes) (v : V) : (shard.put k v).get k = some v :=
  AList.lookup_insert _

theorem get_put_of_room {shard : Shard V} (room : shard.size ≤ shard.cap) {k other : Bytes}
    (different : other ≠ k) (v : V) : (shard.put k v).get other = shard.get other := by
  simp only [get, put, if_neg (Nat.not_lt.mpr room)]
  exact AList.lookup_insert_ne different

theorem get_of_get_put {shard : Shard V} {k other : Bytes} {v found : V} (different : other ≠ k)
    (present : (shard.put k v).get other = some found) : shard.get other = some found := by
  simp only [get, put] at present ⊢
  rw [AList.lookup_insert_ne different] at present
  split at present
  · rw [AList.lookup_empty] at present
    cases present
  · exact present

theorem size_put_le (shard : Shard V) (k : Bytes) (v : V) : (shard.put k v).size ≤ shard.size + 1 := by
  have insertion (m : AList fun _ : Bytes => V) : (m.insert k v).entries.length ≤ m.entries.length + 1 := by
    rw [AList.entries_insert, List.length_cons]
    exact Nat.succ_le_succ (List.Sublist.length_le (List.kerase_sublist k _))
  refine (insertion _).trans (Nat.succ_le_succ ?_)
  by_cases full : shard.cap < shard.size
  · rw [if_pos full, AList.empty_entries]
    exact Nat.zero_le _
  · rw [if_neg full]
    exact Nat.le_refl _

end Shard

namespace ShardCache

variable {V : Type}

def newShardCache (totalCap : Nat) : ShardCache V :=
  let capPerShard := if totalCap / shardCount < 64 then 64 else totalCap / shardCount
  ⟨Vector.replicate shardCount ⟨capPerShard, ∅⟩⟩

def shard (cache : ShardCache V) (k : Bytes) : Shard V :=
  have inside := shardNum_lt k
  cache.shards[shardNum k shardCount]

def get (cache : ShardCache V) (k : Bytes) : Option V := (cache.shard k).get k

def add (cache : ShardCache V) (k : Bytes) (v : V) : ShardCache V :=
  ⟨cache.shards.set (shardNum k shardCount) ((cache.shard k).put k v) (shardNum_lt k)⟩

def clearShard (cache : ShardCache V) (index : Fin shardCount) : ShardCache V :=
  ⟨cache.shards.set index cache.shards[index].clear⟩

def clear (cache : ShardCache V) : ShardCache V := (List.finRange shardCount).foldl clearShard cache

def remove (cache : ShardCache V) (k : Bytes) : ShardCache V := ⟨cache.shards.map (·.remove k)⟩

theorem get_remove (cache : ShardCache V) (k other : Bytes) : (cache.remove k).get other = if other = k then none else cache.get other := by
  simp only [get, shard, remove, Vector.getElem_map, Shard.get, Shard.remove]
  split
  · next same =>
    rw [same]
    exact AList.lookup_erase k _
  · next different => exact AList.lookup_erase_ne different

def Room (cache : ShardCache V) (count : Nat) : Prop :=
  ∀ k, (cache.shard k).size + count ≤ (cache.shard k).cap + 1

theorem shard_add (cache : ShardCache V) (k : Bytes) (v : V) (other : Bytes) : (cache.add k v).shard other =
      if shardNum k shardCount = shardNum other shardCount then (cache.shard k).put k v
      else cache.shard other := by
  simp only [shard, add, Vector.getElem_set]

@[simp] theorem get_newShardCache (totalCap : Nat) (k : Bytes) : (newShardCache totalCap : ShardCache V).get k = none := by
  simp [newShardCache, get, shard, Shard.get]

theorem get_add_self (cache : ShardCache V) (k : Bytes) (v : V) : (cache.add k v).get k = some v := by
  rw [get, shard_add, if_pos rfl]
  exact Shard.get_put_self _ k v

variable {k other : Bytes} {v : V} {cache : ShardCache V}

theorem get_of_get_add {found : V} (different : other ≠ k) (present : (cache.add k v).get other = some found) :
    cache.get other = some found := by
  rw [get, shard_add] at present
  split at present
  · next same =>
    have located : cache.shard k = cache.shard other := by simp only [shard, same]
    rw [located] at present
    exact Shard.get_of_get_put different present
  · exact present

theorem get_add_cases {found : V} (present : (cache.add k v).get other = some found) :
    other = k ∧ found = v ∨ other ≠ k ∧ cache.get other = some found := by
  by_cases same : other = k
  · subst same
    rw [get_add_self] at present
    exact .inl ⟨rfl, (Option.some.inj present).symm⟩
  · exact .inr ⟨same, get_of_get_add same present⟩

theorem get_add_of_room {count : Nat} (room : cache.Room (count + 1)) (different : other ≠ k) (v : V) :
    (cache.add k v).get other = cache.get other := by
  rw [get, shard_add]
  split
  · next same =>
    have located : cache.shard k = cache.shard other := by simp only [shard, same]
    have bound := room other
    rw [located, Shard.get_put_of_room (by omega) different]
    rfl
  · rfl

theorem Room.newShardCache (count : Nat) : (ShardCache.newShardCache (shardCount * count) : ShardCache V).Room count := by
  intro k
  have cap : shardCount * count / shardCount = count := Nat.mul_div_cancel_left count (by decide)
  simp only [ShardCache.newShardCache, cap, shard, Vector.getElem_replicate, Shard.size, AList.empty_entries, List.length_nil]
  split <;> omega

theorem Room.add {count : Nat} (room : cache.Room (count + 1)) (k : Bytes) (v : V) : (cache.add k v).Room count := by
  intro other
  rw [shard_add]
  split
  · have bound := room k
    have grown := (cache.shard k).size_put_le k v
    have sameCap : ((cache.shard k).put k v).cap = (cache.shard k).cap := rfl
    omega
  · have bound := room other
    omega

/-- Every cached value is one that its key may have. -/
def Holds (cache : ShardCache V) (Entry : Bytes → V → Prop) : Prop :=
  ∀ k v, cache.get k = some v → Entry k v

theorem Holds.newShardCache (Entry : Bytes → V → Prop) (totalCap : Nat) : (ShardCache.newShardCache totalCap).Holds Entry := by
  intro k v present
  rw [get_newShardCache] at present
  cases present

variable {Entry : Bytes → V → Prop}

theorem Holds.add (holds : cache.Holds Entry)
    (fresh : Entry k v) : (cache.add k v).Holds Entry := by
  intro other found present
  rcases get_add_cases present with ⟨rfl, rfl⟩ | ⟨_, before⟩
  · exact fresh
  · exact holds other found before

theorem Holds.remove (holds : cache.Holds Entry) (k : Bytes) :
    (cache.remove k).Holds Entry := by
  intro other found present
  rw [get_remove] at present
  split at present
  · cases present
  · exact holds other found present

theorem Holds.clearShard (holds : cache.Holds Entry) (index : Fin shardCount) : (cache.clearShard index).Holds Entry := by
  intro k v present
  simp only [get, shard, ShardCache.clearShard, Vector.getElem_set] at present
  split at present
  · rw [Shard.get, Shard.clear, AList.lookup_empty] at present
    cases present
  · exact holds k v present

theorem Holds.clear (holds : cache.Holds Entry) : cache.clear.Holds Entry := by
  unfold ShardCache.clear
  generalize List.finRange shardCount = indices
  induction indices generalizing cache with
  | nil => exact holds
  | cons index rest ih => exact ih (holds.clearShard index)

structure Warm (cache : ShardCache V) (Entry : Bytes → V → Prop) (keys : List Bytes)
    (budget : Nat) : Prop where
  holds : cache.Holds Entry
  room : cache.Room budget
  present : ∀ k ∈ keys, ∃ v, cache.get k = some v

variable {Entry : Bytes → V → Prop} {keys : List Bytes} {budget : Nat} {cache : ShardCache V}

theorem Warm.add (warm : cache.Warm Entry keys (budget + 1)) (fresh : Entry k v) : (cache.add k v).Warm Entry keys budget := by
  refine ⟨warm.holds.add fresh, warm.room.add _ _, ?_⟩
  intro other member
  by_cases same : other = k
  · exact ⟨v, same ▸ get_add_self _ _ _⟩
  · rw [get_add_of_room warm.room same]
    exact warm.present other member

theorem Warm.less (warm : cache.Warm Entry keys (budget + 1)) : cache.Warm Entry keys budget := by
  refine ⟨warm.holds, ?_, warm.present⟩
  intro k
  have bound := warm.room k
  omega

theorem exists_warm (entries : ∀ k ∈ keys, ∃ v, Entry k v) (budget : Nat) : ∃ cache : ShardCache V, cache.Warm Entry keys budget := by
  induction keys generalizing budget with
  | nil =>
    exact ⟨_, Holds.newShardCache _ _, Room.newShardCache budget, fun _ inside => absurd inside List.not_mem_nil⟩
  | cons k rest ih =>
    obtain ⟨cache, warm⟩ :=
      ih (fun other inside => entries other (List.mem_cons_of_mem _ inside)) (budget + 1)
    obtain ⟨v, fresh⟩ := entries k List.mem_cons_self
    have added : (cache.add k v).Warm Entry rest budget := warm.add fresh
    refine ⟨_, added.holds, added.room, ?_⟩
    intro other inside
    rcases List.mem_cons.mp inside with rfl | later
    · exact ⟨v, get_add_self _ _ _⟩
    · exact added.present other later

section Runs

inductive Op (V : Type) where
  | add (k : Bytes) (v : V)
  | remove (k : Bytes)
  | clearShard (index : Fin shardCount)

def step (cache : ShardCache V) : Op V → ShardCache V
  | .add k v => cache.add k v
  | .remove k => cache.remove k
  | .clearShard index => cache.clearShard index

/-- The same calls on a map without a bound. -/
def mapStep (m : Bytes → Option V) : Op V → Bytes → Option V
  | .add k v => Function.update m k (some v)
  | .remove k => Function.update m k none
  | .clearShard index => fun k => if index = shardNum k shardCount then none else m k

/-- A lookup misses or agrees with the map, and the shards stay bounded. -/
def Refines (cache : ShardCache V) (m : Bytes → Option V) : Prop :=
  ∀ k, (cache.get k = none ∨ cache.get k = m k) ∧ (cache.shard k).size ≤ (cache.shard k).cap + 1

theorem Refines.step {m : Bytes → Option V} (refines : cache.Refines m) (op : Op V) : (cache.step op).Refines (mapStep m op) := by
  intro other
  obtain ⟨known, bound⟩ := refines other
  cases op with
  | add k v =>
    refine ⟨?_, ?_⟩
    · cases found : (cache.add k v).get other with
      | none => exact .inl found
      | some value =>
        refine .inr (found.trans ?_)
        rcases get_add_cases found with ⟨rfl, rfl⟩ | ⟨different, before⟩
        · simp [mapStep]
        · simpa [before, mapStep, different] using known
    · rw [ShardCache.step, shard_add]
      split
      · by_cases full : (cache.shard k).cap < (cache.shard k).size
        · simp only [Shard.put, if_pos full]
          simp [Shard.size]
        · exact ((cache.shard k).size_put_le k v).trans (by simpa [Shard.put] using full)
      · exact bound
  | remove k =>
    refine ⟨?_, ?_⟩
    · simp only [ShardCache.step, get_remove, mapStep, Function.update_apply]
      split
      · exact .inl rfl
      · exact known
    · simp only [ShardCache.step, remove, shard, Vector.getElem_map]
      exact Nat.le_trans (List.kerase_sublist k _).length_le bound
  | clearShard index =>
    simp only [ShardCache.step, clearShard, mapStep, get, shard, Vector.getElem_set]
    split
    · exact ⟨.inl rfl, Nat.zero_le _⟩
    · exact ⟨known, bound⟩

theorem run_refines_map (totalCap : Nat) (ops : List (Op V)) :
    (ops.foldl step (newShardCache totalCap)).Refines (ops.foldl mapStep fun _ => none) := by
  have start : (newShardCache totalCap : ShardCache V).Refines fun _ => none :=
    fun k => ⟨.inl (get_newShardCache totalCap k), by simp [newShardCache, shard, Shard.size]⟩
  generalize newShardCache totalCap = cache, (fun _ => none : Bytes → Option V) = m at start ⊢
  induction ops generalizing cache m with
  | nil => exact start
  | cons op ops ih => exact ih _ _ (start.step op)

end Runs

end ShardCache

end Pdcc.AccessControl
