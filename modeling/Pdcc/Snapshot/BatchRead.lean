import Pdcc.Snapshot.Impl

/-!
# Reading a batch of keys

`GetKeys` splits a batch at every snapshot into the keys of its write table, the
keys of its read table and the rest, and hands the rest to the earlier snapshots
and at last to the store. The store is asked once, under the contract of the
first key that is left.
-/

set_option autoImplicit false

namespace Pdcc.Snapshot

open Ledger Library

section Model

def contractStoreSeparator : Bytes := ascii "#"

def getKeyStr (key field : Bytes) : Bytes :=
  if field = [] then key else key ++ contractStoreSeparator ++ field

structure BatchKey where
  key : Bytes
  field : Bytes
  value : Bytes
  contractName : Bytes
  deriving DecidableEq

def BatchKey.location (key : BatchKey) : StateKey := ⟨key.contractName, getKeyStr key.key key.field⟩

variable {ε : Type} (readObject : StateKey → Except ε Bytes)

def readObjects (contractName : Bytes) (keys : List Bytes) : Except ε (List Bytes) :=
  keys.mapM fun key => readObject ⟨contractName, key⟩

def contractOf (keys : List BatchKey) : Bytes := (keys.head?.map (·.contractName)).getD []

def getObjects (keys : List BatchKey) : Except ε (List BatchKey) :=
  (readObjects readObject (contractOf keys) (keys.map fun key => getKeyStr key.key key.field)).map
    fun values => List.zipWith (fun key value => { key with value := value }) keys values

def getBatchFromTable (table : ShardSet) (keys : List BatchKey) :
    List BatchKey × List BatchKey × Bool :=
  let hits := keys.filterMap fun key =>
    (table.getByLock key.location.composed).map fun sv => { key with value := sv.value }
  let misses := keys.filter fun key => (table.getByLock key.location.composed).isNone
  (hits, misses, misses.isEmpty)

def Layer.getBatchFromWriteSet (layer : Layer) (keys : List BatchKey) :
    List BatchKey × List BatchKey × Bool :=
  getBatchFromTable layer.writeTable keys

def Layer.getBatchFromReadSet (layer : Layer) (keys : List BatchKey) :
    List BatchKey × List BatchKey × Bool :=
  getBatchFromTable layer.readTable keys

def Layer.getKeys (layer : Layer) (below : List BatchKey → Except ε (List BatchKey))
    (keys : List BatchKey) : Except ε (List BatchKey) :=
  let (writeSetValues, emptyWriteSetKeys, done) := layer.getBatchFromWriteSet keys
  if done then .ok writeSetValues
  else
    let (readSetValues, emptyReadSetKeys, done) := layer.getBatchFromReadSet emptyWriteSetKeys
    if done then .ok (readSetValues ++ writeSetValues)
    else (below emptyReadSetKeys).map fun value => value ++ (readSetValues ++ writeSetValues)

def getKeysBelow : List Layer → List BatchKey → Except ε (List BatchKey)
  | [], keys => getObjects readObject keys
  | iter :: older, keys =>
    match iter.getKeys (getKeysBelow older) keys with
    | .ok value => .ok value
    | .error _ => getKeysBelow older keys

def SnapshotImpl.getKeys {Tx Result : Type} (s : SnapshotImpl Tx Result ε) (keys : List BatchKey) :
    Except ε (List BatchKey) :=
  s.toLayer.getKeys (getKeysBelow s.blockchainStore s.preSnapshot) keys

end Model

section Lookup

variable {ε : Type}

def layered (read : BatchKey → Except ε Bytes) : List Layer → BatchKey → Except ε Bytes
  | [], key => read key
  | layer :: older, key =>
    match layer.cached key.location.composed with
    | some value => .ok value
    | none => layered read older key

def uncached (layers : List Layer) (keys : List BatchKey) : List BatchKey :=
  keys.filter fun key => layers.all fun layer => (layer.cached key.location.composed).isNone

def BatchKey.filled (read : BatchKey → Except ε Bytes) (key : BatchKey) : BatchKey :=
  { key with value := (read key).toOption.getD [] }

theorem getKeyBelow_eq_layered (readObject : StateKey → Except ε Bytes) (layers : List Layer) (key : BatchKey) :
    getKeyBelow readObject key.location layers = layered (fun key => readObject key.location) layers key := by
  induction layers with
  | nil => rfl
  | cons iter older ih =>
    simp only [getKeyBelow, layered, ih]
    cases iter.cached key.location.composed with
    | some value => rfl
    | none =>
      cases layered (fun key => readObject key.location) older key with
      | ok value => rfl
      | error error => rfl

theorem SnapshotImpl.getKey_eq_layered {Tx Result : Type} (s : SnapshotImpl Tx Result ε) (key : BatchKey) : s.getKey key.location =
      layered (fun key => s.blockchainStore key.location) (s.toLayer :: s.preSnapshot) key := by
  simp only [SnapshotImpl.getKey, layered, SnapshotImpl.base, getKeyBelow_eq_layered, Layer.cached]
  cases s.writeTable.getByLock key.location.composed with
  | some sv => rfl
  | none =>
    cases s.readTable.getByLock key.location.composed with
    | some sv => rfl
    | none => rfl

theorem uncached_cons (layer : Layer) (older : List Layer) (keys : List BatchKey) : uncached (layer :: older) keys = uncached older
      (keys.filter fun key => (layer.cached key.location.composed).isNone) := by
  simp only [uncached, List.filter_filter, List.all_cons]
  refine List.filter_congr ?_
  intro key _
  exact Bool.and_comm _ _

variable {read : BatchKey → Except ε Bytes}

theorem layered_uncached {layers : List Layer} {key : BatchKey}
    (missing : layers.all fun layer => (layer.cached key.location.composed).isNone) :
    layered read layers key = read key := by
  induction layers with
  | nil => rfl
  | cons layer older ih =>
    rw [List.all_cons, Bool.and_eq_true] at missing
    rw [layered, Option.isNone_iff_eq_none.mp missing.1]
    exact ih missing.2

theorem layered_ok (total : ∀ key, ∃ value, read key = .ok value) (layers : List Layer)
    (key : BatchKey) : ∃ value, layered read layers key = .ok value := by
  induction layers with
  | nil => exact total key
  | cons layer older ih =>
    simp only [layered]
    cases layer.cached key.location.composed with
    | some value => exact ⟨value, rfl⟩
    | none => exact ih

theorem layered_congr {read' : BatchKey → Except ε Bytes} {layers : List Layer}
    {keys : List BatchKey} (agree : ∀ key ∈ uncached layers keys, read key = read' key)
    {key : BatchKey} (member : key ∈ keys) :
    layered read layers key = layered read' layers key := by
  induction layers generalizing keys with
  | nil => exact agree key (List.mem_filter.mpr ⟨member, rfl⟩)
  | cons layer older ih =>
    simp only [layered]
    cases cached : layer.cached key.location.composed with
    | some value => rfl
    | none =>
      rw [uncached_cons] at agree
      exact ih agree (List.mem_filter.mpr ⟨member, by simp [cached]⟩)

end Lookup

section Split

variable {ε : Type}

private theorem mapM_readObject {readObject : StateKey → Except ε Bytes} {contractName : Bytes} {keys : List BatchKey}
    (answers : ∀ key ∈ keys, ∃ value, readObject ⟨contractName, getKeyStr key.key key.field⟩ = .ok value) :
    ∃ values, readObjects readObject contractName (keys.map fun key => getKeyStr key.key key.field) = .ok values ∧
      List.zipWith (fun key value => { key with value := value }) keys values = keys.map (BatchKey.filled fun key =>
          readObject ⟨contractName, getKeyStr key.key key.field⟩) := by
  induction keys with
  | nil => exact ⟨[], rfl, rfl⟩
  | cons key keys ih =>
    obtain ⟨value, answered⟩ := answers key (.head _)
    obtain ⟨values, later, filled⟩ := ih fun other member => answers other (.tail _ member)
    refine ⟨value :: values, ?_, ?_⟩
    · simp only [readObjects] at later
      simp [readObjects, List.mapM_cons, answered, later, bind, Except.bind, pure, Except.pure]
    · rw [List.zipWith_cons_cons, filled, List.map_cons, BatchKey.filled, answered]
      rfl

private theorem getBatchFromTable_perm (table : ShardSet) (keys : List BatchKey) (fill : BatchKey → BatchKey)
    (fills : ∀ key ∈ keys, ∀ sv, table.getByLock key.location.composed = some sv → fill key = { key with value := sv.value }) :
    ((getBatchFromTable table keys).2.1.map fill ++ (getBatchFromTable table keys).1).Perm (keys.map fill) := by
  simp only [getBatchFromTable]
  induction keys with
  | nil => exact List.Perm.refl _
  | cons key keys ih =>
    have later := ih fun other member => fills other (.tail _ member)
    cases found : table.getByLock key.location.composed with
    | none =>
      rw [List.filterMap_cons_none (by simp [found]), List.filter_cons_of_pos (by simp [found])]
      exact later.cons _
    | some sv =>
      rw [List.filterMap_cons_some (by simp [found]; rfl),
        List.filter_cons_of_neg (by simp [found]), List.map_cons, fills key (.head _) sv found]
      exact List.perm_middle.trans (later.cons _)

def Layer.misses (layer : Layer) (keys : List BatchKey) : List BatchKey :=
  keys.filter fun key => (layer.cached key.location.composed).isNone

def Layer.hits (layer : Layer) (keys : List BatchKey) : List BatchKey :=
  (layer.getBatchFromReadSet (layer.getBatchFromWriteSet keys).2.1).1 ++
    (layer.getBatchFromWriteSet keys).1

theorem Layer.misses_eq (layer : Layer) (keys : List BatchKey) :
    (layer.getBatchFromReadSet (layer.getBatchFromWriteSet keys).2.1).2.1 = layer.misses keys := by
  simp only [getBatchFromReadSet, getBatchFromWriteSet, getBatchFromTable, List.filter_filter]
  refine List.filter_congr ?_
  intro key _
  unfold Layer.cached
  cases layer.writeTable.getByLock key.location.composed with
  | some sv => simp
  | none => simp

theorem Layer.hits_perm (layer : Layer) (older : List Layer) (read : BatchKey → Except ε Bytes) (keys : List BatchKey) :
    ((layer.misses keys).map (BatchKey.filled (layered read (layer :: older))) ++
      layer.hits keys).Perm (keys.map (BatchKey.filled (layered read (layer :: older)))) := by
  have writes := getBatchFromTable_perm layer.writeTable keys (BatchKey.filled (layered read (layer :: older))) ?_
  · have reads := getBatchFromTable_perm layer.readTable (layer.getBatchFromWriteSet keys).2.1
      (BatchKey.filled (layered read (layer :: older))) ?_
    · rw [← layer.misses_eq, Layer.hits, ← List.append_assoc]
      exact (reads.append_right _).trans writes
    · intro key member sv found
      have missed := Option.isNone_iff_eq_none.mp (List.mem_filter.mp member).2
      simp [BatchKey.filled, layered, Layer.cached, found, missed, Except.toOption]
  · intro key _ sv found
    simp [BatchKey.filled, layered, Layer.cached, found, Except.toOption]

private theorem getBatchFromTable_done (table : ShardSet) (keys : List BatchKey) :
    (getBatchFromTable table keys).2.2 = true ↔ (getBatchFromTable table keys).2.1 = [] :=
  List.isEmpty_iff

theorem Layer.getKeys_eq (layer : Layer) (below : List BatchKey → Except ε (List BatchKey)) (keys : List BatchKey) :
    layer.getKeys below keys = if layer.misses keys = [] then .ok (layer.hits keys)
      else (below (layer.misses keys)).map fun value => value ++ layer.hits keys := by
  rw [← layer.misses_eq]
  simp only [Layer.getKeys, Layer.hits, getBatchFromReadSet, getBatchFromWriteSet, getBatchFromTable_done]
  split
  next noWrites =>
      have nothing : getBatchFromTable layer.readTable [] = ([], [], true) := rfl
      simp only [noWrites, nothing, if_true, List.nil_append]
  next => rfl

theorem Layer.getKeys_perm (layer : Layer) (older : List Layer)
    {below : List BatchKey → Except ε (List BatchKey)} {read : BatchKey → Except ε Bytes}
    {keys : List BatchKey}
    (passes : ∃ value, below (layer.misses keys) = .ok value ∧ value.Perm ((layer.misses keys).map (BatchKey.filled (layered read older)))) :
    ∃ value, layer.getKeys below keys = .ok value ∧ value.Perm (keys.map (BatchKey.filled (layered read (layer :: older)))) := by
  have all := layer.hits_perm older read keys
  have passedOn : (layer.misses keys).map (BatchKey.filled (layered read (layer :: older))) =
      (layer.misses keys).map (BatchKey.filled (layered read older)) := by
    refine List.map_congr_left ?_
    intro key member
    have missed := Option.isNone_iff_eq_none.mp (List.mem_filter.mp member).2
    simp only [BatchKey.filled, layered, missed]
  rw [passedOn] at all
  rw [layer.getKeys_eq]
  by_cases none : layer.misses keys = []
  · rw [if_pos none]
    rw [none] at all
    exact ⟨_, rfl, all⟩
  · obtain ⟨value, answered, perm⟩ := passes
    rw [if_neg none, answered]
    exact ⟨_, rfl, (perm.append_right _).trans all⟩

end Split

section Chain

variable {ε : Type} {readObject : StateKey → Except ε Bytes}

theorem getKeysBelow_perm (layers : List Layer) (keys : List BatchKey) (answers : ∀ key ∈ uncached layers keys, ∃ value, readObject
      ⟨contractOf (uncached layers keys), getKeyStr key.key key.field⟩ = .ok value) :
    ∃ value, getKeysBelow readObject layers keys = .ok value ∧ value.Perm (keys.map (BatchKey.filled (layered (fun key => readObject
        ⟨contractOf (uncached layers keys), getKeyStr key.key key.field⟩) layers))) := by
  induction layers generalizing keys with
  | nil =>
    have all : uncached [] keys = keys := List.filter_true keys
    rw [all] at answers ⊢
    obtain ⟨values, answered, filled⟩ := mapM_readObject answers
    refine ⟨_, ?_, List.Perm.of_eq filled⟩
    rw [getKeysBelow, getObjects, answered]
    rfl
  | cons iter older ih =>
    rw [uncached_cons] at answers ⊢
    obtain ⟨value, answered, perm⟩ := iter.getKeys_perm older (ih (iter.misses keys) answers)
    refine ⟨value, ?_, perm⟩
    rw [getKeysBelow, answered]

variable {Tx Result : Type}

theorem SnapshotImpl.getKeys_perm (s : SnapshotImpl Tx Result ε) {keys left : List BatchKey}
    (rest : uncached (s.toLayer :: s.preSnapshot) keys = left)
    (answers : ∀ key ∈ left, ∃ value, s.blockchainStore ⟨contractOf left, getKeyStr key.key key.field⟩ = .ok value) :
    ∃ value, s.getKeys keys = .ok value ∧ value.Perm (keys.map (BatchKey.filled (layered (fun key => s.blockchainStore
        ⟨contractOf left, getKeyStr key.key key.field⟩) (s.toLayer :: s.preSnapshot)))) := by
  subst rest
  rw [uncached_cons] at answers ⊢
  exact s.toLayer.getKeys_perm s.preSnapshot (getKeysBelow_perm s.preSnapshot (s.toLayer.misses keys) answers)

end Chain

section Agreement

variable {Tx Result ε : Type} (s : SnapshotImpl Tx Result ε)

/-- The batch read returns each key once, with the value of its single read. -/
def SnapshotImpl.BatchAgrees (keys : List BatchKey) : Prop :=
  (∀ key ∈ keys, ∃ value, s.getKey key.location = .ok value) →
    ∃ result, s.getKeys keys = .ok result ∧
      result.Perm (keys.map (BatchKey.filled fun key => s.getKey key.location))

variable {keys : List BatchKey} {key : BatchKey} {read read' : BatchKey → Except ε Bytes}

theorem contractOf_eq (same : ∀ other ∈ keys, other.contractName = key.contractName) (member : key ∈ keys) :
    contractOf keys = key.contractName := by
  cases keys with
  | nil => cases member
  | cons first others => exact same first (.head _)

theorem BatchKey.filled_congr (agree : ∀ key ∈ keys, read key = read' key) :
    keys.map (BatchKey.filled read) = keys.map (BatchKey.filled read') := by
  refine List.map_congr_left ?_
  intro key member
  rw [BatchKey.filled, BatchKey.filled, agree key member]

theorem SnapshotImpl.batchAgrees_of_sameContract (same : ∀ key ∈ uncached (s.toLayer :: s.preSnapshot) keys,
      ∀ other ∈ uncached (s.toLayer :: s.preSnapshot) keys, other.contractName = key.contractName) :
    s.BatchAgrees keys := by
  intro singles
  have own : ∀ key ∈ uncached (s.toLayer :: s.preSnapshot) keys, s.blockchainStore ⟨contractOf (uncached (s.toLayer :: s.preSnapshot) keys),
        getKeyStr key.key key.field⟩ = s.blockchainStore key.location := by
    intro key member
    rw [contractOf_eq (same key member) member]
    rfl
  obtain ⟨result, answered, perm⟩ := s.getKeys_perm rfl (fun key member => by
    obtain ⟨value, read⟩ := singles key (List.mem_of_mem_filter member)
    rw [s.getKey_eq_layered, layered_uncached (List.mem_filter.mp member).2] at read
    exact ⟨value, (own key member).trans read⟩)
  refine ⟨result, answered, perm.trans (.of_eq (BatchKey.filled_congr ?_))⟩
  intro key member
  rw [s.getKey_eq_layered]
  exact layered_congr own member

def SnapshotImpl.withStore (store : StateKey → Except ε Bytes) : SnapshotImpl Tx Result ε :=
  { s with blockchainStore := store }

def singleEntry (loc : StateKey) (entry : StateKey) : Except ε Bytes :=
  .ok (if entry = loc then [1] else [])

theorem BatchKey.filled_perm {layers : List Layer} (perm : (keys.map (BatchKey.filled (layered read layers))).Perm
      (keys.map (BatchKey.filled (layered read' layers)))) (member : key ∈ uncached layers keys) :
    ∃ other, other.location = key.location ∧ (read' other).toOption.getD [] = (read key).toOption.getD [] := by
  obtain ⟨inBatch, missing⟩ := List.mem_filter.mp member
  obtain ⟨other, _, equal⟩ := List.mem_map.mp (perm.subset (List.mem_map_of_mem inBatch))
  have location := congrArg BatchKey.location equal
  have value := congrArg BatchKey.value equal
  change other.location = key.location at location
  change (layered read' layers other).toOption.getD [] = (layered read layers key).toOption.getD [] at value
  rw [layered_uncached (location ▸ missing), layered_uncached missing] at value
  exact ⟨other, location, value⟩

theorem SnapshotImpl.not_batchAgrees (member : key ∈ uncached (s.toLayer :: s.preSnapshot) keys)
    (foreign : key.contractName ≠ contractOf (uncached (s.toLayer :: s.preSnapshot) keys)) :
    ¬ (s.withStore (singleEntry key.location)).BatchAgrees keys := by
  intro agrees
  have single := (s.withStore (singleEntry key.location)).getKey_eq_layered
  obtain ⟨result, answered, perm⟩ := agrees (fun other _ => by
    rw [single]
    exact layered_ok (fun other => ⟨_, rfl⟩) _ other)
  obtain ⟨batched, answered', perm'⟩ :=
    (s.withStore (singleEntry key.location)).getKeys_perm rfl (fun _ _ => ⟨_, rfl⟩)
  have same : result = batched := Except.ok.inj (answered.symm.trans answered')
  subst same
  simp only [single] at perm
  obtain ⟨other, _, value⟩ := BatchKey.filled_perm (perm.symm.trans perm') member
  have wrong : (⟨contractOf (uncached (s.toLayer :: s.preSnapshot) keys), getKeyStr other.key other.field⟩ : StateKey) ≠ key.location := by
    intro equal
    exact foreign (congrArg StateKey.contractName equal).symm
  simp [SnapshotImpl.withStore, singleEntry, wrong, Except.toOption] at value

/-- Over every store the batch read agrees with the single reads, exactly if the
keys that no snapshot of the chain has belong to one contract. -/
theorem SnapshotImpl.getKeys_agrees_iff (keys : List BatchKey) :
    (∀ store, (s.withStore store).BatchAgrees keys) ↔ ∀ key ∈ uncached (s.toLayer :: s.preSnapshot) keys,
        ∀ other ∈ uncached (s.toLayer :: s.preSnapshot) keys, other.contractName = key.contractName := by
  refine ⟨?_, fun same store => (s.withStore store).batchAgrees_of_sameContract same⟩
  intro agrees
  have first : ∀ key ∈ uncached (s.toLayer :: s.preSnapshot) keys,
      key.contractName = contractOf (uncached (s.toLayer :: s.preSnapshot) keys) := by
    intro key member
    exact Classical.byContradiction fun foreign => s.not_batchAgrees member foreign (agrees _)
  intro key member other otherMember
  rw [first key member, first other otherMember]

section TwoContracts

def twoContracts : List BatchKey :=
  [⟨ascii "k", [], [], ascii "a"⟩, ⟨ascii "k", [], [], ascii "b"⟩]

def storedInB : SnapshotImpl Unit Unit Empty :=
  SnapshotImpl.newSnapshot 0 [] (singleEntry ⟨ascii "b", ascii "k"⟩)

/-- The value of contract `b` is looked up in contract `a`. -/
theorem SnapshotImpl.getKeys_twoContracts : storedInB.getKey ⟨ascii "a", ascii "k"⟩ = .ok [] ∧
      storedInB.getKey ⟨ascii "b", ascii "k"⟩ = .ok [1] ∧
      storedInB.getKeys twoContracts = .ok twoContracts ∧ ¬ storedInB.BatchAgrees twoContracts := by
  have left : ⟨ascii "k", [], [], ascii "b"⟩ ∈
      uncached (storedInB.toLayer :: storedInB.preSnapshot) twoContracts := by decide
  exact ⟨rfl, rfl, rfl, storedInB.not_batchAgrees left (by decide)⟩

end TwoContracts

end Agreement

end Pdcc.Snapshot
