import Pdcc.Ledger.ReadWriteSet
import Pdcc.Library.Fallible

/-!
# Transaction filters over a bird's nest

A transaction filter says whether a transaction is on the chain already. An id that
carries the time of its creation is looked up in a nest of cuckoo filters, which may
answer yes for an id it was never given. Ids without a time, and ids older than
the nest, are looked up in the block store.
-/

set_option autoImplicit false

namespace Pdcc.TxFilter

open Ledger Library

section TimestampKey

def fromHexChar (c : UInt8) : Option UInt8 :=
  if 48 ≤ c ∧ c ≤ 57 then some (c - 48)
  else if 97 ≤ c ∧ c ≤ 102 then some (c - 97 + 10)
  else if 65 ≤ c ∧ c ≤ 70 then some (c - 65 + 10)
  else none

def decodeString : Bytes → Option Bytes
  | [] => some []
  | [_] => none
  | high :: low :: rest =>
    match fromHexChar high, fromHexChar low, decodeString rest with
    | some high, some low, some rest => some ((high * 16 + low) :: rest)
    | _, _, _ => none

def separator : UInt8 := 202

def bytes2nano (b : Bytes) : Int :=
  (BitVec.ofNat 64 (b.foldl (fun nano byte => nano * 256 + byte.toNat) 0)).toInt

def toTimestampKey (txId : Bytes) : Option Bytes :=
  match decodeString txId with
  | none => none
  | some b =>
    match b[8]? with
    | none => none
    | some mark => if mark = separator ∧ 0 ≤ bytes2nano (b.take 8) then some b else none

def timestampKeys (txIds : List Bytes) : List Bytes := txIds.filterMap toTimestampKey

end TimestampKey

section Nest

inductive NestError where
  | keyTimeIsNotInTheFilterRange
  | other (text : String)
  deriving DecidableEq, Repr

inductive RuleType where
  | absoluteExpireTime
  deriving DecidableEq, Repr

structure NestState where
  height : Nat
  added : List Bytes

structure Nest where
  contains : NestState → Bytes → List RuleType → Except NestError Bool
  addsFails : NestState → List Bytes → Option String
  contains_added : ∀ state key ruleType, key ∈ state.added → contains state key ruleType ≠ .ok false

def Nest.addsAndSetHeight (nest : Nest) (bn : NestState) (keys : List Bytes) (height : Nat) :
    Except String NestState :=
  match nest.addsFails bn keys with
  | some error => .error error
  | none => .ok ⟨height, bn.added ++ keys⟩

end Nest

section Store

inductive StoreCall where
  | getLastBlock
  | getBlock (height : Nat)
  | txExists (txId : Bytes)

structure Block where
  height : Nat
  txIds : List Bytes

structure Store where
  genesis : List Bytes
  later : List (List Bytes)
  fails : StoreCall → Option String

namespace Store

variable (store : Store)

def chain : List (List Bytes) := store.genesis :: store.later

def answer {α : Type} (call : StoreCall) (value : α) : Except String α :=
  match store.fails call with
  | some error => .error error
  | none => .ok value

def block (height : Nat) : Block := ⟨height, store.chain.getD height []⟩

def getLastBlock : Except String Block :=
  store.answer .getLastBlock (store.block store.later.length)

def getBlock (height : Nat) : Except String Block :=
  store.answer (.getBlock height) (store.block height)

def txExists (txId : Bytes) : Except String Bool :=
  store.answer (.txExists txId) (store.chain.any (·.contains txId))

def putBlock (txIds : List Bytes) : Store := { store with later := store.later ++ [txIds] }

end Store

end Store

inductive Kind where
  | birdsnest
  | shardingBirdsnest
  deriving DecidableEq, Repr

structure NestFilter where
  bn : NestState
  hasStore : Bool

namespace NestFilter

variable (nest : Nest) (store : Store) (filter : NestFilter)

def addsAndSetHeight (txIds : List Bytes) (height : Nat) : Except String NestFilter :=
  if (timestampKeys txIds).length ≤ 0 then
    .ok { filter with bn := { filter.bn with height := height } }
  else do
    let bn ← nest.addsAndSetHeight filter.bn (timestampKeys txIds) height
    return { filter with bn := bn }

def readBlock (lastBlock : Block) (height : Nat) : Except String Block :=
  if height ≠ lastBlock.height then store.getBlock height else .ok lastBlock

def chaseBlock (lastBlock : Block) (filter : NestFilter) (height : Nat) :
    Except String NestFilter := do
  let block ← readBlock store lastBlock height
  filter.addsAndSetHeight nest block.txIds block.height

def chaseBlockHeight : Except String NestFilter := do
  let lastBlock ← store.getLastBlock
  let heights := List.range' (filter.bn.height + 1) (lastBlock.height - filter.bn.height)
  heights.foldlM (chaseBlock nest store lastBlock) filter

def new (kind : Kind) (opened : Except String NestState) : Except String NestFilter := do
  let bn ← opened
  match kind with
  | .birdsnest => chaseBlockHeight nest store ⟨bn, false⟩
  | .shardingBirdsnest => chaseBlockHeight nest store ⟨bn, true⟩

def findDb (txId : Bytes) (note : String) : Except (Failure String) Bool :=
  if filter.hasStore then
    match store.txExists txId with
    | .error error => .error (.error (error ++ note))
    | .ok found => .ok found
  else .error (.panic .nilDereference)

def birdsnestIsExists (txId : Bytes) (ruleType : List RuleType) : Except (Failure String) Bool :=
  match toTimestampKey txId with
  | none => filter.findDb store txId ", txid type: normal"
  | some key =>
    match nest.contains filter.bn key ruleType with
    | .error .keyTimeIsNotInTheFilterRange =>
      filter.findDb store txId ", key time is not in the filter range"
    -- any other error is dropped, with the answer no that comes with it
    | .error (.other _) => .ok false
    -- under a yes the source asks for the range error again, which was handled above
    | .ok contains => .ok contains

def shardingIsExists (txId : Bytes) (ruleType : List RuleType) : Except (Failure String) Bool :=
  match toTimestampKey txId with
  | none => filter.findDb store txId ", txid type: normal"
  | some key =>
    match nest.contains filter.bn key ruleType with
    | .error .keyTimeIsNotInTheFilterRange =>
      filter.findDb store txId ", key time is not in the filter range"
    | .error (.other text) => .error (.error text)
    | .ok true => filter.findDb store txId ", false positive"
    | .ok false => .ok false

def isExists (kind : Kind) (txId : Bytes) (ruleType : List RuleType) :
    Except (Failure String) Bool :=
  match kind with
  | .birdsnest => filter.birdsnestIsExists nest store txId ruleType
  | .shardingBirdsnest => filter.shardingIsExists nest store txId ruleType

end NestFilter

structure Node where
  store : Store
  filter : NestFilter

def Node.commit (nest : Nest) (node : Node) (txIds : List Bytes) : Except String Node := do
  let filter ← node.filter.addsAndSetHeight nest txIds (node.store.later.length + 1)
  return ⟨node.store.putBlock txIds, filter⟩

def run (kind : Kind) (nest : Nest) (store : Store) (opened : Except String NestState)
    (further : List (List Bytes)) : Except String Node := do
  let filter ← NestFilter.new nest store kind opened
  further.foldlM (Node.commit nest) ⟨store, filter⟩

section Added

variable {nest : Nest} {store : Store}

def NestFilter.Follows (before after : NestFilter) (blocks : List (List Bytes)) : Prop :=
  after.hasStore = before.hasStore ∧
    after.bn.added = before.bn.added ++ blocks.flatMap timestampKeys

namespace NestFilter

theorem Follows.refl (filter : NestFilter) : filter.Follows filter [] := by
  simp [Follows]

theorem Follows.trans {first second third : NestFilter} {blocks more : List (List Bytes)}
    (before : first.Follows second blocks) (after : second.Follows third more) :
    first.Follows third (blocks ++ more) := by
  refine ⟨after.1.trans before.1, ?_⟩
  rw [after.2, before.2, List.flatMap_append, List.append_assoc]

variable {filter filter' : NestFilter}

theorem follows_of_addsAndSetHeight {txIds : List Bytes} {height : Nat} (added : filter.addsAndSetHeight nest txIds height = .ok filter') :
    filter.Follows filter' [txIds] := by
  unfold addsAndSetHeight at added
  unfold Follows
  rw [List.flatMap_singleton]
  split at added
  · next none =>
    cases added
    rw [List.length_eq_zero_iff.mp (Nat.le_zero.mp none), List.append_nil]
    exact ⟨rfl, rfl⟩
  · obtain ⟨bn, stored, same⟩ := bind_eq_ok.mp added
    cases same
    unfold Nest.addsAndSetHeight at stored
    split at stored
    · cases stored
    · cases stored
      exact ⟨rfl, rfl⟩

theorem answer_eq_ok {α : Type} {call : StoreCall} {value result : α} (answered : store.answer call value = .ok result) : result = value := by
  unfold Store.answer at answered
  split at answered
  · cases answered
  · cases answered
    rfl

theorem follows_of_chaseBlock {height : Nat} (chased : chaseBlock nest store (store.block store.later.length) filter height = .ok filter') :
    filter.Follows filter' [store.chain.getD height []] := by
  obtain ⟨block, read, added⟩ := bind_eq_ok.mp chased
  have same : block = store.block height := by
    unfold readBlock at read
    split at read
    · exact answer_eq_ok read
    · next last =>
      cases read
      rw [show height = store.later.length from not_not.mp last]
  rw [same] at added
  exact follows_of_addsAndSetHeight added

theorem blocks_chased (store : Store) (height : Nat) :
    (List.range' (height + 1) (store.later.length - height)).map (store.chain.getD · []) = store.later.drop height := by
  apply List.ext_getElem
  · simp
  · intro index inLoop inChain
    have bound : height + index < store.later.length := by
      rw [List.length_drop] at inChain
      omega
    have above : height + 1 + index = height + index + 1 := by omega
    simp [Store.chain, above, bound]

theorem follows_of_chaseBlockHeight (chased : filter.chaseBlockHeight nest store = .ok filter') :
    filter.Follows filter' (store.later.drop filter.bn.height) := by
  obtain ⟨lastBlock, read, looped⟩ := bind_eq_ok.mp chased
  have last : lastBlock = store.block store.later.length := answer_eq_ok read
  rw [last] at looped
  rw [← blocks_chased]
  have step (heights : List Nat) (height : Nat) (state state' : NestFilter)
      (sofar : filter.Follows state (heights.map (store.chain.getD · [])))
      (stepped : chaseBlock nest store (store.block store.later.length) state height = .ok state') :
      filter.Follows state' ((heights ++ [height]).map (store.chain.getD · [])) := by
    rw [List.map_append]
    exact sofar.trans (follows_of_chaseBlock stepped)
  exact foldlM_invariant step (Follows.refl filter) looped

theorem new_eq_ok {kind : Kind} {bn : NestState} (built : new nest store kind (.ok bn) = .ok filter) :
    (NestFilter.mk bn (kind = .shardingBirdsnest)).Follows filter (store.later.drop bn.height) := by
  cases kind with
  | birdsnest => exact follows_of_chaseBlockHeight built
  | shardingBirdsnest => exact follows_of_chaseBlockHeight built

end NestFilter

theorem follows_of_commit {node node' : Node} {txIds : List Bytes} (committed : node.commit nest txIds = .ok node') :
    node'.store = node.store.putBlock txIds ∧ node.filter.Follows node'.filter [txIds] := by
  obtain ⟨filter, added, same⟩ := bind_eq_ok.mp committed
  cases same
  exact ⟨rfl, NestFilter.follows_of_addsAndSetHeight added⟩

theorem run_eq_ok {kind : Kind} {bn : NestState} {further : List (List Bytes)} {node : Node}
    (ran : run kind nest store (.ok bn) further = .ok node) :
    node.store = { store with later := store.later ++ further } ∧ (NestFilter.mk bn (kind = .shardingBirdsnest)).Follows node.filter
        (store.later.drop bn.height ++ further) := by
  obtain ⟨filter, built, looped⟩ := bind_eq_ok.mp ran
  have started := NestFilter.new_eq_ok built
  have step (done : List (List Bytes)) (txIds : List Bytes) (node node' : Node)
      (sofar : node.store = { store with later := store.later ++ done } ∧ filter.Follows node.filter done)
      (committed : node.commit nest txIds = .ok node') :
      node'.store = { store with later := store.later ++ (done ++ [txIds]) } ∧ filter.Follows node'.filter (done ++ [txIds]) := by
    obtain ⟨stored, added⟩ := follows_of_commit committed
    refine ⟨?_, sofar.2.trans added⟩
    rw [stored, sofar.1]
    simp [Store.putBlock]
  have grown := foldlM_invariant step ⟨by simp, NestFilter.Follows.refl filter⟩ looped
  exact ⟨grown.1, started.trans grown.2⟩

end Added

end Pdcc.TxFilter
