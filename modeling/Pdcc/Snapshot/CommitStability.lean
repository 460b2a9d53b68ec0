import Pdcc.Snapshot.ManagerLinks

/-!
# Reads across the commit of a block

A snapshot answers a read with the last write along the chain of snapshots below
it, or with the original value of the store, whichever prefix of the chain has
been committed since.
-/

set_option autoImplicit false

namespace Pdcc.Snapshot

open Ledger Library

section Histories

variable {Tx Result ε : Type} {scope : Set StateKey} {base : StateKey → Except ε Bytes}
  {blockVersion : Nat} {h : History Tx Result ε}

theorem isolatedValue_append (base : StateKey → Except ε Bytes) (writes later : List (StateKey × Bytes)) :
    isolatedValue base (writes ++ later) = isolatedValue (isolatedValue base writes) later := by
  funext loc
  unfold isolatedValue
  rw [lastWrite_append]
  cases lastWrite id later loc with
  | none => rfl
  | some value => rfl

variable {loc : StateKey} {readObject : StateKey → Except ε Bytes}

theorem isolatedValue_congr {base base' : StateKey → Except ε Bytes} (same : base loc = base' loc) (writes : List (StateKey × Bytes)) :
    isolatedValue base writes loc = isolatedValue base' writes loc := by
  unfold isolatedValue
  rw [same]

theorem History.Inv.rebase (inv : h.Inv scope base blockVersion) {s : SnapshotImpl Tx Result ε} (sameTables : s.toLayer = h.snapshot.toLayer)
    (sameVersion : s.blockVersion = h.snapshot.blockVersion)
    (sameBase : ∀ loc ∈ scope, s.base loc = base loc) :
    (h.next s []).Inv scope s.base blockVersion where
  unchanged := rfl
  versions := inv.versions_next sameVersion []
  within := by
    intro write member
    exact inv.within write (by simpa [History.next] using member)
  written := by
    intro cell
    have stored := inv.written cell
    unfold SnapshotImpl.writeValues at stored ⊢
    rw [History.next, List.append_nil, ← stored]
    exact congrArg (fun tables : Layer => tables.writeTable.values cell) sameTables
  cached := by
    intro loc inScope unwritten sv cache
    have sameReads : s.readTable = h.snapshot.readTable := congrArg Layer.readTable sameTables
    rw [sameBase loc inScope]
    refine inv.cached loc inScope unwritten.of_next.1 sv ?_
    rw [← sameReads]
    exact cache
  answered := by
    intro state member loc inScope unwritten value answer
    rw [sameBase loc inScope]
    exact inv.answered_states member inScope unwritten.of_next.1 answer

theorem History.Inv.cached_eq_some (inv : h.Inv scope base blockVersion)
    (injective : Set.InjOn StateKey.composed scope) (inScope : loc ∈ scope) {value : Bytes}
    (hit : h.snapshot.cached loc.composed = some value) :
    isolatedValue base h.writes loc = .ok value := by
  rw [← inv.getKey_eq injective inScope]
  unfold Layer.cached at hit
  unfold SnapshotImpl.getKey
  cases found : h.snapshot.writeTable.getByLock loc.composed with
  | some sv =>
    rw [found] at hit
    cases hit
    rfl
  | none =>
    rw [found] at hit
    obtain ⟨sv, cache, rfl⟩ := Option.map_eq_some_iff.mp hit
    simp only [cache]

theorem History.Inv.cached_eq_none (inv : h.Inv scope base blockVersion)
    (injective : Set.InjOn StateKey.composed scope) (inScope : loc ∈ scope)
    (missed : h.snapshot.cached loc.composed = none) : lastWrite id h.writes loc = none := by
  have same := lastWrite_ident_eq StateKey.composed injective inv.within inScope
  rw [← same, ← inv.written]
  unfold Layer.cached at missed
  unfold SnapshotImpl.writeValues
  cases found : h.snapshot.writeTable.getByLock loc.composed with
  | some sv => simp [found] at missed
  | none => simp [ShardSet.values, found]

theorem getKeyBelow_cons_of_none {iter : Layer} {older : List Layer} (missed : iter.cached loc.composed = none) :
    getKeyBelow readObject loc (iter :: older) = getKeyBelow readObject loc older := by
  rw [getKeyBelow, missed]
  cases answer : getKeyBelow readObject loc older with
  | ok value => rfl
  | error err => rfl

theorem SnapshotImpl.getKey_eq_getKeyBelow (s : SnapshotImpl Tx Result ε) (loc : StateKey) :
    s.getKey loc = getKeyBelow s.blockchainStore loc (s.toLayer :: s.preSnapshot) := by
  cases found : s.toLayer.cached loc.composed with
  | none =>
    rw [getKeyBelow_cons_of_none found]
    unfold Layer.cached at found
    unfold SnapshotImpl.getKey
    cases written : s.writeTable.getByLock loc.composed with
    | some sv => simp [written] at found
    | none =>
      have unread : s.readTable.getByLock loc.composed = none := by
        simpa [written] using found
      simp only [unread, SnapshotImpl.base]
  | some value =>
    rw [getKeyBelow, found]
    unfold Layer.cached at found
    unfold SnapshotImpl.getKey
    cases written : s.writeTable.getByLock loc.composed with
    | some sv =>
      rw [written] at found
      cases found
      rfl
    | none =>
      rw [written] at found
      obtain ⟨sv, cache, rfl⟩ := Option.map_eq_some_iff.mp found
      simp only [cache]

theorem History.Inv.getKeyBelow_cons (inv : h.Inv scope base blockVersion)
    (injective : Set.InjOn StateKey.composed scope) (inScope : loc ∈ scope) {older : List Layer}
    (below : lastWrite id h.writes loc = none → getKeyBelow readObject loc older = base loc) :
    getKeyBelow readObject loc (h.snapshot.toLayer :: older) = isolatedValue base h.writes loc := by
  cases found : h.snapshot.toLayer.cached loc.composed with
  | some value =>
    rw [getKeyBelow, found]
    exact (inv.cached_eq_some injective inScope found).symm
  | none =>
    have unwritten := inv.cached_eq_none injective inScope found
    rw [getKeyBelow_cons_of_none found, below unwritten, isolatedValue, unwritten]

end Histories

section ChainFilled

variable {Tx Result ε : Type} {scope : Set StateKey}
  {store blockchainStore : StateKey → Except ε Bytes} {blocks : List Block}
  {histories histories' : List (History Tx Result ε)} {committed : Nat} {n : Nat}
  {base : StateKey → Except ε Bytes}

theorem chainValue_congr (same : ∀ i < n, histories'[i]? = histories[i]?) : chainValue store histories' n = chainValue store histories n := by
  have prefixes : histories'.take n = histories.take n := by
    refine List.ext_getElem? ?_
    intro i
    rw [List.getElem?_take, List.getElem?_take]
    split
    · next inside => exact same i inside
    · rfl
  funext loc
  rw [chainValue, chainValue, writesBefore, writesBefore, prefixes]

variable {h : History Tx Result ε}

theorem chainValue_succ (found : histories[n]? = some h) : chainValue store histories (n + 1) =
      isolatedValue (chainValue store histories n) h.writes := by
  have recorded : writesBefore histories (n + 1) = writesBefore histories n ++ h.writes := by
    unfold writesBefore
    rw [List.take_add_one, found, List.flatMap_append]
    simp
  funext loc
  rw [chainValue, recorded, isolatedValue_append]
  rfl

structure ChainFilled (scope : Set StateKey) (store : StateKey → Except ε Bytes) (blocks : List Block)
    (histories : List (History Tx Result ε)) (blockchainStore : StateKey → Except ε Bytes)
    (committed : Nat) : Prop where
  sameLength : histories.length = blocks.length
  inChain : committed ≤ blocks.length
  stored : ∀ loc ∈ scope, blockchainStore loc = chainValue store histories committed loc
  filled : ∀ i block h, blocks[i]? = some block → histories[i]? = some h →
    ∃ base, h.Inv scope base block.blockVersion ∧
      ∀ loc ∈ scope, base loc = chainValue store histories i loc

theorem ChainFilled.set_last (filled : ChainFilled scope store blocks histories blockchainStore committed) {last : Nat}
    (isLast : blocks.length = last + 1) (uncommitted : committed ≤ last) {block : Block}
    (found : blocks[last]? = some block) (inv : h.Inv scope base block.blockVersion)
    (sameBase : ∀ loc ∈ scope, base loc = chainValue store histories last loc) :
    ChainFilled scope store blocks (histories.set last h) blockchainStore committed := by
  have sameValue (n : Nat) (before : n ≤ last) : chainValue store (histories.set last h) n = chainValue store histories n := by
    refine chainValue_congr ?_
    intro i inside
    exact List.getElem?_set_ne (by omega)
  refine ⟨?_, filled.inChain, ?_, ?_⟩
  · rw [List.length_set]
    exact filled.sameLength
  · rw [sameValue committed uncommitted]
    exact filled.stored
  · intro i block' h' found' foundHistory
    have inside := (List.getElem?_eq_some_iff.mp found').1
    rw [sameValue i (by omega)]
    by_cases same : last = i
    · subst same
      have sameLength := filled.sameLength
      rw [List.getElem?_set_self (by omega)] at foundHistory
      cases foundHistory
      cases found.symm.trans found'
      exact ⟨base, inv, sameBase⟩
    · rw [List.getElem?_set_ne same] at foundHistory
      exact filled.filled i block' h' found' foundHistory

theorem ChainFilled.create (filled : ChainFilled scope store blocks histories blockchainStore committed) {block : Block}
    (inv : h.Inv scope base block.blockVersion)
    (sameBase : ∀ loc ∈ scope, base loc = chainValue store histories blocks.length loc) :
    ChainFilled scope store (blocks ++ [block]) (histories ++ [h]) blockchainStore committed := by
  have sameLength := filled.sameLength
  have sameValue (n : Nat) (before : n ≤ blocks.length) : chainValue store (histories ++ [h]) n = chainValue store histories n := by
    refine chainValue_congr ?_
    intro i inside
    exact List.getElem?_append_left (by omega)
  refine ⟨?_, ?_, ?_, ?_⟩
  · rw [List.length_append, List.length_append, sameLength]
    rfl
  · rw [List.length_append]
    exact Nat.le_add_right_of_le filled.inChain
  · rw [sameValue committed filled.inChain]
    exact filled.stored
  · intro i block' h' found foundHistory
    rcases getElem?_concat_cases found with ⟨before, old, _⟩ | ⟨rfl, rfl, _⟩
    · rw [List.getElem?_append_left (by omega)] at foundHistory
      rw [sameValue i (le_of_lt before)]
      exact filled.filled i block' h' old foundHistory
    · rw [← sameLength, List.getElem?_concat_length] at foundHistory
      cases foundHistory
      rw [sameValue _ (le_refl _)]
      exact ⟨base, inv, sameBase⟩

theorem ChainFilled.commit (filled : ChainFilled scope store blocks histories blockchainStore committed)
    (found : histories[committed]? = some h) :
    ChainFilled scope store blocks histories (isolatedValue blockchainStore h.writes) (committed + 1) where
  sameLength := filled.sameLength
  inChain := by
    rw [← filled.sameLength]
    exact (List.getElem?_eq_some_iff.mp found).1
  stored := by
    intro loc inScope
    rw [chainValue_succ found]
    exact isolatedValue_congr (filled.stored loc inScope) h.writes
  filled := filled.filled

theorem ChainFilled.getKeyBelow_cons (filled : ChainFilled scope store blocks histories blockchainStore committed)
    (injective : Set.InjOn StateKey.composed scope) (found : histories[n]? = some h)
    {loc : StateKey} (inScope : loc ∈ scope) {older : List Layer}
    (below : getKeyBelow blockchainStore loc older = chainValue store histories n loc ∨ older = [] ∧ committed = n + 1) :
    getKeyBelow blockchainStore loc (h.snapshot.toLayer :: older) = chainValue store histories (n + 1) loc := by
  have inside : n < blocks.length := by
    rw [← filled.sameLength]
    exact (List.getElem?_eq_some_iff.mp found).1
  obtain ⟨base, inv, sameBase⟩ := filled.filled n _ h (List.getElem?_eq_getElem inside) found
  have value : chainValue store histories (n + 1) loc = isolatedValue base h.writes loc := by
    rw [chainValue_succ found]
    exact isolatedValue_congr (sameBase loc inScope).symm h.writes
  rw [value]
  refine inv.getKeyBelow_cons injective inScope ?_
  intro unwritten
  rcases below with answer | ⟨rfl, isLast⟩
  · exact answer.trans (sameBase loc inScope).symm
  · -- the store already holds the writes of this block, and the location is not among them
    rw [getKeyBelow, filled.stored loc inScope, isLast, value, isolatedValue, unwritten]

end ChainFilled

section Stability

variable {Tx Result ε Digest : Type} [DecidableEq Digest] {payload : Tx → Payload}
  {sha256 : List Char → Digest} {scope : Set StateKey} {genesis : Block}
  {store : StateKey → Except ε Bytes} {c c' : Chain Tx Result ε Digest}

structure Chain.Inv (sha256 : List Char → Digest) (scope : Set StateKey) (genesis : Block)
    (store : StateKey → Except ε Bytes) (c : Chain Tx Result ε Digest) : Prop where
  toldLater : c.notified ≤ c.committed
  toldNext : c.committed ≤ c.notified + 1
  filled : ChainFilled scope store c.blocks c.histories c.blockchainStore c.committed
  linked : ChainLinked sha256 genesis c.blocks (c.heap.map (·.preSnapshot)) c.snapshots c.lastBlock
    c.notified

omit [DecidableEq Digest] in
private theorem map_set_history {β : Type} (f : ManagedSnapshot Tx Result ε → β) {last : Nat}
    {s : ManagedSnapshot Tx Result ε} (object : c.heap[last]? = some s)
    (frame : ∀ h, f { s with history := h } = f s) (h : History Tx Result ε) :
    (c.heap.set last { s with history := h }).map f = c.heap.map f := by
  obtain ⟨inside, isObject⟩ := List.getElem?_eq_some_iff.mp object
  have bound : last < (c.heap.map f).length := by rwa [List.length_map]
  have value : f s = (c.heap.map f)[last] := by rw [List.getElem_map, isObject]
  rw [List.map_set, frame h, value, List.set_getElem_self]

section Reads

variable (injective : Set.InjOn StateKey.composed scope) (inv : c.Inv sha256 scope genesis store)

include injective inv

variable {loc : StateKey} {s : ManagedSnapshot Tx Result ε}

omit [DecidableEq Digest] in
theorem Chain.Inv.getKeyBelow_linkedTables (inScope : loc ∈ scope) (n fuel : Nat)
    (enough : n ≤ fuel) (inChain : n ≤ c.heap.length) (committed : c.committed ≤ n) :
    getKeyBelow c.blockchainStore loc (linkedTables c.heap fuel (linkOf c.notified n)) = chainValue store c.histories n loc := by
  have unlinked (i : Nat) (told : ¬ c.notified < i) (fuel : Nat) : linkedTables c.heap fuel (linkOf c.notified i) = [] := by
    rw [linkOf, if_neg told]
    cases fuel with
    | zero => rfl
    | succ _ => rfl
  induction n generalizing fuel with
  | zero =>
    rw [unlinked 0 (by omega), getKeyBelow, inv.filled.stored loc inScope, Nat.le_zero.mp committed]
  | succ n ih =>
    by_cases told : c.notified < n + 1
    · obtain ⟨fuel, rfl⟩ : ∃ rest, fuel = rest + 1 := ⟨fuel - 1, by omega⟩
      obtain ⟨s, object⟩ : ∃ s, c.heap[n]? = some s :=
        ⟨_, List.getElem?_eq_getElem (by omega)⟩
      have step : linkedTables c.heap (fuel + 1) (linkOf c.notified (n + 1)) =
          s.history.snapshot.toLayer :: linkedTables c.heap fuel (linkOf c.notified n) := by
        rw [linkOf, if_pos told, Nat.add_sub_cancel, linkedTables, object,
          ← inv.linked.linked n s.preSnapshot (by rw [List.getElem?_map, object, Option.map_some])]
      rw [step]
      refine inv.filled.getKeyBelow_cons injective ?_ inScope ?_
      · rw [Chain.histories, List.getElem?_map, object, Option.map_some]
      · by_cases uncommitted : c.committed ≤ n
        · exact .inl (ih fuel (by omega) (by omega) uncommitted)
        · have toldNext := inv.toldNext
          exact .inr ⟨unlinked n (by omega) fuel, by omega⟩
    · have same : c.committed = n + 1 := by
        have toldLater := inv.toldLater
        omega
      rw [unlinked (n + 1) told, getKeyBelow, inv.filled.stored loc inScope, same]

omit [DecidableEq Digest] in
theorem Chain.Inv.base_current {n : Nat} (object : c.heap[n]? = some s) (uncommitted : c.committed ≤ n) (inScope : loc ∈ scope) :
    (c.current s).base loc = chainValue store c.histories n loc := by
  have inside : n < c.heap.length := (List.getElem?_eq_some_iff.mp object).1
  have link := inv.linked.linked n s.preSnapshot (by rw [List.getElem?_map, object, Option.map_some])
  unfold ManagerImpl.current SnapshotImpl.base ManagerImpl.tablesBelow
  simp only
  rw [link]
  exact inv.getKeyBelow_linkedTables injective inScope n _ (by omega) (by omega) uncommitted

omit [DecidableEq Digest] in
theorem Chain.Inv.getKey_eq {n : Nat} (inside : n < c.heap.length) (committed : c.committed ≤ n + 1) (inScope : loc ∈ scope) :
    c.getKey n loc = some (chainValue store c.histories (n + 1) loc) := by
  have object : c.heap[n]? = some c.heap[n] := List.getElem?_eq_getElem inside
  have link := inv.linked.linked n c.heap[n].preSnapshot (by rw [List.getElem?_map, object, Option.map_some])
  unfold Chain.getKey
  rw [object, Option.map_some, SnapshotImpl.getKey_eq_getKeyBelow]
  refine congrArg some (inv.filled.getKeyBelow_cons injective ?_ inScope ?_)
  · rw [Chain.histories, List.getElem?_map, object, Option.map_some]
  · by_cases uncommitted : c.committed ≤ n
    · exact .inl (inv.base_current injective object uncommitted inScope)
    · refine .inr ⟨?_, by omega⟩
      have toldNext := inv.toldNext
      unfold ManagerImpl.current ManagerImpl.tablesBelow
      simp only
      rw [link, linkOf, if_neg (by omega)]
      cases c.heap.length with
      | zero => rfl
      | succ _ => rfl

omit [DecidableEq Digest] in
theorem Chain.Inv.observed {last : Nat} (uncommitted : c.committed ≤ last) (object : c.heap[last]? = some s) :
    (s.history.next (c.current s) []).Inv scope (c.current s).base s.block.blockVersion := by
  obtain ⟨base, historyInv, sameBase⟩ := inv.filled.filled last s.block s.history
    (by rw [Chain.blocks, List.getElem?_map, object, Option.map_some])
    (by rw [Chain.histories, List.getElem?_map, object, Option.map_some])
  refine historyInv.rebase rfl rfl ?_
  intro loc inScope
  rw [inv.base_current injective object uncommitted inScope, sameBase loc inScope]

omit [DecidableEq Digest] in
theorem Chain.Inv.set_last {last : Nat} (isLast : c.heap.length = last + 1)
    (uncommitted : c.committed ≤ last) (object : c.heap[last]? = some s) {h : History Tx Result ε}
    (historyInv : h.Inv scope (c.current s).base s.block.blockVersion) :
    (c.setHistory last s h).Inv sha256 scope genesis store := by
  refine ⟨inv.toldLater, inv.toldNext, ?_, ?_⟩
  · unfold Chain.blocks Chain.histories Chain.setHistory
    rw [map_set_history (·.block) object (fun _ => rfl), List.map_set]
    refine inv.filled.set_last ?_ uncommitted ?_ historyInv ?_
    · rw [Chain.blocks, List.length_map, isLast]
    · rw [Chain.blocks, List.getElem?_map, object, Option.map_some]
    · intro loc inScope
      exact inv.base_current injective object uncommitted inScope
  · unfold Chain.blocks Chain.setHistory
    rw [map_set_history (·.block) object (fun _ => rfl), map_set_history (·.preSnapshot) object (fun _ => rfl)]
    exact inv.linked

omit inv in
theorem Chain.Inv.create (inv : c.Inv sha256 scope genesis store) {block : Block}
    (free : CollisionFree sha256 (genesis :: (c.blocks ++ [block])))
    (sameChain : block.chainId = c.lastBlock.chainId)
    (next : block.blockHeight = c.lastBlock.blockHeight + 1) :
    (c.create sha256 block).Inv sha256 scope genesis store := by
  have length : c.blocks.length = c.heap.length := List.length_map ..
  have kept := inv.linked.remove_eq free sameChain next
  have link := inv.linked.lookup_eq free sameChain next
  rw [length] at link
  unfold Chain.create ManagerImpl.newSnapshot
  simp only [kept, link]
  refine ⟨inv.toldLater, inv.toldNext, ?_, ?_⟩
  · unfold Chain.blocks Chain.histories
    rw [List.map_append, List.map_append]
    refine inv.filled.create (History.inv_start _ _) ?_
    intro loc inScope
    rw [length]
    exact inv.getKeyBelow_linkedTables injective inScope _ _ (le_refl _) (le_refl _) (length ▸ inv.filled.inChain)
  · unfold Chain.blocks
    rw [List.map_append, List.map_append]
    have linked := inv.linked.create sameChain next (le_trans inv.toldLater inv.filled.inChain) (by rw [length, List.length_map])
    rw [length] at linked
    exact linked

end Reads

theorem Chain.Commit.inv (free : CollisionFree sha256 (genesis :: c.blocks))
    (inv : c.Inv sha256 scope genesis store) (step : Chain.Commit sha256 c c') :
    c'.Inv sha256 scope genesis store := by
  cases step with
  | store told object =>
    refine ⟨Nat.le_succ_of_le inv.toldLater, Nat.succ_le_succ (le_of_eq told), ?_, inv.linked⟩
    refine inv.filled.commit ?_
    rw [Chain.histories, List.getElem?_map, object, Option.map_some]
  | notify untold object =>
    refine ⟨untold, Nat.le_succ_of_le inv.toldNext, ?_, ?_⟩
    · unfold Chain.blocks Chain.histories Chain.notify
      rw [ManagerImpl.notifyBlockCommitted_map _ _ fun _ => rfl, ManagerImpl.notifyBlockCommitted_map _ _ fun _ => rfl]
      exact inv.filled
    · unfold Chain.blocks Chain.notify
      rw [ManagerImpl.notifyBlockCommitted_map _ _ fun _ => rfl]
      refine inv.linked.notify free ?_
      rw [List.getElem?_map, object, Option.map_some]

theorem Chain.Commit.histories_eq (step : Chain.Commit sha256 c c') : c'.histories = c.histories ∧ c'.blocks = c.blocks := by
  cases step with
  | store => exact ⟨rfl, rfl⟩
  | notify _ _ =>
    unfold Chain.histories Chain.blocks
    exact ⟨ManagerImpl.notifyBlockCommitted_map _ _ fun _ => rfl, ManagerImpl.notifyBlockCommitted_map _ _ fun _ => rfl⟩

theorem Chain.Step.inv (injective : Set.InjOn StateKey.composed scope) (free : CollisionFree sha256 (genesis :: c'.blocks))
    (isPublic : ∀ block ∈ c'.blocks, ReadsPublic scope block.blockVersion)
    (inv : c.Inv sha256 scope genesis store) (step : Chain.Step payload sha256 scope c c') :
    c'.Inv sha256 scope genesis store := by
  cases step with
  | create sameChain next =>
    refine inv.create injective ?_ sameChain next
    simpa [Chain.blocks, Chain.create, ManagerImpl.newSnapshot] using free
  | observe isLast uncommitted object =>
    exact inv.set_last injective isLast uncommitted object (inv.observed injective uncommitted object)
  | @fill last s h isLast uncommitted object step =>
    refine inv.set_last injective isLast uncommitted object ?_
    refine step.inv injective (isPublic s.block ?_) (inv.observed injective uncommitted object)
    refine List.mem_map.mpr ⟨{ s with history := h }, ?_, rfl⟩
    exact List.mem_of_getElem? (List.getElem?_set_self (by omega))
  | commit step =>
    rw [step.histories_eq.2] at free
    exact step.inv free inv

omit [DecidableEq Digest] in
theorem Chain.inv_start : (Chain.start genesis store : Chain Tx Result ε Digest).Inv sha256 scope genesis store := by
  refine ⟨le_refl _, Nat.zero_le _, ⟨rfl, le_refl _, fun _ _ => rfl, ?_⟩, ⟨?_, ?_, rfl, ?_⟩⟩
  · simp [Chain.blocks, Chain.start]
  · simp [Chain.start]
  · intro i block found
    cases i with
    | zero =>
      cases found
      exact ⟨rfl, rfl⟩
    | succ i => simp [Chain.blocks, Chain.start] at found
  · simp [Chain.blocks, Chain.start]

def chainBlock (blockVersion blockHeight : Nat) : Block :=
  ⟨['c'], blockHeight, blockVersion, blockHeight, [], []⟩

section Write

private def unwritten : ManagedSnapshot Unit Unit Empty :=
  ⟨chainBlock 2201 1, .start (.newSnapshot 2201 [] emptyStore), none⟩

private def opened : Chain Unit Unit Empty (List Char) :=
  (Chain.start (chainBlock 2201 0) emptyStore).create id (chainBlock 2201 1)

private def written : ManagedSnapshot Unit Unit Empty :=
  { unwritten with
    history := (unwritten.history.next (opened.current unwritten) []).next
      ((opened.current unwritten).putWrites [⟨ascii "A", ascii "k", [1]⟩])
      [(⟨ascii "A", ascii "k"⟩, [1])] }

private def followed : Chain Unit Unit Empty (List Char) :=
  (opened.setHistory 0 unwritten written.history).create id (chainBlock 2201 2)

end Write

section FailedWrite

private def location : StateKey := ⟨ascii "A", ascii "k"⟩

private def created : Chain Unit Unit Empty (List Char) :=
  (Chain.start (chainBlock 2200 0) emptyStore).create id (chainBlock 2200 1)

private def empty : ManagedSnapshot Unit Unit Empty :=
  ⟨chainBlock 2200 1, .start (.newSnapshot 2200 [] emptyStore), none⟩

private def failed : ManagedSnapshot Unit Unit Empty :=
  { empty with
    history := (empty.history.next (created.current empty) []).next
      ((created.current empty).apply (fun _ => ⟨[], []⟩) (contextCall (fun _ => ⟨[], []⟩)
        (ownReadContext 2200 location [1]) () () false)) [] }

private def sealLast (c : Chain Unit Unit Empty (List Char)) (s : ManagedSnapshot Unit Unit Empty) :
    History Unit Unit Empty :=
  (s.history.next (c.current s) []).next { c.current s with isSealed := true } []

private def filled : Chain Unit Unit Empty (List Char) := created.setHistory 0 empty failed.history

private def first : ManagedSnapshot Unit Unit Empty :=
  { failed with history := sealLast filled failed }

private def linked : Chain Unit Unit Empty (List Char) :=
  (filled.setHistory 0 failed first.history).create id (chainBlock 2200 2)

private def second : ManagedSnapshot Unit Unit Empty :=
  ⟨chainBlock 2200 2, .start (.newSnapshot 2200 [first.history.snapshot.toLayer] emptyStore), some 0⟩

end FailedWrite

end Stability

end Pdcc.Snapshot
