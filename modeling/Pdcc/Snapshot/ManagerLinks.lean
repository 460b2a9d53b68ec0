import Pdcc.Snapshot.Manager
import Pdcc.Library.Logs

/-!
# Links between snapshots

As long as fingerprints do not collide, the manager keeps exactly the snapshots of
the blocks that it was not told of, each linked to the one of the block before.
-/

set_option autoImplicit false

namespace Pdcc.Snapshot

open Ledger Library

section FingerPrints

variable {Digest : Type} {sha256 : List Char → Digest}

private theorem dash_notMem_toDigits (n : Nat) : '-' ∉ Nat.toDigits 10 n := by
  intro member
  have digit := Nat.isDigit_of_mem_toDigits (by decide) (by decide) member
  exact absurd digit (by decide)

private theorem takeWhile_digits (n : Nat) (rest : List Char) :
    (Nat.toDigits 10 n ++ '-' :: rest).takeWhile (· ≠ '-') = Nat.toDigits 10 n := by
  have digits : ∀ char ∈ Nat.toDigits 10 n, decide (char ≠ '-') = true := by
    intro char member
    refine decide_eq_true ?_
    intro isDash
    exact dash_notMem_toDigits n (isDash ▸ member)
  rw [List.takeWhile_append_of_pos digits]
  simp

theorem Block.blockHeight_eq_of_fingerPrintText {block block' : Block} (sameChain : block.chainId = block'.chainId)
    (same : block.fingerPrintText = block'.fingerPrintText) :
    block.blockHeight = block'.blockHeight := by
  unfold fingerPrintText calcFingerPrintText at same
  rw [sameChain, List.append_cancel_left_eq, List.cons.injEq] at same
  have digits := congrArg (List.takeWhile (· ≠ '-')) same.2
  rw [takeWhile_digits, takeWhile_digits] at digits
  have value := congrArg (fun digits => Nat.ofDigitChars 10 digits 0) digits
  simpa only [Nat.ofDigitChars_toDigits (by decide : 1 < 10) (by decide)] using value

/-- The hash tells the fingerprints of these blocks apart. -/
def CollisionFree (sha256 : List Char → Digest) (blocks : List Block) : Prop :=
  ∀ block ∈ blocks, ∀ block' ∈ blocks,
    sha256 block.fingerPrintText = sha256 block'.fingerPrintText →
    block.fingerPrintText = block'.fingerPrintText

theorem CollisionFree.mono {blocks blocks' : List Block} (free : CollisionFree sha256 blocks')
    (within : blocks ⊆ blocks') : CollisionFree sha256 blocks := by
  intro block member block' member'
  exact free block (within member) block' (within member')

theorem CollisionFree.height_eq {blocks : List Block} (free : CollisionFree sha256 blocks)
    {block block' : Block} (member : block ∈ blocks) (member' : block' ∈ blocks)
    (sameChain : block.chainId = block'.chainId)
    (same : calcBlockFingerPrintWithoutTx sha256 block =
      calcBlockFingerPrintWithoutTx sha256 block') :
    block.blockHeight = block'.blockHeight :=
  Block.blockHeight_eq_of_fingerPrintText sameChain (free block member block' member' same)

end FingerPrints

section ChainLinked

section Map

variable {Digest : Type} [DecidableEq Digest] {snapshots : List (Digest × Nat)}
  {fingerPrint : Digest} {pointer : Nat}

theorem ManagerImpl.mem_remove {entry : Digest × Nat} : entry ∈ ManagerImpl.remove snapshots fingerPrint ↔
      entry ∈ snapshots ∧ entry.1 ≠ fingerPrint := by
  simp [ManagerImpl.remove]

theorem ManagerImpl.lookup_eq_some (member : (fingerPrint, pointer) ∈ snapshots)
    (unique : ∀ entry ∈ snapshots, entry.1 = fingerPrint → entry.2 = pointer) :
    ManagerImpl.lookup snapshots fingerPrint = some pointer := by
  unfold ManagerImpl.lookup
  cases found : snapshots.find? fun entry => entry.1 = fingerPrint with
  | none =>
    have absent := List.find?_eq_none.mp found _ member
    simp at absent
  | some entry =>
    have same : entry.1 = fingerPrint := by simpa using List.find?_some found
    rw [Option.map_some, unique entry (List.mem_of_find?_eq_some found) same]

theorem ManagerImpl.lookup_eq_none (absent : ∀ entry ∈ snapshots, entry.1 ≠ fingerPrint) :
    ManagerImpl.lookup snapshots fingerPrint = none := by
  unfold ManagerImpl.lookup
  rw [Option.map_eq_none_iff, List.find?_eq_none]
  intro entry member
  simpa using absent entry member

end Map

variable {Digest : Type} {sha256 : List Char → Digest} {genesis lastBlock : Block}
  {blocks : List Block} {links : List (Option Nat)} {snapshots : List (Digest × Nat)}
  {notified : Nat}

def linkOf (notified index : Nat) : Option Nat :=
  if notified < index then some (index - 1) else none

structure ChainLinked (sha256 : List Char → Digest) (genesis : Block) (blocks : List Block)
    (links : List (Option Nat)) (snapshots : List (Digest × Nat)) (lastBlock : Block)
    (notified : Nat) : Prop where
  linked : ∀ i link, links[i]? = some link → link = linkOf notified i
  consecutive : ∀ i block, (genesis :: blocks)[i]? = some block →
    block.chainId = genesis.chainId ∧ block.blockHeight = genesis.blockHeight + i
  last : (genesis :: blocks)[blocks.length]? = some lastBlock
  registered : ∀ fingerPrint i, (fingerPrint, i) ∈ snapshots ↔
    notified ≤ i ∧ ∃ block, blocks[i]? = some block ∧
      calcBlockFingerPrintWithoutTx sha256 block = fingerPrint

theorem ChainLinked.index_eq (linked : ChainLinked sha256 genesis blocks links snapshots lastBlock notified)
    (free : CollisionFree sha256 (genesis :: blocks)) {i j : Nat} {block block' : Block}
    (found : blocks[i]? = some block) (found' : blocks[j]? = some block')
    (same : calcBlockFingerPrintWithoutTx sha256 block =
      calcBlockFingerPrintWithoutTx sha256 block') : i = j := by
  obtain ⟨chain, height⟩ := linked.consecutive (i + 1) block found
  obtain ⟨chain', height'⟩ := linked.consecutive (j + 1) block' found'
  have heights := free.height_eq (List.mem_cons_of_mem _ (List.mem_of_getElem? found))
    (List.mem_cons_of_mem _ (List.mem_of_getElem? found')) (chain.trans chain'.symm) same
  omega

section Create

variable {block : Block}
  (linked : ChainLinked sha256 genesis blocks links snapshots lastBlock notified)
  (free : CollisionFree sha256 (genesis :: (blocks ++ [block])))
  (sameChain : block.chainId = lastBlock.chainId)
  (next : block.blockHeight = lastBlock.blockHeight + 1)

include linked free sameChain next

theorem ChainLinked.fingerPrint_ne {i : Nat} {old : Block} (found : (genesis :: blocks)[i]? = some old) :
    calcBlockFingerPrintWithoutTx sha256 old ≠ calcBlockFingerPrintWithoutTx sha256 block := by
  intro same
  obtain ⟨chain, height⟩ := linked.consecutive i old found
  obtain ⟨lastChain, lastHeight⟩ := linked.consecutive _ _ linked.last
  have member : old ∈ genesis :: (blocks ++ [block]) :=
    List.cons_subset_cons _ (List.subset_append_left _ _) (List.mem_of_getElem? found)
  have heights := free.height_eq member (by simp) (chain.trans (sameChain.trans lastChain).symm) same
  have inside := (List.getElem?_eq_some_iff.mp found).1
  rw [List.length_cons] at inside
  omega

omit free in
theorem ChainLinked.create (told : notified ≤ blocks.length) (sameLength : links.length = blocks.length) :
    ChainLinked sha256 genesis (blocks ++ [block]) (links ++ [linkOf notified blocks.length])
      (snapshots ++ [(calcBlockFingerPrintWithoutTx sha256 block, blocks.length)]) block
      notified := by
  obtain ⟨lastChain, lastHeight⟩ := linked.consecutive _ _ linked.last
  refine ⟨?_, ?_, ?_, ?_⟩
  · intro i link found
    rcases getElem?_concat_cases found with ⟨_, old, _⟩ | ⟨rfl, rfl, _⟩
    · exact linked.linked i link old
    · rw [sameLength]
  · intro i old found
    rw [← List.cons_append] at found
    rcases getElem?_concat_cases found with ⟨_, found, _⟩ | ⟨rfl, rfl, _⟩
    · exact linked.consecutive i old found
    · rw [sameChain, next, List.length_cons]
      exact ⟨lastChain, by omega⟩
  · rw [List.length_append, List.length_singleton, List.getElem?_cons_succ, List.getElem?_concat_length]
  · intro fingerPrint i
    rw [List.mem_append, List.mem_singleton, Prod.mk.injEq, linked.registered fingerPrint i]
    constructor
    · rintro (⟨notTold, old, found, print⟩ | ⟨print, rfl⟩)
      · have inside := (List.getElem?_eq_some_iff.mp found).1
        exact ⟨notTold, old, (List.getElem?_append_left inside).trans found, print⟩
      · exact ⟨told, block, List.getElem?_concat_length, print.symm⟩
    · rintro ⟨notTold, old, found, print⟩
      rcases getElem?_concat_cases found with ⟨_, found, _⟩ | ⟨rfl, rfl, _⟩
      · exact .inl ⟨notTold, old, found, print⟩
      · exact .inr ⟨print.symm, rfl⟩

variable [DecidableEq Digest]

theorem ChainLinked.remove_eq : ManagerImpl.remove snapshots (calcBlockFingerPrintWithoutTx sha256 block) = snapshots := by
  refine List.filter_eq_self.mpr ?_
  intro entry member
  obtain ⟨_, old, found, print⟩ := (linked.registered entry.1 entry.2).mp member
  have different := linked.fingerPrint_ne free sameChain next (i := entry.2 + 1) found
  simpa [← print] using different

theorem ChainLinked.lookup_eq : ManagerImpl.lookup (snapshots ++ [(calcBlockFingerPrintWithoutTx sha256 block, blocks.length)])
      (calcBlockFingerPrintWithoutTx sha256 lastBlock) = linkOf notified blocks.length := by
  have freeBefore : CollisionFree sha256 (genesis :: blocks) :=
    free.mono (List.cons_subset_cons _ (List.subset_append_left _ _))
  have isNew := linked.fingerPrint_ne free sameChain next linked.last
  by_cases told : notified < blocks.length
  · obtain ⟨last, isLast⟩ : ∃ last, blocks.length = last + 1 := ⟨blocks.length - 1, by omega⟩
    have found : blocks[last]? = some lastBlock := by
      have same := linked.last
      rw [isLast] at same
      exact same
    rw [linkOf, if_pos told, isLast, Nat.add_sub_cancel]
    refine ManagerImpl.lookup_eq_some (List.mem_append_left _ ?_) ?_
    · exact (linked.registered _ last).mpr ⟨by omega, lastBlock, found, rfl⟩
    · intro entry member print
      rcases List.mem_append.mp member with old | new
      · obtain ⟨_, block', foundOld, printOld⟩ := (linked.registered entry.1 entry.2).mp old
        exact linked.index_eq freeBefore foundOld found (printOld.trans print)
      · cases List.mem_singleton.mp new
        exact absurd print.symm isNew
  · rw [linkOf, if_neg told]
    refine ManagerImpl.lookup_eq_none ?_
    intro entry member
    rcases List.mem_append.mp member with old | new
    · obtain ⟨notTold, block', found, _⟩ := (linked.registered entry.1 entry.2).mp old
      have inside := (List.getElem?_eq_some_iff.mp found).1
      omega
    · cases List.mem_singleton.mp new
      exact isNew.symm

end Create

end ChainLinked

section Notify

variable {Tx Result ε Digest : Type} [DecidableEq Digest] {sha256 : List Char → Digest}
  {m : ManagerImpl Tx Result ε Digest} {genesis lastBlock : Block} {notified : Nat}

private theorem map_mapIdx_unlink {β : Type} (f : ManagedSnapshot Tx Result ε → β) (unlinks : Nat → ManagedSnapshot Tx Result ε → Bool)
    (frame : ∀ s, f { s with preSnapshot := none } = f s)
    (heap : List (ManagedSnapshot Tx Result ε)) :
    (heap.mapIdx fun i s => if unlinks i s then { s with preSnapshot := none } else s).map f = heap.map f := by
  refine List.ext_getElem? ?_
  intro i
  rw [List.getElem?_map, List.getElem?_mapIdx, List.getElem?_map, Option.map_map]
  refine congrArg (fun g => Option.map g heap[i]?) (funext fun s => ?_)
  simp only [Function.comp_apply]
  split
  · exact frame s
  · rfl

theorem ManagerImpl.notifyBlockCommitted_map {β : Type} (block : Block) (f : ManagedSnapshot Tx Result ε → β)
    (frame : ∀ s, f { s with preSnapshot := none } = f s) :
    (m.notifyBlockCommitted sha256 block).heap.map f = m.heap.map f := by
  unfold ManagerImpl.notifyBlockCommitted
  simp only
  rw [map_mapIdx_unlink f _ frame, map_mapIdx_unlink f _ frame]

variable (linked : ChainLinked sha256 genesis (m.heap.map (·.block)) (m.heap.map (·.preSnapshot))
    m.snapshots lastBlock notified)
  (free : CollisionFree sha256 (genesis :: m.heap.map (·.block)))
  {block : Block} (found : (m.heap.map (·.block))[notified]? = some block)

include linked free found

variable {s : ManagedSnapshot Tx Result ε} {i : Nat}

private theorem ChainLinked.follows_iff (object : m.heap[i]? = some s) :
    m.follows sha256 (calcBlockFingerPrintWithoutTx sha256 block) s = true ↔ i = notified + 1 := by
  have link : s.preSnapshot = linkOf notified i :=
    linked.linked i _ (by rw [List.getElem?_map, object, Option.map_some])
  unfold ManagerImpl.follows
  rw [link, linkOf]
  by_cases after : notified < i
  · obtain ⟨previous, isPrevious⟩ : ∃ previous, m.heap[i - 1]? = some previous :=
      ⟨_, List.getElem?_eq_getElem (by have := (List.getElem?_eq_some_iff.mp object).1; omega)⟩
    have foundPrevious : (m.heap.map (·.block))[i - 1]? = some previous.block := by
      rw [List.getElem?_map, isPrevious, Option.map_some]
    rw [if_pos after, Option.bind_some, isPrevious]
    simp only [decide_eq_true_eq]
    constructor
    · intro same
      have index := linked.index_eq free foundPrevious found same
      omega
    · intro isNext
      rw [isNext, Nat.add_sub_cancel, found] at foundPrevious
      cases foundPrevious
      rfl
  · rw [if_neg after, Option.bind_none]
    simp only [Bool.false_eq_true, false_iff]
    omega

private theorem ChainLinked.registered_remove (fingerPrint : Digest) (i : Nat) :
    (fingerPrint, i) ∈ ManagerImpl.remove (ManagerImpl.remove m.snapshots
        (calcBlockFingerPrintWithoutTx sha256 block)) (calcNotConsensusFingerPrint sha256 block) ↔
      notified + 1 ≤ i ∧ ∃ other, (m.heap.map (·.block))[i]? = some other ∧
        calcBlockFingerPrintWithoutTx sha256 other = fingerPrint := by
  have samePrint : calcNotConsensusFingerPrint sha256 block =
      calcBlockFingerPrintWithoutTx sha256 block := rfl
  rw [ManagerImpl.mem_remove, ManagerImpl.mem_remove, linked.registered, samePrint]
  constructor
  · intro ⟨⟨⟨notTold, other, foundOther, print⟩, different⟩, _⟩
    refine ⟨Nat.lt_of_le_of_ne notTold ?_, other, foundOther, print⟩
    intro isTold
    rw [← isTold, found] at foundOther
    cases foundOther
    exact different print.symm
  · intro ⟨after, other, foundOther, print⟩
    have different : fingerPrint ≠ calcBlockFingerPrintWithoutTx sha256 block := by
      intro same
      have index := linked.index_eq free foundOther found (print.trans same)
      omega
    exact ⟨⟨⟨by omega, other, foundOther, print⟩, different⟩, different⟩

omit [DecidableEq Digest] free in
private theorem ChainLinked.isTooOld_eq (after : notified + 1 ≤ i) {s' : ManagedSnapshot Tx Result ε} (object : m.heap[i]? = some s)
    (sameBlock : s'.block = s.block) : ManagerImpl.isTooOld block s' = false := by
  have foundOther : (m.heap.map (·.block))[i]? = some s.block := by
    rw [List.getElem?_map, object, Option.map_some]
  obtain ⟨_, height⟩ := linked.consecutive (notified + 1) block found
  obtain ⟨_, otherHeight⟩ := linked.consecutive (i + 1) s.block foundOther
  unfold ManagerImpl.isTooOld
  rw [sameBlock]
  refine decide_eq_false ?_
  omega

private theorem ChainLinked.unlinked (object : m.heap[i]? = some s) : (if ManagerImpl.isStored m.snapshots i &&
        m.follows sha256 (calcBlockFingerPrintWithoutTx sha256 block) s then
      { s with preSnapshot := none } else s).preSnapshot = linkOf (notified + 1) i := by
  have blockFound : (m.heap.map (·.block))[i]? = some s.block := by
    rw [List.getElem?_map, object, Option.map_some]
  by_cases isNext : i = notified + 1
  · have stored : ManagerImpl.isStored m.snapshots i = true := by
      refine List.any_eq_true.mpr ⟨(calcBlockFingerPrintWithoutTx sha256 s.block, i), ?_, ?_⟩
      · exact (linked.registered _ i).mpr ⟨by omega, s.block, blockFound, rfl⟩
      · exact decide_eq_true rfl
    rw [stored, (linked.follows_iff free found object).mpr isNext, linkOf, if_neg (by omega : ¬ notified + 1 < i)]
    rfl
  · have notNext := mt (linked.follows_iff free found object).mp isNext
    rw [Bool.not_eq_true] at notNext
    have link : s.preSnapshot = linkOf notified i :=
      linked.linked i _ (by rw [List.getElem?_map, object, Option.map_some])
    rw [notNext, Bool.and_false, if_neg (by decide), link]
    unfold linkOf
    split
    · rw [if_pos (by omega)]
    · rw [if_neg (by omega)]

theorem ChainLinked.notify : ChainLinked sha256 genesis (m.heap.map (·.block))
      ((m.notifyBlockCommitted sha256 block).heap.map (·.preSnapshot))
      (m.notifyBlockCommitted sha256 block).snapshots lastBlock (notified + 1) := by
  have registered := linked.registered_remove free found
  have sameBlock (unlinks : Bool) (s : ManagedSnapshot Tx Result ε) :
      (if unlinks then { s with preSnapshot := none } else s).block = s.block := by
    split
    · rfl
    · rfl
  refine ⟨?_, linked.consecutive, linked.last, ?_⟩
  · intro i link foundLink
    unfold ManagerImpl.notifyBlockCommitted at foundLink
    simp only [List.getElem?_map, List.getElem?_mapIdx, Option.map_eq_some_iff] at foundLink
    obtain ⟨_, ⟨_, ⟨s, object, rfl⟩, rfl⟩, rfl⟩ := foundLink
    -- no snapshot that is still stored is too old
    rw [if_neg]
    · exact linked.unlinked free found object
    · intro gone
      rw [Bool.and_eq_true] at gone
      obtain ⟨⟨fingerPrint, index⟩, member, isIndex⟩ := List.any_eq_true.mp gone.1
      obtain ⟨after, _⟩ := (registered fingerPrint index).mp member
      obtain rfl : index = i := of_decide_eq_true isIndex
      rw [linked.isTooOld_eq found after object (sameBlock _ s)] at gone
      exact Bool.false_ne_true gone.2
  · intro fingerPrint i
    unfold ManagerImpl.notifyBlockCommitted
    simp only
    rw [List.mem_filter, registered]
    refine and_iff_left_of_imp ?_
    intro ⟨after, other, foundOther, _⟩
    rw [List.getElem?_map, Option.map_eq_some_iff] at foundOther
    obtain ⟨s, object, rfl⟩ := foundOther
    rw [List.getElem?_mapIdx, object, Option.map_some, Option.map_some, Option.getD_some,
      linked.isTooOld_eq found after object (sameBlock _ s)]
    rfl

end Notify

end Pdcc.Snapshot
