import Pdcc.Rpc.SubscribeFilter

/-!
# What a block subscription sends

A result type decides what is sent for a height: the header alone, the block, or
the block with the read/write sets. The transactions pass through the filter of
the subscription. Two blocks that look alike to a subscriber are compared by what
is sent for them.
-/

set_option autoImplicit false

namespace Pdcc.Rpc

open Ledger Library

section Model

structure BlockWithRWSet where
  block : Block
  txRWSets : List TxRWSet
  rwSets_length : txRWSets.length = block.txs.length

structure BlockInfo where
  header : Header
  dag : List (List Nat)
  additionalData : Bytes
  txs : List Transaction
  rwsetList : List TxRWSet
  deriving DecidableEq

inductive SubscribeResult where
  | header (header : Header)
  | blockInfo (blockInfo : BlockInfo)
  deriving DecidableEq

inductive ResultType where
  | block
  | onlyHeader
  | rwSet
  deriving DecidableEq

def getResultType (onlyHeader withRWSet : Bool) : ResultType :=
  if onlyHeader then .onlyHeader else if withRWSet then .rwSet else .block

def Block.info (block : Block) (txs : List Transaction) (rwsetList : List TxRWSet) :
    BlockInfo where
  header := block.header
  dag := block.dag
  additionalData := block.additionalData
  txs := txs
  rwsetList := rwsetList

/-- What may be sent for a height at which the store has a block. -/
def GetResultByHeight (filter : AliasSubscribeFilter) (stored : BlockWithRWSet) :
    ResultType → SubscribeResult → Prop
  | .onlyHeader, data => data = .header stored.block.header
  | .block, data => ∃ result, filter.FilterTxs stored.block true result ∧
      data = .blockInfo (stored.block.info result.1 [])
  | .rwSet, data => ∃ result, filter.FilterTxs stored.block true result ∧
      data = .blockInfo (stored.block.info result.1 stored.txRWSets)

end Model

section Confidentiality

variable {filter : AliasSubscribeFilter} {left right : BlockWithRWSet}

def BlockWithRWSet.matchesAt (stored : BlockWithRWSet) (filter : AliasSubscribeFilter)
    (index : Nat) : Bool :=
  (stored.block.txs[index]?).any (filter.matchesTx stored.block.header.blockHeight)

/-- Two blocks that may differ only in what the subscriber must not see: in the
transactions that do not match, apart from their identifiers and hashes, and in the
read/write sets of these. -/
structure AlikeTo (filter : AliasSubscribeFilter) (left right : BlockWithRWSet) : Prop where
  header : left.block.header = right.block.header
  dag : left.block.dag = right.block.dag
  additionalData : left.block.additionalData = right.block.additionalData
  matching : ∀ index, left.matchesAt filter index = right.matchesAt filter index
  visible : ∀ index, left.matchesAt filter index = true →
    left.block.txs[index]? = right.block.txs[index]? ∧
      left.txRWSets[index]? = right.txRWSets[index]?
  hidden : ∀ index, left.matchesAt filter index = false →
    (left.block.txs[index]?).map (fun tx => (tx.txId, tx.rwSetHash)) =
      (right.block.txs[index]?).map fun tx => (tx.txId, tx.rwSetHash)

def AliasSubscribeFilter.shown (filter : AliasSubscribeFilter) (height : Nat) (tx : Transaction) :
    Transaction :=
  if filter.matchesTx height tx then tx else tx.stub

theorem sentTxs_eq (filter : AliasSubscribeFilter) (current : Block) : filter.sentTxs current true =
      if (filter.activeRules current.header.blockHeight).isNone then []
      else current.txs.map (filter.shown current.header.blockHeight) := by
  unfold AliasSubscribeFilter.sentTxs
  split
  next => rfl
  next =>
      rw [← List.filterMap_eq_map]
      refine List.filterMap_congr ?_
      intro tx _
      simp only [AliasSubscribeFilter.shown, Function.comp_apply, if_true]
      split
      next => rfl
      next => rfl

theorem AlikeTo.shown (alike : AlikeTo filter left right) : left.block.txs.map (filter.shown left.block.header.blockHeight) =
      right.block.txs.map (filter.shown right.block.header.blockHeight) := by
  have length : left.block.txs.length = right.block.txs.length := by
    rw [← left.block.txCount_eq, ← right.block.txCount_eq, alike.header]
  refine List.ext_getElem? ?_
  intro index
  have matching := alike.matching index
  have visible := alike.visible index
  have hidden := alike.hidden index
  simp only [BlockWithRWSet.matchesAt] at matching visible hidden
  rw [List.getElem?_map, List.getElem?_map]
  cases leftTx : left.block.txs[index]? with
  | none =>
    have outside := List.getElem?_eq_none_iff.mp leftTx
    rw [List.getElem?_eq_none (length ▸ outside)]
    rfl
  | some tx =>
    obtain ⟨tx', rightTx⟩ : ∃ tx', right.block.txs[index]? = some tx' :=
      ⟨_, List.getElem?_eq_getElem (length ▸ (List.getElem?_eq_some_iff.mp leftTx).1)⟩
    rw [leftTx, rightTx] at matching visible hidden
    simp only [Option.any_some, Option.map_some, Option.some.injEq, Prod.mk.injEq] at matching visible hidden
    rw [rightTx, Option.map_some, Option.map_some, AliasSubscribeFilter.shown, AliasSubscribeFilter.shown, ← matching]
    cases matched : filter.matchesTx left.block.header.blockHeight tx with
    | true => simp only [if_true, (visible matched).1]
    | false =>
      obtain ⟨sameId, sameHash⟩ := hidden matched
      simp [Transaction.stub, sameId, sameHash]

theorem AlikeTo.sent (alike : AlikeTo filter left right) : filter.sentTxs left.block true = filter.sentTxs right.block true := by
  rw [sentTxs_eq, sentTxs_eq, alike.shown, alike.header]

/-- The read/write sets agree also where the filter hides the transaction. -/
def HiddenRWSetsAgree (filter : AliasSubscribeFilter) (left right : BlockWithRWSet) : Prop :=
  ∀ index, left.matchesAt filter index = false → left.txRWSets[index]? = right.txRWSets[index]?

theorem AlikeTo.txRWSets_eq_iff (alike : AlikeTo filter left right) :
    left.txRWSets = right.txRWSets ↔ HiddenRWSetsAgree filter left right := by
  constructor
  · intro same index _
    rw [same]
  · intro agree
    refine List.ext_getElem? ?_
    intro index
    cases matched : left.matchesAt filter index with
    | true => exact (alike.visible index matched).2
    | false => exact agree index matched

/-- Apart from the header-only type, blocks that look alike to a subscriber are
sent alike, whatever the order of the goroutines in the two runs, exactly if the
read/write sets are not sent or agree also for the hidden transactions. -/
theorem getResultByHeight_confidential_iff (alike : AlikeTo filter left right)
    (type : ResultType) (withTxs : type ≠ .onlyHeader) {data data' : SubscribeResult}
    (first : GetResultByHeight filter left type data)
    (second : GetResultByHeight filter right type data') :
    data = data' ↔ type = .block ∨ HiddenRWSetsAgree filter left right := by
  cases type with
  | onlyHeader => exact absurd rfl withTxs
  | block =>
    obtain ⟨result, filtered, rfl⟩ := first
    obtain ⟨result', filtered', rfl⟩ := second
    simp [Block.info, filtered.sent, filtered'.sent, alike.sent, alike.header, alike.dag, alike.additionalData]
  | rwSet =>
    obtain ⟨result, filtered, rfl⟩ := first
    obtain ⟨result', filtered', rfl⟩ := second
    simp [Block.info, filtered.sent, filtered'.sent, alike.sent, alike.header, alike.dag,
      alike.additionalData, alike.txRWSets_eq_iff]

end Confidentiality

section HiddenPayment

def ownerFilter : AliasSubscribeFilter where
  contractName := ascii "tax"
  methods := [ascii "Save"]
  subscriberId :=
    { codeType := enterpriseCode
      provinceCode := ascii "11"
      cityCode := ascii "01"
      districtCode := ascii "02"
      extension := ascii "000000000001"
      raw := ascii "3110102000000000001" }
  getFilterRule := fun _ => some (some [⟨⟨.enabled, 0, 0⟩, 0, 0, ascii "owner"⟩])

def payment : Block where
  header := ⟨1, 1, []⟩
  dag := [[]]
  additionalData := []
  txs := [⟨ascii "t", ascii "bank", ascii "Pay", [], ascii "hash", ascii "sender"⟩]
  txCount_eq := rfl

def paymentBlock (value : Bytes) : BlockWithRWSet where
  block := payment
  txRWSets := [⟨ascii "t", [], [⟨ascii "bank", ascii "balance", value⟩]⟩]
  rwSets_length := rfl

theorem paymentBlock_matchesAt (value : Bytes) (index : Nat) : (paymentBlock value).matchesAt ownerFilter index = false := by
  cases index with
  | zero =>
    have hidden : (payment.txs[0]?).any (ownerFilter.matchesTx 1) = false := by decide
    exact hidden
  | succ index => rfl

theorem paymentBlock_alike (value value' : Bytes) : AlikeTo ownerFilter (paymentBlock value) (paymentBlock value') where
  header := rfl
  dag := rfl
  additionalData := rfl
  matching := by
    intro index
    rw [paymentBlock_matchesAt, paymentBlock_matchesAt]
  visible := by
    intro index matched
    rw [paymentBlock_matchesAt] at matched
    cases matched
  hidden := fun _ _ => rfl

def paymentInfo (rwsetList : List TxRWSet) : SubscribeResult :=
  .blockInfo ⟨⟨1, 1, []⟩, [[]], [], [⟨ascii "t", [], [], [], ascii "hash", []⟩], rwsetList⟩

theorem payment_filterTxs : ownerFilter.FilterTxs payment true ([⟨ascii "t", [], [], [], ascii "hash", []⟩], 0) := by
  have nothing : ownerFilter.tasks (ownerFilter.rules 1) payment = [[]] := by decide
  exact ⟨[], nothing ▸ Interleaves.sequential [[]], rfl⟩

/-- Without read/write sets, two runs that pay different balances send the same block. -/
theorem getResultByHeight_confidential_payment :
    ¬ HiddenRWSetsAgree ownerFilter (paymentBlock [1]) (paymentBlock [2]) ∧
      ∃ data, GetResultByHeight ownerFilter (paymentBlock [1]) .block data ∧
        GetResultByHeight ownerFilter (paymentBlock [2]) .block data := by
  have sent (value : Bytes) : ∃ data, GetResultByHeight ownerFilter (paymentBlock value) .block data :=
    ⟨_, _, payment_filterTxs, rfl⟩
  obtain ⟨data, first⟩ := sent [1]
  obtain ⟨data', second⟩ := sent [2]
  have same : data = data' :=
    (getResultByHeight_confidential_iff (paymentBlock_alike [1] [2]) .block nofun first second).mpr (.inl rfl)
  refine ⟨fun agree => ?_, data, first, same ▸ second⟩
  exact absurd (agree 0 (paymentBlock_matchesAt [1] 0)) (by decide)

/-- The balance that a hidden payment writes reaches the subscriber. -/
theorem getResultByHeight_reveals_payment : AlikeTo ownerFilter (paymentBlock [1]) (paymentBlock [2]) ∧
      GetResultByHeight ownerFilter (paymentBlock [1]) (getResultType false true)
        (paymentInfo (paymentBlock [1]).txRWSets) ∧
      GetResultByHeight ownerFilter (paymentBlock [2]) (getResultType false true)
        (paymentInfo (paymentBlock [2]).txRWSets) ∧
      paymentInfo (paymentBlock [1]).txRWSets ≠ paymentInfo (paymentBlock [2]).txRWSets :=
  ⟨paymentBlock_alike [1] [2], ⟨_, payment_filterTxs, rfl⟩, ⟨_, payment_filterTxs, rfl⟩, by decide⟩

end HiddenPayment

end Pdcc.Rpc
