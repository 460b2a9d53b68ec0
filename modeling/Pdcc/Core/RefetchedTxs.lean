import Pdcc.Core.TxValidation
import Pdcc.Core.RetryTxs

/-!
# Fetching transactions from other proposals

A MaxBFT proposer that gets nothing from the pool takes the transactions of a proposal in
the cache again. It leaves out those of its own branch and those that timed out, and one
that charges gas.
-/

set_option autoImplicit false

namespace Pdcc.Core

open Ledger Library

variable {Result Signers Data Event ε : Type}

inductive RetryMode where
  | retry
  | remove
  deriving DecidableEq, Repr

structure MaxbftProposer (Result Signers Data ε : Type) where
  poolType : TxPoolType
  txTimeout : UInt32
  currentTimeSeconds : Int64
  blockTimestamp : Header → Int64
  timestamp : Payload → Int64
  getBatchIds : Block (Transaction Result Signers) Data → Except ε (List Bytes)
  reGenTxBatchesWithRetryTxs : UInt64 → List Bytes → List (Transaction Result Signers) →
    List Bytes × List (List (Transaction Result Signers))
  reGenTxBatchesWithRemoveTxs : UInt64 → List Bytes → List (Transaction Result Signers) →
    List Bytes × List (List (Transaction Result Signers))

structure Fetched (Result Signers : Type) where
  fetchBatch : List (Transaction Result Signers)
  batchIds : List Bytes

namespace MaxbftProposer

variable (p : MaxbftProposer Result Signers Data ε)

def overtime (timestamp : Int64) : Bool :=
  p.txTimeout.toUInt64.toInt64 ≤ p.currentTimeSeconds - timestamp

def branchTxIds (cache : ProposalCache (Transaction Result Signers) Data Event)
    (height : UInt64) : List Nat → Bytes → List Bytes
  | [], _ => []
  | i :: rest, hash =>
    if height.toInt64 - Int64.ofNat i < 0 then []
    else
      match (if hash = [] then none
        else cache.getProposedBlockByHashAndHeight hash (height - UInt64.ofNat i)) with
      | none => branchTxIds cache height rest hash
      | some b => b.txs.map (·.txId) ++ branchTxIds cache height rest b.header.preBlockHash

def getTxInSameBranch (cache : ProposalCache (Transaction Result Signers) Data Event)
    (preHash : Bytes) (height : UInt64) : List Bytes :=
  branchTxIds cache height [1, 2, 3] preHash

def removeAndRetryTx (height : UInt64) (batchIds : List Bytes)
    (removeTxs fetchBatch : List (Transaction Result Signers)) (mode : RetryMode)
    (pool : TxPool Result Signers) : Fetched Result Signers × TxPool Result Signers :=
  if p.poolType = .batch then
    let (newBatchIds, fetchBatches) := match mode with
      | .retry => p.reGenTxBatchesWithRetryTxs height batchIds (filterCoinBaseTxOrGasTx fetchBatch)
      | .remove =>
        p.reGenTxBatchesWithRemoveTxs height batchIds (filterCoinBaseTxOrGasTx removeTxs)
    (⟨fetchBatches.flatten, newBatchIds⟩, pool)
  else (⟨fetchBatch, batchIds⟩, pool.retryAndRemoveTxs [] removeTxs)

section Split

variable (txInSameBranch : List Bytes) (b : Block (Transaction Result Signers) Data)

def retryTxs : List (Transaction Result Signers) :=
  b.txs.filter fun tx => txInSameBranch.contains tx.txId

def removeTxs : List (Transaction Result Signers) :=
  b.txs.filter fun tx => !txInSameBranch.contains tx.txId && p.overtime (p.timestamp tx.payload)

def keepTxs : List (Transaction Result Signers) :=
  b.txs.filter fun tx => !txInSameBranch.contains tx.txId && !p.overtime (p.timestamp tx.payload)

def changed : Bool :=
  !(filterCoinBaseTxOrGasTx (p.removeTxs txInSameBranch b)).isEmpty ||
    !(retryTxs txInSameBranch b).isEmpty

def usable : Bool :=
  b.header.txCount ≠ 0 && !p.overtime (p.blockTimestamp b.header) &&
    !(p.keepTxs txInSameBranch b).isEmpty

def fetchFromBlock (pool : TxPool Result Signers) :
    Except ε (Fetched Result Signers) × TxPool Result Signers :=
  match p.getBatchIds b with
  | .error cause => (.error cause, pool)
  | .ok batchIds =>
    if p.changed txInSameBranch b then
      let (fetched, pool) := p.removeAndRetryTx b.header.blockHeight batchIds
        (filterCoinBaseTxOrGasTx (p.removeTxs txInSameBranch b)) (p.keepTxs txInSameBranch b)
        .retry pool
      (.ok fetched, pool)
    else (.ok ⟨filterCoinBaseTxOrGasTx (p.keepTxs txInSameBranch b), batchIds⟩, pool)

end Split

def fetchFromProposalCache (txInSameBranch : List Bytes) :
    List (Block (Transaction Result Signers) Data) → TxPool Result Signers →
      Except ε (Fetched Result Signers) × TxPool Result Signers
  | [], pool => (.ok ⟨[], []⟩, pool)
  | b :: rest, pool =>
    if p.usable txInSameBranch b then p.fetchFromBlock txInSameBranch b pool
    else fetchFromProposalCache txInSameBranch rest pool

def fetchBelow (cache : ProposalCache (Transaction Result Signers) Data Event) (height : UInt64)
    (txInSameBranch : List Bytes) :
    List Nat → Fetched Result Signers → TxPool Result Signers →
      Fetched Result Signers × TxPool Result Signers
  | [], found, pool => (found, pool)
  | i :: rest, found, pool =>
    if height.toInt64 - Int64.ofNat i < 0 then (found, pool)
    else
      let proposedBlocks := cache.getProposedBlocksAt (height - UInt64.ofNat i)
      if proposedBlocks.isEmpty then fetchBelow cache height txInSameBranch rest found pool
      else
        match p.fetchFromProposalCache txInSameBranch proposedBlocks pool with
        | (.error _, pool) => fetchBelow cache height txInSameBranch rest ⟨[], []⟩ pool
        | (.ok found, pool) =>
          if found.fetchBatch.isEmpty then
            fetchBelow cache height txInSameBranch rest found pool
          else (found, pool)

def fetchTxFromOtherBlock (cache : ProposalCache (Transaction Result Signers) Data Event)
    (height : UInt64) (preHash : Bytes) (pool : TxPool Result Signers) :
    Fetched Result Signers × TxPool Result Signers :=
  p.fetchBelow cache height (getTxInSameBranch cache preHash height) [0, 1, 2, 3] ⟨[], []⟩ pool

end MaxbftProposer

section Distances

theorem toInt_toInt64 (height : UInt64) : height.toInt64.toInt = (height.toNat : Int).bmod (2 ^ 64) := by
  have signed : height.toInt64.toInt = height.toBitVec.toInt := rfl
  rw [signed, BitVec.toInt_eq_toNat_bmod]
  rfl

theorem not_below_zero {height : UInt64} {i : Nat} (small : height.toNat < 2 ^ 63)
    (inside : i ≤ height.toNat) : ¬ height.toInt64 - Int64.ofNat i < 0 := by
  rw [Int64.lt_iff_toInt_lt, Int64.toInt_sub, Int64.toInt_ofNat_of_lt (by omega), Int64.toInt_zero, toInt_toInt64]
  simp only [Int.bmod_def]
  omega

theorem toNat_lt_of_not_below {height : UInt64} (inside : ¬ height.toInt64 - Int64.ofNat 0 < 0) : height.toNat < 2 ^ 63 := by
  have bound := height.toNat_lt
  rw [Int64.lt_iff_toInt_lt, Int64.toInt_sub, Int64.toInt_ofNat_of_lt (by omega), Int64.toInt_zero, toInt_toInt64] at inside
  simp only [Int.bmod_def] at inside
  omega

end Distances

namespace MaxbftProposer

section Branch

variable {cache : ProposalCache (Transaction Result Signers) Data Event} {height : UInt64}
  {hash : Bytes} {ancestors : List (Block (Transaction Result Signers) Data)}

theorem branchTxIds_covers (small : height.toNat < 2 ^ 63) {n k : Nat} (below : k ≤ height.toNat)
    (chain : PendingChain cache (height - UInt64.ofNat k) hash ancestors)
    (short : ancestors.length ≤ n) :
    ∀ b ∈ ancestors, ∀ txId, b.HasTx txId → txId ∈ branchTxIds cache height (List.range' (k + 1) n) hash := by
  -- the chain goes down block by block, the distances are from the height of the new block
  induction ancestors generalizing n k hash with
  | nil => exact fun b member => (by cases member)
  | cons first rest ih =>
    cases n with
    | zero => cases short
    | succ n =>
      cases chain with
      | cons positive named found chain =>
        have distance : (UInt64.ofNat k).toNat = k := UInt64.toNat_ofNat_of_lt (by
          have bound := height.toNat_lt
          exact lt_of_le_of_lt below bound)
        have reached : (height - UInt64.ofNat k).toNat = height.toNat - k := by
          rw [UInt64.toNat_sub_of_le _ _ (by rwa [UInt64.le_iff_toNat_le, distance]), distance]
        have further : k + 1 ≤ height.toNat := by
          have nonzero : (height - UInt64.ofNat k).toNat ≠ 0 :=
            fun zero => positive (UInt64.toNat_inj.mp zero)
          omega
        have next : height - UInt64.ofNat k - 1 = height - UInt64.ofNat (k + 1) := by
          rw [UInt64.ofNat_add]
          grind
        rw [next] at found chain
        rw [List.range'_succ, branchTxIds, if_neg (not_below_zero small further), if_neg named]
        simp only [found]
        intro b member txId has
        cases List.mem_cons.mp member with
        | inl same =>
          obtain ⟨tx, listed, rfl⟩ := has
          exact List.mem_append_left _ (List.mem_map_of_mem (same ▸ listed))
        | inr later =>
          exact List.mem_append_right _ (ih further chain (Nat.le_of_succ_le_succ short) b later txId has)

theorem getTxInSameBranch_covers (small : height.toNat < 2 ^ 63)
    (chain : PendingChain cache height hash ancestors) (short : ancestors.length ≤ 3) :
    ∀ b ∈ ancestors, ∀ txId, b.HasTx txId → txId ∈ getTxInSameBranch cache hash height :=
  branchTxIds_covers small (Nat.zero_le _) (by simpa using chain) short

end Branch

section Search

variable (p : MaxbftProposer Result Signers Data ε) (txInSameBranch : List Bytes)

def fetchedTxs (b : Block (Transaction Result Signers) Data) : List (Transaction Result Signers) :=
  if p.changed txInSameBranch b then p.keepTxs txInSameBranch b
  else filterCoinBaseTxOrGasTx (p.keepTxs txInSameBranch b)

def yields (b : Block (Transaction Result Signers) Data) : Bool :=
  match p.getBatchIds b with
  | .error _ => false
  | .ok _ => !(p.fetchedTxs txInSameBranch b).isEmpty

def chosenAt (proposedBlocks : List (Block (Transaction Result Signers) Data)) :
    Option (Block (Transaction Result Signers) Data) :=
  (proposedBlocks.find? (p.usable txInSameBranch)).filter (p.yields txInSameBranch)

def chosenBelow (cache : ProposalCache (Transaction Result Signers) Data Event) (height : UInt64)
    (distances : List Nat) : Option (Block (Transaction Result Signers) Data) :=
  (distances.takeWhile fun i => !(height.toInt64 - Int64.ofNat i < 0)).findSome? fun i =>
    p.chosenAt txInSameBranch (cache.getProposedBlocksAt (height - UInt64.ofNat i))

def chosenBlock (cache : ProposalCache (Transaction Result Signers) Data Event) (height : UInt64)
    (preHash : Bytes) : Option (Block (Transaction Result Signers) Data) :=
  p.chosenBelow (getTxInSameBranch cache preHash height) cache height [0, 1, 2, 3]

variable (notBatch : p.poolType ≠ .batch)

include notBatch

theorem fetchFromBlock_fst (b : Block (Transaction Result Signers) Data) (pool : TxPool Result Signers) :
    (p.fetchFromBlock txInSameBranch b pool).1 = (p.getBatchIds b).map fun batchIds => ⟨p.fetchedTxs txInSameBranch b, batchIds⟩ := by
  unfold fetchFromBlock fetchedTxs removeAndRetryTx
  cases p.getBatchIds b with
  | error cause => rfl
  | ok batchIds =>
    simp only [if_neg notBatch]
    cases p.changed txInSameBranch b <;> rfl

theorem fetchFromProposalCache_fst (proposedBlocks : List (Block (Transaction Result Signers) Data)) (pool : TxPool Result Signers) :
    (p.fetchFromProposalCache txInSameBranch proposedBlocks pool).1 = match proposedBlocks.find? (p.usable txInSameBranch) with
      | none => .ok ⟨[], []⟩
      | some b => (p.getBatchIds b).map fun batchIds =>
        ⟨p.fetchedTxs txInSameBranch b, batchIds⟩ := by
  induction proposedBlocks with
  | nil => rfl
  | cons b rest ih =>
    rw [fetchFromProposalCache, List.find?_cons]
    cases p.usable txInSameBranch b with
    | true => exact p.fetchFromBlock_fst txInSameBranch notBatch b pool
    | false => exact ih

theorem fetchFromProposalCache_cases (proposedBlocks : List (Block (Transaction Result Signers) Data)) (pool : TxPool Result Signers) :
    (∃ b, p.chosenAt txInSameBranch proposedBlocks = some b ∧ p.fetchedTxs txInSameBranch b ≠ [] ∧ ∃ batchIds,
        (p.fetchFromProposalCache txInSameBranch proposedBlocks pool).1 = .ok ⟨p.fetchedTxs txInSameBranch b, batchIds⟩) ∨
    (p.chosenAt txInSameBranch proposedBlocks = none ∧
      ∀ found, (p.fetchFromProposalCache txInSameBranch proposedBlocks pool).1 = .ok found → found.fetchBatch = []) := by
  rw [p.fetchFromProposalCache_fst txInSameBranch notBatch]
  unfold chosenAt
  cases proposedBlocks.find? (p.usable txInSameBranch) with
  | none =>
    refine .inr ⟨rfl, fun found same => ?_⟩
    cases same
    rfl
  | some b =>
    dsimp only
    rw [Option.filter_some]
    unfold yields
    cases p.getBatchIds b with
    | error cause => exact .inr ⟨rfl, fun found same => (by cases same)⟩
    | ok batchIds =>
      cases left : p.fetchedTxs txInSameBranch b with
      | nil =>
        refine .inr ⟨rfl, fun found same => ?_⟩
        cases same
        rfl
      | cons tx txs =>
        refine .inl ⟨b, rfl, ?_, batchIds, ?_⟩
        · rw [left]
          exact List.cons_ne_nil _ _
        · rw [left]
          rfl

theorem fetchBelow_fetchBatch (cache : ProposalCache (Transaction Result Signers) Data Event)
    (height : UInt64) (distances : List Nat) {found : Fetched Result Signers}
    (nothing : found.fetchBatch = []) (pool : TxPool Result Signers) :
    (p.fetchBelow cache height txInSameBranch distances found pool).1.fetchBatch =
      ((p.chosenBelow txInSameBranch cache height distances).map (p.fetchedTxs txInSameBranch)).getD [] := by
  -- what was found is carried along only while it is empty
  induction distances generalizing found pool with
  | nil => exact nothing
  | cons i rest ih =>
    unfold chosenBelow at ih ⊢
    rw [fetchBelow, List.takeWhile_cons]
    by_cases ended : height.toInt64 - Int64.ofNat i < 0
    · simpa [ended] using nothing
    · simp only [ended, if_false, decide_false, Bool.not_false, if_true, List.findSome?_cons]
      cases blocks : cache.getProposedBlocksAt (height - UInt64.ofNat i) with
      | nil => exact ih nothing pool
      | cons b others =>
        rw [List.isEmpty_cons, if_neg Bool.false_ne_true]
        rcases p.fetchFromProposalCache_cases txInSameBranch notBatch (b :: others) pool
          with ⟨chosen, isChosen, left, batchIds, fetched⟩ | ⟨noneChosen, fetched⟩
        · rw [isChosen]
          split
          · next failed => cases (congrArg Prod.fst failed).symm.trans fetched
          · next ran =>
            cases (congrArg Prod.fst ran).symm.trans fetched
            rw [if_neg (mt List.isEmpty_iff.mp left)]
            rfl
        · rw [noneChosen]
          split
          · exact ih rfl _
          · next ran =>
            have empty := fetched _ (congrArg Prod.fst ran)
            rw [if_pos (List.isEmpty_iff.mpr empty)]
            exact ih empty _

end Search

section Fresh

variable {p : MaxbftProposer Result Signers Data ε}
  {cache : ProposalCache (Transaction Result Signers) Data Event} {height : UInt64}
  {preHash : Bytes} {txInSameBranch : List Bytes}
  {b : Block (Transaction Result Signers) Data} {tx : Transaction Result Signers}

/-- The transaction is older than the timeout, in exact integers. -/
def TimedOut (p : MaxbftProposer Result Signers Data ε) (tx : Transaction Result Signers) : Prop :=
  (p.txTimeout.toNat : Int) ≤ p.currentTimeSeconds.toInt - (p.timestamp tx.payload).toInt

/-- The age of the transaction does not overflow. -/
def AgeFits (p : MaxbftProposer Result Signers Data ε) (tx : Transaction Result Signers) : Prop :=
  p.currentTimeSeconds.toInt - (p.timestamp tx.payload).toInt < 2 ^ 63

theorem not_timedOut_iff (passed : p.overtime (p.timestamp tx.payload) = false) : ¬ p.TimedOut tx ↔ p.AgeFits tx := by
  have timeout := p.txTimeout.toNat_lt
  have now := p.currentTimeSeconds.toInt_lt
  have now' := p.currentTimeSeconds.le_toInt
  have sent := (p.timestamp tx.payload).toInt_lt
  have sent' := (p.timestamp tx.payload).le_toInt
  unfold overtime at passed
  rw [decide_eq_false_iff_not, Int64.le_iff_toInt_le, Int64.toInt_sub, toInt_toInt64, UInt32.toNat_toUInt64] at passed
  simp only [Int.bmod_def] at passed
  unfold TimedOut AgeFits
  omega

theorem mem_keepTxs : tx ∈ p.keepTxs txInSameBranch b ↔
    tx ∈ b.txs ∧ tx.txId ∉ txInSameBranch ∧ p.overtime (p.timestamp tx.payload) = false := by
  simp [keepTxs]

theorem chosenAt_mem {proposedBlocks : List (Block (Transaction Result Signers) Data)}
    (chosen : p.chosenAt txInSameBranch proposedBlocks = some b) : b ∈ proposedBlocks := by
  unfold chosenAt at chosen
  exact List.mem_of_find?_eq_some (Option.mem_filter_iff.mp chosen).1

theorem chosenBlock_cached (chosen : p.chosenBlock cache height preHash = some b) :
    (∃ entry ∈ cache, entry.data.block = b) ∧ height.toNat < 2 ^ 63 := by
  unfold chosenBlock chosenBelow at chosen
  by_cases ended : height.toInt64 - Int64.ofNat 0 < 0
  · rw [List.takeWhile_cons, decide_eq_true ended] at chosen
    cases chosen
  · refine ⟨?_, toNat_lt_of_not_below ended⟩
    obtain ⟨i, _, chosenHere⟩ := List.exists_of_findSome?_eq_some chosen
    have listed := chosenAt_mem chosenHere
    obtain ⟨entry, cached, rfl⟩ := List.mem_map.mp listed
    exact ⟨entry, List.mem_of_mem_filter cached, rfl⟩

theorem ordinary_fetchedTxs_iff (p : MaxbftProposer Result Signers Data ε) (txInSameBranch : List Bytes) (gasLast : GasLast b.txs) :
    (∀ tx ∈ p.fetchedTxs txInSameBranch b, isGasTx tx = false) ↔ (p.changed txInSameBranch b = true →
        ∀ tx ∈ p.keepTxs txInSameBranch b, isGasTx tx = false) := by
  unfold fetchedTxs
  cases p.changed txInSameBranch b with
  | true => simp
  | false =>
    refine iff_of_true ?_ fun changed => (by cases changed)
    exact ordinary_filterCoinBaseTxOrGasTx_iff.mpr (gasLast.filter _).filterCoinBaseTxOrGasTx_eq

theorem fetchedTxs_subset (member : tx ∈ p.fetchedTxs txInSameBranch b) : tx ∈ p.keepTxs txInSameBranch b := by
  unfold fetchedTxs at member
  split at member
  · exact member
  · exact (filterCoinBaseTxOrGasTx_sublist _).subset member

theorem mem_fetchedTxs_of_ordinary (kept : tx ∈ p.keepTxs txInSameBranch b)
    (ordinary : isGasTx tx = false) : tx ∈ p.fetchedTxs txInSameBranch b := by
  unfold fetchedTxs
  split
  · exact kept
  · have listed : tx ∈ (p.keepTxs txInSameBranch b).filter fun tx => !isGasTx tx :=
      List.mem_filter.mpr ⟨kept, by rw [ordinary]; rfl⟩
    rw [← filter_filterCoinBaseTxOrGasTx] at listed
    exact List.mem_of_mem_filter listed

/-- The transactions fetched again are ordinary, not timed out and in no ancestor exactly
if the chosen block keeps no transaction for the gas while it gives others up, and the age
of those it keeps does not overflow. -/
theorem fetchTxFromOtherBlock_fresh_iff (notBatch : p.poolType ≠ .batch)
    (gasLast : ∀ entry ∈ cache, GasLast entry.data.block.txs)
    {ancestors : List (Block (Transaction Result Signers) Data)}
    (chain : PendingChain cache height preHash ancestors) (short : ancestors.length ≤ 3)
    (pool : TxPool Result Signers) :
    (∀ tx ∈ (p.fetchTxFromOtherBlock cache height preHash pool).1.fetchBatch,
      isGasTx tx = false ∧ ¬ p.TimedOut tx ∧ ∀ b ∈ ancestors, ¬ b.HasTx tx.txId) ↔
    ∀ b ∈ p.chosenBlock cache height preHash,
      let txInSameBranch := getTxInSameBranch cache preHash height
      (p.changed txInSameBranch b = true → ∀ tx ∈ p.keepTxs txInSameBranch b, isGasTx tx = false) ∧
      ∀ tx ∈ p.keepTxs txInSameBranch b, isGasTx tx = false → p.AgeFits tx := by
  unfold fetchTxFromOtherBlock
  rw [p.fetchBelow_fetchBatch _ notBatch cache height _ rfl pool]
  cases chosen : p.chosenBlock cache height preHash with
  | none =>
    unfold chosenBlock at chosen
    rw [chosen]
    simp
  | some b =>
    obtain ⟨⟨entry, cached, rfl⟩, small⟩ := chosenBlock_cached chosen
    have covers := getTxInSameBranch_covers small chain short
    have ordinary := p.ordinary_fetchedTxs_iff (getTxInSameBranch cache preHash height) (gasLast entry cached)
    unfold chosenBlock at chosen
    rw [chosen]
    simp only [Option.map_some, Option.getD_some, Option.mem_some_iff, forall_eq']
    rw [← ordinary]
    constructor
    · intro fresh
      refine ⟨fun tx member => (fresh tx member).1, fun tx kept free => ?_⟩
      have member := mem_fetchedTxs_of_ordinary kept free
      exact (not_timedOut_iff (mem_keepTxs.mp kept).2.2).mp (fresh tx member).2.1
    · rintro ⟨free, fits⟩ tx member
      -- a kept transaction is not on the branch, whatever else happened to it
      have kept := fetchedTxs_subset member
      obtain ⟨_, outside, passed⟩ := mem_keepTxs.mp kept
      refine ⟨free tx member, (not_timedOut_iff passed).mpr (fits tx kept (free tx member)), ?_⟩
      exact fun ancestor listed has => outside (covers ancestor listed _ has)

end Fresh

end MaxbftProposer

section Sample

open MaxbftProposer

def hundredProposer : MaxbftProposer Unit Unit Unit Unit where
  poolType := .normal
  txTimeout := 10
  currentTimeSeconds := 100
  blockTimestamp _ := 95
  timestamp payload := (payload.txId.head?.getD 0).toUInt64.toInt64
  getBatchIds := readBatchIds
  reGenTxBatchesWithRetryTxs _ batchIds txs := (batchIds, [txs])
  reGenTxBatchesWithRemoveTxs _ batchIds txs := (batchIds, [txs])

def countedProposal (ids : List UInt8) (gas : Option UInt8) :
    Block (Transaction Unit Unit) Unit :=
  { proposalOf 1 ids gas with header := ⟨1, [1], [], 2300, 0, 1, none⟩ }

theorem gasLast_countedProposal (ids : List UInt8) (gas : Option UInt8) :
    ∀ entry ∈ cacheOf [countedProposal ids gas], GasLast entry.data.block.txs := by
  intro entry member
  rw [List.mem_singleton.mp member]
  exact gasLast_proposalOf 1 ids gas

def siblingProposal : Block (Transaction Unit Unit) Unit :=
  { proposalOf 1 [95, 96] none with header := ⟨2, [1], [], 2300, 0, 1, none⟩ }

def siblingCache : ProposalCache (Transaction Unit Unit) Unit Unit :=
  cacheOf [proposalOf 7 [94, 95] none, siblingProposal]

/-- The parent of the new block has one of the two transactions of a proposal at its height. -/
theorem fetchTxFromOtherBlock_all_fresh :
    let fetched := hundredProposer.fetchTxFromOtherBlock siblingCache 2 [7] ⟨[], [], [], []⟩
    fetched.1.fetchBatch = [ordinaryTx 96] ∧ ∀ tx ∈ fetched.1.fetchBatch, isGasTx tx = false ∧
      ¬ hundredProposer.TimedOut tx ∧ ∀ b ∈ [proposalOf 7 [94, 95] none], ¬ b.HasTx tx.txId := by
  have chosen : hundredProposer.chosenBlock siblingCache 2 [7] = some siblingProposal := rfl
  have gasLast : ∀ entry ∈ siblingCache, GasLast entry.data.block.txs := by
    intro entry member
    rcases List.mem_pair.mp member with rfl | rfl
    · exact gasLast_proposalOf 7 [94, 95] none
    · exact gasLast_proposalOf 1 [95, 96] none
  have chain : PendingChain siblingCache 2 [7] [proposalOf 7 [94, 95] none] :=
    .cons (by decide) (by decide) rfl .nil
  refine ⟨by decide, (fetchTxFromOtherBlock_fresh_iff (by decide) gasLast chain (by decide) ⟨[], [], [], []⟩).mpr ?_⟩
  rw [chosen]
  simp only [Option.mem_some_iff, forall_eq']
  unfold AgeFits
  decide

/-- One transaction timed out: the one for the gas is fetched with the other. One that was
sent before all times counts as new. -/
theorem fetchTxFromOtherBlock_charges :
    let cache := cacheOf [countedProposal [80, 96] (some 97)]
    let early : MaxbftProposer Unit Unit Unit Unit :=
      { hundredProposer with timestamp := fun _ => Int64.minValue }
    (∀ entry ∈ cache, GasLast entry.data.block.txs) ∧
      (hundredProposer.fetchTxFromOtherBlock cache 1 [] ⟨[], [], [], []⟩).1.fetchBatch =
        [ordinaryTx 96, chargingTx 97] ∧
      isGasTx (chargingTx 97) = true ∧
      (early.fetchTxFromOtherBlock cache 1 [] ⟨[], [], [], []⟩).1.fetchBatch = [ordinaryTx 80, ordinaryTx 96] ∧
      early.TimedOut (ordinaryTx 80) := by
  refine ⟨gasLast_countedProposal [80, 96] (some 97), by decide, rfl, by decide, ?_⟩
  unfold TimedOut
  decide

end Sample

end Pdcc.Core
