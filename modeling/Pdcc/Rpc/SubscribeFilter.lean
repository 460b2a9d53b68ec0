import Mathlib.Data.UInt
import Mathlib.Data.List.Dedup
import Pdcc.Ledger.ReadWriteSet
import Pdcc.Library.Interleaving

/-!
# Filtering the transactions of a subscription

An alias subscription shows a subscriber the transactions of one contract whose
parameters name an identity that the subscriber may see. Of every other
transaction it gets a stub. The transactions of a block are checked in batches by
a pool of goroutines that mark the matches in one shared slice.
-/

set_option autoImplicit false

namespace Pdcc.Rpc

open Ledger Library

section Identity

def sep : UInt8 := 44

def adminCode : Bytes := ascii "0"
def regionCode : Bytes := ascii "1"
def externalGovCode : Bytes := ascii "2"
def enterpriseCode : Bytes := ascii "3"
def naturalPersonCode : Bytes := ascii "4"
def rootCode : Bytes := ascii "00"

structure IdentityCode where
  codeType : Bytes
  provinceCode : Bytes
  cityCode : Bytes
  districtCode : Bytes
  extension : Bytes
  raw : Bytes
  deriving DecidableEq

inductive IdentityError where
  | unexpectedLength (rawId : Bytes)
  | unexpectedFormat (rawId : Bytes)
  deriving DecidableEq

def isValidCodeType (codeType : Bytes) : Bool :=
  [adminCode, regionCode, externalGovCode, enterpriseCode, naturalPersonCode].contains codeType

def IdentityCode.verify (ic : IdentityCode) : Bool :=
  if !isValidCodeType ic.codeType then false
  else if ic.codeType = adminCode then
    ic.provinceCode = rootCode && ic.cityCode = rootCode && ic.districtCode = rootCode
  else true

def getIdentityCode (rawId : Bytes) : Except IdentityError IdentityCode :=
  let id := rawId.filter (· ≠ 32)
  if id.length ≠ 11 ∧ id.length ≠ 19 then .error (.unexpectedLength rawId)
  else
    let ic : IdentityCode :=
      { codeType := id.take 1
        provinceCode := (id.drop 1).take 2
        cityCode := (id.drop 3).take 2
        districtCode := (id.drop 5).take 2
        extension := id.drop 7
        raw := id }
    if ic.verify then .ok ic else .error (.unexpectedFormat rawId)

def IdentityCode.sees (ic : IdentityCode) (participantIdCode : Option IdentityCode) : Bool :=
  if ic.codeType = adminCode then true
  else
    match participantIdCode with
    | none => false
    | some participant =>
      if ic.codeType = regionCode then
        if ic.cityCode = rootCode ∧ ic.districtCode = rootCode then
          ic.provinceCode = participant.provinceCode
        else if ic.districtCode = rootCode then
          ic.provinceCode = participant.provinceCode && ic.cityCode = participant.cityCode
        else
          ic.provinceCode = participant.provinceCode && ic.cityCode = participant.cityCode &&
            ic.districtCode = participant.districtCode
      else if [externalGovCode, enterpriseCode, naturalPersonCode].contains ic.codeType then
        ic.raw = participant.raw
      else false

end Identity

section Rules

inductive RuleStatus where
  | enabled
  | disable
  deriving DecidableEq

structure Rule where
  status : RuleStatus
  startHeight : Nat
  endHeight : Nat

structure AliasRule where
  rule : Rule
  index : UInt32
  offset : UInt32
  name : Bytes

def checkRules (height : Nat) (rule : Rule) : Bool :=
  decide (rule.startHeight ≤ height ∧ (height ≤ rule.endHeight ∨ rule.endHeight = 0)) &&
    rule.status = .enabled

structure Transaction where
  txId : Bytes
  contractName : Bytes
  method : Bytes
  parameters : List (Bytes × Option Bytes)
  rwSetHash : Bytes
  other : Bytes
  deriving DecidableEq

def Transaction.stub (tx : Transaction) : Transaction where
  txId := tx.txId
  contractName := []
  method := []
  parameters := []
  rwSetHash := tx.rwSetHash
  other := []

def getParameterString (parameters : List (Bytes × Option Bytes)) (key : Bytes) : Option Bytes :=
  (parameters.find? fun parameter => parameter.1 = key).bind Prod.snd

def isTxMatched (tx : Transaction) (rule : AliasRule) (subscriberId : IdentityCode) : Bool :=
  (rule.name.splitOn sep).any fun name =>
    match getParameterString tx.parameters name with
    | none => false
    | some aliasValueString =>
      if UInt32.ofNat aliasValueString.length < rule.index + rule.offset then false
      else (aliasValueString.splitOn sep).any fun aliasValue =>
        subscriberId.sees (getIdentityCode aliasValue).toOption

end Rules

section Filter

structure AliasSubscribeFilter where
  contractName : Bytes
  methods : List Bytes
  subscriberId : IdentityCode
  getFilterRule : Bytes → Option (Option (List AliasRule))

namespace AliasSubscribeFilter

variable (f : AliasSubscribeFilter)

def filterRules : List (Bytes × Option (List AliasRule)) :=
  f.methods.dedup.filterMap fun method => (f.getFilterRule method).map (method, ·)

def rules (height : Nat) : List (Bytes × AliasRule) :=
  f.filterRules.filterMap fun entry =>
    (entry.2.bind fun filterRule => filterRule.find? fun rule0 => checkRules height rule0.rule).map
      (entry.1, ·)

def activeRules (height : Nat) : Option (List (Bytes × AliasRule)) :=
  if f.filterRules.length ≠ f.methods.length then none
  else if f.filterRules.length = 0 then none
  else if (f.rules height).length ≠ f.methods.length then none
  else some (f.rules height)

end AliasSubscribeFilter

def calcTxVerifyWorkers (txCount : Nat) : Nat :=
  if txCount >>> 12 > 0 then 100
  else if txCount >>> 11 > 0 then 50
  else if txCount >>> 10 > 0 then 20
  else if txCount >>> 8 > 0 then 10
  else if txCount >>> 7 > 0 then 8
  else if txCount >>> 5 > 0 then 5
  else 1

def dispatchTxVerifyTask (txCount : Nat) : List (Nat × Nat) :=
  let batchCount := calcTxVerifyWorkers txCount
  let batchSize := txCount / batchCount
  (List.range (batchCount - 1)).map (fun i => (i * batchSize, i * batchSize + batchSize)) ++
    [((batchCount - 1) * batchSize, txCount)]

structure Header where
  blockHeight : Nat
  txCount : Nat
  other : Bytes
  deriving DecidableEq

structure Block where
  header : Header
  dag : List (List Nat)
  additionalData : Bytes
  txs : List Transaction
  txCount_eq : header.txCount = txs.length

namespace AliasSubscribeFilter

variable (f : AliasSubscribeFilter)

def verifyTx (rule : AliasRule) (method : Bytes) (tx : Transaction) : Bool :=
  f.contractName = tx.contractName && method = tx.method && isTxMatched tx rule f.subscriberId

def verifyTxs (rule : AliasRule) (method : Bytes) (txs : List Transaction) (batch : Nat × Nat) :
    List Nat :=
  (List.range' batch.1 (batch.2 - batch.1)).filter fun index =>
    (txs[index]?).any (f.verifyTx rule method)

def tasks (rules : List (Bytes × AliasRule)) (current : Block) : List (List Nat) :=
  f.methods.flatMap fun method =>
    (dispatchTxVerifyTask current.header.txCount).map fun batch =>
      (rules.lookup method).elim [] fun rule => f.verifyTxs rule method current.txs batch

def mark (matchTxsIndex : List Bool) (index : Nat) : List Bool := matchTxsIndex.set index true

def collect (withTxId : Bool) (txs : List Transaction) (matchTxsIndex : List Bool) :
    List Transaction × Nat :=
  ((txs.zip matchTxsIndex).filterMap fun entry =>
    if entry.2 then some entry.1 else if withTxId then some entry.1.stub else none,
    matchTxsIndex.count true)

def FilterTxs (current : Block) (withTxId : Bool) (result : List Transaction × Nat) : Prop :=
  match f.activeRules current.header.blockHeight with
  | none => result = ([], 0)
  | some rules => ∃ order, Interleaves (f.tasks rules current) order ∧
      result = collect withTxId current.txs
        (order.foldl mark (List.replicate current.header.txCount false))

end AliasSubscribeFilter

end Filter

section Matching

theorem calcTxVerifyWorkers_pos (txCount : Nat) : 0 < calcTxVerifyWorkers txCount := by
  unfold calcTxVerifyWorkers
  repeat' split
  all_goals decide

theorem mem_dispatchTxVerifyTask (txCount index : Nat) :
    (∃ batch ∈ dispatchTxVerifyTask txCount, batch.1 ≤ index ∧ index < batch.2) ↔ index < txCount := by
  have positive := calcTxVerifyWorkers_pos txCount
  have total : calcTxVerifyWorkers txCount * (txCount / calcTxVerifyWorkers txCount) ≤ txCount :=
    Nat.mul_div_le _ _
  simp only [dispatchTxVerifyTask, List.mem_append, List.mem_map, List.mem_range, List.mem_singleton]
  generalize calcTxVerifyWorkers txCount = workers at *
  generalize txCount / workers = size at *
  obtain ⟨others, rfl⟩ : ∃ others, workers = others + 1 := ⟨workers - 1, by omega⟩
  rw [Nat.add_sub_cancel]
  constructor
  · intro covered
    obtain ⟨batch, member | rfl, _, below⟩ := covered
    · obtain ⟨i, inside, rfl⟩ := member
      have bound : (i + 1) * size ≤ (others + 1) * size := Nat.mul_le_mul_right _ (by omega)
      rw [Nat.add_mul, Nat.one_mul] at bound
      exact Nat.lt_of_lt_of_le below (bound.trans total)
    · exact below
  · intro below
    by_cases last : others * size ≤ index
    · exact ⟨_, .inr rfl, last, below⟩
    · have filled : 0 < size := by
        by_contra empty
        have zero : size = 0 := by omega
        rw [zero] at last
        omega
      have early : index / size < others := (Nat.div_lt_iff_lt_mul filled).mpr (by omega)
      exact ⟨_, .inl ⟨index / size, early, rfl⟩, Nat.div_mul_le_self index size, Nat.lt_div_mul_add filled⟩

namespace AliasSubscribeFilter

variable {f : AliasSubscribeFilter}

def matchesTx (f : AliasSubscribeFilter) (height : Nat) (tx : Transaction) : Bool :=
  (f.activeRules height).any fun rules =>
    f.methods.contains tx.method &&
      (rules.lookup tx.method).any fun rule => f.verifyTx rule tx.method tx

theorem mem_verifyTxs {rule : AliasRule} {method : Bytes} {txs : List Transaction} {batch : Nat × Nat} {index : Nat} :
    index ∈ f.verifyTxs rule method txs batch ↔ (batch.1 ≤ index ∧ index < batch.2) ∧
        ∃ tx, txs[index]? = some tx ∧ f.verifyTx rule method tx = true := by
  simp only [verifyTxs, List.mem_filter, List.mem_range'_1, Option.any_eq_true]
  refine and_congr_left fun _ => ?_
  omega

variable {current : Block}

theorem mem_tasks {rules : List (Bytes × AliasRule)} (active : f.activeRules current.header.blockHeight = some rules) {index : Nat} :
    index ∈ (f.tasks rules current).flatten ↔ (current.txs[index]?).any (f.matchesTx current.header.blockHeight) = true := by
  simp only [tasks, List.mem_flatten, List.mem_flatMap, List.mem_map, Option.any_eq_true,
    matchesTx, active, Option.any_some, Bool.and_eq_true, List.contains_iff_mem]
  constructor
  · intro marked
    obtain ⟨_, ⟨method, listed, batch, _, rfl⟩, member⟩ := marked
    cases found : rules.lookup method with
    | none => simp [found] at member
    | some rule =>
      rw [found, Option.elim_some, mem_verifyTxs] at member
      obtain ⟨_, tx, present, verified⟩ := member
      have same : method = tx.method := by
        simp only [verifyTx, Bool.and_eq_true, decide_eq_true_eq] at verified
        exact verified.1.2
      subst same
      exact ⟨tx, present, listed, rule, found, verified⟩
  · intro marked
    obtain ⟨tx, present, listed, rule, found, verified⟩ := marked
    have inside := (List.getElem?_eq_some_iff.mp present).1
    rw [← current.txCount_eq] at inside
    obtain ⟨batch, member, covers⟩ := (mem_dispatchTxVerifyTask _ _).mpr inside
    refine ⟨_, ⟨tx.method, listed, batch, member, rfl⟩, ?_⟩
    rw [found, Option.elim_some, mem_verifyTxs]
    exact ⟨covers, tx, present, verified⟩

theorem getElem?_foldl_mark (order : List Nat) (marks : List Bool) (index : Nat) :
    (order.foldl mark marks)[index]? = (marks[index]?).map (· || order.contains index) := by
  induction order generalizing marks with
  | nil => simp
  | cons first order ih =>
    rw [List.foldl_cons, ih, mark, List.getElem?_set]
    by_cases same : first = index
    · subst same
      by_cases inside : first < marks.length
      · simp [inside]
      · simp [inside]
    · have other : index ≠ first := Ne.symm same
      simp [same, other]

theorem foldl_mark_tasks {rules : List (Bytes × AliasRule)}
    (active : f.activeRules current.header.blockHeight = some rules) {order : List Nat}
    (run : Interleaves (f.tasks rules current) order) :
    order.foldl mark (List.replicate current.header.txCount false) = current.txs.map (f.matchesTx current.header.blockHeight) := by
  refine List.ext_getElem? ?_
  intro index
  have marked : order.contains index = (current.txs[index]?).any (f.matchesTx current.header.blockHeight) := by
    rw [Bool.eq_iff_iff, List.contains_iff_mem, run.perm.mem_iff, mem_tasks active]
  rw [getElem?_foldl_mark, marked, List.getElem?_map, current.txCount_eq, List.getElem?_replicate]
  cases present : current.txs[index]? with
  | none =>
    have outside := List.getElem?_eq_none_iff.mp present
    simp [Nat.not_lt.mpr outside]
  | some tx =>
    have inside := (List.getElem?_eq_some_iff.mp present).1
    simp [inside]

def sentTxs (f : AliasSubscribeFilter) (current : Block) (withTxId : Bool) : List Transaction :=
  if (f.activeRules current.header.blockHeight).isNone then []
  else current.txs.filterMap fun tx =>
    if f.matchesTx current.header.blockHeight tx then some tx
    else if withTxId then some tx.stub else none

theorem FilterTxs.sent {withTxId : Bool} {result : List Transaction × Nat} (filtered : f.FilterTxs current withTxId result) :
    result.1 = f.sentTxs current withTxId := by
  unfold FilterTxs at filtered
  unfold sentTxs
  cases active : f.activeRules current.header.blockHeight with
  | none =>
    rw [active] at filtered
    exact congrArg Prod.fst filtered
  | some rules =>
    rw [active] at filtered
    obtain ⟨order, run, rfl⟩ := filtered
    rw [foldl_mark_tasks active run, collect]
    have zipped : current.txs.zip (current.txs.map (f.matchesTx current.header.blockHeight)) =
        current.txs.map fun tx => (tx, f.matchesTx current.header.blockHeight tx) :=
      List.map_prod_left_eq_zip.symm
    simp only [zipped, List.filterMap_map]
    rfl

end AliasSubscribeFilter

end Matching

end Pdcc.Rpc
