import Pdcc.Library.SerialExecution

/-!
# Read/write sets and the virtual machine boundary

The data that crosses between execution and scheduling: state locations, read
and write sets, the composed key of the snapshot tables, and transaction
execution as a deterministic program over the values it reads.
-/

set_option autoImplicit false

namespace Pdcc.Ledger

open Library

abbrev Bytes := List UInt8

def ascii (text : String) : Bytes := text.toList.map fun char => UInt8.ofNat char.toNat

structure StateKey where
  contractName : Bytes
  key : Bytes
  deriving DecidableEq, Repr

structure TxRead where
  contractName : Bytes
  key : Bytes
  value : Bytes
  deriving DecidableEq, Repr

structure TxWrite where
  contractName : Bytes
  key : Bytes
  value : Bytes
  deriving DecidableEq, Repr

structure TxRWSet where
  txId : Bytes
  txReads : List TxRead
  txWrites : List TxWrite
  deriving DecidableEq, Repr

def TxRead.location (read : TxRead) : StateKey := ⟨read.contractName, read.key⟩

def TxWrite.location (write : TxWrite) : StateKey := ⟨write.contractName, write.key⟩

def TxWrite.entry (write : TxWrite) : StateKey × Bytes := (write.location, write.value)

@[simp] theorem TxWrite.entry_fst (write : TxWrite) : write.entry.1 = write.location := rfl

@[simp] theorem TxWrite.entry_snd (write : TxWrite) : write.entry.2 = write.value := rfl

def TxRWSet.readLocations (rwSet : TxRWSet) : List StateKey := rwSet.txReads.map (·.location)

def TxRWSet.writeEntries (rwSet : TxRWSet) : List (StateKey × Bytes) :=
  rwSet.txWrites.map (·.entry)

def constructKey (contractName key : Bytes) : Bytes := contractName ++ key

def StateKey.composed (loc : StateKey) : Bytes := constructKey loc.contractName loc.key

theorem StateKey.composed_injOn_contract (contractName : Bytes) : Set.InjOn StateKey.composed {loc | loc.contractName = contractName} := by
  intro left leftNamed right rightNamed same
  cases left
  cases right
  simp only [Set.mem_ofPred_eq] at leftNamed rightNamed
  subst leftNamed rightNamed
  simpa [StateKey.composed, constructKey] using same

theorem StateKey.key_injOn_contract (contractName : Bytes) : Set.InjOn StateKey.key {loc | loc.contractName = contractName} := by
  intro left leftNamed right rightNamed same
  cases left
  cases right
  simp only [Set.mem_ofPred_eq] at leftNamed rightNamed same
  subst leftNamed rightNamed same
  rfl

/-- Transaction execution. `executeTx` stands for running a transaction against
a snapshot and collecting its read/write set: a program whose only inputs are
the values it reads. -/
structure VirtualMachine (Tx Result : Type) where
  txId : Tx → Bytes
  executeTx : Tx → (StateKey → Bytes) → TxRWSet × Result
  txId_eq : ∀ tx view, (executeTx tx view).1.txId = txId tx
  read_value : ∀ tx view, ∀ read ∈ (executeTx tx view).1.txReads, read.value = view read.location
  reads_determine : ∀ tx view view',
    (∀ read ∈ (executeTx tx view).1.txReads, view' read.location = view read.location) →
    executeTx tx view' = executeTx tx view
  writes_distinct : ∀ tx view, ((executeTx tx view).1.txWrites.map (·.location)).Nodup

namespace VirtualMachine

variable {Tx Result : Type} (vm : VirtualMachine Tx Result)

def semantics : Semantics Tx StateKey Bytes (TxRWSet × Result) where
  run := vm.executeTx
  reads outcome := outcome.1.readLocations
  writes outcome := outcome.1.writeEntries
  determined tx view view' agree := vm.reads_determine tx view view' fun read member =>
    agree read.location (List.mem_map.mpr ⟨read, member, rfl⟩)

/-- Whatever it reads, the transaction touches only locations of `scope`. -/
def Confined (scope : Set StateKey) (tx : Tx) : Prop :=
  ∀ view, (∀ loc ∈ (vm.executeTx tx view).1.readLocations, loc ∈ scope) ∧
    ∀ write ∈ (vm.executeTx tx view).1.txWrites, write.location ∈ scope

end VirtualMachine

section DuplicateCheck

variable {Tx Result : Type} (vm : VirtualMachine Tx Result)

def DistinctTxIds (txs : List Tx) : Prop := (txs.map vm.txId).Nodup

instance (txs : List Tx) : Decidable (DistinctTxIds vm txs) :=
  inferInstanceAs (Decidable (txs.map vm.txId).Nodup)

def duplicateNote (txId : Bytes) : Bytes := txId ++ ascii " duplicated"

def checkTxIds (total : Nat) (txSet duplicateTxs : List Bytes) :
    List (Option Bytes) → Bool × List Bytes
  | [] => (txSet.length < total, duplicateTxs)
  | none :: _ => (true, duplicateTxs)
  | some txId :: rest =>
    if txSet.contains txId then checkTxIds total txSet (duplicateTxs ++ [duplicateNote txId]) rest
    else checkTxIds total (txId :: txSet) duplicateTxs rest

/-- The check of a block, given the id of each transaction that has a payload. -/
def isTxDuplicate (txs : List (Option Bytes)) : Bool × List Bytes := checkTxIds txs.length [] [] txs

theorem count_duplicateNote_cons (txId other : Bytes) (notes : List Bytes) :
    (duplicateNote other :: notes).count (duplicateNote txId) = notes.count (duplicateNote txId) + if other = txId then 1 else 0 := by
  have injective : duplicateNote other = duplicateNote txId ↔ other = txId := List.append_left_inj _
  simp only [List.count_cons, beq_iff_eq, injective]

private theorem checkTxIds_again {total : Nat} {txSet duplicateTxs : List Bytes} {txId : Bytes} {rest : List (Option Bytes)}
    (old : txId ∈ txSet) : checkTxIds total txSet duplicateTxs (some txId :: rest) =
      checkTxIds total txSet (duplicateTxs ++ [duplicateNote txId]) rest := by
  rw [checkTxIds, if_pos (List.contains_iff_mem.mpr old)]

private theorem checkTxIds_first {total : Nat} {txSet duplicateTxs : List Bytes} {txId : Bytes} {rest : List (Option Bytes)}
    (new : txId ∉ txSet) : checkTxIds total txSet duplicateTxs (some txId :: rest) =
      checkTxIds total (txId :: txSet) duplicateTxs rest := by
  rw [checkTxIds, if_neg (mt List.contains_iff_mem.mp new)]

theorem exists_notes (total : Nat) (txSet duplicateTxs : List Bytes) (txs : List (Option Bytes)) :
    ∃ notes, (checkTxIds total txSet duplicateTxs txs).2 = duplicateTxs ++ notes ∧
      ((checkTxIds total txSet duplicateTxs txs).1 = false ↔
        none ∉ txs ∧ total + notes.length ≤ txSet.length + txs.length) ∧
      (none ∉ txs → (notes = [] ↔ txs.Nodup ∧ ∀ txId ∈ txSet, some txId ∉ txs)) ∧
      ∀ txId, notes.count (duplicateNote txId) =
        (txs.takeWhile Option.isSome).count (some txId) - if txId ∈ txSet then 0 else 1 := by
  induction txs generalizing txSet duplicateTxs with
  | nil => exact ⟨[], by simp [checkTxIds]⟩
  | cons tx rest ih =>
    cases tx with
    | none => exact ⟨[], by simp [checkTxIds]⟩
    | some txId =>
      by_cases old : txId ∈ txSet
      · obtain ⟨notes, noted, passes, _, counts⟩ := ih txSet (duplicateTxs ++ [duplicateNote txId])
        refine ⟨duplicateNote txId :: notes, ?_, ?_, ?_, fun other => ?_⟩
        · rw [checkTxIds_again old, noted, List.append_assoc, List.singleton_append]
        · rw [checkTxIds_again old, passes]
          grind
        · grind
        · rw [count_duplicateNote_cons, counts, List.takeWhile_cons_of_pos rfl, List.count_cons]
          by_cases same : txId = other
          · simp [← same, old]
          · simp [same]
      · obtain ⟨notes, noted, passes, silent, counts⟩ := ih (txId :: txSet) duplicateTxs
        refine ⟨notes, by rw [checkTxIds_first old, noted], ?_, ?_, fun other => ?_⟩
        · rw [checkTxIds_first old, passes]
          grind
        · grind
        · rw [counts, List.takeWhile_cons_of_pos rfl, List.count_cons]
          by_cases same : txId = other
          · simp [← same, old]
          · simp [same, Ne.symm same]

/-- A block passes exactly if all its transactions have payloads and their ids differ; up to the
first one without payload, each id is noted once for each time it occurs again. -/
theorem isTxDuplicate_exact (txs : List (Option Bytes)) :
    ((isTxDuplicate txs).1 = false ↔ none ∉ txs ∧ txs.Nodup) ∧
      ∀ txId, (isTxDuplicate txs).2.count (duplicateNote txId) = (txs.takeWhile Option.isSome).count (some txId) - 1 := by
  obtain ⟨notes, noted, passes, silent, counts⟩ := exists_notes txs.length [] [] txs
  refine ⟨?_, fun txId => ?_⟩
  · rw [isTxDuplicate, passes]
    refine and_congr_right fun present => ?_
    have nodup : notes = [] ↔ txs.Nodup := by simpa using silent present
    rw [← nodup, ← List.length_eq_zero_iff, List.length_nil]
    omega
  · rw [isTxDuplicate, noted, List.nil_append, counts]
    rfl

end DuplicateCheck

end Pdcc.Ledger
