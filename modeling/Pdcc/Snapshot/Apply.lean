import Pdcc.Snapshot.Impl

/-!
# Applying transactions to a snapshot

`ApplyTxSimContext`: the key maps of a read/write set, the conflict check against
the write table, the puts into the tables, the final append, and the paths on
which these happen.
-/

set_option autoImplicit false

namespace Pdcc.Snapshot

open Ledger Library

structure Payload where
  txId : Bytes
  contractName : Bytes

def szContractList : List Bytes :=
  [ascii "REAL_ESTATE", ascii "RECEPIT", ascii "DECLARATION", ascii "EXPORT_REBATE",
    ascii "SOCIAL_SECURITY", ascii "ENDORSEMENT"]

inductive ExecOrderTxType where
  | normal
  | special
  | chargeGas
  deriving DecidableEq, Repr

def blockVersion2201 : Nat := 2201

structure TxApply (Tx Result : Type) where
  tx : Tx
  txExecSeq : Nat
  txRWSet : TxRWSet
  txResult : Result
  runVmSuccess : Bool

def composedRead (read : TxRead) : Bytes × Bytes :=
  (constructKey read.contractName read.key, read.value)

def finalReadKvs (txRWSet : TxRWSet) : List (Bytes × Bytes) :=
  finalWrites id (txRWSet.txReads.map composedRead)

def finalWriteKvs (txRWSet : TxRWSet) : List (Bytes × Bytes) :=
  finalWrites id (txRWSet.txWrites.map composedEntry)

namespace SnapshotImpl

variable {Tx Result ε : Type} (s : SnapshotImpl Tx Result ε)

def conflicted (txExecSeq : Nat) (finalKey : Bytes) : Bool :=
  match s.writeTable.getByLock finalKey with
  | some sv => decide (txExecSeq ≤ sv.seq)
  | none => false

def accepts (call : TxApply Tx Result) : Bool :=
  decide (s.getSnapshotSize ≤ call.txExecSeq) ||
    call.txRWSet.txReads.all fun read =>
      !s.conflicted call.txExecSeq (constructKey read.contractName read.key)

def appliedReads (runVmSuccess : Bool) (reads : List (Bytes × Bytes)) : List (Bytes × Bytes) :=
  if s.blockVersion < blockVersion2201 ∨ runVmSuccess = true then reads else []

def SequentialPuts (call : TxApply Tx Result) (reads writes : List (Bytes × Bytes)) : Prop :=
  reads = s.appliedReads call.runVmSuccess (call.txRWSet.txReads.map composedRead) ∧
    writes = call.txRWSet.txWrites.map composedEntry

def MapPuts (call : TxApply Tx Result) (reads writes : List (Bytes × Bytes)) : Prop :=
  reads.Perm (s.appliedReads call.runVmSuccess (finalReadKvs call.txRWSet)) ∧
    writes.Perm (finalWriteKvs call.txRWSet)

variable (payload : Tx → Payload) (s : SnapshotImpl Tx Result ε)

def PutOrder (call : TxApply Tx Result) (reads writes : List (Bytes × Bytes)) : Prop :=
  if szContractList.contains (payload call.tx).contractName then s.SequentialPuts call reads writes
  else s.MapPuts call reads writes

def appendTx (call : TxApply Tx Result) : SnapshotImpl Tx Result ε :=
  { s with
    txRWSetTable := s.txRWSetTable ++ [call.txRWSet]
    txResultMap := s.txResultMap.put (payload call.tx).txId call.txResult
    txTable := s.txTable ++ [call.tx] }

def putRead (entry : Bytes × Bytes) : SnapshotImpl Tx Result ε :=
  { s with readTable := s.readTable.putByLock entry.1 ⟨s.txTable.length, entry.2⟩ }

def putWrite (entry : Bytes × Bytes) : SnapshotImpl Tx Result ε :=
  { s with writeTable := s.writeTable.putByLock entry.1 ⟨s.txTable.length, entry.2⟩ }

def applied (call : TxApply Tx Result) (reads writes : List (Bytes × Bytes)) : SnapshotImpl Tx Result ε :=
  appendTx payload
    { s with
      readTable := s.readTable.putAll s.getSnapshotSize reads
      writeTable := s.writeTable.putAll s.getSnapshotSize writes }
    call

def apply (call : TxApply Tx Result) : SnapshotImpl Tx Result ε :=
  s.applied payload call
    (s.appliedReads call.runVmSuccess (call.txRWSet.txReads.map composedRead))
    (call.txRWSet.txWrites.map composedEntry)

def ApplyOptimize (call : TxApply Tx Result) (s' : SnapshotImpl Tx Result ε) : Prop :=
  ∃ reads writes, s.MapPuts call reads writes ∧ s' = s.applied payload call reads writes

def DealSZTx (call : TxApply Tx Result) (result : Bool × Nat) (s' : SnapshotImpl Tx Result ε) : Prop :=
  if s.isSealed then result = (false, s.getSnapshotSize) ∧ s' = s
  else if s.accepts call then
    s' = s.apply payload call ∧ result = (true, s'.getSnapshotSize)
  else result = (false, s.getSnapshotSize) ∧ s' = s

def ApplyNormalTxSimContext (call : TxApply Tx Result) (result : Bool × Nat) (s' : SnapshotImpl Tx Result ε) : Prop :=
  if szContractList.contains (payload call.tx).contractName then s.DealSZTx payload call result s'
  else if s.isSealed then result = (false, s.getSnapshotSize) ∧ s' = s
  else if call.txRWSet.txReads.any fun read =>
      s.conflicted call.txExecSeq (constructKey read.contractName read.key) then
    result = (false, s.getSnapshotSize + s.specialTxTable.length) ∧ s' = s
  else if s.accepts call then
    s.ApplyOptimize payload call s' ∧
      result = (true, s'.getSnapshotSize + s'.specialTxTable.length)
  else result = (false, s.getSnapshotSize + s.specialTxTable.length) ∧ s' = s

def ApplyIteratorFirstRun (tx : Tx) (result : Bool × Nat) (s' : SnapshotImpl Tx Result ε) : Prop :=
  if s.isSealed then result = (false, s.getSnapshotSize) ∧ s' = s
  else
    s' = { s with specialTxTable := s.specialTxTable ++ [tx] } ∧
      result = (true, s'.getSnapshotSize + s'.specialTxTable.length)

def ApplyUnchecked (call : TxApply Tx Result) (result : Bool × Nat) (s' : SnapshotImpl Tx Result ε) : Prop :=
  s.ApplyOptimize payload call s' ∧ result = (true, s'.getSnapshotSize)

/-- `ApplyTxSimContext`, with the walk through its maps left open. -/
def ApplyTxSimContext (call : TxApply Tx Result) (specialTxType : ExecOrderTxType) (applySpecialTx : Bool)
    (result : Bool × Nat) (s' : SnapshotImpl Tx Result ε) : Prop :=
  match specialTxType, applySpecialTx with
  | .special, false => s.ApplyIteratorFirstRun call.tx result s'
  | .special, true => s.ApplyUnchecked payload call result s'
  | .chargeGas, _ => s.ApplyUnchecked payload call result s'
  | .normal, _ => s.ApplyNormalTxSimContext payload call result s'

end SnapshotImpl

section PutOrder

variable {Tx Result ε : Type} {payload : Tx → Payload} {s : SnapshotImpl Tx Result ε}
  {call : TxApply Tx Result} {reads writes : List (Bytes × Bytes)}

theorem lastWrite_composedEntry (txWrites : List TxWrite) (cell : Bytes) : lastWrite id (txWrites.map composedEntry) cell =
      lastWrite StateKey.composed (txWrites.map (·.entry)) cell := by
  induction txWrites with
  | nil => rfl
  | cons write rest ih =>
    simp only [List.map_cons, lastWrite, ih]
    rfl

variable {entry : Bytes × Bytes} {size : Nat} {specialTxType : ExecOrderTxType}

theorem mem_of_mem_finalWrites {entries : List (Bytes × Bytes)} (member : entry ∈ finalWrites id entries) : entry ∈ entries := by
  have found := (mem_finalWrites_iff id entries entry.1 entry.2).mp member
  obtain ⟨source, sourceMember, sameKey, sameValue⟩ := exists_mem_of_lastWrite id found
  have same : source = entry := Prod.ext sameKey sameValue
  rwa [← same]

structure SnapshotImpl.Puts (s : SnapshotImpl Tx Result ε) (call : TxApply Tx Result)
    (reads writes : List (Bytes × Bytes)) : Prop where
  gated : ∀ entry ∈ reads, s.blockVersion < blockVersion2201 ∨ call.runVmSuccess = true
  recorded : ∀ entry ∈ reads, ∃ read ∈ call.txRWSet.txReads, entry = composedRead read
  lastWrite_eq : ∀ cell, lastWrite id writes cell =
    lastWrite StateKey.composed call.txRWSet.writeEntries cell

theorem SnapshotImpl.mem_appliedReads {ok : Bool} (member : entry ∈ s.appliedReads ok reads) :
    (s.blockVersion < blockVersion2201 ∨ ok = true) ∧ entry ∈ reads := by
  unfold SnapshotImpl.appliedReads at member
  split at member
  · next gate => exact ⟨gate, member⟩
  · cases member

theorem SnapshotImpl.SequentialPuts.puts (order : s.SequentialPuts call reads writes) : s.Puts call reads writes := by
  obtain ⟨rfl, rfl⟩ := order
  refine ⟨fun entry member => (mem_appliedReads member).1, ?_, ?_⟩
  · intro entry member
    obtain ⟨read, readMember, rfl⟩ := List.mem_map.mp (mem_appliedReads member).2
    exact ⟨read, readMember, rfl⟩
  · exact lastWrite_composedEntry _

theorem SnapshotImpl.MapPuts.puts (order : s.MapPuts call reads writes) : s.Puts call reads writes := by
  have put (entry : Bytes × Bytes) (member : entry ∈ reads) :=
    mem_appliedReads (order.1.mem_iff.mp member)
  refine ⟨fun entry member => (put entry member).1, ?_, ?_⟩
  · intro entry member
    obtain ⟨read, readMember, rfl⟩ := List.mem_map.mp (mem_of_mem_finalWrites (put entry member).2)
    exact ⟨read, readMember, rfl⟩
  · intro cell
    have distinct := finalWrites_distinct id (call.txRWSet.txWrites.map composedEntry)
    rw [lastWrite_perm id order.2 ((order.2.map _).nodup_iff.mpr distinct), finalWriteKvs, lastWrite_finalWrites]
    exact lastWrite_composedEntry _ _

theorem SnapshotImpl.PutOrder.puts (order : s.PutOrder payload call reads writes) : s.Puts call reads writes := by
  unfold SnapshotImpl.PutOrder at order
  split at order
  · exact order.puts
  · exact order.puts

theorem SnapshotImpl.PutOrder.lastWrite_eq (order : s.PutOrder payload call reads writes) (cell : Bytes) :
    lastWrite id writes cell = lastWrite StateKey.composed call.txRWSet.writeEntries cell :=
  order.puts.lastWrite_eq cell

theorem SnapshotImpl.PutOrder.mem_reads (order : s.PutOrder payload call reads writes) (member : entry ∈ reads) :
    ∃ read ∈ call.txRWSet.txReads, entry = composedRead read :=
  order.puts.recorded entry member

def SnapshotImpl.Applied (payload : Tx → Payload) (s : SnapshotImpl Tx Result ε)
    (call : TxApply Tx Result) (s' : SnapshotImpl Tx Result ε) : Prop :=
  ∃ reads writes, s.Puts call reads writes ∧ s' = s.applied payload call reads writes

theorem SnapshotImpl.apply_applied (payload : Tx → Payload) (s : SnapshotImpl Tx Result ε)
    (call : TxApply Tx Result) : s.Applied payload call (s.apply payload call) := by
  have order : s.SequentialPuts call _ _ := ⟨rfl, rfl⟩
  exact ⟨_, _, order.puts, rfl⟩

variable {s' : SnapshotImpl Tx Result ε}

theorem SnapshotImpl.ApplyOptimize.applied (optimized : s.ApplyOptimize payload call s') : s.Applied payload call s' := by
  obtain ⟨reads, writes, order, rfl⟩ := optimized
  exact ⟨reads, writes, order.puts, rfl⟩

theorem SnapshotImpl.ApplyNormalTxSimContext.applied (accepted : s.ApplyNormalTxSimContext payload call (true, size) s') :
    s.Applied payload call s' := by
  unfold SnapshotImpl.ApplyNormalTxSimContext SnapshotImpl.DealSZTx at accepted
  split at accepted
  · split at accepted
    · cases accepted.1
    · split at accepted
      · rw [accepted.1]
        exact apply_applied payload s call
      · cases accepted.1
  · split at accepted
    · cases accepted.1
    · split at accepted
      · cases accepted.1
      · split at accepted
        · exact accepted.1.applied
        · cases accepted.1

theorem SnapshotImpl.ApplyTxSimContext.cases {applySpecialTx : Bool}
    (accepted : s.ApplyTxSimContext payload call specialTxType applySpecialTx (true, size) s') :
    (specialTxType = .special ∧ applySpecialTx = false ∧ s' = { s with specialTxTable := s.specialTxTable ++ [call.tx] }) ∨
    (¬ (specialTxType = .special ∧ applySpecialTx = false) ∧ s.Applied payload call s') := by
  unfold SnapshotImpl.ApplyTxSimContext at accepted
  split at accepted
  · unfold SnapshotImpl.ApplyIteratorFirstRun at accepted
    split at accepted
    · cases accepted.1
    · exact .inl ⟨rfl, rfl, accepted.1⟩
  · exact .inr ⟨by simp, accepted.1.applied⟩
  · exact .inr ⟨by simp, accepted.1.applied⟩
  · exact .inr ⟨by simp, ApplyNormalTxSimContext.applied accepted⟩

theorem SnapshotImpl.Applied.txTable_eq (applied : s.Applied payload call s') :
    s'.txTable = s.txTable ++ [call.tx] ∧ s'.isSealed = s.isSealed := by
  obtain ⟨reads, writes, _, rfl⟩ := applied
  exact ⟨rfl, rfl⟩

theorem SnapshotImpl.ApplyNormalTxSimContext.rejected (refused : s.ApplyNormalTxSimContext payload call (false, size) s') :
    s' = s ∧ (s.isSealed = true ∨ ∃ read ∈ call.txRWSet.txReads,
      s.conflicted call.txExecSeq (constructKey read.contractName read.key) = true) := by
  have conflict (refused : ¬ s.accepts call = true) : ∃ read ∈ call.txRWSet.txReads,
      s.conflicted call.txExecSeq (constructKey read.contractName read.key) = true := by
    simp only [SnapshotImpl.accepts, Bool.or_eq_true, not_or, List.all_eq_true, not_forall,
      Bool.not_eq_true', Bool.not_eq_false, exists_prop] at refused
    exact refused.2
  unfold SnapshotImpl.ApplyNormalTxSimContext SnapshotImpl.DealSZTx at refused
  split at refused
  · split at refused
    · next closed => exact ⟨refused.2, .inl closed⟩
    · split at refused
      · cases refused.2
      · next reads => exact ⟨refused.2, .inr (conflict reads)⟩
  · split at refused
    · next closed => exact ⟨refused.2, .inl closed⟩
    · split at refused
      · next reads => exact ⟨refused.2, .inr (List.any_eq_true.mp reads)⟩
      · split at refused
        · cases refused.2
        · next reads => exact ⟨refused.2, .inr (conflict reads)⟩

theorem SnapshotImpl.ApplyTxSimContext.rejected {applySpecialTx : Bool}
    (refused : s.ApplyTxSimContext payload call specialTxType applySpecialTx (false, size) s') :
    s' = s ∧ (specialTxType = .special ∧ applySpecialTx = false ∨ specialTxType = .normal ∧
      (s.isSealed = true ∨ ∃ read ∈ call.txRWSet.txReads, s.conflicted call.txExecSeq (constructKey read.contractName read.key) = true)) := by
  unfold SnapshotImpl.ApplyTxSimContext at refused
  split at refused
  · unfold SnapshotImpl.ApplyIteratorFirstRun at refused
    split at refused
    · exact ⟨refused.2, .inl ⟨rfl, rfl⟩⟩
    · cases refused.2
  · cases refused.2
  · cases refused.2
  · exact ⟨(ApplyNormalTxSimContext.rejected refused).1, .inr ⟨rfl, (ApplyNormalTxSimContext.rejected refused).2⟩⟩

end PutOrder

end Pdcc.Snapshot
