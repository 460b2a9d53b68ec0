import Pdcc.Snapshot.Occ
import Pdcc.Library.Logs

/-!
# The invariant of optimistic execution

A running transaction is either clean, so that its reads are what a serial
execution up to now gives, or some transaction that the conflict check cannot
miss has written a key it read. Acceptance rules the second out.
-/

set_option autoImplicit false

namespace Pdcc.Snapshot.Occ

open Ledger Library

variable {Tx Result ε : Type}

section Entries

def WritesCell (rwSet : TxRWSet) (cell : Bytes) : Prop :=
  ∃ write ∈ rwSet.txWrites, write.location.composed = cell

theorem lastWrite_eq_none_iff_writesCell (rwSet : TxRWSet) (cell : Bytes) :
    lastWrite StateKey.composed rwSet.writeEntries cell = none ↔ ¬ WritesCell rwSet cell := by
  rw [lastWrite_eq_none_iff, TxRWSet.writeEntries]
  constructor
  · rintro absent ⟨write, member, same⟩
    exact absent _ (List.mem_map_of_mem member) same
  · intro absent entry member same
    obtain ⟨write, writeMember, rfl⟩ := List.mem_map.mp member
    exact absent ⟨write, writeMember, same⟩

def lastWriter (entries : List TxRWSet) (cell : Bytes) : Option Sv :=
  lastWrite id (entries.zipIdx.flatMap fun entry =>
    entry.1.txWrites.map fun write => (write.location.composed, Sv.mk entry.2 write.value)) cell

theorem lastWriter_append (entries : List TxRWSet) (rwSet : TxRWSet) (cell : Bytes) : lastWriter (entries ++ [rwSet]) cell =
      ((lastWrite StateKey.composed rwSet.writeEntries cell).map (Sv.mk entries.length)).or (lastWriter entries cell) := by
  have newest : lastWrite id (rwSet.txWrites.map fun write =>
      (write.location.composed, Sv.mk entries.length write.value)) cell =
      (lastWrite StateKey.composed rwSet.writeEntries cell).map (Sv.mk entries.length) := by
    rw [TxRWSet.writeEntries, ← lastWrite_map StateKey.composed id
      (fun entry => (entry.1.composed, Sv.mk entries.length entry.2)) (Sv.mk entries.length) _ cell
      (fun _ _ => rfl) (fun _ _ => rfl), List.map_map]
    rfl
  rw [lastWriter, List.zipIdx_append, List.flatMap_append, lastWrite_append]
  simp only [List.zipIdx_cons, List.zipIdx_nil, List.flatMap_cons, List.flatMap_nil, List.append_nil, Nat.zero_add, newest]
  rfl

variable {rwSet : TxRWSet} {base : StateKey → Except ε Bytes}

theorem lastWriter_append_of_not_writes {cell : Bytes} (entries : List TxRWSet) (unwritten : ¬ WritesCell rwSet cell) :
    lastWriter (entries ++ [rwSet]) cell = lastWriter entries cell := by
  rw [lastWriter_append, (lastWrite_eq_none_iff_writesCell rwSet cell).mpr unwritten]
  rfl

theorem lastWriter_value (entries : List TxRWSet) (cell : Bytes) : (lastWriter entries cell).map (·.value) =
      lastWrite StateKey.composed (entries.flatMap (·.writeEntries)) cell := by
  induction entries using List.reverseRecOn with
  | nil => rfl
  | append_singleton entries rwSet ih =>
    rw [lastWriter_append, List.flatMap_append, lastWrite_append, List.flatMap_singleton, ← ih]
    cases lastWrite StateKey.composed rwSet.writeEntries cell with
    | none => rfl
    | some value => rfl

theorem lastWriter_eq_none_iff (entries : List TxRWSet) (cell : Bytes) :
    lastWriter entries cell = none ↔ ∀ rwSet ∈ entries, ¬ WritesCell rwSet cell := by
  induction entries using List.reverseRecOn with
  | nil => simp [lastWriter]
  | append_singleton entries rwSet ih =>
    simp only [lastWriter_append, Option.or_eq_none_iff, Option.map_eq_none_iff,
      lastWrite_eq_none_iff_writesCell, ih, List.mem_append, List.mem_singleton]
    constructor
    · rintro ⟨newest, older⟩ other (member | rfl)
      · exact older other member
      · exact newest
    · intro unwritten
      exact ⟨unwritten rwSet (.inr rfl), fun other member => unwritten other (.inl member)⟩

theorem lastWriter_seq {entries : List TxRWSet} {position : Nat} {cell : Bytes}
    (present : entries[position]? = some rwSet) (written : WritesCell rwSet cell) :
    ∃ sv, lastWriter entries cell = some sv ∧ position ≤ sv.seq := by
  induction entries using List.reverseRecOn with
  | nil => simp at present
  | append_singleton entries newest ih =>
    rw [lastWriter_append]
    have inside : position < (entries ++ [newest]).length :=
      (List.getElem?_eq_some_iff.mp present).1
    rw [List.length_append, List.length_singleton] at inside
    cases found : lastWrite StateKey.composed newest.writeEntries cell with
    | some value => exact ⟨⟨entries.length, value⟩, rfl, by simpa using Nat.le_of_lt_succ inside⟩
    | none =>
      rcases getElem?_concat_cases present with ⟨_, earlier, _⟩ | ⟨_, rfl, _⟩
      · exact ih earlier
      · exact absurd written ((lastWrite_eq_none_iff_writesCell newest cell).mp found)

theorem serialValue_eq (base : StateKey → Except ε Bytes) (entries : List TxRWSet) (loc : StateKey) : serialValue base entries loc =
      (lastWriter entries loc.composed).elim (base loc) fun sv => .ok sv.value := by
  rw [serialValue, ← lastWriter_value]
  cases lastWriter entries loc.composed with
  | none => rfl
  | some sv => rfl

theorem serialValue_append_of_not_writes {loc : StateKey} (entries : List TxRWSet) (unwritten : ¬ WritesCell rwSet loc.composed) :
    serialValue base (entries ++ [rwSet]) loc = serialValue base entries loc := by
  rw [serialValue_eq, serialValue_eq, lastWriter_append_of_not_writes entries unwritten]

theorem serialValue_of_unwritten {entries : List TxRWSet} {loc : StateKey} (unwritten : ∀ rwSet ∈ entries, ¬ WritesCell rwSet loc.composed) :
    serialValue base entries loc = base loc := by
  rw [serialValue_eq, (lastWriter_eq_none_iff entries _).mpr unwritten]
  rfl

end Entries

section Invariant

variable (base : StateKey → Except ε Bytes) (scope : Set StateKey) (blockVersion : Nat)

/-- A write that the conflict check cannot miss: by an entry from `txExecSeq` on, or
by the transaction that is being applied. -/
def Overwritten (entries : List TxRWSet) (pending : Option TxRWSet) (txExecSeq : Nat)
    (cell : Bytes) : Prop :=
  (∃ position rwSet, txExecSeq ≤ position ∧ entries[position]? = some rwSet ∧
    WritesCell rwSet cell) ∨
  ∃ rwSet, pending = some rwSet ∧ WritesCell rwSet cell

def ReadValid (entries : List TxRWSet) (pending : Option TxRWSet) (txExecSeq : Nat)
    (read : TxRead) : Prop :=
  read.location ∈ scope ∧
    (Overwritten entries pending txExecSeq read.location.composed ∨
      serialValue base entries read.location = .ok read.value)

def MissValid (entries : List TxRWSet) (pending : Option TxRWSet) (txExecSeq : Nat)
    (loc : StateKey) : Prop :=
  loc ∈ scope ∧
    (Overwritten entries pending txExecSeq loc.composed ∨
      ∀ rwSet ∈ entries, ¬ WritesCell rwSet loc.composed)

structure ContextValid (entries : List TxRWSet) (pending : Option TxRWSet) (ctx : SimContext) :
    Prop where
  started : ctx.txExecSeq ≤ entries.length
  reads : ∀ read ∈ ctx.txReadKeyMap, ReadValid base scope entries pending ctx.txExecSeq read
  version : ctx.blockVersion = blockVersion
  puts : ∀ write ∈ ctx.txWriteKeyMap, write.key.length ≤ maxKeyLength

structure CallValid (entries : List TxRWSet) (pending : Option TxRWSet)
    (call : TxApply Tx Result) : Prop where
  started : call.txExecSeq ≤ entries.length
  reads : ∀ read ∈ call.txRWSet.txReads,
    ReadValid base scope entries pending call.txExecSeq read

def PhaseValid (entries : List TxRWSet) (pending : Option TxRWSet) : Phase Tx Result → Prop
  | .waiting | .applying | .accepted => True
  | .executing ctx => ContextValid base scope blockVersion entries pending ctx
  | .missedWrite ctx loc | .missedRead ctx loc =>
    ContextValid base scope blockVersion entries pending ctx ∧
      MissValid scope entries pending ctx.txExecSeq loc
  | .checking call _ | .locking call => CallValid base scope entries pending call

def WriteTableValid (s : SnapshotImpl Tx Result ε) (holder : Option (Applying Tx Result)) : Prop :=
  match holder with
  | none => ∀ cell, s.writeTable.getByLock cell = lastWriter s.txRWSetTable cell
  | some holder => ∀ cell,
      match lastWrite id holder.writes cell with
      | some value =>
        lastWrite StateKey.composed holder.call.txRWSet.writeEntries cell = some value
      | none => s.writeTable.getByLock cell =
          lastWriter (s.txRWSetTable ++ [holder.call.txRWSet]) cell

structure HolderValid (s : SnapshotImpl Tx Result ε) (holder : Applying Tx Result) : Prop where
  serial : ∀ read ∈ holder.call.txRWSet.txReads, read.location ∈ scope ∧
    serialValue base s.txRWSetTable read.location = .ok read.value
  reads : ∀ entry ∈ holder.reads, ∃ read ∈ holder.call.txRWSet.txReads, entry = composedRead read

structure SnapshotValid (s : SnapshotImpl Tx Result ε) (holder : Option (Applying Tx Result)) :
    Prop where
  base_eq : s.base = base
  version : s.blockVersion = blockVersion
  aligned : s.txTable.length = s.txRWSetTable.length
  serial : SerialReads base s
  readTable : ∀ cell sv, s.readTable.getByLock cell = some sv →
    ∃ loc ∈ scope, loc.composed = cell ∧
      ∃ position, serialValue base (s.txRWSetTable.take position) loc = .ok sv.value
  writeTable : WriteTableValid s holder
  holder : ∀ applying, holder = some applying → HolderValid base scope s applying

def State.entries (s : State Tx Result ε) : List TxRWSet := s.snapshot.txRWSetTable

def State.pending (s : State Tx Result ε) : Option TxRWSet := s.holder.map (·.call.txRWSet)

/-- What the tables hold and the workers have seen agrees with the serial order. -/
structure Valid (s : State Tx Result ε) : Prop where
  snapshot : SnapshotValid base scope blockVersion s.snapshot s.holder
  phases : ∀ worker, PhaseValid base scope blockVersion s.entries s.pending (s.phase worker)

end Invariant

section Advance

inductive Advance : List TxRWSet → Option TxRWSet → List TxRWSet → Option TxRWSet → Prop where
  | stay {entries pending} : Advance entries pending entries pending
  | lock {entries rwSet} : Advance entries none entries (some rwSet)
  | append {entries rwSet} : Advance entries (some rwSet) (entries ++ [rwSet]) none

variable {base : StateKey → Except ε Bytes} {scope : Set StateKey} {blockVersion : Nat}
  {entries entries' : List TxRWSet} {pending pending' : Option TxRWSet} {txExecSeq : Nat}

theorem Advance.length_le (advance : Advance entries pending entries' pending') : entries.length ≤ entries'.length := by
  cases advance with
  | stay => exact Nat.le_refl _
  | lock => exact Nat.le_refl _
  | append => simp

theorem overwritten_append {rwSet : TxRWSet} {cell : Bytes} (started : txExecSeq ≤ entries.length) (written : WritesCell rwSet cell) :
    Overwritten (entries ++ [rwSet]) none txExecSeq cell :=
  .inl ⟨entries.length, rwSet, started, by simp, written⟩

theorem Overwritten.advance {cell : Bytes} (overwritten : Overwritten entries pending txExecSeq cell) (started : txExecSeq ≤ entries.length)
    (advance : Advance entries pending entries' pending') :
    Overwritten entries' pending' txExecSeq cell := by
  cases advance with
  | stay => exact overwritten
  | lock =>
    rcases overwritten with applied | ⟨_, held, _⟩
    · exact .inl applied
    · cases held
  | @append rwSet =>
    rcases overwritten with ⟨position, writer, late, present, written⟩ | ⟨writer, held, written⟩
    · have inside := (List.getElem?_eq_some_iff.mp present).1
      refine .inl ⟨position, writer, late, ?_, written⟩
      rwa [List.getElem?_append_left inside]
    · cases held
      exact overwritten_append started written

theorem ReadValid.advance {read : TxRead} (valid : ReadValid base scope entries pending txExecSeq read) (started : txExecSeq ≤ entries.length)
    (advance : Advance entries pending entries' pending') :
    ReadValid base scope entries' pending' txExecSeq read := by
  refine ⟨valid.1, ?_⟩
  rcases valid.2 with overwritten | serial
  · exact .inl (overwritten.advance started advance)
  · cases advance with
    | stay => exact .inr serial
    | lock => exact .inr serial
    | @append rwSet =>
      by_cases written : WritesCell rwSet read.location.composed
      · exact .inl (overwritten_append started written)
      · refine .inr ?_
        rwa [serialValue_append_of_not_writes entries written]

theorem MissValid.advance {loc : StateKey} (valid : MissValid scope entries pending txExecSeq loc) (started : txExecSeq ≤ entries.length)
    (advance : Advance entries pending entries' pending') :
    MissValid scope entries' pending' txExecSeq loc := by
  refine ⟨valid.1, ?_⟩
  rcases valid.2 with overwritten | unwritten
  · exact .inl (overwritten.advance started advance)
  · cases advance with
    | stay => exact .inr unwritten
    | lock => exact .inr unwritten
    | @append rwSet =>
      by_cases written : WritesCell rwSet loc.composed
      · exact .inl (overwritten_append started written)
      · refine .inr ?_
        intro other member
        rcases List.mem_append.mp member with earlier | last
        · exact unwritten other earlier
        · rwa [List.mem_singleton.mp last]

theorem ContextValid.advance {ctx : SimContext} (valid : ContextValid base scope blockVersion entries pending ctx)
    (advance : Advance entries pending entries' pending') :
    ContextValid base scope blockVersion entries' pending' ctx where
  started := valid.started.trans advance.length_le
  reads read member := (valid.reads read member).advance valid.started advance
  version := valid.version
  puts := valid.puts

theorem CallValid.advance {call : TxApply Tx Result} (valid : CallValid base scope entries pending call)
    (advance : Advance entries pending entries' pending') :
    CallValid base scope entries' pending' call where
  started := valid.started.trans advance.length_le
  reads read member := (valid.reads read member).advance valid.started advance

theorem PhaseValid.advance {phase : Phase Tx Result} (valid : PhaseValid base scope blockVersion entries pending phase)
    (advance : Advance entries pending entries' pending') :
    PhaseValid base scope blockVersion entries' pending' phase := by
  cases phase with
  | waiting | applying | accepted => trivial
  | executing ctx => exact ContextValid.advance valid advance
  | missedWrite ctx loc => exact ⟨valid.1.advance advance, valid.2.advance valid.1.started advance⟩
  | missedRead ctx loc => exact ⟨valid.1.advance advance, valid.2.advance valid.1.started advance⟩
  | checking call reads => exact CallValid.advance valid advance
  | locking call => exact CallValid.advance valid advance

end Advance

section LocalSteps

variable {base : StateKey → Except ε Bytes} {scope own : Set StateKey} {blockVersion : Nat}
  {s : State Tx Result ε} {payload : Tx → Payload} {tx : Tx} {ctx : SimContext}

variable {entries : List TxRWSet} {pending : Option TxRWSet}

theorem ContextValid.putIntoReadSet (valid : ContextValid base scope blockVersion entries pending ctx) {loc : StateKey} {value : Bytes}
    (read : ReadValid base scope entries pending ctx.txExecSeq ⟨loc.contractName, loc.key, value⟩) :
    ContextValid base scope blockVersion entries pending (ctx.putIntoReadSet loc value) where
  started := valid.started
  reads other member := by
    rcases List.mem_append.mp member with old | new
    · exact valid.reads other (List.mem_of_mem_filter old)
    · rw [List.mem_singleton.mp new]
      exact read
  version := valid.version
  puts := valid.puts

theorem ContextValid.putIntoWriteSet {ctx' : SimContext} (valid : ContextValid base scope blockVersion entries pending ctx) {loc : StateKey}
    {value : Bytes} (put : ctx.putIntoWriteSet loc value = some ctx') :
    ContextValid base scope blockVersion entries pending ctx' := by
  obtain ⟨reads, version, started⟩ := SimContext.putIntoWriteSet_reads put
  refine ⟨started ▸ valid.started, ?_, version.trans valid.version, ?_⟩
  · rw [reads, started]
    exact valid.reads
  · intro write member
    rcases SimContext.mem_of_putIntoWriteSet put member with old | short
    · exact valid.puts write old
    · exact short

/-- An answer from the own writes leaves nothing behind. -/
theorem ContextValid.cached {ctx' : SimContext} {own : Set StateKey}
    (valid : ContextValid base scope blockVersion entries pending ctx) (unrecorded : OwnReadsUnrecorded blockVersion own)
    {loc : StateKey} {value : Bytes} (inOwn : ctx.getFromWriteSet loc ≠ none → loc ∈ own)
    (cached : ctx.getCached loc = some (value, ctx')) : ctx' = ctx := by
  rcases unrecorded with recent | long
  · exact SimContext.getCached_context (valid.version ▸ recent) cached
  · unfold SimContext.getCached at cached
    split at cached
    · next found =>
      obtain ⟨write, present, _⟩ := Option.map_eq_some_iff.mp found
      have short := valid.puts write (List.mem_of_find?_eq_some present)
      have here : write.location = loc := by simpa using List.find?_some present
      have tooLong := long loc (inOwn (by rw [found]; exact Option.some_ne_none _))
      rw [← here] at tooLong
      exact absurd short (Nat.not_le_of_lt tooLong)
    · obtain ⟨_, _, same⟩ := Option.map_eq_some_iff.mp cached
      cases same
      rfl

theorem ContextValid.call (valid : ContextValid base scope blockVersion entries pending ctx) (tx : Tx) (txId : Bytes) (result : Result)
    (runVmSuccess : Bool) :
    CallValid base scope entries pending ⟨tx, ctx.txExecSeq, ctx.getTxRWSet txId runVmSuccess, result, runVmSuccess⟩ where
  started := valid.started
  reads read member :=
    valid.reads read ((SimContext.mem_getTxRWSet_txReads _ _ _ _).mp member)

theorem SnapshotValid.getByLock_eq {holder : Option (Applying Tx Result)}
    {snapshot : SnapshotImpl Tx Result ε} (valid : SnapshotValid base scope blockVersion snapshot holder)
    {cell : Bytes}
    (untouched : ∀ applying, holder = some applying → ¬ WritesCell applying.call.txRWSet cell) :
    snapshot.writeTable.getByLock cell = lastWriter snapshot.txRWSetTable cell := by
  have table := valid.writeTable
  cases holder with
  | none => exact table cell
  | some applying =>
    have idle := untouched applying rfl
    have cellTable := table cell
    have absent := (lastWrite_eq_none_iff_writesCell _ cell).mpr idle
    split at cellTable
    · rw [absent] at cellTable
      cases cellTable
    · rwa [lastWriter_append_of_not_writes _ idle] at cellTable

variable (s) in
theorem overwritten_or_getByLock_eq (valid : Valid base scope blockVersion s) (txExecSeq : Nat) (cell : Bytes) :
    Overwritten s.entries s.pending txExecSeq cell ∨ s.snapshot.writeTable.getByLock cell = lastWriter s.entries cell := by
  by_cases touched : ∃ applying, s.holder = some applying ∧ WritesCell applying.call.txRWSet cell
  · obtain ⟨applying, held, written⟩ := touched
    exact .inl (.inr ⟨applying.call.txRWSet, by simp [State.pending, held], written⟩)
  · refine .inr (valid.snapshot.getByLock_eq ?_)
    intro applying held written
    exact touched ⟨applying, held, written⟩

theorem Valid.readTable_serial (valid : Valid base scope blockVersion s) (respects : BaseRespectsKeys base scope) {loc : StateKey}
    (inScope : loc ∈ scope) {sv : Sv} (found : s.snapshot.readTable.getByLock loc.composed = some sv)
    (unwritten : ∀ rwSet ∈ s.entries, ¬ WritesCell rwSet loc.composed) : serialValue base s.entries loc = .ok sv.value := by
  obtain ⟨other, otherIn, sameCell, position, earlier⟩ := valid.snapshot.readTable _ _ found
  have unwrittenThen : ∀ rwSet ∈ s.entries.take position, ¬ WritesCell rwSet other.composed := by
    intro rwSet member
    rw [sameCell]
    exact unwritten rwSet (List.mem_of_mem_take member)
  have early : serialValue base (s.entries.take position) other = .ok sv.value := earlier
  rw [serialValue_of_unwritten unwrittenThen] at early
  have value := respects other otherIn loc inScope sameCell sv.value early
  exact (serialValue_of_unwritten unwritten).trans value

theorem LocalStep.phaseValid (respects : BaseRespectsKeys base scope) (unrecorded : OwnReadsUnrecorded blockVersion own) (valid : Valid base scope blockVersion s) {phase phase' : Phase Tx Result}
    {lockFree : Prop} (step : LocalStep payload tx scope own s.snapshot lockFree phase phase')
    (phaseValid : PhaseValid base scope blockVersion s.entries s.pending phase) :
    PhaseValid base scope blockVersion s.entries s.pending phase' := by
  cases step with
  | create =>
    refine ⟨?_, by simp [newTxSimContext], valid.snapshot.version, by simp [newTxSimContext]⟩
    exact Nat.le_of_eq valid.snapshot.aligned
  | put put => exact ContextValid.putIntoWriteSet phaseValid put
  | cached inOwn cached =>
    rw [ContextValid.cached phaseValid unrecorded inOwn cached]
    exact phaseValid
  | @hitWrite ctx loc sv inScope _ found =>
    refine ContextValid.putIntoReadSet phaseValid ⟨inScope, ?_⟩
    rcases overwritten_or_getByLock_eq s valid ctx.txExecSeq loc.composed with
      overwritten | table
    · exact .inl overwritten
    · refine .inr ?_
      rw [serialValue_eq]
      rw [table] at found
      exact congrArg (fun writer => Option.elim writer _ _) found
  | @missWrite ctx loc inScope _ absent =>
    refine ⟨phaseValid, inScope, ?_⟩
    rcases overwritten_or_getByLock_eq s valid ctx.txExecSeq loc.composed with
      overwritten | table
    · exact .inl overwritten
    · rw [table] at absent
      exact .inr ((lastWriter_eq_none_iff _ _).mp absent)
  | @hitRead ctx loc sv found =>
    obtain ⟨context, inScope, missed⟩ := phaseValid
    refine context.putIntoReadSet ⟨inScope, ?_⟩
    rcases missed with overwritten | unwritten
    · exact .inl overwritten
    · exact .inr (valid.readTable_serial respects inScope found unwritten)
  | missRead _ => exact phaseValid
  | @readBase ctx loc value found =>
    obtain ⟨context, inScope, missed⟩ := phaseValid
    refine context.putIntoReadSet ⟨inScope, ?_⟩
    rcases missed with overwritten | unwritten
    · exact .inl overwritten
    · refine .inr ?_
      rw [valid.snapshot.base_eq] at found
      exact (serialValue_of_unwritten unwritten).trans found
  | baseError _ => exact phaseValid.1
  | finish _ _ => exact ContextValid.call phaseValid _ _ _ _
  | finishSealed _ _ => trivial
  | finishSZ _ => exact ContextValid.call phaseValid _ _ _ _
  | checkPass _ => exact phaseValid
  | checkFail _ => trivial
  | checked => exact phaseValid
  | reject _ _ => trivial

end LocalSteps

section SharedSteps

variable {base : StateKey → Except ε Bytes} {scope : Set StateKey} {blockVersion : Nat}
  {snapshot : SnapshotImpl Tx Result ε} {payload : Tx → Payload} {holder : Applying Tx Result}

theorem not_overwritten_of_accepts (valid : SnapshotValid base scope blockVersion snapshot none)
    {call : TxApply Tx Result} (accepts : snapshot.accepts call = true) {read : TxRead}
    (member : read ∈ call.txRWSet.txReads) :
    ¬ Overwritten snapshot.txRWSetTable none call.txExecSeq read.location.composed := by
  rintro (⟨position, writer, late, present, written⟩ | ⟨_, held, _⟩)
  · obtain ⟨sv, last, bound⟩ := lastWriter_seq present written
    have table : snapshot.writeTable.getByLock read.location.composed = some sv :=
      (valid.writeTable read.location.composed).trans last
    rw [SnapshotImpl.accepts, Bool.or_eq_true] at accepts
    rcases accepts with untouched | clean
    · have inside := (List.getElem?_eq_some_iff.mp present).1
      have size : snapshot.txTable.length ≤ call.txExecSeq := of_decide_eq_true untouched
      rw [valid.aligned] at size
      omega
    · have unconflicted := List.all_eq_true.mp clean read member
      have conflict : snapshot.conflicted call.txExecSeq (constructKey read.contractName read.key) = true := by
        have found : snapshot.writeTable.getByLock (constructKey read.contractName read.key) = some sv := table
        rw [SnapshotImpl.conflicted, found]
        exact decide_eq_true (late.trans bound)
      rw [conflict] at unconflicted
      cases unconflicted
  · cases held

theorem SnapshotValid.lock (valid : SnapshotValid base scope blockVersion snapshot none)
    {call : TxApply Tx Result} (callValid : CallValid base scope snapshot.txRWSetTable none call)
    (accepts : snapshot.accepts call = true) {reads writes : List (Bytes × Bytes)}
    (order : snapshot.PutOrder payload call reads writes) (worker : Nat) (concurrent : Bool) :
    SnapshotValid base scope blockVersion snapshot (some ⟨worker, call, concurrent, reads, writes⟩) where
  base_eq := valid.base_eq
  version := valid.version
  aligned := valid.aligned
  serial := valid.serial
  readTable := valid.readTable
  writeTable cell := by
    simp only [order.lastWrite_eq]
    split
    · next value found => exact found
    · next absent =>
      rw [lastWriter_append_of_not_writes _ ((lastWrite_eq_none_iff_writesCell _ cell).mp absent)]
      exact valid.writeTable cell
  holder applying held := by
    cases held
    refine ⟨?_, fun entry member => order.mem_reads member⟩
    intro read member
    obtain ⟨inScope, overwritten | serial⟩ := callValid.reads read member
    · exact absurd overwritten (not_overwritten_of_accepts valid accepts member)
    · exact ⟨inScope, serial⟩

variable {rest : List (Bytes × Bytes)}

theorem SnapshotValid.putRead (valid : SnapshotValid base scope blockVersion snapshot (some holder))
    {entry : Bytes × Bytes} (next : holder.reads = entry :: rest) :
    SnapshotValid base scope blockVersion (snapshot.putRead entry) (some { holder with reads := rest }) where
  base_eq := valid.base_eq
  version := valid.version
  aligned := valid.aligned
  serial := valid.serial
  readTable cell sv found := by
    rw [SnapshotImpl.putRead, ShardSet.getByLock_putByLock] at found
    split at found
    · next same =>
      cases found
      obtain ⟨read, member, rfl⟩ :=
        (valid.holder holder rfl).reads entry (by rw [next]; exact .head _)
      obtain ⟨inScope, serial⟩ := (valid.holder holder rfl).serial read member
      refine ⟨read.location, inScope, same, snapshot.txRWSetTable.length, ?_⟩
      have whole : (snapshot.putRead (composedRead read)).txRWSetTable.take
          snapshot.txRWSetTable.length = snapshot.txRWSetTable := List.take_length
      rw [whole]
      exact serial
    · exact valid.readTable cell sv found
  writeTable := valid.writeTable
  holder applying held := by
    cases held
    refine ⟨(valid.holder holder rfl).serial, ?_⟩
    intro other member
    refine (valid.holder holder rfl).reads other ?_
    rw [next]
    exact .tail _ member

theorem SnapshotValid.putWrite (valid : SnapshotValid base scope blockVersion snapshot (some holder))
    {entry : Bytes × Bytes} (next : holder.writes = entry :: rest) :
    SnapshotValid base scope blockVersion (snapshot.putWrite entry) (some { holder with writes := rest }) where
  base_eq := valid.base_eq
  version := valid.version
  aligned := valid.aligned
  serial := valid.serial
  readTable := valid.readTable
  writeTable cell := by
    have before := valid.writeTable cell
    simp only [next, lastWrite, id] at before
    simp only [SnapshotImpl.putWrite, ShardSet.getByLock_putByLock]
    cases later : lastWrite id rest cell with
    | some value =>
      simpa [later] using before
    | none =>
      by_cases same : entry.1 = cell
      · rw [later, if_pos same] at before
        simp only [Option.none_or] at before
        rw [if_pos same, lastWriter_append, before, valid.aligned]
        rfl
      · rw [later, if_neg same] at before
        simp only [Option.none_or] at before
        rw [if_neg same]
        exact before
  holder applying held := by
    cases held
    exact ⟨(valid.holder holder rfl).serial, (valid.holder holder rfl).reads⟩

theorem SnapshotValid.append (valid : SnapshotValid base scope blockVersion snapshot (some holder)) (done : holder.writes = []) :
    SnapshotValid base scope blockVersion (snapshot.appendTx payload holder.call) none where
  base_eq := valid.base_eq
  version := valid.version
  aligned := by simp [SnapshotImpl.appendTx, valid.aligned]
  serial position rwSet present read member := by
    simp only [SnapshotImpl.appendTx] at present ⊢
    rcases getElem?_concat_cases present with ⟨_, earlier, before⟩ | ⟨_, rfl, before⟩
    · rw [before]
      exact valid.serial position rwSet earlier read member
    · rw [before]
      exact ((valid.holder holder rfl).serial read member).2
  readTable cell sv found := by
    obtain ⟨loc, inScope, same, position, serial⟩ := valid.readTable cell sv found
    refine ⟨loc, inScope, same, min position snapshot.txRWSetTable.length, ?_⟩
    simp only [SnapshotImpl.appendTx]
    rw [List.take_append_of_le_length (Nat.min_le_right _ _), ← List.take_take, List.take_length]
    exact serial
  writeTable cell := by
    have table := valid.writeTable cell
    rw [done] at table
    exact table
  holder applying held := by cases held

theorem SnapshotValid.sealed {holder : Option (Applying Tx Result)} (valid : SnapshotValid base scope blockVersion snapshot holder) :
    SnapshotValid base scope blockVersion { snapshot with isSealed := true } holder where
  base_eq := valid.base_eq
  version := valid.version
  aligned := valid.aligned
  serial := valid.serial
  readTable := valid.readTable
  writeTable := by
    have table := valid.writeTable
    cases holder with
    | none => exact table
    | some applying => exact table
  holder applying held := ⟨(valid.holder applying held).serial, (valid.holder applying held).reads⟩

end SharedSteps

section Runs

variable {base : StateKey → Except ε Bytes} {scope own : Set StateKey} {blockVersion : Nat}
  {payload : Tx → Payload} {tx : Nat → Tx} {s : State Tx Result ε}

theorem phases_enter {s' : State Tx Result ε} {worker : Nat} {phase : Phase Tx Result}
    (phases : ∀ other, PhaseValid base scope blockVersion s.entries s.pending (s.phase other))
    (advance : Advance s.entries s.pending s'.entries s'.pending)
    (moved : s'.phase = Function.update s.phase worker phase)
    (valid : PhaseValid base scope blockVersion s'.entries s'.pending phase) (other : Nat) :
    PhaseValid base scope blockVersion s'.entries s'.pending (s'.phase other) := by
  rw [moved]
  by_cases same : other = worker
  · rw [same, Function.update_self]
    exact valid
  · rw [Function.update_of_ne same]
    exact (phases other).advance advance

theorem Step.valid (respects : BaseRespectsKeys base scope) (unrecorded : OwnReadsUnrecorded blockVersion own) {s' : State Tx Result ε}
    (step : Step payload tx scope own s s') (valid : Valid base scope blockVersion s) : Valid base scope blockVersion s' := by
  cases step with
  | @work worker phase local_ =>
    exact ⟨valid.snapshot, phases_enter valid.phases .stay rfl (local_.phaseValid respects unrecorded valid (valid.phases worker))⟩
  | @lock worker call reads writes ready free _ accepts order =>
    have snapshotValid := valid.snapshot
    have callValid := valid.phases worker
    rw [ready] at callValid
    simp only [free] at snapshotValid
    have nothing : s.pending = none := by simp [State.pending, free]
    rw [nothing] at callValid
    refine ⟨snapshotValid.lock callValid accepts order _ _, phases_enter valid.phases ?_ rfl trivial⟩
    rw [nothing]
    exact .lock
  | @putRead holder entry rest held next =>
    have snapshotValid := valid.snapshot
    rw [held] at snapshotValid
    refine ⟨snapshotValid.putRead next, ?_⟩
    have same : s.pending = some holder.call.txRWSet := by simp [State.pending, held]
    have phases := valid.phases
    rw [same] at phases
    exact phases
  | @putWrite holder entry rest held next _ =>
    have snapshotValid := valid.snapshot
    rw [held] at snapshotValid
    refine ⟨snapshotValid.putWrite next, ?_⟩
    have same : s.pending = some holder.call.txRWSet := by simp [State.pending, held]
    have phases := valid.phases
    rw [same] at phases
    exact phases
  | @append holder held _ done =>
    have snapshotValid := valid.snapshot
    rw [held] at snapshotValid
    have same : s.pending = some holder.call.txRWSet := by simp [State.pending, held]
    refine ⟨snapshotValid.append done, phases_enter valid.phases ?_ rfl trivial⟩
    rw [same]
    exact .append
  | sealed => exact ⟨valid.snapshot.sealed, valid.phases⟩

theorem valid_init (blockVersion : Nat) (preSnapshot : List Layer) (blockchainStore : StateKey → Except ε Bytes) :
    Valid (getKeyBelow blockchainStore · preSnapshot) scope blockVersion (State.init (SnapshotImpl.newSnapshot blockVersion preSnapshot blockchainStore :
        SnapshotImpl Tx Result ε)) where
  snapshot := {
    base_eq := rfl
    version := rfl
    aligned := rfl
    serial := by
      intro position rwSet present
      simp [State.init, SnapshotImpl.newSnapshot] at present
    readTable := by
      intro cell sv found
      simp [State.init, SnapshotImpl.newSnapshot] at found
    writeTable := by
      intro cell
      simp [State.init, SnapshotImpl.newSnapshot, lastWriter]
    holder := by
      intro applying held
      cases held }
  phases := fun _ => trivial

theorem Reachable.valid (blockVersion : Nat) (preSnapshot : List Layer) (blockchainStore : StateKey → Except ε Bytes)
    (respects : BaseRespectsKeys (getKeyBelow blockchainStore · preSnapshot) scope) (unrecorded : OwnReadsUnrecorded blockVersion own)
    (reachable : Reachable payload tx scope own (SnapshotImpl.newSnapshot blockVersion preSnapshot blockchainStore) s) :
    Valid (getKeyBelow blockchainStore · preSnapshot) scope blockVersion s := by
  induction reachable with
  | refl => exact valid_init blockVersion preSnapshot blockchainStore
  | tail _ step ih => exact step.valid respects unrecorded ih

end Runs

end Pdcc.Snapshot.Occ
