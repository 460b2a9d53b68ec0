import Pdcc.Snapshot.Apply
import Pdcc.Ledger.SimContext
import Mathlib.Logic.Relation

/-!
# Optimistic execution on a snapshot

Any number of workers execute transactions against one snapshot and apply them
under its lock. Reads take no lock: each lookup of `GetKey` is a step of its
own, and the puts of a running apply become visible one by one. A transaction
whose apply fails is executed again.
-/

set_option autoImplicit false

namespace Pdcc.Snapshot.Occ

open Ledger Library

section Model

inductive Phase (Tx Result : Type) where
  | waiting
  | executing (ctx : SimContext)
  | missedWrite (ctx : SimContext) (loc : StateKey)
  | missedRead (ctx : SimContext) (loc : StateKey)
  | checking (call : TxApply Tx Result) (reads : List TxRead)
  | locking (call : TxApply Tx Result)
  | applying
  | accepted

structure Applying (Tx Result : Type) where
  worker : Nat
  call : TxApply Tx Result
  concurrent : Bool
  reads : List (Bytes × Bytes)
  writes : List (Bytes × Bytes)

structure State (Tx Result ε : Type) where
  snapshot : SnapshotImpl Tx Result ε
  holder : Option (Applying Tx Result)
  phase : Nat → Phase Tx Result

variable {Tx Result ε : Type}

def State.enter (s : State Tx Result ε) (worker : Nat) (phase : Phase Tx Result) :
    State Tx Result ε :=
  { s with phase := Function.update s.phase worker phase }

def State.init (snapshot : SnapshotImpl Tx Result ε) : State Tx Result ε where
  snapshot := snapshot
  holder := none
  phase := fun _ => .waiting

variable (payload : Tx → Payload) (tx : Tx) (scope own : Set StateKey)

/-- What a worker does without the lock: it executes its transaction, which reads
locations of `scope` from the snapshot and gets back what it has put itself at
locations of `own`, and checks the result for conflicts. -/
inductive LocalStep (s : SnapshotImpl Tx Result ε) (lockFree : Prop) :
    Phase Tx Result → Phase Tx Result → Prop where
  | create : LocalStep s lockFree .waiting
      (.executing (newTxSimContext s.blockVersion s.getSnapshotSize))
  | put {ctx ctx' loc value} : ctx.putIntoWriteSet loc value = some ctx' →
      LocalStep s lockFree (.executing ctx) (.executing ctx')
  | cached {ctx loc value ctx'} : (ctx.getFromWriteSet loc ≠ none → loc ∈ own) →
      ctx.getCached loc = some (value, ctx') →
      LocalStep s lockFree (.executing ctx) (.executing ctx')
  | hitWrite {ctx loc sv} : loc ∈ scope → ctx.getCached loc = none →
      s.writeTable.getByLock loc.composed = some sv →
      LocalStep s lockFree (.executing ctx) (.executing (ctx.putIntoReadSet loc sv.value))
  | missWrite {ctx loc} : loc ∈ scope → ctx.getCached loc = none →
      s.writeTable.getByLock loc.composed = none →
      LocalStep s lockFree (.executing ctx) (.missedWrite ctx loc)
  | hitRead {ctx loc sv} : s.readTable.getByLock loc.composed = some sv →
      LocalStep s lockFree (.missedWrite ctx loc) (.executing (ctx.putIntoReadSet loc sv.value))
  | missRead {ctx loc} : s.readTable.getByLock loc.composed = none →
      LocalStep s lockFree (.missedWrite ctx loc) (.missedRead ctx loc)
  | readBase {ctx loc value} : s.base loc = .ok value →
      LocalStep s lockFree (.missedRead ctx loc) (.executing (ctx.putIntoReadSet loc value))
  | baseError {ctx loc error} : s.base loc = .error error →
      LocalStep s lockFree (.missedRead ctx loc) (.executing ctx)
  | finish {ctx result runVmSuccess} :
      (payload tx).contractName ∉ szContractList → s.isSealed = false →
      LocalStep s lockFree (.executing ctx)
        (.checking ⟨tx, ctx.txExecSeq, ctx.getTxRWSet (payload tx).txId runVmSuccess, result,
          runVmSuccess⟩ (ctx.getTxRWSet (payload tx).txId runVmSuccess).txReads)
  | finishSealed {ctx} :
      (payload tx).contractName ∉ szContractList → s.isSealed = true →
      LocalStep s lockFree (.executing ctx) .waiting
  | finishSZ {ctx result runVmSuccess} :
      (payload tx).contractName ∈ szContractList →
      LocalStep s lockFree (.executing ctx)
        (.locking ⟨tx, ctx.txExecSeq, ctx.getTxRWSet (payload tx).txId runVmSuccess, result,
          runVmSuccess⟩)
  | checkPass {call read rest} :
      s.conflicted call.txExecSeq (constructKey read.contractName read.key) = false →
      LocalStep s lockFree (.checking call (read :: rest)) (.checking call rest)
  | checkFail {call read rest} :
      s.conflicted call.txExecSeq (constructKey read.contractName read.key) = true →
      LocalStep s lockFree (.checking call (read :: rest)) .waiting
  | checked {call} : LocalStep s lockFree (.checking call []) (.locking call)
  | reject {call} : lockFree →
      s.isSealed = true ∨ s.accepts call = false →
      LocalStep s lockFree (.locking call) .waiting

end Model

variable {Tx Result ε : Type} (payload : Tx → Payload) (tx : Nat → Tx)
  (scope own : Set StateKey)

/-- The steps of the workers; the check under the lock is one step. -/
inductive Step : State Tx Result ε → State Tx Result ε → Prop where
  | work {s worker phase} :
      LocalStep payload (tx worker) scope own s.snapshot (s.holder = none) (s.phase worker) phase →
      Step s (s.enter worker phase)
  | lock {s worker call reads writes} :
      s.phase worker = .locking call → s.holder = none → s.snapshot.isSealed = false →
      s.snapshot.accepts call = true → s.snapshot.PutOrder payload call reads writes →
      Step s { s.enter worker .applying with
        holder := some ⟨worker, call, decide ((payload call.tx).contractName ∉ szContractList),
          reads, writes⟩ }
  | putRead {s holder entry rest} :
      s.holder = some holder → holder.reads = entry :: rest →
      Step s { s with
        snapshot := s.snapshot.putRead entry
        holder := some { holder with reads := rest } }
  | putWrite {s holder entry rest} :
      s.holder = some holder → holder.writes = entry :: rest →
      holder.concurrent = true ∨ holder.reads = [] →
      Step s { s with
        snapshot := s.snapshot.putWrite entry
        holder := some { holder with writes := rest } }
  | append {s holder} :
      s.holder = some holder → holder.reads = [] → holder.writes = [] →
      Step s { s.enter holder.worker .accepted with
        snapshot := s.snapshot.appendTx payload holder.call
        holder := none }
  | sealed {s} : Step s { s with snapshot := { s.snapshot with isSealed := true } }

def Reachable (snapshot : SnapshotImpl Tx Result ε) (s : State Tx Result ε) : Prop :=
  Relation.ReflTransGen (Step payload tx scope own) (State.init snapshot) s

variable (base : StateKey → Except ε Bytes)

/-- The value that a serial execution of the entries leaves at `loc`: the last
write to its composed key, or the base state. -/
def serialValue (entries : List TxRWSet) (loc : StateKey) : Except ε Bytes :=
  match lastWrite StateKey.composed (entries.flatMap (·.writeEntries)) loc.composed with
  | some value => .ok value
  | none => base loc

/-- Every accepted transaction has read what a serial execution of those before
it leaves. -/
def SerialReads (s : SnapshotImpl Tx Result ε) : Prop :=
  ∀ position rwSet, s.txRWSetTable[position]? = some rwSet → ∀ read ∈ rwSet.txReads,
    serialValue base (s.txRWSetTable.take position) read.location = .ok read.value

/-- The base state does not tell apart locations with one composed key. -/
def BaseRespectsKeys (scope : Set StateKey) : Prop :=
  ∀ loc ∈ scope, ∀ other ∈ scope, loc.composed = other.composed →
    ∀ value, base loc = .ok value → base other = .ok value

/-- Reads of own writes are not recorded from v2.3.5 on; before, there are none of
locations with a key that can be put. -/
def OwnReadsUnrecorded (blockVersion : Nat) (own : Set StateKey) : Prop :=
  v235 ≤ blockVersion ∨ ∀ loc ∈ own, maxKeyLength < loc.key.length

end Pdcc.Snapshot.Occ
