import Pdcc.Snapshot.OccInvariant

/-!
# Serializability of optimistic execution

Accepted transactions read what a serial execution gives them as long as the
base state does not tell apart locations with the same composed key and reads of
own writes are not recorded. Otherwise the cache of read values answers a read of
one location with the base value of another, or the read set itself holds a value
the transaction has written.
-/

set_option autoImplicit false

namespace Pdcc.Snapshot.Occ

open Ledger Library

variable {Tx Result ε : Type} {payload : Tx → Payload}
  {scope own : Set StateKey}

section Reader

theorem work_chain {tx : Nat → Tx} {s : State Tx Result ε} {worker : Nat} {phase phase' : Phase Tx Result} (here : s.phase worker = phase)
    (chain : Relation.ReflTransGen (LocalStep payload (tx worker) scope own s.snapshot (s.holder = none)) phase phase') :
    Relation.ReflTransGen (Step payload tx scope own) s (s.enter worker phase') := by
  induction chain with
  | refl =>
    have same : s.enter worker phase = s := by
      rw [State.enter, ← here, Function.update_eq_self]
    rw [same]
  | @tail middle last _ step ih =>
    have next : (s.enter worker middle).enter worker last = s.enter worker last := by
      simp [State.enter]
    rw [← next]
    refine ih.tail (.work ?_)
    simpa [State.enter] using step

def readCall (tx : Tx) (txId : Bytes) (txExecSeq : Nat) (loc : StateKey) (value : Bytes)
    (result : Result) : TxApply Tx Result :=
  ⟨tx, txExecSeq, ⟨txId, [⟨loc.contractName, loc.key, value⟩], []⟩, result, true⟩

private theorem putOrder_of_normal {s : SnapshotImpl Tx Result ε} {call : TxApply Tx Result}
    (normal : (payload call.tx).contractName ∉ szContractList) (applied : s.blockVersion < blockVersion2201 ∨ call.runVmSuccess = true) :
    s.PutOrder payload call (finalReadKvs call.txRWSet) (finalWriteKvs call.txRWSet) := by
  have other : ¬ szContractList.contains (payload call.tx).contractName = true :=
    fun listed => normal (List.contains_iff_mem.mp listed)
  rw [SnapshotImpl.PutOrder, if_neg other, SnapshotImpl.MapPuts, SnapshotImpl.appliedReads, if_pos applied]
  exact ⟨List.Perm.refl _, List.Perm.refl _⟩

theorem puts_chain {tx : Nat → Tx} {s : State Tx Result ε} {holder : Applying Tx Result} (held : s.holder = some holder) :
    Relation.ReflTransGen (Step payload tx scope own) s
      { s with
        snapshot := holder.writes.foldl SnapshotImpl.putWrite (holder.reads.foldl SnapshotImpl.putRead s.snapshot)
        holder := some { holder with reads := [], writes := [] } } := by
  obtain ⟨worker, call, concurrent, reads, writes⟩ := holder
  induction reads generalizing s with
  | cons entry reads ih => exact .head (.putRead held rfl) (ih rfl)
  | nil =>
    induction writes generalizing s with
    | cons entry writes ih => exact .head (.putWrite held rfl (.inr rfl)) (ih rfl)
    | nil =>
      have same : { s with snapshot := s.snapshot, holder := some ⟨worker, call, concurrent, [], []⟩ } = s := by
        rw [← held]
      exact same ▸ .refl

/-- A transaction whose execution nobody disturbs is accepted with what it read. -/
theorem call_accepted {tx : Nat → Tx} {s : State Tx Result ε} {worker : Nat} {call : TxApply Tx Result}
    (free : s.holder = none) (idle : s.phase worker = .waiting) (unsealed : s.snapshot.isSealed = false)
    (current : s.snapshot.getSnapshotSize ≤ call.txExecSeq)
    (executed : Relation.ReflTransGen (LocalStep payload (tx worker) scope own s.snapshot (s.holder = none)) .waiting
      (.checking call call.txRWSet.txReads))
    (unwritten : ∀ read ∈ call.txRWSet.txReads, s.snapshot.writeTable.getByLock read.location.composed = none)
    {reads writes : List (Bytes × Bytes)} (order : s.snapshot.PutOrder payload call reads writes) :
    ∃ s', Relation.ReflTransGen (Step payload tx scope own) s s' ∧ s'.holder = none ∧
      s'.snapshot = (writes.foldl SnapshotImpl.putWrite (reads.foldl SnapshotImpl.putRead s.snapshot)).appendTx payload call ∧
      ∀ other, other ≠ worker → s'.phase other = s.phase other := by
  have checks : ∀ reads, (∀ read ∈ reads, read ∈ call.txRWSet.txReads) →
      Relation.ReflTransGen (LocalStep payload (tx worker) scope own s.snapshot (s.holder = none)) (.checking call reads) (.locking call) := by
    intro reads
    induction reads with
    | nil => exact fun _ => .single .checked
    | cons read rest ih =>
      intro members
      have absent : s.snapshot.writeTable.getByLock (constructKey read.contractName read.key) = none :=
        unwritten read (members read (.head _))
      refine .head (.checkPass ?_) (ih fun other member => members other (.tail _ member))
      rw [SnapshotImpl.conflicted, absent]
  have accepts : s.snapshot.accepts call = true := by
    rw [SnapshotImpl.accepts, Bool.or_eq_true]
    exact .inl (decide_eq_true current)
  have ready : (s.enter worker (.locking call)).phase worker = .locking call := by
    simp [State.enter]
  have locked := (work_chain idle (executed.trans (checks _ fun _ member => member))).tail (.lock ready free unsealed accepts order)
  refine ⟨_, (locked.trans (puts_chain rfl)).tail (.append rfl rfl rfl), rfl, rfl, ?_⟩
  intro other different
  simp [State.enter, different]

theorem read_accepted {tx : Nat → Tx} (result : Result) {s : State Tx Result ε} {worker : Nat}
    {loc : StateKey} {value : Bytes} (normal : (payload (tx worker)).contractName ∉ szContractList)
    (inScope : loc ∈ scope) (free : s.holder = none) (idle : s.phase worker = .waiting)
    (unsealed : s.snapshot.isSealed = false)
    (unwritten : s.snapshot.writeTable.getByLock loc.composed = none)
    (found : s.snapshot.getKey loc = .ok value) :
    ∃ s', Relation.ReflTransGen (Step payload tx scope own) s s' ∧ s'.holder = none ∧
      s'.snapshot = (s.snapshot.putRead (loc.composed, value)).appendTx payload
        (readCall (tx worker) (payload (tx worker)).txId s.snapshot.getSnapshotSize loc value result) ∧
      ∀ other, other ≠ worker → s'.phase other = s.phase other := by
  let fresh := newTxSimContext s.snapshot.blockVersion s.snapshot.getSnapshotSize
  let call := readCall (tx worker) (payload (tx worker)).txId s.snapshot.getSnapshotSize loc value result
  let step := LocalStep payload (tx worker) scope own s.snapshot (s.holder = none)
  have reads : Relation.ReflTransGen step (.missedWrite fresh loc) (.executing (fresh.putIntoReadSet loc value)) := by
    rw [SnapshotImpl.getKey, unwritten] at found
    cases cached : s.snapshot.readTable.getByLock loc.composed with
    | some sv =>
      rw [cached] at found
      have same : sv.value = value := Except.ok.inj found
      rw [← same]
      exact .single (.hitRead cached)
    | none =>
      rw [cached] at found
      exact (Relation.ReflTransGen.single (.missRead cached)).tail (.readBase found)
  have started : Relation.ReflTransGen step .waiting (.missedWrite fresh loc) :=
    (Relation.ReflTransGen.single .create).tail (.missWrite inScope rfl unwritten)
  have finish : step (.executing (fresh.putIntoReadSet loc value)) (.checking call call.txRWSet.txReads) := .finish normal unsealed
  refine call_accepted free idle unsealed (Nat.le_refl _) ((started.trans reads).tail finish) ?_ (putOrder_of_normal normal (.inr rfl))
  intro read member
  rw [List.mem_singleton.mp member]
  exact unwritten

variable (payload scope own) in
theorem cached_read_accepted (tx : Nat → Tx) (result : Result) (normal : ∀ worker, (payload (tx worker)).contractName ∉ szContractList)
    (blockVersion : Nat) (preSnapshot : List Layer)
    (blockchainStore : StateKey → Except ε Bytes) (loc other : StateKey) (value : Bytes)
    (inScope : loc ∈ scope) (otherIn : other ∈ scope) (sameCell : loc.composed = other.composed)
    (found : getKeyBelow blockchainStore loc preSnapshot = .ok value) :
    ∃ s : State Tx Result ε, Reachable payload tx scope own (SnapshotImpl.newSnapshot blockVersion preSnapshot blockchainStore) s ∧
      s.snapshot.txRWSetTable = [⟨(payload (tx 0)).txId, [⟨loc.contractName, loc.key, value⟩], []⟩,
          ⟨(payload (tx 1)).txId, [⟨other.contractName, other.key, value⟩], []⟩] := by
  let start : SnapshotImpl Tx Result ε :=
    SnapshotImpl.newSnapshot blockVersion preSnapshot blockchainStore
  have fresh : start.getKey loc = .ok value := by
    simp only [start, SnapshotImpl.getKey, SnapshotImpl.newSnapshot, ShardSet.getByLock_newShardSet]
    exact found
  obtain ⟨middle, first, free, snapshot, others⟩ := read_accepted (s := State.init start) result
    (normal 0) inScope rfl rfl rfl (ShardSet.getByLock_newShardSet _) fresh
  have cached : middle.snapshot.getKey other = .ok value := by
    rw [snapshot, SnapshotImpl.getKey]
    simp only [SnapshotImpl.appendTx, SnapshotImpl.putRead, State.init, start,
      SnapshotImpl.newSnapshot, ShardSet.getByLock_newShardSet, ShardSet.getByLock_putByLock,
      sameCell, if_true]
  obtain ⟨final, second, _, finalSnapshot, _⟩ := read_accepted result (normal 1) otherIn free
    (by rw [others 1 (by decide)]; rfl) (by rw [snapshot]; rfl)
    (by rw [snapshot]; exact ShardSet.getByLock_newShardSet _) cached
  refine ⟨final, first.trans second, ?_⟩
  rw [finalSnapshot, snapshot]
  rfl

/-- Before v2.3.5 a transaction that gets back what it has put is accepted with a
read of its own value. -/
theorem own_read_accepted (payload : Tx → Payload) (scope : Set StateKey) (tx : Nat → Tx) (result : Result)
    (normal : (payload (tx 0)).contractName ∉ szContractList) {blockVersion : Nat} (old : blockVersion < v235)
    (preSnapshot : List Layer) (blockchainStore : StateKey → Except ε Bytes) {loc : StateKey} (inOwn : loc ∈ own)
    (short : loc.key.length ≤ maxKeyLength) (value : Bytes) :
    ∃ s : State Tx Result ε, Reachable payload tx scope own (SnapshotImpl.newSnapshot blockVersion preSnapshot blockchainStore) s ∧
      s.snapshot.txRWSetTable = [⟨(payload (tx 0)).txId, [⟨loc.contractName, loc.key, value⟩], [⟨loc.contractName, loc.key, value⟩]⟩] := by
  let start : SnapshotImpl Tx Result ε := SnapshotImpl.newSnapshot blockVersion preSnapshot blockchainStore
  let step := LocalStep payload (tx 0) scope own start ((State.init start).holder = none)
  let fresh := newTxSimContext blockVersion 0
  let written : SimContext := { fresh with txWriteKeyMap := [⟨loc.contractName, loc.key, value⟩] }
  let call : TxApply Tx Result := ⟨tx 0, 0, ⟨(payload (tx 0)).txId, [⟨loc.contractName, loc.key, value⟩],
    [⟨loc.contractName, loc.key, value⟩]⟩, result, true⟩
  have put : fresh.putIntoWriteSet loc value = some written := by
    rw [SimContext.putIntoWriteSet, if_neg (Nat.not_lt_of_le short)]
    rfl
  have cached : written.getCached loc = some (value, written.putIntoReadSet loc value) := by
    have own : written.getFromWriteSet loc = some value := by
      simp [SimContext.getFromWriteSet, written, TxWrite.location]
    rw [SimContext.getCached, own]
    simp only [written, fresh, newTxSimContext, old, if_true]
  have rwSet : (written.putIntoReadSet loc value).getTxRWSet (payload (tx 0)).txId true = call.txRWSet := rfl
  have finish : step (.executing (written.putIntoReadSet loc value)) (.checking ⟨tx 0, 0, (written.putIntoReadSet loc value).getTxRWSet
      (payload (tx 0)).txId true, result, true⟩ ((written.putIntoReadSet loc value).getTxRWSet (payload (tx 0)).txId true).txReads) :=
    .finish normal rfl
  rw [rwSet] at finish
  have executed : Relation.ReflTransGen step .waiting (.checking call call.txRWSet.txReads) :=
    (((Relation.ReflTransGen.single .create).tail (.put put)).tail (.cached (fun _ => inOwn) cached)).tail finish
  obtain ⟨s, reachable, _, snapshot, _⟩ := call_accepted (s := State.init start) rfl rfl rfl (Nat.le_refl _) executed
    (fun _ _ => ShardSet.getByLock_newShardSet _) (putOrder_of_normal normal (.inr rfl))
  refine ⟨s, reachable, ?_⟩
  rw [snapshot]
  rfl

end Reader

section Serializability

/-- Over a given base state, every accepted transaction of every run reads
serially exactly when locations in play with the same composed key have the
same base value and reads of own writes are not recorded. -/
theorem accepted_reads_serial_iff (blockVersion : Nat) (preSnapshot : List Layer)
    (blockchainStore : StateKey → Except ε Bytes) (scope own : Set StateKey) :
    (∀ (Tx Result : Type) (payload : Tx → Payload) (tx : Nat → Tx) (s : State Tx Result ε),
      Reachable payload tx scope own (SnapshotImpl.newSnapshot blockVersion preSnapshot blockchainStore) s →
      SerialReads (getKeyBelow blockchainStore · preSnapshot) s.snapshot) ↔
    BaseRespectsKeys (getKeyBelow blockchainStore · preSnapshot) scope ∧
      OwnReadsUnrecorded blockVersion own := by
  constructor
  · intro serial
    refine ⟨?_, ?_⟩
    · intro loc inScope other otherIn sameCell value found
      obtain ⟨s, reachable, table⟩ := cached_read_accepted (fun _ => ⟨[], []⟩) scope own
        (fun _ => ()) () (fun _ => by decide) blockVersion preSnapshot blockchainStore loc other value
        inScope otherIn sameCell found
      have second := serial Unit Unit _ _ s reachable 1 _ (by rw [table]; rfl)
        ⟨other.contractName, other.key, value⟩ (.head _)
      rw [table] at second
      exact second
    · by_contra recorded
      obtain ⟨old, short⟩ := not_or.mp recorded
      simp only [not_forall] at short
      obtain ⟨loc, inOwn, short⟩ := short
      obtain ⟨value, absent⟩ : ∃ value, getKeyBelow blockchainStore loc preSnapshot ≠ .ok value := by
        cases getKeyBelow blockchainStore loc preSnapshot with
        | ok stored => exact ⟨stored ++ [0], by simp⟩
        | error cause => exact ⟨[], by simp⟩
      obtain ⟨s, reachable, table⟩ := own_read_accepted (fun _ => ⟨[], []⟩) scope (fun _ => ()) () (by decide) (Nat.lt_of_not_le old)
        preSnapshot blockchainStore inOwn (Nat.le_of_not_lt short) value
      exact absent (serial Unit Unit _ _ s reachable 0 _ (by rw [table]; rfl) ⟨loc.contractName, loc.key, value⟩ (.head _))
  · rintro ⟨respects, unrecorded⟩ Tx Result payload tx s reachable
    exact (Reachable.valid blockVersion preSnapshot blockchainStore respects unrecorded reachable).snapshot.serial

def collidingStore (loc : StateKey) : Except Empty Bytes :=
  if loc = ⟨ascii "A", ascii "bc"⟩ then .ok [1] else .ok []

/-- One transaction reads key `bc` of contract `A`, the next one key `c` of
contract `Ab`. The second is accepted with the value of the first, although
nothing was ever written. -/
theorem accepted_read_of_other_contract :
    ∃ s : State Unit Unit Empty, Reachable (fun _ => ⟨[], ascii "Ab"⟩) (fun _ => ()) Set.univ ∅
        (SnapshotImpl.newSnapshot v235 [] collidingStore) s ∧
      ∃ rwSet, s.snapshot.txRWSetTable[1]? = some rwSet ∧ rwSet.txReads = [⟨ascii "Ab", ascii "c", [1]⟩] ∧
        serialValue (getKeyBelow collidingStore · []) (s.snapshot.txRWSetTable.take 1)
          ⟨ascii "Ab", ascii "c"⟩ = .ok [] := by
  obtain ⟨s, reachable, table⟩ := cached_read_accepted
    (fun _ => ⟨[], ascii "Ab"⟩) Set.univ ∅ (fun _ => ()) () (fun _ => by decide) v235 []
    collidingStore ⟨ascii "A", ascii "bc"⟩ ⟨ascii "Ab", ascii "c"⟩ [1] trivial trivial (by decide)
    rfl
  refine ⟨s, reachable, _, by rw [table]; rfl, rfl, ?_⟩
  rw [table]
  rfl

end Serializability

end Pdcc.Snapshot.Occ
