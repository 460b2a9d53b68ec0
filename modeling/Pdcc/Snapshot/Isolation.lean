import Pdcc.Snapshot.Apply
import Pdcc.Ledger.SimContext
import Mathlib.Logic.Relation

/-!
# Isolation of contracts in a snapshot

Histories of accepted applies over one snapshot, with the executions that lead
to them. A read of a location is isolated if it returns the last applied write
to exactly this location, or the base value.
-/

set_option autoImplicit false

namespace Pdcc.Snapshot

open Ledger Library

section Model

structure History (Tx Result ε : Type) where
  snapshot : SnapshotImpl Tx Result ε
  earlier : List (SnapshotImpl Tx Result ε)
  writes : List (StateKey × Bytes)

variable {Tx Result ε : Type}

def History.states (h : History Tx Result ε) : List (SnapshotImpl Tx Result ε) :=
  h.snapshot :: h.earlier

def History.next (h : History Tx Result ε) (s : SnapshotImpl Tx Result ε)
    (writes : List (StateKey × Bytes)) : History Tx Result ε :=
  ⟨s, h.states, h.writes ++ writes⟩

def History.start (s : SnapshotImpl Tx Result ε) : History Tx Result ε := ⟨s, [], []⟩

/-- The contexts of executions that read at any state of the history. -/
inductive History.Executes (scope : Set StateKey) (h : History Tx Result ε) : SimContext → Prop where
  | create {s : SnapshotImpl Tx Result ε} : s ∈ h.states →
      Executes scope h (newTxSimContext s.blockVersion s.getSnapshotSize)
  | put {ctx ctx' : SimContext} {loc : StateKey} {value : Bytes} :
      Executes scope h ctx → loc ∈ scope → ctx.putIntoWriteSet loc value = some ctx' →
      Executes scope h ctx'
  | cached {ctx ctx' : SimContext} {loc : StateKey} {value : Bytes} :
      Executes scope h ctx → ctx.getCached loc = some (value, ctx') → Executes scope h ctx'
  | get {ctx : SimContext} {loc : StateKey} {s : SnapshotImpl Tx Result ε} {value : Bytes} :
      Executes scope h ctx → loc ∈ scope → ctx.getCached loc = none → s ∈ h.states →
      s.getKey loc = .ok value → Executes scope h (ctx.putIntoReadSet loc value)

def contextCall (payload : Tx → Payload) (ctx : SimContext) (tx : Tx) (result : Result)
    (runVmSuccess : Bool) : TxApply Tx Result :=
  ⟨tx, ctx.txExecSeq, ctx.getTxRWSet (payload tx).txId runVmSuccess, result, runVmSuccess⟩

/-- Accepted applies over the locations in play. -/
inductive History.Step (payload : Tx → Payload) (scope : Set StateKey) :
    History Tx Result ε → History Tx Result ε → Prop where
  | tx {h : History Tx Result ε} {ctx : SimContext} {tx : Tx} {result : Result}
      {runVmSuccess : Bool} {specialTxType : ExecOrderTxType} {applySpecialTx : Bool}
      {size : Nat} {s : SnapshotImpl Tx Result ε} :
      h.Executes scope ctx →
      h.snapshot.ApplyTxSimContext payload (contextCall payload ctx tx result runVmSuccess)
        specialTxType applySpecialTx (true, size) s →
      Step payload scope h (h.next s
        (if specialTxType = .special ∧ applySpecialTx = false then []
          else (ctx.getTxRWSet (payload tx).txId runVmSuccess).writeEntries))
  | blockTx {h : History Tx Result ε} {ctx : SimContext} {tx : Tx} {result : Result}
      {runVmSuccess : Bool} :
      h.Executes scope ctx →
      Step payload scope h
        (h.next (h.snapshot.apply payload (contextCall payload ctx tx result runVmSuccess))
          (ctx.getTxRWSet (payload tx).txId runVmSuccess).writeEntries)
  | writes {h : History Tx Result ε} {writes order : List TxWrite} :
      (∀ write ∈ writes, write.location ∈ scope) → h.snapshot.isSealed = false →
      WriteOrder writes order →
      Step payload scope h (h.next (h.snapshot.putWrites order) (order.map (·.entry)))
  | sealed {h : History Tx Result ε} :
      Step payload scope h (h.next { h.snapshot with isSealed := true } [])

def isolatedValue (base : StateKey → Except ε Bytes) (writes : List (StateKey × Bytes))
    (loc : StateKey) : Except ε Bytes :=
  match lastWrite id writes loc with
  | some value => .ok value
  | none => base loc

end Model

section Executions

variable {Tx Result ε : Type} {scope : Set StateKey} {h : History Tx Result ε}

structure History.ContextValid (scope : Set StateKey) (blockVersion : Nat)
    (h : History Tx Result ε) (ctx : SimContext) : Prop where
  version : ctx.blockVersion = blockVersion
  writes : ∀ write ∈ ctx.txWriteKeyMap,
    write.location ∈ scope ∧ write.location.key.length ≤ maxKeyLength
  reads : ∀ read ∈ ctx.txReadKeyMap,
    (read.location ∈ scope ∧ ∃ s ∈ h.states, s.getKey read.location = .ok read.value) ∨
    (blockVersion < v235 ∧ ∃ write ∈ ctx.txWriteKeyMap, write.location = read.location)

variable {ctx : SimContext} {loc : StateKey} {value : Bytes} {blockVersion : Nat}

private theorem mem_putIntoReadSet {read : TxRead} (member : read ∈ (ctx.putIntoReadSet loc value).txReadKeyMap) :
    read ∈ ctx.txReadKeyMap ∨ read = ⟨loc.contractName, loc.key, value⟩ := by
  rcases List.mem_append.mp member with kept | new
  · exact .inl (List.mem_of_mem_filter kept)
  · exact .inr (List.mem_singleton.mp new)

theorem History.ContextValid.putIntoWriteSet {ctx' : SimContext} (valid : h.ContextValid scope blockVersion ctx) (inScope : loc ∈ scope)
    (put : ctx.putIntoWriteSet loc value = some ctx') :
    h.ContextValid scope blockVersion ctx' := by
  unfold SimContext.putIntoWriteSet at put
  split at put
  · cases put
  · next short =>
    cases put
    refine ⟨valid.version, ?_, ?_⟩
    · intro write member
      rcases List.mem_append.mp member with kept | new
      · exact valid.writes write (List.mem_of_mem_filter kept)
      · cases List.mem_singleton.mp new
        exact ⟨inScope, not_lt.mp short⟩
    · intro read member
      refine (valid.reads read member).imp_right ?_
      rintro ⟨old, write, written, same⟩
      refine ⟨old, ?_⟩
      by_cases replaced : write.location = loc
      · exact ⟨⟨loc.contractName, loc.key, value⟩, by simp, replaced.symm.trans same⟩
      · refine ⟨write, List.mem_append_left _ (List.mem_filter.mpr ⟨written, ?_⟩), same⟩
        simpa using replaced

theorem History.ContextValid.getCached {ctx' : SimContext} (valid : h.ContextValid scope blockVersion ctx)
    (cached : ctx.getCached loc = some (value, ctx')) :
    h.ContextValid scope blockVersion ctx' := by
  unfold SimContext.getCached at cached
  split at cached
  · next own =>
    split at cached
    · next old =>
      cases cached
      refine ⟨valid.version, valid.writes, ?_⟩
      intro read member
      rcases mem_putIntoReadSet member with before | rfl
      · exact valid.reads read before
      · obtain ⟨write, found, _⟩ := Option.map_eq_some_iff.mp own
        have same : write.location = loc := by simpa using List.find?_some found
        exact .inr ⟨valid.version ▸ old, write, List.mem_of_find?_eq_some found, same⟩
    · cases cached
      exact valid
  · obtain ⟨_, _, same⟩ := Option.map_eq_some_iff.mp cached
    cases same
    exact valid

theorem History.Executes.contextValid (versions : ∀ s ∈ h.states, s.blockVersion = blockVersion)
    (executes : h.Executes scope ctx) : h.ContextValid scope blockVersion ctx := by
  induction executes with
  | create member => exact ⟨versions _ member, by simp [newTxSimContext], by simp [newTxSimContext]⟩
  | put _ inScope put ih => exact ih.putIntoWriteSet inScope put
  | cached _ cached ih => exact ih.getCached cached
  | get _ inScope _ member answered ih =>
    refine ⟨ih.version, ih.writes, ?_⟩
    intro read recorded
    rcases mem_putIntoReadSet recorded with before | rfl
    · exact ih.reads read before
    · exact .inl ⟨inScope, _, member, answered⟩

end Executions

section Invariant

variable {Tx Result ε : Type} {payload : Tx → Payload} {scope : Set StateKey}
  {base : StateKey → Except ε Bytes} {blockVersion : Nat} {h h' : History Tx Result ε}

def History.Unwritten (h : History Tx Result ε) (loc : StateKey) : Prop :=
  lastWrite StateKey.composed h.writes loc.composed = none

structure History.Inv (scope : Set StateKey) (base : StateKey → Except ε Bytes)
    (blockVersion : Nat) (h : History Tx Result ε) : Prop where
  unchanged : h.snapshot.base = base
  versions : ∀ s ∈ h.states, s.blockVersion = blockVersion
  within : ∀ write ∈ h.writes, write.1 ∈ scope
  written : ∀ cell, h.snapshot.writeValues cell = lastWrite StateKey.composed h.writes cell
  cached : ∀ loc ∈ scope, h.Unwritten loc →
    ∀ sv, h.snapshot.readTable.getByLock loc.composed = some sv → base loc = .ok sv.value
  answered : ∀ s ∈ h.earlier, ∀ loc ∈ scope, h.Unwritten loc →
    ∀ value, s.getKey loc = .ok value → base loc = .ok value

variable {s : SnapshotImpl Tx Result ε} {loc : StateKey} {ctx : SimContext}
  {writes : List (StateKey × Bytes)}

theorem History.Unwritten.of_next (unwritten : (h.next s writes).Unwritten loc) :
    h.Unwritten loc ∧ lastWrite StateKey.composed writes loc.composed = none := by
  unfold History.Unwritten History.next at unwritten
  rw [lastWrite_append, Option.or_eq_none_iff] at unwritten
  exact ⟨unwritten.2, unwritten.1⟩

theorem History.Inv.getKey_of_unwritten (inv : h.Inv scope base blockVersion) (inScope : loc ∈ scope) (unwritten : h.Unwritten loc) :
    h.snapshot.getKey loc = base loc := by
  have missed : h.snapshot.writeTable.getByLock loc.composed = none := by
    have noValue := (inv.written loc.composed).trans unwritten
    exact Option.map_eq_none_iff.mp noValue
  unfold SnapshotImpl.getKey
  rw [missed]
  cases cache : h.snapshot.readTable.getByLock loc.composed with
  | none => exact congrFun inv.unchanged loc
  | some sv => exact (inv.cached loc inScope unwritten sv cache).symm

theorem History.Inv.answered_states (inv : h.Inv scope base blockVersion) (member : s ∈ h.states)
    (inScope : loc ∈ scope) (unwritten : h.Unwritten loc) {value : Bytes}
    (answer : s.getKey loc = .ok value) : base loc = .ok value := by
  cases member with
  | head => rw [← inv.getKey_of_unwritten inScope unwritten, answer]
  | tail _ member => exact inv.answered s member loc inScope unwritten value answer

theorem History.Inv.getKey_eq (inv : h.Inv scope base blockVersion) (injective : Set.InjOn StateKey.composed scope) (inScope : loc ∈ scope) :
    h.snapshot.getKey loc = isolatedValue base h.writes loc := by
  have same := lastWrite_ident_eq StateKey.composed injective inv.within inScope
  unfold isolatedValue
  cases found : lastWrite id h.writes loc with
  | none => exact inv.getKey_of_unwritten inScope (same.trans found)
  | some value =>
    have stored := (inv.written loc.composed).trans (same.trans found)
    obtain ⟨sv, hit, rfl⟩ := Option.map_eq_some_iff.mp stored
    unfold SnapshotImpl.getKey
    rw [hit]

theorem History.Inv.versions_next (inv : h.Inv scope base blockVersion)
    (sameVersion : s.blockVersion = h.snapshot.blockVersion) (writes : List (StateKey × Bytes)) :
    ∀ state ∈ (h.next s writes).states, state.blockVersion = blockVersion := by
  intro state member
  cases member with
  | head => exact sameVersion.trans (inv.versions _ (.head _))
  | tail _ member => exact inv.versions state member

theorem History.Inv.next (inv : h.Inv scope base blockVersion) (sameBase : s.base = h.snapshot.base)
    (sameVersion : s.blockVersion = h.snapshot.blockVersion)
    (within : ∀ write ∈ writes, write.1 ∈ scope) (written : ∀ cell, s.writeValues cell =
      (lastWrite StateKey.composed writes cell).or (h.snapshot.writeValues cell))
    (cached : ∀ loc ∈ scope, (h.next s writes).Unwritten loc → ∀ sv, s.readTable.getByLock loc.composed = some sv → base loc = .ok sv.value) :
    (h.next s writes).Inv scope base blockVersion where
  unchanged := sameBase.trans inv.unchanged
  versions := inv.versions_next sameVersion writes
  within := by
    intro write member
    rcases List.mem_append.mp member with before | new
    · exact inv.within write before
    · exact within write new
  written := by
    intro cell
    rw [History.next, lastWrite_append, ← inv.written]
    exact written cell
  cached := cached
  answered := by
    intro state member loc inScope unwritten value answer
    exact inv.answered_states member inScope unwritten.of_next.1 answer

/-- No failed transaction leaves a read of its own write behind. -/
def ReadsPublic (scope : Set StateKey) (blockVersion : Nat) : Prop :=
  blockVersion2201 ≤ blockVersion ∨ ∀ loc ∈ scope, maxKeyLength < loc.key.length

private theorem mem_getTxRWSet_txWrites {txId : Bytes} {write : TxWrite}
    (member : write ∈ ctx.txWriteKeyMap) : write ∈ (ctx.getTxRWSet txId true).txWrites := by
  refine (List.perm_insertionSort _ _).mem_iff.mpr (List.mem_filter.mpr ⟨member, ?_⟩)
  rfl

theorem History.Inv.applied_read (inv : h.Inv scope base blockVersion)
    (injective : Set.InjOn StateKey.composed scope) (isPublic : ReadsPublic scope blockVersion)
    (executes : h.Executes scope ctx) {txId : Bytes} {runVmSuccess : Bool}
    (gate : blockVersion < blockVersion2201 ∨ runVmSuccess = true) {read : TxRead}
    (recorded : read ∈ (ctx.getTxRWSet txId runVmSuccess).txReads) (inScope : loc ∈ scope)
    (sameCell : read.location.composed = loc.composed) (unwritten : h.Unwritten loc)
    (notWritten : lastWrite StateKey.composed (ctx.getTxRWSet txId runVmSuccess).writeEntries loc.composed = none) :
    base loc = .ok read.value := by
  have valid := executes.contextValid inv.versions
  rcases valid.reads read ((ctx.mem_getTxRWSet_txReads _ _ _).mp recorded) with
    ⟨readScope, s, member, answer⟩ | ⟨_, write, own, sameLocation⟩
  · have same : read.location = loc := injective readScope inScope sameCell
    rw [same] at answer
    exact inv.answered_states member inScope unwritten answer
  · exfalso
    obtain ⟨writeScope, short⟩ := valid.writes write own
    rcases gate with old | success
    · rcases isPublic with recent | long
      · exact absurd old (not_lt.mpr recent)
      · exact absurd short (not_le.mpr (long _ writeScope))
    · subst success
      rw [lastWrite_eq_none_iff] at notWritten
      refine notWritten write.entry (List.mem_map_of_mem (mem_getTxRWSet_txWrites own)) ?_
      rw [TxWrite.entry_fst, sameLocation, sameCell]

theorem History.Inv.applied (inv : h.Inv scope base blockVersion)
    (injective : Set.InjOn StateKey.composed scope) (isPublic : ReadsPublic scope blockVersion)
    (executes : h.Executes scope ctx) {tx : Tx} {result : Result} {runVmSuccess : Bool}
    (applied : h.snapshot.Applied payload (contextCall payload ctx tx result runVmSuccess) s) :
    (h.next s (ctx.getTxRWSet (payload tx).txId runVmSuccess).writeEntries).Inv scope base blockVersion := by
  obtain ⟨reads, writes, puts, rfl⟩ := applied
  have valid := executes.contextValid inv.versions
  refine inv.next rfl rfl ?_ ?_ ?_
  · intro entry member
    obtain ⟨write, written, rfl⟩ := List.mem_map.mp member
    exact (valid.writes write (SimContext.mem_of_mem_getTxRWSet_txWrites written)).1
  · intro cell
    have stored : (h.snapshot.writeTable.putAll h.snapshot.getSnapshotSize writes).values cell =
        (lastWrite id writes cell).or (h.snapshot.writeTable.values cell) := by
      rw [ShardSet.values_putAll, Overlay.puts_apply]
    rw [puts.lastWrite_eq] at stored
    exact stored
  · intro loc inScope unwritten sv cache
    obtain ⟨before, notWritten⟩ := unwritten.of_next
    have lookup : (h.snapshot.readTable.putAll h.snapshot.getSnapshotSize reads).getByLock loc.composed = some sv := cache
    rw [ShardSet.getByLock_putAll, Option.or_eq_some_iff] at lookup
    rcases lookup with new | ⟨_, old⟩
    · obtain ⟨value, put, rfl⟩ := Option.map_eq_some_iff.mp new
      obtain ⟨entry, member, sameCell, rfl⟩ := exists_mem_of_lastWrite id put
      have gate := puts.gated entry member
      obtain ⟨read, recorded, rfl⟩ := puts.recorded entry member
      rw [inv.versions _ (.head _)] at gate
      exact inv.applied_read injective isPublic executes gate recorded inScope sameCell before notWritten
    · exact inv.cached loc inScope before sv old

theorem History.Step.inv (injective : Set.InjOn StateKey.composed scope)
    (isPublic : ReadsPublic scope blockVersion) (inv : h.Inv scope base blockVersion)
    (step : History.Step payload scope h h') : h'.Inv scope base blockVersion := by
  -- a step that adds no writes and keeps the tables
  have frame (s : SnapshotImpl Tx Result ε) (sameBase : s.base = h.snapshot.base) (sameVersion : s.blockVersion = h.snapshot.blockVersion)
      (sameWrites : s.writeTable = h.snapshot.writeTable)
      (sameReads : s.readTable = h.snapshot.readTable) :
      (h.next s []).Inv scope base blockVersion := by
    refine inv.next sameBase sameVersion (by simp) ?_ ?_
    · intro cell
      rw [lastWrite_nil, Option.none_or, SnapshotImpl.writeValues, SnapshotImpl.writeValues, sameWrites]
    · intro loc inScope unwritten sv cache
      rw [sameReads] at cache
      exact inv.cached loc inScope unwritten.of_next.1 sv cache
  cases step with
  | tx executes accepted =>
    rcases accepted.cases with ⟨isSpecial, first, rfl⟩ | ⟨notFirst, applied⟩
    · rw [if_pos ⟨isSpecial, first⟩]
      exact frame _ rfl rfl rfl rfl
    · rw [if_neg notFirst]
      exact inv.applied injective isPublic executes applied
  | blockTx executes =>
    exact inv.applied injective isPublic executes (SnapshotImpl.apply_applied payload _ _)
  | writes within unsealed order =>
    refine inv.next rfl rfl ?_ ?_ ?_
    · intro entry member
      obtain ⟨write, written, rfl⟩ := List.mem_map.mp member
      exact within write (order.perm.mem_iff.mp written)
    · intro cell
      rw [SnapshotImpl.writeValues_putWrites, Overlay.puts_apply]
    · intro loc inScope unwritten sv cache
      exact inv.cached loc inScope unwritten.of_next.1 sv cache
  | sealed => exact frame _ rfl rfl rfl rfl

theorem History.inv_start (preSnapshot : List Layer) (store : StateKey → Except ε Bytes) :
    (History.start (SnapshotImpl.newSnapshot blockVersion preSnapshot store : SnapshotImpl Tx Result ε)).Inv scope
        (SnapshotImpl.newSnapshot blockVersion preSnapshot store : SnapshotImpl Tx Result ε).base
        blockVersion where
  unchanged := rfl
  versions := by simp [History.states, History.start, SnapshotImpl.newSnapshot]
  within := by simp [History.start]
  written := by
    intro cell
    simp [History.start, SnapshotImpl.writeValues_newSnapshot]
  cached := by
    intro loc _ _ sv cache
    simp [History.start, SnapshotImpl.newSnapshot] at cache
  answered := by simp [History.start]

end Invariant

section Isolation

variable {Tx Result ε : Type} {payload : Tx → Payload} {scope : Set StateKey} {blockVersion : Nat}

variable {s : SnapshotImpl Tx Result ε}

def ownReadContext (blockVersion : Nat) (loc : StateKey) (value : Bytes) : SimContext where
  blockVersion := blockVersion
  txExecSeq := 0
  txReadKeyMap := [⟨loc.contractName, loc.key, value⟩]
  txWriteKeyMap := [⟨loc.contractName, loc.key, value⟩]

end Isolation

end Pdcc.Snapshot
