import Pdcc.Ledger.ReadWriteSet

/-!
# Serial execution on the ledger state

The reference semantics of a block: transactions one after another on a state
that keeps every key of every contract apart. A serial run over a table with
another key identity agrees with it as long as the identity distinguishes the
locations in play.
-/

set_option autoImplicit false

namespace Pdcc.Ledger

open Library

def writeState (state : StateKey → Bytes) (writes : List TxWrite) : StateKey → Bytes :=
  writes.foldl (fun state write => Function.update state write.location write.value) state

theorem writeState_apply (state : StateKey → Bytes) (writes : List TxWrite) (loc : StateKey) :
    writeState state writes loc = (lastWrite id (writes.map (·.entry)) loc).getD (state loc) := by
  induction writes generalizing state with
  | nil => rfl
  | cons write rest ih =>
    have step : writeState state (write :: rest) = writeState (Function.update state write.location write.value) rest := rfl
    rw [step, ih, List.map_cons, lastWrite, Function.update_apply]
    cases lastWrite id (rest.map (·.entry)) loc with
    | some value => rfl
    | none =>
      by_cases same : loc = write.location
      · simp [same]
      · simp [same, Ne.symm same]

variable {Tx Result : Type}

def serialExecute (vm : VirtualMachine Tx Result) :
    (StateKey → Bytes) → List Tx → List (TxRWSet × Result) × (StateKey → Bytes)
  | state, [] => ([], state)
  | state, tx :: rest =>
    let outcome := vm.executeTx tx state
    let (outcomes, final) := serialExecute vm (writeState state outcome.1.txWrites) rest
    (outcome :: outcomes, final)

section Agreement

variable {vm : VirtualMachine Tx Result} {Key : Type} [DecidableEq Key] {ident : StateKey → Key}
  {base : StateKey → Bytes}
  {Order : List (StateKey × Bytes) → List (StateKey × Bytes) → Prop}

structure WithinScope (scope : Set StateKey) (outcome : TxRWSet × Result) : Prop where
  reads : ∀ loc ∈ outcome.1.readLocations, loc ∈ scope
  writes : ∀ write ∈ outcome.1.txWrites, write.location ∈ scope

variable {scope : Set StateKey}

theorem WithinScope.writeEntries {outcome : TxRWSet × Result} (within : WithinScope scope outcome) :
    ∀ write ∈ outcome.1.writeEntries, write.1 ∈ scope := by
  intro write member
  obtain ⟨original, originalMember, rfl⟩ := List.mem_map.mp member
  exact within.writes original originalMember

theorem VirtualMachine.Confined.withinScope {tx : Tx} (confined : vm.Confined scope tx) (view : StateKey → Bytes) :
    WithinScope scope (vm.executeTx tx view) :=
  ⟨(confined view).1, (confined view).2⟩

theorem serialExecute_of_run (injective : Set.InjOn ident scope) (reorders : ∀ writes applied, Order writes applied → applied.Perm writes)
    {table final : Overlay Key Bytes} {steps : List (Executed Tx StateKey Bytes (TxRWSet × Result))}
    (run : SerialRun vm.semantics ident base Order table steps final)
    (within : ∀ step ∈ steps, WithinScope scope step.outcome) {state : StateKey → Bytes}
    (agree : ∀ loc ∈ scope, state loc = table.view ident base loc) :
    (serialExecute vm state (steps.map (·.tx))).1 = steps.map (·.outcome) ∧
      ∀ loc ∈ scope, (serialExecute vm state (steps.map (·.tx))).2 loc = final.view ident base loc := by
  induction run generalizing state with
  | nil => exact ⟨rfl, agree⟩
  | @cons table final step rest executed ordered _ ih =>
    have stepWithin := within step (.head _)
    have sameOutcome : vm.executeTx step.tx state = step.outcome := by
      refine (Semantics.run_eq_of_agree executed ?_).symm
      intro loc member
      exact agree loc (stepWithin.reads loc member)
    have nextAgree : ∀ loc ∈ scope, writeState state step.outcome.1.txWrites loc = (table.puts ident step.applied).view ident base loc := by
      intro loc inScope
      have perm := reorders _ _ ordered
      have appliedWithin : ∀ write ∈ step.applied, write.1 ∈ scope :=
        fun write member => stepWithin.writeEntries write (perm.mem_iff.mp member)
      have distinct : (step.outcome.1.writeEntries.map fun write => id write.1).Nodup := by
        rw [executed, TxRWSet.writeEntries, List.map_map]
        exact vm.writes_distinct step.tx _
      have same : lastWrite id step.outcome.1.writeEntries loc = lastWrite id step.applied loc :=
        lastWrite_perm id perm.symm distinct loc
      rw [writeState_apply, ← TxRWSet.writeEntries, same, Overlay.view, Overlay.puts_apply,
        lastWrite_ident_eq ident injective appliedWithin inScope, agree loc inScope]
      cases lastWrite id step.applied loc with
      | some value => rfl
      | none => rfl
    obtain ⟨outcomes, finals⟩ :=
      ih (fun later member => within later (.tail _ member)) nextAgree
    simp only [List.map_cons, serialExecute, sameOutcome]
    exact ⟨by rw [outcomes], finals⟩

theorem exists_serialRun (vm : VirtualMachine Tx Result) (base : StateKey → Bytes) (table : Overlay StateKey Bytes) (txs : List Tx) :
    ∃ (steps : List (Executed Tx StateKey Bytes (TxRWSet × Result))) (final : Overlay StateKey Bytes), steps.map (·.tx) = txs ∧
      steps.map (·.outcome) = (serialExecute vm (table.view id base) txs).1 ∧
      SerialRun vm.semantics id base Eq table steps final := by
  induction txs generalizing table with
  | nil => exact ⟨[], table, rfl, rfl, .nil⟩
  | cons tx rest ih =>
    let outcome := vm.executeTx tx (table.view id base)
    obtain ⟨steps, final, sameTxs, outcomes, run⟩ :=
      ih (table.puts id outcome.1.writeEntries)
    have next : writeState (table.view id base) outcome.1.txWrites = (table.puts id outcome.1.writeEntries).view id base := by
      funext loc
      simp only [writeState_apply, Overlay.view, Overlay.puts_apply, TxRWSet.writeEntries, id]
      cases lastWrite id (outcome.1.txWrites.map (·.entry)) loc with
      | some value => rfl
      | none => rfl
    refine ⟨⟨tx, outcome, outcome.1.writeEntries⟩ :: steps, final, by simp [sameTxs], ?_, .cons rfl rfl run⟩
    rw [List.map_cons, outcomes, ← next]
    rfl

end Agreement

end Pdcc.Ledger
