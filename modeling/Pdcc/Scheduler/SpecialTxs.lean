import Pdcc.Scheduler.SenderCollection
import Pdcc.Scheduler.SimulateDag
import Pdcc.Snapshot.Apply
import Pdcc.Snapshot.DagChain

/-!
# The DAG of a scheduled block

`Schedule` builds the DAG in three parts: `BuildDAG` links the normal
transactions by their conflicts, `simulateSpecialTxs` appends a vertex for each
special transaction it executes, and `appendChargeGasTxToDAG` one for the
transaction that charges gas. Validators replay the block along the result.
-/

set_option autoImplicit false

namespace Pdcc.Scheduler.Special

open Ledger Library Snapshot Simulate

section Model

structure Building (Tx Result ε : Type) where
  snapshot : SnapshotImpl Tx Result ε
  dag : Dag

variable {Tx Result ε : Type}

def specialNeighbors (first : Bool) (snapshotSize : Nat) : List Nat :=
  if first then List.range (snapshotSize - 1) else [snapshotSize - 2]

def Building.appendSpecial (now : Building Tx Result ε) (first : Bool)
    (snapshot : SnapshotImpl Tx Result ε) : Building Tx Result ε where
  snapshot := snapshot
  dag := now.dag ++ [specialNeighbors first snapshot.getSnapshotSize]

/-- The loop of `simulateSpecialTxs`. The flag tells that `firstTx` is nil. The
loop waits for the timeout once the queue is empty, but the timeout may strike
before. -/
inductive SimulateSpecialTxs (payload : Tx → Payload) (txBatchSize : Nat) :
    Bool → List Tx → Building Tx Result ε → Building Tx Result ε → Prop where
  | timeout {first txs now} : SimulateSpecialTxs payload txBatchSize first txs now now
  | failed {first txs now call applySize snapshot final} :
      now.snapshot.ApplyTxSimContext payload call .special true (false, applySize) snapshot →
      SimulateSpecialTxs payload txBatchSize first (txs ++ [call.tx])
        { now with snapshot := snapshot } final →
      SimulateSpecialTxs payload txBatchSize first (call.tx :: txs) now final
  | next {first txs now call applySize snapshot final} :
      now.snapshot.ApplyTxSimContext payload call .special true (true, applySize) snapshot →
      applySize < txBatchSize →
      SimulateSpecialTxs payload txBatchSize false txs (now.appendSpecial first snapshot) final →
      SimulateSpecialTxs payload txBatchSize first (call.tx :: txs) now final
  | finished {first txs now call applySize snapshot} :
      now.snapshot.ApplyTxSimContext payload call .special true (true, applySize) snapshot →
      txBatchSize ≤ applySize →
      SimulateSpecialTxs payload txBatchSize first (call.tx :: txs) now
        (now.appendSpecial first snapshot)

structure Setting (Tx : Type) where
  blockVersion : Nat
  txBatchSize : Nat
  enableSqlSupport : Bool
  enableOptimizeChargeGas : Bool
  noBalanceTxs : List Tx

def Setting.serialTxs (setting : Setting Tx) (snapshot : SnapshotImpl Tx Result ε) : List Tx :=
  if setting.blockVersion < Gas.blockVersion2340 then snapshot.specialTxTable
  else snapshot.specialTxTable ++
    if setting.enableOptimizeChargeGas then setting.noBalanceTxs else []

def Setting.serialTxsNum (setting : Setting Tx) (snapshot : SnapshotImpl Tx Result ε) : Nat :=
  if setting.blockVersion < Gas.blockVersion2340 then setting.txBatchSize
  else snapshot.getSnapshotSize + (setting.serialTxs snapshot).length

def HandleSpecialTxs (payload : Tx → Payload) (setting : Setting Tx)
    (now final : Building Tx Result ε) : Prop :=
  if setting.serialTxs now.snapshot = [] then final = now
  else SimulateSpecialTxs payload (setting.serialTxsNum now.snapshot) true
    (setting.serialTxs now.snapshot) now final

def appendChargeGasTxToDAG (now : Building Tx Result ε) : Building Tx Result ε :=
  { now with dag := now.dag ++ [List.range (now.snapshot.getSnapshotSize - 1)] }

inductive ChargeGas (Tx : Type) where
  | skipped
  | lookupFailed
  | charged (tx : Tx)

def ChargeGas.tx : ChargeGas Tx → Option Tx
  | .charged tx => some tx
  | _ => none

inductive AppendChargeGasTx (payload : Tx → Payload) (now : Building Tx Result ε) :
    ChargeGas Tx → Building Tx Result ε → Prop where
  | notCreated : AppendChargeGasTx payload now .skipped now
  | lookupFailed : AppendChargeGasTx payload now .lookupFailed (appendChargeGasTxToDAG now)
  | charged {call applySize snapshot} :
      now.snapshot.ApplyTxSimContext payload call .chargeGas true (true, applySize) snapshot →
      AppendChargeGasTx payload now (.charged call.tx)
        (appendChargeGasTxToDAG { now with snapshot := snapshot })

def Building.start (setting : Setting Tx) (snapshot : SnapshotImpl Tx Result ε) :
    Building Tx Result ε where
  snapshot := { snapshot with isSealed := true }
  dag := snapshot.buildDAG setting.enableSqlSupport none

/-- The end of `Schedule`, over the snapshot with the normal transactions. -/
structure ScheduleDag (payload : Tx → Payload) (setting : Setting Tx)
    (snapshot : SnapshotImpl Tx Result ε) (serial : Building Tx Result ε)
    (chargeGas : ChargeGas Tx) (final : Building Tx Result ε) : Prop where
  special : HandleSpecialTxs payload setting (.start setting snapshot) serial
  charge : if setting.enableOptimizeChargeGas = true ∧ 0 < serial.snapshot.getSnapshotSize then
      AppendChargeGasTx payload serial chargeGas final
    else chargeGas = .skipped ∧ final = serial

end Model

section Invariant

variable {Tx Result ε : Type} {payload : Tx → Payload}

structure Building.Inv (normals : Nat) (first : Bool) (now : Building Tx Result ε) : Prop where
  vertexes : now.dag.length = now.snapshot.txTable.length
  ordered : now.dag.Ordered
  chained : now.dag.Chained normals
  start : normals ≤ now.dag.length
  first : first = false → normals < now.dag.length

theorem applyUnchecked_txTable {s s' : SnapshotImpl Tx Result ε} {call : TxApply Tx Result} {result : Bool × Nat}
    (applied : s.ApplyUnchecked payload call result s') :
    s'.txTable = s.txTable ++ [call.tx] ∧ result.1 = true := by
  obtain ⟨⟨reads, writes, _, rfl⟩, rfl⟩ := applied
  exact ⟨rfl, rfl⟩

variable {snapshot : SnapshotImpl Tx Result ε} {normals : Nat} {now : Building Tx Result ε}

theorem Building.Inv.start_inv (setting : Setting Tx) (aligned : snapshot.txTable.length = snapshot.txRWSetTable.length) :
    (Building.start setting snapshot).Inv snapshot.txTable.length true := by
  have length : (Building.start setting snapshot).dag.length = snapshot.txTable.length := by
    rw [aligned]
    exact buildDAG_length _ _
  refine ⟨length, buildDAG_ordered _ _, ⟨?_, ?_⟩, length.ge, nofun⟩
  · intro inside
    omega
  · intro i after inside
    omega

variable {first : Bool} {final : Building Tx Result ε}

theorem Building.Inv.append (inv : now.Inv normals first) {tx : Tx}
    (applied : snapshot.txTable = now.snapshot.txTable ++ [tx]) {neighbors : List Nat}
    (shape : neighbors = List.range now.dag.length ∨ first = false ∧ neighbors = [now.dag.length - 1]) :
    Building.Inv normals false ⟨snapshot, now.dag ++ [neighbors]⟩ := by
  have covers : (∀ i < now.dag.length, i ∈ neighbors) ∨ normals < now.dag.length ∧ now.dag.length - 1 ∈ neighbors := by
    cases shape with
    | inl all => exact .inl fun i below => all ▸ List.mem_range.mpr below
    | inr previous => exact .inr ⟨inv.first previous.1, by simp [previous.2]⟩
  have increasing : neighbors.Pairwise (· < ·) := by
    cases shape with
    | inl all => exact all ▸ List.pairwise_lt_range
    | inr previous => exact previous.2 ▸ List.pairwise_singleton _ _
  have below : ∀ neighbor ∈ neighbors, neighbor < now.dag.length := by
    intro neighbor member
    cases shape with
    | inl all => exact List.mem_range.mp (all ▸ member)
    | inr previous =>
      have some := inv.first previous.1
      rw [previous.2, List.mem_singleton] at member
      omega
  have start := inv.start
  refine ⟨?_, inv.ordered.append increasing below, inv.chained.append covers, ?_, fun _ => ?_⟩
  · simp only [applied, List.length_append, inv.vertexes, List.length_singleton]
  · simp only [List.length_append, List.length_singleton]
    omega
  · simp only [List.length_append, List.length_singleton]
    omega

theorem Building.Inv.appendSpecial (inv : now.Inv normals first) {tx : Tx} (applied : snapshot.txTable = now.snapshot.txTable ++ [tx]) :
    (now.appendSpecial first snapshot).Inv normals false := by
  have size : snapshot.getSnapshotSize = now.dag.length + 1 := by
    rw [SnapshotImpl.getSnapshotSize, applied, List.length_append, inv.vertexes, List.length_singleton]
  refine inv.append applied ?_
  rw [size]
  cases first with
  | true => exact .inl rfl
  | false => exact .inr ⟨rfl, rfl⟩

theorem SimulateSpecialTxs.inv {txBatchSize : Nat} {txs : List Tx} (run : SimulateSpecialTxs payload txBatchSize first txs now final)
    (inv : now.Inv normals first) :
    ∃ specials first', specials <+: txs ∧ final.snapshot.txTable = now.snapshot.txTable ++ specials ∧ final.Inv normals first' := by
  induction run with
  | timeout => exact ⟨[], _, List.nil_prefix, (List.append_nil _).symm, inv⟩
  | failed refused => cases (applyUnchecked_txTable refused).2
  | @next first txs now call applySize snapshot final accepted _ _ ih =>
    have applied := (applyUnchecked_txTable accepted).1
    obtain ⟨specials, first', sub, table, inv'⟩ := ih (inv.appendSpecial applied)
    refine ⟨call.tx :: specials, first', List.cons_prefix_cons.mpr ⟨rfl, sub⟩, ?_, inv'⟩
    rw [table]
    change snapshot.txTable ++ specials = _
    rw [applied, List.append_assoc]
    rfl
  | @finished first txs now call applySize snapshot accepted _ =>
    have applied := (applyUnchecked_txTable accepted).1
    exact ⟨[call.tx], false, List.cons_prefix_cons.mpr ⟨rfl, List.nil_prefix⟩, applied, inv.appendSpecial applied⟩

theorem HandleSpecialTxs.inv {setting : Setting Tx} {serial : Building Tx Result ε}
    (run : HandleSpecialTxs payload setting (.start setting snapshot) serial)
    (aligned : snapshot.txTable.length = snapshot.txRWSetTable.length) :
    ∃ specials first, specials <+: setting.serialTxs snapshot ∧ serial.snapshot.txTable = snapshot.txTable ++ specials ∧
      serial.Inv snapshot.txTable.length first := by
  have inv := Building.Inv.start_inv setting aligned
  unfold HandleSpecialTxs at run
  split at run
  next =>
      subst run
      exact ⟨[], true, List.nil_prefix, (List.append_nil _).symm, inv⟩
  next => exact SimulateSpecialTxs.inv run inv

theorem AppendChargeGasTx.inv {chargeGas : ChargeGas Tx} (run : AppendChargeGasTx payload now chargeGas final) (inv : now.Inv normals first)
    (found : chargeGas ≠ .lookupFailed) :
    final.snapshot.txTable = now.snapshot.txTable ++ chargeGas.tx.toList ∧ ∃ first', final.Inv normals first' := by
  cases run with
  | notCreated => exact ⟨(List.append_nil _).symm, first, inv⟩
  | lookupFailed => exact absurd rfl found
  | @charged call applySize snapshot accepted =>
    have applied := (applyUnchecked_txTable accepted).1
    have size : snapshot.getSnapshotSize - 1 = now.dag.length := by
      rw [SnapshotImpl.getSnapshotSize, applied, List.length_append, inv.vertexes, List.length_singleton, Nat.add_sub_cancel]
    exact ⟨applied, false, inv.append applied (.inl (congrArg List.range size))⟩

end Invariant

section Replay

variable {Tx Result ε : Type} {payload : Tx → Payload}

theorem edge_iff_neighborsOf {dag : Dag} {j i : Nat} : dag.Edge j i ↔ i ∈ neighborsOf (dag.map some) j := by
  unfold Dag.Edge neighborsOf
  rw [List.getElem?_map]
  cases dag[j]? with
  | none => simp
  | some neighbors => simp

theorem dispatch_linearExtension {dag : Dag} {maps : SimulateDag} {d : Simulate.Dispatch}
    (accepted : initSimulateDag (dag.map some) = .ok maps)
    (run : Relation.ReflTransGen Simulate.Dispatch.Step (.start maps) d)
    (complete : d.completed.length = dag.length) :
    dag.LinearExtension dag.length d.completed where
  complete := by
    have inv := Simulate.Dispatch.Inv.reachable accepted run
    have inside : d.completed ⊆ List.range dag.length := by
      intro i member
      have released := ((inv.released i).mp (inv.completedReleased i member)).1
      rw [List.length_map] at released
      exact List.mem_range.mpr released
    refine (inv.completedNodup.subperm inside).perm_of_length_le ?_
    rw [List.length_range, complete]
  after := by
    intro position j found i edge
    exact Simulate.Dispatch.Inv.completed_order accepted run found i (edge_iff_neighborsOf.mp edge)

/-- The DAG has one vertex per transaction, is accepted for the replay, and every
order that respects it, in particular that of any replay that completes, runs the
normal transactions first and then all others in block order. -/
structure Building.Replayable (normals : Nat) (now : Building Tx Result ε) : Prop where
  vertexes : now.dag.length = now.snapshot.txTable.length
  accepted : ∃ maps, initSimulateDag (now.dag.map some) = .ok maps ∧
    ∀ d, Relation.ReflTransGen Simulate.Dispatch.Step (.start maps) d →
      d.completed.length = now.dag.length → now.dag.LinearExtension now.dag.length d.completed
  order : ∀ order, now.dag.LinearExtension now.dag.length order →
    ∃ first, first.Perm (List.range normals) ∧
      order = first ++ List.range' normals (now.dag.length - normals)

theorem Building.Inv.replayable {normals : Nat} {first : Bool} {now : Building Tx Result ε}
    (inv : now.Inv normals first) : now.Replayable normals where
  vertexes := inv.vertexes
  accepted := by
    obtain ⟨maps, accepted⟩ := initSimulateDag_accepts inv.ordered
    exact ⟨maps, accepted, fun _ => dispatch_linearExtension accepted⟩
  order := by
    intro order extension
    exact extension.chained inv.chained inv.start

/-- However many special transactions were executed before the time limit, the DAG
of a scheduled block is replayable; the special transactions follow the normal
ones and the transaction that charges gas comes last. -/
theorem scheduleDag_replayable {setting : Setting Tx} {snapshot : SnapshotImpl Tx Result ε}
    {serial final : Building Tx Result ε} {chargeGas : ChargeGas Tx}
    (aligned : snapshot.txTable.length = snapshot.txRWSetTable.length)
    (run : ScheduleDag payload setting snapshot serial chargeGas final)
    (found : chargeGas ≠ .lookupFailed) :
    final.Replayable snapshot.txTable.length ∧ ∃ specials, specials <+: setting.serialTxs snapshot ∧
        final.snapshot.txTable = snapshot.txTable ++ specials ++ chargeGas.tx.toList := by
  obtain ⟨specials, first, sub, table, inv⟩ := run.special.inv aligned
  have charge := run.charge
  split at charge
  next =>
      obtain ⟨table', first', inv'⟩ := charge.inv inv found
      exact ⟨inv'.replayable, specials, sub, by rw [table', table]⟩
  next =>
      obtain ⟨rfl, rfl⟩ := charge
      exact ⟨inv.replayable, specials, sub, by rw [table]; exact (List.append_nil _).symm⟩

end Replay

section Example

def plainPayload (tx : Nat) : Payload := ⟨[UInt8.ofNat tx], []⟩

def plainCall (tx : Nat) : TxApply Nat Unit := ⟨tx, 0, ⟨[UInt8.ofNat tx], [], []⟩, (), true⟩

def oneNormal : SnapshotImpl Nat Unit Empty :=
  { (SnapshotImpl.newSnapshot 0 [] emptyStore).apply plainPayload (plainCall 0) with
    specialTxTable := [1, 2] }

def chargingSetting : Setting Nat := ⟨Gas.blockVersion2340, 3, false, true, []⟩

def applyPlain (s : SnapshotImpl Nat Unit Empty) (tx : Nat) : SnapshotImpl Nat Unit Empty :=
  s.applied plainPayload (plainCall tx) [] []

theorem applyPlain_unchecked (s : SnapshotImpl Nat Unit Empty) (tx : Nat) :
    s.ApplyUnchecked plainPayload (plainCall tx) (true, (applyPlain s tx).getSnapshotSize) (applyPlain s tx) := by
  refine ⟨⟨[], [], ⟨?_, .refl _⟩, rfl⟩, rfl⟩
  rw [SnapshotImpl.appliedReads, if_pos (.inr rfl)]
  exact .refl _

def firstSpecial : Building Nat Unit Empty :=
  (Building.start chargingSetting oneNormal).appendSpecial true
    (applyPlain (Building.start chargingSetting oneNormal).snapshot 1)

def bothSpecials : Building Nat Unit Empty :=
  firstSpecial.appendSpecial false (applyPlain firstSpecial.snapshot 2)

def gasCharged : Building Nat Unit Empty :=
  appendChargeGasTxToDAG { bothSpecials with snapshot := applyPlain bothSpecials.snapshot 3 }

theorem gasCharged_scheduled : ScheduleDag plainPayload chargingSetting oneNormal bothSpecials (.charged 3) gasCharged where
  special :=
    SimulateSpecialTxs.next (applyPlain_unchecked _ 1) (by decide) (.finished (applyPlain_unchecked _ 2) (by decide))
  charge := .charged (applyPlain_unchecked _ 3)

theorem scheduleDag_replayable_twoSpecials : gasCharged.dag = [[], [0], [1], [0, 1, 2]] ∧
      gasCharged.Replayable oneNormal.txTable.length ∧
      ∃ specials, specials <+: chargingSetting.serialTxs oneNormal ∧
        gasCharged.snapshot.txTable = oneNormal.txTable ++ specials ++ [3] :=
  ⟨by decide, scheduleDag_replayable rfl gasCharged_scheduled nofun⟩

end Example

end Pdcc.Scheduler.Special
