import Pdcc.Scheduler.SpecialTxs

/-!
# Comparing the DAG of a block

A validator rebuilds the DAG of a block from the read/write sets and the types its
own execution found, and compares it with the one in the block. The proposer builds
it from the sizes of its snapshot while it executes. The two agree on normal and
special transactions; the vertex of the transaction that charges gas is not rebuilt.
-/

set_option autoImplicit false

namespace Pdcc.Scheduler.Special

open Ledger Library Snapshot

section Model

inductive CompareError where
  | noType (txId : Bytes)
  | unexpectedChargeGas (txId : Bytes) (index : Nat)
  | chargeGasCount
  | tableSize (size normal iterator chargeGas : Nat)
  | notEqual
  deriving DecidableEq, Repr

structure TypeCounts where
  normal : Nat
  iterator : Nat
  chargeGas : Nat
  deriving DecidableEq, Repr

structure Validator where
  enableOptimizeChargeGas : Bool
  enableSqlSupport : Bool
  txRWSetMap : Bytes → Option TxRWSet
  txExecOrderTypeMap : Bytes → Option ExecOrderTxType

structure ComparedBlock where
  blockVersion : Nat
  txIds : List Bytes
  dag : Dag

variable (v : Validator)

def Validator.countTypes (txCount : Nat) :
    Nat → TypeCounts → List Bytes → Except CompareError TypeCounts
  | _, counts, [] => .ok counts
  | i, counts, txId :: txIds =>
    match v.txExecOrderTypeMap txId with
    | none => .error (.noType txId)
    | some .normal =>
      if counts.iterator = 0 then
        countTypes txCount (i + 1) { counts with normal := counts.normal + 1 } txIds
      else countTypes txCount (i + 1) { counts with iterator := counts.iterator + 1 } txIds
    | some .special =>
      countTypes txCount (i + 1) { counts with iterator := counts.iterator + 1 } txIds
    | some .chargeGas =>
      if i + 1 ≠ txCount then .error (.unexpectedChargeGas txId i)
      else countTypes txCount (i + 1) { counts with chargeGas := counts.chargeGas + 1 } txIds

def Validator.verifyExecOrderTxType (txIds : List Bytes) : Except CompareError TypeCounts := do
  let counts ← v.countTypes txIds.length 0 ⟨0, 0, 0⟩ txIds
  if (v.enableOptimizeChargeGas = true ∧ counts.chargeGas ≠ 1) ∨
      (v.enableOptimizeChargeGas = false ∧ counts.chargeGas ≠ 0) then .error .chargeGasCount
  else .ok counts

def rearrangeRWSet (txIds : List Bytes) (rwSetMap : Bytes → Option TxRWSet) : List TxRWSet :=
  txIds.filterMap rwSetMap

def appendSpecialTxsToDag (dag : Dag) (txExecOrderSpecialCount : Nat) : Dag :=
  dag ++ List.range dag.length ::
    (List.range' 1 (txExecOrderSpecialCount - 1)).map fun i => [dag.length + i - 1]

def Validator.compareDag (block : ComparedBlock) : Except CompareError Unit :=
  if block.blockVersion < blockVersion2300 then .ok ()
  else do
    let counts ← v.verifyExecOrderTxType block.txIds
    let txRWSetTable := rearrangeRWSet block.txIds v.txRWSetMap
    if txRWSetTable.length ≠ counts.normal + counts.iterator + counts.chargeGas then
      .error (.tableSize txRWSetTable.length counts.normal counts.iterator counts.chargeGas)
    else
      let normalDag := buildDAG v.enableSqlSupport (txRWSetTable.take counts.normal)
      let dag := if 0 < counts.iterator then appendSpecialTxsToDag normalDag counts.iterator
        else normalDag
      -- the vertex of the transaction that charges gas is commented out
      if block.dag = dag then .ok () else .error .notEqual

end Model

section Scheduled

/-- The vertexes that the loop of `simulateSpecialTxs` appends, by the length of
the DAG instead of the size of the snapshot. -/
def appendSpecials (first : Bool) (dag : Dag) : Nat → Dag
  | 0 => dag
  | count + 1 => appendSpecials false (dag ++ [specialNeighbors first (dag.length + 1)]) count

/-- The DAG of a block by what is in it: the read/write sets of its normal
transactions, the number of special ones, and whether one charges gas. -/
def scheduledDag (enableSqlSupport : Bool) (txRWSetTable : List TxRWSet) (specials : Nat)
    (chargeGas : Bool) : Dag :=
  let dag := appendSpecials true (buildDAG enableSqlSupport txRWSetTable) specials
  if chargeGas then dag ++ [List.range dag.length] else dag

theorem appendSpecials_false (dag : Dag) (count : Nat) : appendSpecials false dag count =
      dag ++ (List.range' dag.length count).map fun i => [i - 1] := by
  induction count generalizing dag with
  | zero => exact (List.append_nil dag).symm
  | succ count ih =>
    have neighbors : specialNeighbors false (dag.length + 1) = [dag.length - 1] := rfl
    rw [appendSpecials, ih, List.length_append, List.length_singleton, List.append_assoc, List.range'_succ, List.map_cons, neighbors]
    rfl

theorem appendSpecialTxsToDag_eq (dag : Dag) {count : Nat} (some : 0 < count) :
    appendSpecialTxsToDag dag count = appendSpecials true dag count := by
  cases count with
  | zero => cases some
  | succ count =>
    have neighbors : specialNeighbors true (dag.length + 1) = List.range dag.length := rfl
    have shifted : List.range' (dag.length + 1) count = (List.range' 1 count).map (dag.length + ·) := (List.map_add_range' ..).symm
    rw [appendSpecials, appendSpecials_false, neighbors, List.length_append, List.length_singleton, List.append_assoc, shifted, List.map_map]
    rfl

section Run

variable {Tx Result ε : Type} {payload : Tx → Payload} {snapshot : SnapshotImpl Tx Result ε}
  {now final : Building Tx Result ε}

theorem appendSpecials_length (first : Bool) (dag : Dag) (count : Nat) : (appendSpecials first dag count).length = dag.length + count := by
  induction count generalizing first dag with
  | zero => rfl
  | succ count ih =>
    rw [appendSpecials, ih, List.length_append, List.length_singleton]
    omega

private theorem appendSpecial_dag {tx : Tx} (aligned : now.dag.length = now.snapshot.txTable.length)
    (applied : snapshot.txTable = now.snapshot.txTable ++ [tx]) (first : Bool) :
    (now.appendSpecial first snapshot).dag = now.dag ++ [specialNeighbors first (now.dag.length + 1)] := by
  rw [Building.appendSpecial, SnapshotImpl.getSnapshotSize, applied, List.length_append, List.length_singleton, ← aligned]

/-- The sizes of the snapshot that the loop reads are those of the DAG. -/
theorem SimulateSpecialTxs.dag_eq {txBatchSize : Nat} {first : Bool} {txs : List Tx}
    (run : SimulateSpecialTxs payload txBatchSize first txs now final) (aligned : now.dag.length = now.snapshot.txTable.length) :
    ∃ count, final.dag = appendSpecials first now.dag count ∧ final.snapshot.txTable.length = now.snapshot.txTable.length + count := by
  induction run with
  | timeout => exact ⟨0, rfl, rfl⟩
  | failed refused => cases (applyUnchecked_txTable refused).2
  | @next first txs now call applySize snapshot final accepted _ _ ih =>
    have applied := (applyUnchecked_txTable accepted).1
    have appended := appendSpecial_dag aligned applied first
    have size : snapshot.txTable.length = now.snapshot.txTable.length + 1 := by
      rw [applied, List.length_append, List.length_singleton]
    obtain ⟨count, dag, total⟩ := ih (by rw [appended, List.length_append, List.length_singleton, aligned, ← size]; rfl)
    refine ⟨count + 1, ?_, ?_⟩
    · rw [dag, appended, appendSpecials]
    · rw [total, Building.appendSpecial, size]
      omega
  | @finished first txs now call applySize snapshot accepted _ =>
    have applied := (applyUnchecked_txTable accepted).1
    refine ⟨1, appendSpecial_dag aligned applied first, ?_⟩
    rw [Building.appendSpecial, applied, List.length_append, List.length_singleton]

theorem HandleSpecialTxs.dag_eq {setting : Setting Tx} (run : HandleSpecialTxs payload setting now final)
    (aligned : now.dag.length = now.snapshot.txTable.length) :
    ∃ count, final.dag = appendSpecials true now.dag count ∧ final.snapshot.txTable.length = now.snapshot.txTable.length + count := by
  unfold HandleSpecialTxs at run
  split at run
  · exact ⟨0, congrArg _ run, by rw [run]; rfl⟩
  · exact SimulateSpecialTxs.dag_eq run aligned

/-- The DAG a run of `Schedule` builds is the one of what is in its block. -/
theorem ScheduleDag.dag_eq {setting : Setting Tx} {serial : Building Tx Result ε} {chargeGas : ChargeGas Tx}
    (run : ScheduleDag payload setting snapshot serial chargeGas final) (found : chargeGas ≠ .lookupFailed)
    (aligned : snapshot.txTable.length = snapshot.txRWSetTable.length) :
    ∃ specials, final.dag = scheduledDag setting.enableSqlSupport snapshot.txRWSetTable specials chargeGas.tx.isSome ∧
      final.snapshot.txTable.length = snapshot.txTable.length + specials + chargeGas.tx.toList.length := by
  have start : (Building.start setting snapshot).dag.length = (Building.start setting snapshot).snapshot.txTable.length :=
    (buildDAG_length _ _).trans aligned.symm
  obtain ⟨specials, dag, total⟩ := run.special.dag_eq start
  have serialDag : serial.dag = appendSpecials true (buildDAG setting.enableSqlSupport snapshot.txRWSetTable) specials := dag
  have size : serial.dag.length = serial.snapshot.txTable.length := by
    rw [total, dag, appendSpecials_length, start]
  refine ⟨specials, ?_⟩
  have charge := run.charge
  split at charge
  · cases charge with
    | notCreated => exact ⟨serialDag, total⟩
    | lookupFailed => exact absurd rfl found
    | @charged call applySize charged accepted =>
      have applied := (applyUnchecked_txTable accepted).1
      refine ⟨?_, ?_⟩
      · have before : charged.getSnapshotSize - 1 = serial.dag.length := by
          rw [SnapshotImpl.getSnapshotSize, applied, List.length_append, List.length_singleton, Nat.add_sub_cancel, size]
        change serial.dag ++ [List.range (charged.getSnapshotSize - 1)] = _
        rw [before, serialDag]
        rfl
      · change charged.txTable.length = _
        rw [applied, List.length_append, total]
        rfl
  · obtain ⟨rfl, rfl⟩ := charge
    exact ⟨serialDag, total⟩

end Run

end Scheduled

section Counting

variable {v : Validator}

theorem Validator.countTypes_append (txCount : Nat) (txIds later : List Bytes) (i : Nat) (counts : TypeCounts) :
    v.countTypes txCount i counts (txIds ++ later) = (v.countTypes txCount i counts txIds >>= fun counts =>
        v.countTypes txCount (i + txIds.length) counts later) := by
  induction txIds generalizing i counts with
  | nil => rfl
  | cons txId txIds ih =>
    have next : i + (txId :: txIds).length = i + 1 + txIds.length := by
      rw [List.length_cons]
      omega
    rw [next, List.cons_append, countTypes, countTypes]
    cases v.txExecOrderTypeMap txId with
    | none => rfl
    | some type =>
      cases type with
      | normal => dsimp only; split <;> exact ih ..
      | special => exact ih ..
      | chargeGas =>
        dsimp only
        split
        · rfl
        · exact ih ..

theorem Validator.countTypes_normal {txIds : List Bytes}
    (normal : ∀ txId ∈ txIds, v.txExecOrderTypeMap txId = some .normal) (txCount i n : Nat) :
    v.countTypes txCount i ⟨n, 0, 0⟩ txIds = .ok ⟨n + txIds.length, 0, 0⟩ := by
  induction txIds generalizing i n with
  | nil => rfl
  | cons txId txIds ih =>
    obtain ⟨first, rest⟩ := List.forall_mem_cons.mp normal
    rw [countTypes, first]
    dsimp only
    rw [if_pos rfl, ih rest, List.length_cons]
    congr 2
    omega

theorem Validator.countTypes_special {txIds : List Bytes} (special : ∀ txId ∈ txIds, v.txExecOrderTypeMap txId = some .normal ∨
      v.txExecOrderTypeMap txId = some .special) (txCount i n s : Nat) :
    v.countTypes txCount i ⟨n, s + 1, 0⟩ txIds = .ok ⟨n, s + 1 + txIds.length, 0⟩ := by
  induction txIds generalizing i s with
  | nil => rfl
  | cons txId txIds ih =>
    obtain ⟨first, rest⟩ := List.forall_mem_cons.mp special
    have next := ih rest (i + 1) (s + 1)
    rw [countTypes, List.length_cons]
    rw [show s + 1 + (txIds.length + 1) = s + 1 + 1 + txIds.length by omega]
    cases first with
    | inl normal =>
      rw [normal]
      exact next
    | inr special =>
      rw [special]
      exact next

end Counting

section Compare

/-- The transactions of a block by what the validator knows of them: normal ones, then
special ones, of which the later may be of either type, then one that charges gas if
gas is charged that way; each has a read/write set. -/
structure Validator.Classifies (v : Validator) (txIds normals specials gas : List Bytes) :
    Prop where
  txs : txIds = normals ++ specials ++ gas
  normal : ∀ txId ∈ normals, v.txExecOrderTypeMap txId = some .normal
  firstSpecial : ∀ first ∈ specials.head?, v.txExecOrderTypeMap first = some .special
  special : ∀ txId ∈ specials, v.txExecOrderTypeMap txId = some .normal ∨
    v.txExecOrderTypeMap txId = some .special
  gasCount : gas.length = if v.enableOptimizeChargeGas then 1 else 0
  chargeGas : ∀ txId ∈ gas, v.txExecOrderTypeMap txId = some .chargeGas
  rwSets : ∀ txId ∈ txIds, (v.txRWSetMap txId).isSome

variable {v : Validator} {txIds normals specials gas : List Bytes}

theorem Validator.Classifies.countTypes_specials (classifies : v.Classifies txIds normals specials gas) (txCount i n : Nat) :
    v.countTypes txCount i ⟨n, 0, 0⟩ specials = .ok ⟨n, specials.length, 0⟩ := by
  cases specials with
  | nil => rfl
  | cons first rest =>
    rw [Validator.countTypes, classifies.firstSpecial first rfl, List.length_cons, Nat.add_comm rest.length]
    exact countTypes_special (List.forall_mem_cons.mp classifies.special).2 txCount (i + 1) n 0

theorem Validator.Classifies.countTypes_gas (classifies : v.Classifies txIds normals specials gas) :
    v.countTypes txIds.length (normals ++ specials).length ⟨normals.length, specials.length, 0⟩ gas =
      .ok ⟨normals.length, specials.length, gas.length⟩ := by
  have count := classifies.gasCount
  have total := congrArg List.length classifies.txs
  cases gas with
  | nil => rfl
  | cons txId others =>
    have alone : others = [] := by
      rw [List.length_cons] at count
      refine List.eq_nil_of_length_eq_zero ?_
      split at count <;> omega
    subst alone
    rw [Validator.countTypes, classifies.chargeGas txId List.mem_cons_self]
    dsimp only
    rw [List.length_append, List.length_singleton] at total
    rw [if_neg (fun different => different total.symm)]
    rfl

theorem Validator.Classifies.verifyExecOrderTxType (classifies : v.Classifies txIds normals specials gas) :
    v.verifyExecOrderTxType txIds = .ok ⟨normals.length, specials.length, gas.length⟩ := by
  have counted : v.countTypes txIds.length 0 ⟨0, 0, 0⟩ txIds = .ok ⟨normals.length, specials.length, gas.length⟩ := by
    conv_lhs => rw [classifies.txs]
    rw [countTypes_append, countTypes_append, countTypes_normal classifies.normal, Nat.zero_add, ← classifies.txs]
    change (v.countTypes _ normals.length ⟨normals.length, 0, 0⟩ specials >>= _) = _
    rw [classifies.countTypes_specials]
    change v.countTypes _ (0 + (normals ++ specials).length) _ gas = _
    rw [Nat.zero_add, classifies.countTypes_gas]
  unfold Validator.verifyExecOrderTxType
  rw [counted]
  refine if_neg ?_
  have count := classifies.gasCount
  cases enabled : v.enableOptimizeChargeGas with
  | true => simp [count, enabled]
  | false => simp [count, enabled]

theorem rearrangeRWSet_length {rwSetMap : Bytes → Option TxRWSet} (present : ∀ txId ∈ txIds, (rwSetMap txId).isSome) :
    (rearrangeRWSet txIds rwSetMap).length = txIds.length := by
  induction txIds with
  | nil => rfl
  | cons txId txIds ih =>
    obtain ⟨first, rest⟩ := List.forall_mem_cons.mp present
    obtain ⟨rwSet, found⟩ := Option.isSome_iff_exists.mp first
    rw [rearrangeRWSet, List.filterMap_cons_some found, List.length_cons, List.length_cons]
    exact congrArg (· + 1) (ih rest)

theorem Validator.Classifies.compareDag_eq_ok {block : ComparedBlock} (classifies : v.Classifies block.txIds normals specials gas)
    (version : blockVersion2300 ≤ block.blockVersion) :
    v.compareDag block = .ok () ↔ block.dag =
      scheduledDag v.enableSqlSupport (rearrangeRWSet normals v.txRWSetMap) specials.length false := by
  have size : (rearrangeRWSet block.txIds v.txRWSetMap).length = normals.length + specials.length + gas.length := by
    rw [rearrangeRWSet_length classifies.rwSets, classifies.txs, List.length_append, List.length_append]
  have normalSize : (rearrangeRWSet normals v.txRWSetMap).length = normals.length := by
    refine rearrangeRWSet_length fun txId member => classifies.rwSets txId ?_
    rw [classifies.txs]
    exact List.mem_append_left _ (List.mem_append_left _ member)
  have table : (rearrangeRWSet block.txIds v.txRWSetMap).take normals.length = rearrangeRWSet normals v.txRWSetMap := by
    rw [classifies.txs, rearrangeRWSet, List.filterMap_append, List.filterMap_append, List.append_assoc, ← normalSize]
    exact List.take_left
  have rebuilt (dag : Dag) : (if 0 < specials.length then appendSpecialTxsToDag dag specials.length
      else dag) = appendSpecials true dag specials.length := by
    split
    next some => exact appendSpecialTxsToDag_eq dag some
    next none => rw [Nat.eq_zero_of_not_pos none, appendSpecials]
  unfold Validator.compareDag
  rw [if_neg (not_lt.mpr version), classifies.verifyExecOrderTxType]
  change (if _ ≠ normals.length + specials.length + gas.length then _ else _) = _ ↔ _
  rw [if_neg (fun different => different size)]
  dsimp only
  rw [table, rebuilt]
  change (if block.dag = scheduledDag _ _ _ false then _ else _) = _ ↔ _
  split
  next same => simp [same]
  next different => simp [different]

theorem scheduledDag_true_ne (enableSqlSupport : Bool) (txRWSetTable : List TxRWSet)
    (specials : Nat) : scheduledDag enableSqlSupport txRWSetTable specials true ≠
      scheduledDag enableSqlSupport txRWSetTable specials false := by
  intro same
  have lengths := congrArg List.length same
  simp [scheduledDag] at lengths

/-- A run of `Schedule` on the proposer's side whose block the validator is to
check: the two have the same configuration, the block holds what the snapshot has
applied, and the validator found the proposer's read/write sets of the normal
transactions. -/
structure Validator.Checks {Tx Result ε : Type} (v : Validator) (payload : Tx → Payload)
    (setting : Setting Tx) (snapshot : SnapshotImpl Tx Result ε) (chargeGas : ChargeGas Tx)
    (final : Building Tx Result ε) (txIds normals : List Bytes) : Prop where
  enableSqlSupport : setting.enableSqlSupport = v.enableSqlSupport
  enableOptimizeChargeGas : setting.enableOptimizeChargeGas = v.enableOptimizeChargeGas
  charged : chargeGas.tx.isSome = v.enableOptimizeChargeGas
  txs : txIds = final.snapshot.txTable.map fun tx => (payload tx).txId
  rwSets : rearrangeRWSet normals v.txRWSetMap = snapshot.txRWSetTable

section Proposer

variable {Tx Result ε : Type} {payload : Tx → Payload} {setting : Setting Tx}
  {snapshot : SnapshotImpl Tx Result ε} {serial final : Building Tx Result ε}
  {chargeGas : ChargeGas Tx}

theorem Validator.Checks.dag_eq (checks : v.Checks payload setting snapshot chargeGas final txIds normals)
    (classifies : v.Classifies txIds normals specials gas)
    (run : ScheduleDag payload setting snapshot serial chargeGas final)
    (aligned : snapshot.txTable.length = snapshot.txRWSetTable.length) :
    final.dag = scheduledDag v.enableSqlSupport (rearrangeRWSet normals v.txRWSetMap) specials.length v.enableOptimizeChargeGas := by
  have found : chargeGas ≠ .lookupFailed := by
    rintro rfl
    have charge := run.charge
    rw [checks.enableOptimizeChargeGas, ← checks.charged] at charge
    obtain ⟨skipped, _⟩ := charge
    cases skipped
  obtain ⟨count, dag, total⟩ := run.dag_eq found aligned
  have normalSize : snapshot.txTable.length = normals.length := by
    rw [aligned, ← checks.rwSets]
    refine rearrangeRWSet_length fun txId member => classifies.rwSets txId ?_
    rw [classifies.txs]
    exact List.mem_append_left _ (List.mem_append_left _ member)
  have gasSize : chargeGas.tx.toList.length = gas.length := by
    rw [classifies.gasCount, ← checks.charged]
    cases chargeGas.tx with
    | none => rfl
    | some tx => rfl
  have sizes := congrArg List.length (checks.txs.symm.trans classifies.txs)
  rw [List.length_map, List.length_append, List.length_append, total, normalSize, gasSize] at sizes
  have specialsSize : count = specials.length := by omega
  rw [dag, checks.enableSqlSupport, checks.charged, checks.rwSets, specialsSize]

/-- The comparison accepts exactly the DAG that the proposer's `Schedule` has built
if no gas is charged at the end of the block; otherwise that DAG is refused. -/
theorem compareDag_accepts_iff {blockVersion : Nat} (version : blockVersion2300 ≤ blockVersion)
    (keyValue : v.enableSqlSupport = false) (classifies : v.Classifies txIds normals specials gas)
    (aligned : snapshot.txTable.length = snapshot.txRWSetTable.length)
    (run : ScheduleDag payload setting snapshot serial chargeGas final)
    (checks : v.Checks payload setting snapshot chargeGas final txIds normals) :
    (∀ dag, v.compareDag ⟨blockVersion, txIds, dag⟩ = .ok () ↔ dag = final.dag) ↔
      v.enableOptimizeChargeGas = false := by
  have accepts (dag : Dag) : v.compareDag ⟨blockVersion, txIds, dag⟩ = .ok () ↔ dag =
      scheduledDag false (rearrangeRWSet normals v.txRWSetMap) specials.length false :=
    keyValue ▸ @Validator.Classifies.compareDag_eq_ok v normals specials gas
      ⟨blockVersion, txIds, dag⟩ classifies version
  rw [checks.dag_eq classifies run aligned, keyValue]
  constructor
  · intro exact
    cases enabled : v.enableOptimizeChargeGas with
    | false => rfl
    | true =>
      rw [enabled] at exact
      exact absurd ((accepts _).mp ((exact _).mpr rfl)) (scheduledDag_true_ne _ _ _)
  · intro disabled
    rw [disabled]
    exact accepts

end Proposer

def sampleValidator (enableOptimizeChargeGas : Bool) : Validator where
  enableOptimizeChargeGas := enableOptimizeChargeGas
  enableSqlSupport := false
  txRWSetMap txId := some ⟨txId, [], []⟩
  txExecOrderTypeMap txId :=
    some (if txId = [1] then .special else if txId = [3] then .chargeGas else .normal)

theorem sampleValidator_classifies (enableOptimizeChargeGas : Bool) : (sampleValidator enableOptimizeChargeGas).Classifies
      ([[0], [1], [2]] ++ if enableOptimizeChargeGas then [[3]] else [])
      [[0]] [[1], [2]] (if enableOptimizeChargeGas then [[3]] else []) where
  txs := rfl
  normal := by cases enableOptimizeChargeGas <;> decide
  firstSpecial := by cases enableOptimizeChargeGas <;> decide
  special := by cases enableOptimizeChargeGas <;> decide
  gasCount := by cases enableOptimizeChargeGas <;> rfl
  chargeGas := by cases enableOptimizeChargeGas <;> decide
  rwSets _ _ := rfl

theorem compareDag_accepts_withoutGas : bothSpecials.dag = [[], [0], [1]] ∧
      (sampleValidator false).compareDag ⟨blockVersion2300, [[0], [1], [2]], bothSpecials.dag⟩ = .ok () := by
  refine ⟨by decide, ?_⟩
  have run : ScheduleDag plainPayload { chargingSetting with enableOptimizeChargeGas := false } oneNormal bothSpecials .skipped bothSpecials :=
    ⟨gasCharged_scheduled.special, rfl, rfl⟩
  exact ((compareDag_accepts_iff (le_refl _) rfl (sampleValidator_classifies false) rfl run ⟨rfl, rfl, rfl, rfl, rfl⟩).mpr rfl _).mpr rfl

/-- With gas charged at the end, the DAG that `Schedule` has built is refused, and
the one without the last vertex is accepted. -/
theorem compareDag_refuses_chargeGas :
    ScheduleDag plainPayload chargingSetting oneNormal bothSpecials (.charged 3) gasCharged ∧
      gasCharged.dag = [[], [0], [1], [0, 1, 2]] ∧
      (sampleValidator true).Classifies [[0], [1], [2], [3]] [[0]] [[1], [2]] [[3]] ∧
      (sampleValidator true).Checks plainPayload chargingSetting oneNormal (.charged 3) gasCharged [[0], [1], [2], [3]] [[0]] ∧
      (sampleValidator true).compareDag ⟨blockVersion2300, [[0], [1], [2], [3]], gasCharged.dag⟩ = .error .notEqual ∧
      (sampleValidator true).compareDag ⟨blockVersion2300, [[0], [1], [2], [3]], [[], [0], [1]]⟩ = .ok () :=
  ⟨gasCharged_scheduled, by decide, sampleValidator_classifies true, ⟨rfl, rfl, rfl, rfl, rfl⟩, by decide, by decide⟩

end Compare

end Pdcc.Scheduler.Special
