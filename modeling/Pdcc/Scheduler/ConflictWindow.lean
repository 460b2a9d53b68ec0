import Pdcc.Library.ShiftWindow
import Mathlib.Data.List.Induction
import Mathlib.Data.Rat.Floor
import Mathlib.Tactic.Linarith

/-!
# The conflict window

The scheduler tunes its pool of goroutines to the rate of conflicts. A window
records for the last transactions whether they conflicted, as bits of a 256-bit
word of which the low 64 count. Each time 64 more transactions are through, it
proposes a capacity. A rate between the two thresholds is meant to leave the pool
alone, but the mark for that is below the least capacity and is raised to it.
-/

set_option autoImplicit false

namespace Pdcc.Scheduler.Window

open Library

def adjustWindowSize : Nat := 64
def minPoolCapacity : Int := 2
def baseConflictRate : ℚ := 5 / 100
def topConflictRate : ℚ := 2 / 10
def descendCoefficient : ℚ := 25 / 100
def ascendCoefficient : ℚ := 3

inductive TxExecType where
  | conflictTx
  | normalTx
  deriving DecidableEq, Repr

structure ConflictsBitWindow where
  bitWindow : BitVec 256
  bitWindowCapacity : Nat
  maxPoolCapacity : Int
  conflictsNum : Int
  execCount : Nat

def newConflictsBitWindow (txBatchSize : Int) : ConflictsBitWindow where
  bitWindow := 0
  bitWindowCapacity := adjustWindowSize
  maxPoolCapacity := txBatchSize
  conflictsNum := 0
  execCount := 0

def truncate (x : ℚ) : Int := if 0 ≤ x then ⌊x⌋ else ⌈x⌉

namespace ConflictsBitWindow

variable (q : ConflictsBitWindow)

def getConflictsRate : ℚ := q.conflictsNum / q.bitWindowCapacity

def targetCapacity (currPoolCapacity : Int) : Int :=
  if q.getConflictsRate < baseConflictRate then truncate (currPoolCapacity * ascendCoefficient)
  else if q.getConflictsRate > topConflictRate then
    truncate (currPoolCapacity * descendCoefficient)
  else -1

def getNewPoolCapacity (currPoolCapacity : Int) : Int :=
  if q.targetCapacity currPoolCapacity > q.maxPoolCapacity then q.maxPoolCapacity
  else if q.targetCapacity currPoolCapacity < minPoolCapacity then minPoolCapacity
  else q.targetCapacity currPoolCapacity

def enqueue (v : TxExecType) (currPoolCapacity : Int) : Int × ConflictsBitWindow :=
  let entering : Int := if v = .conflictTx then 1 else 0
  let flag := 1#256 <<< (q.bitWindowCapacity - 1) &&& q.bitWindow
  let leaving : Int := if flag = 0#256 then 0 else 1
  let q' := { q with
    bitWindow := shiftIn q.bitWindow (v = .conflictTx)
    conflictsNum := q.conflictsNum + entering - leaving
    execCount := q.execCount + 1 }
  (if q'.execCount % q'.bitWindowCapacity = 0 then q'.getNewPoolCapacity currPoolCapacity else -1,
    q')

def enqueueAll (calls : List (TxExecType × Int)) : ConflictsBitWindow :=
  calls.foldl (fun q call => (q.enqueue call.1 call.2).2) q

end ConflictsBitWindow

structure Pool where
  capacity : BitVec 32
  preAlloc : Bool

def Pool.cap (pool : Pool) : Int := pool.capacity.toInt

def Pool.tune (pool : Pool) (size : Int) : Pool :=
  if pool.cap = -1 ∨ size ≤ 0 ∨ size = pool.cap ∨ pool.preAlloc then pool
  else { pool with capacity := BitVec.ofInt 32 size }

def adjustPoolSize (pool : Pool) (conflictsBitWindow : ConflictsBitWindow)
    (txExecType : TxExecType) : Pool × ConflictsBitWindow :=
  let (newPoolSize, window) := conflictsBitWindow.enqueue txExecType pool.cap
  (if newPoolSize = -1 then pool else pool.tune newPoolSize, window)

section Accounting

variable (calls : List (TxExecType × Int))

def conflictLog : List Bool :=
  calls.map fun call => decide (call.1 = .conflictTx)

def conflictsIn : Nat :=
  (calls.rtake adjustWindowSize).countP fun call => call.1 = .conflictTx

theorem conflictsIn_eq : conflictsIn calls = recent adjustWindowSize (conflictLog calls) := by
  have window : (conflictLog calls).rtake adjustWindowSize =
      (calls.rtake adjustWindowSize).map fun call => decide (call.1 = .conflictTx) := by
    rw [conflictLog, List.rtake, List.rtake, List.length_map, List.map_drop]
  rw [recent, window, List.count, List.countP_map]
  refine List.countP_congr ?_
  intro call _
  simp

structure ConflictsBitWindow.Inv (txBatchSize : Int) (calls : List (TxExecType × Int))
    (q : ConflictsBitWindow) : Prop where
  capacity : q.bitWindowCapacity = adjustWindowSize
  maxCapacity : q.maxPoolCapacity = txBatchSize
  records : Records q.bitWindow (conflictLog calls)
  counted : q.conflictsNum = conflictsIn calls
  execCount : q.execCount = calls.length

variable {txBatchSize : Int} {calls : List (TxExecType × Int)} {q : ConflictsBitWindow}

theorem ConflictsBitWindow.Inv.enqueue (inv : q.Inv txBatchSize calls) (call : TxExecType × Int) :
    (q.enqueue call.1 call.2).2.Inv txBatchSize (calls ++ [call]) where
  capacity := inv.capacity
  maxCapacity := inv.maxCapacity
  records := by
    rw [conflictLog, List.map_append]
    exact inv.records.shiftIn _
  counted := by
    have slide := recent_slide (adjustWindowSize - 1) (conflictLog calls) (decide (call.1 = .conflictTx))
    have flag := inv.records.mask_eq_zero (show adjustWindowSize - 1 < 256 by decide)
    have log : conflictLog (calls ++ [call]) = conflictLog calls ++ [decide (call.1 = .conflictTx)] := by
      rw [conflictLog, List.map_append]
      rfl
    rw [conflictsIn_eq, log]
    refine Eq.trans ?_ slide.symm
    simp only [ConflictsBitWindow.enqueue, inv.capacity, inv.counted, conflictsIn_eq, flag]
    congr 2
    · cases call.1 <;> rfl
    · cases bitAgo (conflictLog calls) (adjustWindowSize - 1) <;> rfl
  execCount := by
    rw [List.length_append, ← inv.execCount]
    rfl

theorem ConflictsBitWindow.inv_enqueueAll (txBatchSize : Int) (calls : List (TxExecType × Int)) :
    ((newConflictsBitWindow txBatchSize).enqueueAll calls).Inv txBatchSize calls := by
  induction calls using List.reverseRecOn with
  | nil => exact ⟨rfl, rfl, records_zero 256, rfl, rfl⟩
  | append_singleton calls call ih =>
    rw [enqueueAll, List.foldl_append]
    exact ih.enqueue call

end Accounting

section Tuning

theorem truncate_ascend (c : Int) : truncate (c * ascendCoefficient) = 3 * c := by
  have product : (c : ℚ) * ascendCoefficient = ((3 * c : Int) : ℚ) := by
    rw [ascendCoefficient]
    push_cast
    ring
  rw [truncate, product, Int.floor_intCast, Int.ceil_intCast, ite_self]

theorem truncate_descend_le {c : Int} (positive : 0 ≤ c) : truncate (c * descendCoefficient) ≤ c := by
  have cast : (0 : ℚ) ≤ c := Int.cast_nonneg positive
  have nonneg : (0 : ℚ) ≤ c * descendCoefficient :=
    mul_nonneg cast (by norm_num [descendCoefficient])
  rw [truncate, if_pos nonneg]
  have below : (c : ℚ) * descendCoefficient ≤ c := by
    rw [descendCoefficient]
    linarith
  exact Int.cast_le.mp ((Int.floor_le _).trans below)

theorem truncate_descend_lt {c : Int} (small : c < minPoolCapacity) : truncate (c * descendCoefficient) < minPoolCapacity := by
  have quarter : (c : ℚ) * descendCoefficient < (1 : Int) := by
    have cast : (c : ℚ) < (2 : Int) := Int.cast_lt.mpr small
    rw [descendCoefficient]
    push_cast at cast ⊢
    linarith
  rw [truncate]
  split
  next => exact (Int.floor_lt.mpr quarter).trans (by decide)
  next =>
      have rounded : ⌈(c : ℚ) * descendCoefficient⌉ ≤ 1 := Int.ceil_le.mpr quarter.le
      exact rounded.trans_lt (by decide)

def conflictRate (calls : List (TxExecType × Int)) : ℚ := conflictsIn calls / adjustWindowSize

/-- The pool follows the conflict rate, and is left alone between the two bounds. -/
structure Tuned (rate : ℚ) (maxPoolCapacity currPoolCapacity returned : Int) : Prop where
  descends : topConflictRate < rate → returned ≤ currPoolCapacity
  ascends : rate < baseConflictRate →
    currPoolCapacity ≤ returned ∨ returned = maxPoolCapacity
  unchanged : baseConflictRate ≤ rate → rate ≤ topConflictRate → returned = -1

theorem baseConflictRate_lt_top : baseConflictRate < topConflictRate := by
  norm_num [baseConflictRate, topConflictRate]

section Capacity

variable {q : ConflictsBitWindow} {c : Int}

theorem ConflictsBitWindow.le_getNewPoolCapacity (calm : q.getConflictsRate < baseConflictRate) :
    c ≤ q.getNewPoolCapacity c ∨ q.getNewPoolCapacity c = q.maxPoolCapacity := by
  have target : q.targetCapacity c = 3 * c := (if_pos calm).trans (truncate_ascend c)
  rw [getNewPoolCapacity, target, minPoolCapacity]
  split
  next => exact .inr rfl
  next =>
      left
      split <;> omega

theorem ConflictsBitWindow.getNewPoolCapacity_le_iff
    (large : minPoolCapacity ≤ q.maxPoolCapacity) (busy : topConflictRate < q.getConflictsRate) :
    q.getNewPoolCapacity c ≤ c ↔ minPoolCapacity ≤ c := by
  have notCalm : ¬ q.getConflictsRate < baseConflictRate :=
    not_lt.mpr (baseConflictRate_lt_top.trans busy).le
  have target : q.targetCapacity c = truncate (c * descendCoefficient) :=
    (if_neg notCalm).trans (if_pos busy)
  rw [getNewPoolCapacity, target]
  constructor
  · intro least
    by_contra small
    have below := truncate_descend_lt (not_le.mp small)
    rw [if_neg (not_lt.mpr (below.le.trans large)), if_pos below] at least
    exact small least
  · intro least
    have below := truncate_descend_le (le_trans (by decide) least : 0 ≤ c)
    split
    next above => exact (le_of_lt above).trans below
    next =>
        split
        next => exact least
        next => exact below

theorem ConflictsBitWindow.getNewPoolCapacity_between
    (large : minPoolCapacity ≤ q.maxPoolCapacity) (low : baseConflictRate ≤ q.getConflictsRate)
    (high : q.getConflictsRate ≤ topConflictRate) :
    q.getNewPoolCapacity c = minPoolCapacity := by
  have target : q.targetCapacity c = -1 :=
    (if_neg (not_lt.mpr low)).trans (if_neg (not_lt.mpr high))
  rw [getNewPoolCapacity, target, if_neg (not_lt.mpr (le_trans (by decide) large)), if_pos (by decide)]

theorem ConflictsBitWindow.tuned_iff (large : minPoolCapacity ≤ q.maxPoolCapacity) :
    Tuned q.getConflictsRate q.maxPoolCapacity c (q.getNewPoolCapacity c) ↔
      q.getConflictsRate < baseConflictRate ∨ topConflictRate < q.getConflictsRate ∧ minPoolCapacity ≤ c := by
  constructor
  · intro tuned
    rcases lt_or_ge q.getConflictsRate baseConflictRate with calm | low
    · exact .inl calm
    · rcases lt_or_ge topConflictRate q.getConflictsRate with busy | high
      · exact .inr ⟨busy, (getNewPoolCapacity_le_iff large busy).mp (tuned.descends busy)⟩
      · have least := tuned.unchanged low high
        rw [getNewPoolCapacity_between large low high] at least
        cases least
  · intro outside
    cases outside with
    | inl calm =>
      refine ⟨?_, fun _ => le_getNewPoolCapacity calm, fun low => absurd calm (not_lt.mpr low)⟩
      intro busy
      exact absurd (busy.trans calm) (not_lt.mpr baseConflictRate_lt_top.le)
    | inr descend =>
      obtain ⟨busy, least⟩ := descend
      refine ⟨fun _ => (getNewPoolCapacity_le_iff large busy).mpr least, ?_, fun _ high => absurd busy (not_lt.mpr high)⟩
      intro calm
      exact absurd (busy.trans calm) (not_lt.mpr baseConflictRate_lt_top.le)

end Capacity

/-- The window counts the conflicts of the last calls. Each time it is full, the
capacity it returns is as asked exactly if the rate is below the lower threshold, or
above the upper one for a pool that has the least capacity or more. -/
theorem enqueue_tuned_iff {txBatchSize : Int} (large : minPoolCapacity ≤ txBatchSize)
    (calls : List (TxExecType × Int)) :
    ((newConflictsBitWindow txBatchSize).enqueueAll calls).conflictsNum = conflictsIn calls ∧
      ∀ (v : TxExecType) (c : Int), (calls.length + 1) % adjustWindowSize = 0 →
        (Tuned (conflictRate (calls ++ [(v, c)])) txBatchSize c
            (((newConflictsBitWindow txBatchSize).enqueueAll calls).enqueue v c).1 ↔
          conflictRate (calls ++ [(v, c)]) < baseConflictRate ∨
            topConflictRate < conflictRate (calls ++ [(v, c)]) ∧ minPoolCapacity ≤ c) := by
  have inv := ConflictsBitWindow.inv_enqueueAll txBatchSize calls
  refine ⟨inv.counted, ?_⟩
  intro v c full
  generalize (newConflictsBitWindow txBatchSize).enqueueAll calls = q at inv
  have inv' := inv.enqueue (v, c)
  have returned : (q.enqueue v c).1 = (q.enqueue v c).2.getNewPoolCapacity c := by
    refine if_pos ?_
    change (q.execCount + 1) % q.bitWindowCapacity = 0
    rw [inv.execCount, inv.capacity]
    exact full
  have rate : (q.enqueue v c).2.getConflictsRate = conflictRate (calls ++ [(v, c)]) := by
    rw [ConflictsBitWindow.getConflictsRate, inv'.counted, inv'.capacity, conflictRate]
    rfl
  rw [returned, ← rate, ← inv'.maxCapacity]
  exact ConflictsBitWindow.tuned_iff (inv'.maxCapacity ▸ large)

def normalCalls : List (TxExecType × Int) := List.replicate 63 (.normalTx, 100)

theorem enqueue_tuned_normalCalls : Tuned (conflictRate (normalCalls ++ [(.normalTx, 100)])) 1000 100
      (((newConflictsBitWindow 1000).enqueueAll normalCalls).enqueue .normalTx 100).1 :=
  ((enqueue_tuned_iff (by decide) normalCalls).2 .normalTx 100 (by decide)).mpr (.inl (by decide +kernel))

def mixedCalls : List (TxExecType × Int) :=
  List.replicate 60 (.normalTx, 100) ++ List.replicate 3 (.conflictTx, 100)

/-- 4 conflicts among 64 lie between the thresholds; the pool is not left alone but
shrunk from 100 to 2. -/
theorem enqueue_shrinks_between : (mixedCalls.length + 1) % adjustWindowSize = 0 ∧
      baseConflictRate ≤ conflictRate (mixedCalls ++ [(.conflictTx, 100)]) ∧
      conflictRate (mixedCalls ++ [(.conflictTx, 100)]) ≤ topConflictRate ∧
      (((newConflictsBitWindow 1000).enqueueAll mixedCalls).enqueue .conflictTx 100).1 = 2 ∧
      ¬ Tuned (conflictRate (mixedCalls ++ [(.conflictTx, 100)])) 1000 100 2 := by
  have low : baseConflictRate ≤ conflictRate (mixedCalls ++ [(.conflictTx, 100)]) := by
    decide +kernel
  have high : conflictRate (mixedCalls ++ [(.conflictTx, 100)]) ≤ topConflictRate := by
    decide +kernel
  refine ⟨by decide, low, high, by decide +kernel, ?_⟩
  intro tuned
  cases tuned.unchanged low high

end Tuning

section PoolRun

def adjustAll (pool : Pool) (window : ConflictsBitWindow) (types : List TxExecType) :
    Pool × ConflictsBitWindow :=
  types.foldl (fun now txExecType => adjustPoolSize now.1 now.2 txExecType) (pool, window)

theorem adjustAll_concat (pool : Pool) (window : ConflictsBitWindow) (types : List TxExecType) (txExecType : TxExecType) :
    adjustAll pool window (types ++ [txExecType]) =
      adjustPoolSize (adjustAll pool window types).1 (adjustAll pool window types).2 txExecType := by
  rw [adjustAll, List.foldl_append]
  rfl

theorem ConflictsBitWindow.getNewPoolCapacity_range (q : ConflictsBitWindow) (large : minPoolCapacity ≤ q.maxPoolCapacity) (c : Int) :
    minPoolCapacity ≤ q.getNewPoolCapacity c ∧ q.getNewPoolCapacity c ≤ q.maxPoolCapacity := by
  unfold getNewPoolCapacity
  generalize q.targetCapacity c = target
  split
  next => exact ⟨large, le_refl _⟩
  next notAbove =>
      split
      next => exact ⟨le_refl _, large⟩
      next notBelow => exact ⟨not_lt.mp notBelow, not_lt.mp notAbove⟩

theorem ConflictsBitWindow.enqueue_fst (q : ConflictsBitWindow) (v : TxExecType) (c : Int) :
    (q.enqueue v c).1 = -1 ∨ (q.enqueue v c).1 = (q.enqueue v c).2.getNewPoolCapacity c := by
  unfold enqueue
  dsimp only
  split
  next => exact .inr rfl
  next => exact .inl rfl

theorem Pool.cap_tune (pool : Pool) {size : Int} (least : minPoolCapacity ≤ size) (fits : size < 2147483648) :
    (pool.tune size).cap = size ∨ pool.tune size = pool := by
  unfold tune
  split
  next => exact .inr rfl
  next =>
      left
      rw [minPoolCapacity] at least
      rw [cap, BitVec.toInt_ofInt]
      exact Int.bmod_eq_of_le (by omega) (by omega)

theorem adjustAll_cap {txBatchSize : Int} (large : minPoolCapacity ≤ txBatchSize)
    (fits : txBatchSize < 2147483648) {pool : Pool} (start : minPoolCapacity ≤ pool.cap)
    (types : List TxExecType) :
    let final := adjustAll pool (newConflictsBitWindow txBatchSize) types
    (minPoolCapacity ≤ final.1.cap ∧ final.1.cap ≤ max pool.cap txBatchSize) ∧ final.2.maxPoolCapacity = txBatchSize := by
  induction types using List.reverseRecOn with
  | nil => exact ⟨⟨start, le_max_left _ _⟩, rfl⟩
  | append_singleton types txExecType ih =>
    rw [adjustAll_concat]
    generalize adjustAll pool (newConflictsBitWindow txBatchSize) types = now at ih
    refine ⟨?_, ih.2⟩
    unfold adjustPoolSize
    dsimp only
    split
    next => exact ih.1
    next proposed =>
        have returned := (now.2.enqueue_fst txExecType now.1.cap).resolve_left proposed
        obtain ⟨least, most⟩ := (now.2.enqueue txExecType now.1.cap).2.getNewPoolCapacity_range (ih.2 ▸ large) now.1.cap
        have bounded := most.trans_eq ih.2
        rw [returned]
        rcases now.1.cap_tune least (bounded.trans_lt fits) with set | kept
        · rw [set]
          exact ⟨least, bounded.trans (le_max_right _ _)⟩
        · rw [kept]
          exact ih.1

theorem adjustAll_cap_of_conflicts : (adjustAll ⟨100, false⟩ (newConflictsBitWindow 200) (.replicate 1000 .conflictTx)).1.cap ≤ 200 :=
  (adjustAll_cap (by decide) (by decide) (by decide) _).1.2

end PoolRun

end Pdcc.Scheduler.Window
