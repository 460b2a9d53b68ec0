import Pdcc.Scheduler.SimulateDag
import Mathlib.Data.Finset.Card

/-!
# The coordinator of `SimulateWithDag`

Workers apply released transactions and report over `doneTxC`; the coordinator
loop releases further transactions, counts failed applies and signals `finishC`
when a message says that the block is through. The size in a message is the one
the worker saw when it applied, the count is the one at delivery.
-/

set_option autoImplicit false

namespace Pdcc.Scheduler.Simulate

section Model

structure ApplyResult where
  txIndex : Nat
  isApplySuccess : Bool
  applySize : Nat

/-- The coordinator with its workers. `running` holds the indices in `runningTxC`
or with a worker, `doneTxC` the messages of applied transactions that the loop has
not taken, `processed` the taken ones in order, `signals` the sends on `finishC`. -/
structure Coordinator where
  dispatch : Dispatch
  running : List Nat
  snapshotSize : Nat
  doneTxC : List ApplyResult
  processed : List ApplyResult
  failApplyCount : Nat
  signals : Nat
  returned : Bool

def Coordinator.start (dag : SimulateDag) : Coordinator where
  dispatch := .start dag
  running := dag.txIndexBatch
  snapshotSize := 0
  doneTxC := []
  processed := []
  failApplyCount := 0
  signals := 0
  returned := false

def Coordinator.countFail (c : Coordinator) (result : ApplyResult) : Nat :=
  if result.isApplySuccess then c.failApplyCount else c.failApplyCount + 1

def Coordinator.process (txBatchSize : Nat) (c : Coordinator) (result : ApplyResult)
    (remaining : List ApplyResult) (order : List Nat) : Coordinator where
  dispatch := c.dispatch.complete result.txIndex order
  running := c.running ++ c.dispatch.shrinkDag result.txIndex order
  snapshotSize := c.snapshotSize
  doneTxC := remaining
  processed := c.processed ++ [result]
  failApplyCount := c.countFail result
  signals :=
    if txBatchSize ≤ result.applySize + c.countFail result then c.signals + 1 else c.signals
  returned := c.returned

/-- The steps of workers and coordinator. Messages are taken in any order, since
a worker may pause between its apply and its send. A second send on `finishC`
blocks the coordinator, its only receiver. -/
inductive Coordinator.Step (txBatchSize : Nat) : Coordinator → Coordinator → Prop where
  | applied {c : Coordinator} {before after : List Nat} {txIndex : Nat} :
      c.running = before ++ txIndex :: after →
      Coordinator.Step txBatchSize c { c with
        running := before ++ after
        snapshotSize := c.snapshotSize + 1
        doneTxC := c.doneTxC ++ [⟨txIndex, true, c.snapshotSize + 1⟩] }
  | failed {c : Coordinator} {before after : List Nat} {txIndex : Nat} :
      c.running = before ++ txIndex :: after →
      Coordinator.Step txBatchSize c { c with
        running := before ++ after
        doneTxC := c.doneTxC ++ [⟨txIndex, false, c.snapshotSize⟩] }
  | done {c : Coordinator} {before after : List ApplyResult} {result : ApplyResult}
      {order : List Nat} :
      c.returned = false → c.signals ≤ 1 → c.doneTxC = before ++ result :: after →
      c.dispatch.RangeOrder result.txIndex order →
      Coordinator.Step txBatchSize c (c.process txBatchSize result (before ++ after) order)
  | finish {c : Coordinator} :
      c.returned = false → c.signals = 1 →
      Coordinator.Step txBatchSize c { c with returned := true }
  | timeout {c : Coordinator} :
      c.returned = false → c.signals ≤ 1 →
      Coordinator.Step txBatchSize c { c with returned := true }

def Coordinator.Reachable (vertexes : List (Option (List Nat))) (dag : SimulateDag)
    (c : Coordinator) : Prop :=
  Relation.ReflTransGen (Coordinator.Step vertexes.length) (.start dag) c

def Coordinator.messages (c : Coordinator) : List ApplyResult := c.doneTxC ++ c.processed

def failures (messages : List ApplyResult) : Nat :=
  messages.countP fun result => !result.isApplySuccess

/-- The loop takes the message of the last successful apply after the message at
`position`, which is the last failure and was sent at the same snapshot size,
with all transactions applied. -/
def Coordinator.LastSuccessLate (txBatchSize : Nat) (c : Coordinator) : Prop :=
  c.messages.length = txBatchSize ∧
  ∃ position later failed applied, position < later ∧
    c.processed[position]? = some failed ∧ c.processed[later]? = some applied ∧
    failed.isApplySuccess = false ∧ applied.isApplySuccess = true ∧
    failed.applySize = c.snapshotSize ∧ applied.applySize = c.snapshotSize ∧
    failures (c.processed.take (position + 1)) = failures c.messages

end Model

section Messages

theorem failures_append (messages more : List ApplyResult) : failures (messages ++ more) = failures messages + failures more :=
  List.countP_append

theorem failures_take_le (messages : List ApplyResult) (k : Nat) : failures (messages.take k) ≤ failures messages := by
  exact (List.take_sublist k messages).countP_le

/-- The successes report the positions that the transactions took. -/
structure Recorded (snapshotSize : Nat) (messages : List ApplyResult) : Prop where
  bounded : ∀ result ∈ messages, result.applySize ≤ snapshotSize
  distinct : ((messages.filter (·.isApplySuccess)).map (·.applySize)).Nodup
  counted : messages.length = snapshotSize + failures messages

variable {snapshotSize : Nat} {messages messages' : List ApplyResult}

theorem Recorded.perm (recorded : Recorded snapshotSize messages) (perm : messages'.Perm messages) : Recorded snapshotSize messages' := by
  refine ⟨?_, ?_, ?_⟩
  · intro result member
    exact recorded.bounded result (perm.mem_iff.mp member)
  · exact ((perm.filter _).map _).nodup_iff.mpr recorded.distinct
  · rw [perm.length_eq, recorded.counted, failures, failures, perm.countP_eq]

theorem Recorded.success (recorded : Recorded snapshotSize messages) (txIndex : Nat) :
    Recorded (snapshotSize + 1) (⟨txIndex, true, snapshotSize + 1⟩ :: messages) := by
  refine ⟨?_, ?_, ?_⟩
  · intro result member
    cases member with
    | head => exact le_rfl
    | tail _ member => exact Nat.le_succ_of_le (recorded.bounded result member)
  · rw [List.filter_cons_of_pos rfl, List.map_cons, List.nodup_cons]
    refine ⟨?_, recorded.distinct⟩
    intro taken
    obtain ⟨result, member, size⟩ := List.mem_map.mp taken
    have bound := recorded.bounded result (List.mem_of_mem_filter member)
    rw [size] at bound
    exact absurd bound (Nat.not_succ_le_self _)
  · simp only [List.length_cons, recorded.counted, failures, List.countP_cons, Bool.not_true, Bool.false_eq_true, if_false]
    omega

theorem Recorded.failure (recorded : Recorded snapshotSize messages) (txIndex : Nat) :
    Recorded snapshotSize (⟨txIndex, false, snapshotSize⟩ :: messages) := by
  refine ⟨?_, ?_, ?_⟩
  · intro result member
    cases member with
    | head => exact le_rfl
    | tail _ member => exact recorded.bounded result member
  · rw [List.filter_cons_of_neg (by simp)]
    exact recorded.distinct
  · simp only [List.length_cons, recorded.counted, failures, List.countP_cons, Bool.not_false, if_true]
    omega

variable {processed : List ApplyResult}

theorem Recorded.sizes_apart (recorded : Recorded snapshotSize (messages ++ processed))
    {position later : Nat} {result other : ApplyResult} (before : position < later)
    (found : processed[position]? = some result) (foundLater : processed[later]? = some other)
    (success : result.isApplySuccess = true) (successLater : other.isApplySuccess = true) :
    result.applySize ≠ other.applySize := by
  have distinct : ((processed.filter (·.isApplySuccess)).map (·.applySize)).Nodup :=
    recorded.distinct.sublist (((List.sublist_append_right _ _).filter _).map _)
  obtain ⟨inside, rfl⟩ := List.getElem?_eq_some_iff.mp found
  obtain ⟨insideLater, rfl⟩ := List.getElem?_eq_some_iff.mp foundLater
  rw [List.Nodup, List.pairwise_map, List.pairwise_filter] at distinct
  exact List.pairwise_iff_getElem.mp distinct position later inside insideLater before success successLater

theorem success_of_failures_delivered {position later : Nat} {other : ApplyResult}
    (before : position < later) (foundLater : processed[later]? = some other)
    (delivered : failures processed ≤ failures (processed.take (position + 1))) :
    other.isApplySuccess = true := by
  obtain ⟨inside, rfl⟩ := List.getElem?_eq_some_iff.mp foundLater
  have grows : failures (processed.take (position + 1)) ≤ failures (processed.take later) := by
    exact (List.take_sublist_take_left before).countP_le
  have total := failures_take_le processed (later + 1)
  rw [← List.take_concat_get' processed later inside, failures_append] at total
  by_contra failed
  have one : failures [processed[later]] = 1 := by
    simp [failures, Bool.not_eq_true _ ▸ failed]
  omega

end Messages

section Invariant

variable {vertexes : List (Option (List Nat))} {c c' : Coordinator}

def finishesAt (txBatchSize : Nat) (processed : List ApplyResult) (position : Nat) : Bool :=
  (processed[position]?).any fun result =>
    decide (txBatchSize ≤ result.applySize + failures (processed.take (position + 1)))

def finishPositions (txBatchSize : Nat) (processed : List ApplyResult) : Finset Nat :=
  (Finset.range processed.length).filter fun position => finishesAt txBatchSize processed position

theorem mem_finishPositions {txBatchSize position : Nat} {processed : List ApplyResult} :
    position ∈ finishPositions txBatchSize processed ↔ ∃ result, processed[position]? = some result ∧
        txBatchSize ≤ result.applySize + failures (processed.take (position + 1)) := by
  rw [finishPositions, Finset.mem_filter, Finset.mem_range]
  unfold finishesAt
  cases found : processed[position]? with
  | none => simp
  | some result =>
    have inside : position < processed.length := (List.getElem?_eq_some_iff.mp found).1
    simp [inside]

theorem finishPositions_append (txBatchSize : Nat) (processed : List ApplyResult) (result : ApplyResult) :
    finishPositions txBatchSize (processed ++ [result]) = if txBatchSize ≤ result.applySize + failures (processed ++ [result]) then
        insert processed.length (finishPositions txBatchSize processed)
      else finishPositions txBatchSize processed := by
  have earlier : (Finset.range processed.length).filter (fun position => finishesAt txBatchSize (processed ++ [result]) position) =
      finishPositions txBatchSize processed := by
    refine Finset.filter_congr fun position inside => ?_
    have before : position < processed.length := Finset.mem_range.mp inside
    rw [finishesAt, finishesAt, List.getElem?_append_left before, List.take_append_of_le_length (by omega)]
  have last : finishesAt txBatchSize (processed ++ [result]) processed.length =
      decide (txBatchSize ≤ result.applySize + failures (processed ++ [result])) := by
    have whole : (processed ++ [result]).take (processed.length + 1) = processed ++ [result] :=
      List.take_of_length_le (by simp)
    simp [finishesAt, whole]
  rw [finishPositions, List.length_append, List.length_singleton, Finset.range_add_one, Finset.filter_insert, earlier, last]
  simp

structure Coordinator.Inv (vertexes : List (Option (List Nat))) (c : Coordinator) : Prop where
  dispatch : c.dispatch.Inv vertexes
  handed : (c.running ++ c.messages.map (·.txIndex)).Perm c.dispatch.released
  completed : c.dispatch.completed = c.processed.map (·.txIndex)
  recorded : Recorded c.snapshotSize c.messages
  failCount : c.failApplyCount = failures c.processed
  signals : c.signals = (finishPositions vertexes.length c.processed).card

theorem Coordinator.Inv.start {dag : SimulateDag} (init : InitInv vertexes dag) : Coordinator.Inv vertexes (.start dag) where
  dispatch := .start init
  handed := by simp [Coordinator.start, Coordinator.messages, Dispatch.start]
  completed := rfl
  recorded := ⟨by simp [Coordinator.start, Coordinator.messages], List.nodup_nil, rfl⟩
  failCount := rfl
  signals := rfl

private theorem Coordinator.Inv.report (inv : c.Inv vertexes) {before after : List Nat}
    {result : ApplyResult} (running : c.running = before ++ result.txIndex :: after)
    {snapshotSize : Nat} (recorded : Recorded snapshotSize (result :: c.messages)) :
    Coordinator.Inv vertexes { c with
      running := before ++ after
      snapshotSize := snapshotSize
      doneTxC := c.doneTxC ++ [result] } := by
  have sent : (c.doneTxC ++ [result] ++ c.processed).Perm (result :: c.messages) := by
    rw [List.append_assoc]
    exact List.perm_middle
  refine ⟨inv.dispatch, ?_, inv.completed, recorded.perm sent, inv.failCount, inv.signals⟩
  have moved : (before ++ after ++ (result :: c.messages).map (·.txIndex)).Perm (c.running ++ c.messages.map (·.txIndex)) := by
    rw [running, List.map_cons, List.append_assoc, List.append_assoc, List.cons_append]
    refine List.Perm.append_left before ?_
    exact List.perm_middle
  exact ((sent.map _).append_left _).trans (moved.trans inv.handed)

theorem Coordinator.Inv.nodup (inv : c.Inv vertexes) : (c.running ++ c.messages.map (·.txIndex)).Nodup :=
  inv.handed.nodup_iff.mpr inv.dispatch.nodup

private theorem Coordinator.Inv.process (inv : c.Inv vertexes) {before after : List ApplyResult}
    {result : ApplyResult} {order : List Nat} (pending : c.doneTxC = before ++ result :: after)
    (range : c.dispatch.RangeOrder result.txIndex order) :
    (c.process vertexes.length result (before ++ after) order).Inv vertexes := by
  have unsent : (before ++ after ++ (c.processed ++ [result])).Perm c.messages := by
    rw [Coordinator.messages, pending]
    simp only [List.append_assoc, List.cons_append]
    refine List.Perm.append_left before ?_
    rw [← List.append_assoc]
    exact List.perm_append_comm
  have taken : result ∈ c.doneTxC := by simp [pending]
  have released : result.txIndex ∈ c.dispatch.released :=
    inv.handed.mem_iff.mp (List.mem_append_right _ (List.mem_map_of_mem (List.mem_append_left _ taken)))
  have outstanding : result.txIndex ∉ c.dispatch.completed := by
    have distinct := (List.nodup_append'.mp inv.nodup).2.1
    rw [Coordinator.messages, List.map_append] at distinct
    rw [inv.completed]
    exact fun done => (List.nodup_append'.mp distinct).2.2 (List.mem_map_of_mem taken) done
  have failCount : c.countFail result = failures (c.processed ++ [result]) := by
    rw [Coordinator.countFail, inv.failCount, failures_append]
    cases outcome : result.isApplySuccess <;> simp [failures, outcome]
  refine ⟨inv.dispatch.complete range released outstanding, ?_, ?_, inv.recorded.perm unsent, failCount, ?_⟩
  · -- the released indices join `running` on the left and `released` on the right
    have kept : (c.running ++ (before ++ after ++ (c.processed ++ [result])).map ApplyResult.txIndex).Perm c.dispatch.released :=
      ((unsent.map _).append_left _).trans inv.handed
    refine List.Perm.trans ?_ (kept.append_right (c.dispatch.shrinkDag result.txIndex order))
    rw [List.append_assoc]
    show (c.running ++ c.dispatch.shrinkDag result.txIndex order ++ _).Perm _
    rw [List.append_assoc]
    exact List.perm_append_comm.append_left _
  · simp [Coordinator.process, Dispatch.complete, inv.completed]
  · have fresh : c.processed.length ∉ finishPositions vertexes.length c.processed := by
      simp [finishPositions]
    simp only [Coordinator.process, finishPositions_append, failCount, inv.signals]
    split
    · rw [Finset.card_insert_of_notMem fresh]
    · rfl

theorem Coordinator.Inv.step (inv : c.Inv vertexes) (step : Coordinator.Step vertexes.length c c') : c'.Inv vertexes := by
  cases step with
  | applied running => exact inv.report running (inv.recorded.success _)
  | failed running => exact inv.report running (inv.recorded.failure _)
  | done _ _ pending range => exact inv.process pending range
  | finish | timeout =>
    exact ⟨inv.dispatch, inv.handed, inv.completed, inv.recorded, inv.failCount, inv.signals⟩

theorem Coordinator.Inv.reachable {dag : SimulateDag} (accepted : initSimulateDag vertexes = .ok dag) (run : c.Reachable vertexes dag) :
    c.Inv vertexes := by
  induction run with
  | refl => exact .start (initSimulateDag_inv accepted)
  | tail _ step ih => exact ih.step step

end Invariant

section Finish

variable {vertexes : List (Option (List Nat))} {c : Coordinator}

theorem Coordinator.Inv.messages_nodup (inv : c.Inv vertexes) : (c.messages.map (·.txIndex)).Nodup :=
  (List.nodup_append'.mp inv.nodup).2.1

theorem Coordinator.Inv.messages_inside (inv : c.Inv vertexes) {result : ApplyResult}
    (sent : result ∈ c.messages) : result.txIndex < vertexes.length := by
  have released : result.txIndex ∈ c.dispatch.released :=
    inv.handed.mem_iff.mp (List.mem_append_right _ (List.mem_map_of_mem sent))
  exact ((inv.dispatch.released _).mp released).1

theorem Coordinator.Inv.messages_subset (inv : c.Inv vertexes) : c.messages.map (·.txIndex) ⊆ List.range vertexes.length := by
  intro i member
  obtain ⟨result, sent, rfl⟩ := List.mem_map.mp member
  exact List.mem_range.mpr (inv.messages_inside sent)

theorem Coordinator.Inv.messages_length_le (inv : c.Inv vertexes) : c.messages.length ≤ vertexes.length := by
  simpa using (inv.messages_nodup.subperm inv.messages_subset).length_le

theorem Coordinator.Inv.all_applied (inv : c.Inv vertexes)
    (full : c.messages.length = vertexes.length) {i : Nat} (inside : i < vertexes.length) :
    ∃ result ∈ c.messages, result.txIndex = i := by
  have every := (inv.messages_nodup.subperm inv.messages_subset).perm_of_length_le (by simp [full])
  exact List.mem_map.mp (every.mem_iff.mpr (List.mem_range.mpr inside))

theorem Coordinator.Inv.finishes_iff (inv : c.Inv vertexes) {position : Nat}
    {result : ApplyResult} (found : c.processed[position]? = some result) :
    position ∈ finishPositions vertexes.length c.processed ↔ c.messages.length = vertexes.length ∧ result.applySize = c.snapshotSize ∧
        failures (c.processed.take (position + 1)) = failures c.messages := by
  have bound : result.applySize ≤ c.snapshotSize :=
    inv.recorded.bounded result (List.mem_append_right _ (List.mem_of_getElem? found))
  have delivered : failures (c.processed.take (position + 1)) ≤ failures c.messages := by
    have taken := failures_take_le c.processed (position + 1)
    rw [Coordinator.messages, failures_append]
    omega
  have total := inv.recorded.counted
  have size := inv.messages_length_le
  rw [mem_finishPositions]
  constructor
  · rintro ⟨same, foundAgain, satisfied⟩
    rw [found, Option.some.injEq] at foundAgain
    subst foundAgain
    omega
  · rintro ⟨full, final, all⟩
    exact ⟨result, found, by omega⟩

theorem Coordinator.Inv.late_of_two (inv : c.Inv vertexes) {position later : Nat} (before : position < later)
    (finishes : position ∈ finishPositions vertexes.length c.processed)
    (finishesLater : later ∈ finishPositions vertexes.length c.processed) :
    c.LastSuccessLate vertexes.length := by
  obtain ⟨failed, found, _⟩ := mem_finishPositions.mp finishes
  obtain ⟨applied, foundLater, _⟩ := mem_finishPositions.mp finishesLater
  obtain ⟨full, size, delivered⟩ := (inv.finishes_iff found).mp finishes
  obtain ⟨_, sizeLater, _⟩ := (inv.finishes_iff foundLater).mp finishesLater
  have success : applied.isApplySuccess = true := by
    refine success_of_failures_delivered before foundLater ?_
    rw [delivered, Coordinator.messages, failures_append]
    exact Nat.le_add_left _ _
  have failure : failed.isApplySuccess = false := by
    by_contra succeeded
    exact inv.recorded.sizes_apart before found foundLater (Bool.not_eq_false _ ▸ succeeded) success (size.trans sizeLater.symm)
  exact ⟨full, position, later, failed, applied, before, found, foundLater, failure, success, size, sizeLater, delivered⟩

theorem Coordinator.Inv.two_of_late (inv : c.Inv vertexes) (late : c.LastSuccessLate vertexes.length) :
    ∃ position later, position < later ∧ position ∈ finishPositions vertexes.length c.processed ∧
      later ∈ finishPositions vertexes.length c.processed := by
  obtain ⟨full, position, later, failed, applied, before, found, foundLater, _, _, size, sizeLater, delivered⟩ := late
  refine ⟨position, later, before, (inv.finishes_iff found).mpr ⟨full, size, delivered⟩,
    (inv.finishes_iff foundLater).mpr ⟨full, sizeLater, ?_⟩⟩
  -- between the two messages the count of failures cannot change any more
  have grows : failures (c.processed.take (position + 1)) ≤ failures (c.processed.take (later + 1)) :=
    (List.take_sublist_take_left (by omega)).countP_le
  have total := failures_take_le c.processed (later + 1)
  rw [Coordinator.messages, failures_append] at delivered ⊢
  omega

/-- The coordinator signals at most once, and only after all transactions were
applied, exactly if the message of the last success is not taken after a last
failure of the same size. -/
theorem finish_signalled_once_iff (dag : SimulateDag) (c : Coordinator)
    (accepted : initSimulateDag vertexes = .ok dag) (run : c.Reachable vertexes dag) :
    (c.signals ≤ 1 ∧ (1 ≤ c.signals → ∀ i < vertexes.length, ∃ result ∈ c.messages, result.txIndex = i)) ↔
    ¬ c.LastSuccessLate vertexes.length := by
  have inv := Coordinator.Inv.reachable accepted run
  rw [inv.signals]
  constructor
  · rintro ⟨once, _⟩ late
    obtain ⟨position, later, before, finishes, finishesLater⟩ := inv.two_of_late late
    exact before.ne (Finset.card_le_one.mp once position finishes later finishesLater)
  · intro notLate
    refine ⟨Finset.card_le_one.mpr ?_, ?_⟩
    · intro position finishes later finishesLater
      rcases lt_trichotomy position later with before | same | after
      · exact absurd (inv.late_of_two before finishes finishesLater) notLate
      · exact same
      · exact absurd (inv.late_of_two after finishesLater finishes) notLate
    · intro signalled i inside
      obtain ⟨position, finishes⟩ := Finset.card_pos.mp signalled
      obtain ⟨result, found, _⟩ := mem_finishPositions.mp finishes
      exact inv.all_applied ((inv.finishes_iff found).mp finishes).1 inside

def independentPair : List (Option (List Nat)) := [some [], some []]

def independentPairDag : SimulateDag :=
  (initSimulateDag independentPair).toOption.getD ⟨[], fun _ => none, fun _ => none⟩

def firstApplied : Coordinator :=
  { Coordinator.start independentPairDag with
    running := [1], snapshotSize := 1, doneTxC := [⟨0, true, 1⟩] }

def secondFailed : Coordinator :=
  { firstApplied with running := [], doneTxC := [⟨0, true, 1⟩, ⟨1, false, 1⟩] }

theorem secondFailed_reachable : secondFailed.Reachable independentPair independentPairDag := by
  have first : Coordinator.Step 2 (.start independentPairDag) firstApplied :=
    @Coordinator.Step.applied 2 _ [] [1] 0 rfl
  have second : Coordinator.Step 2 firstApplied secondFailed :=
    @Coordinator.Step.failed 2 _ [] [] 1 rfl
  exact (Relation.ReflTransGen.single first).tail second

theorem finish_signalled_once_iff_successFirst : initSimulateDag independentPair = .ok independentPairDag ∧
    ∃ c : Coordinator, c.Reachable independentPair independentPairDag ∧ c.doneTxC = [] ∧
      c.signals = 1 ∧ ¬ c.LastSuccessLate 2 := by
  have accepted : initSimulateDag independentPair = .ok independentPairDag := rfl
  have success := @Coordinator.Step.done 2 secondFailed [] [⟨1, false, 1⟩] ⟨0, true, 1⟩ []
    rfl (by decide) rfl ⟨by decide, by decide⟩
  have failure := @Coordinator.Step.done 2
    (secondFailed.process 2 ⟨0, true, 1⟩ [⟨1, false, 1⟩] []) [] [] ⟨1, false, 1⟩ []
    rfl (by decide) rfl ⟨by decide, by decide⟩
  have run := (secondFailed_reachable.tail success).tail failure
  exact ⟨accepted, _, run, rfl, rfl,
    (finish_signalled_once_iff independentPairDag _ accepted run).mp ⟨by decide, by decide⟩⟩

/-- The failure is taken before the success: both messages satisfy the condition,
and the second send blocks the coordinator. -/
theorem finish_signalled_twice : initSimulateDag independentPair = .ok independentPairDag ∧
    ∃ c : Coordinator, c.Reachable independentPair independentPairDag ∧ c.returned = false ∧ c.signals = 2 := by
  have failure := @Coordinator.Step.done 2 secondFailed [⟨0, true, 1⟩] [] ⟨1, false, 1⟩ []
    rfl (by decide) rfl ⟨by decide, by decide⟩
  have success := @Coordinator.Step.done 2
    (secondFailed.process 2 ⟨1, false, 1⟩ [⟨0, true, 1⟩] []) [] [] ⟨0, true, 1⟩ []
    rfl (by decide) rfl ⟨by decide, by decide⟩
  exact ⟨rfl, _, (secondFailed_reachable.tail failure).tail success, rfl, rfl⟩

end Finish

end Pdcc.Scheduler.Simulate
