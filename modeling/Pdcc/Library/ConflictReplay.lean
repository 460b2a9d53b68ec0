import Pdcc.Library.Logs
import Pdcc.Library.SerialExecution
import Mathlib.Data.List.FinRange

/-!
# Replaying a serial run in another order

A reordering of a serial run that keeps conflicting transactions in their
original order gives every transaction its original outcome. The argument is
cell by cell: the writers of one cell conflict pairwise, so every reader of the
cell finds the same writers before it in both orders.
-/

set_option autoImplicit false

namespace Pdcc.Library

variable {Tx Loc Key Value Outcome : Type} [DecidableEq Key]

section

variable (ident : Loc → Key)

def WritesCell (step : Executed Tx Loc Value Outcome) (key : Key) : Prop :=
  ∃ write ∈ step.applied, ident write.1 = key

instance (step : Executed Tx Loc Value Outcome) (key : Key) :
    Decidable (WritesCell ident step key) :=
  inferInstanceAs (Decidable (∃ write ∈ step.applied, ident write.1 = key))

variable (sem : Semantics Tx Loc Value Outcome)

def ReadsCell (step : Executed Tx Loc Value Outcome) (key : Key) : Prop :=
  ∃ loc ∈ sem.reads step.outcome, ident loc = key

def Conflict (left right : Executed Tx Loc Value Outcome) : Prop :=
  ∃ key, (WritesCell ident left key ∧ (ReadsCell ident sem right key ∨ WritesCell ident right key)) ∨
    (ReadsCell ident sem left key ∧ WritesCell ident right key)

theorem lastWrite_appliedWrites_filter (steps : List (Executed Tx Loc Value Outcome)) (key : Key) :
    lastWrite ident (appliedWrites (steps.filter fun step => WritesCell ident step key)) key = lastWrite ident (appliedWrites steps) key := by
  induction steps with
  | nil => rfl
  | cons step rest ih =>
    by_cases writes : WritesCell ident step key
    · simp only [List.filter_cons, writes, decide_true, ↓reduceIte, appliedWrites_cons, lastWrite_append, ih]
    · have absent : lastWrite ident step.applied key = none := by
        rw [lastWrite_eq_none_iff]
        intro write member same
        exact writes ⟨write, member, same⟩
      simp only [List.filter_cons, writes, decide_false, Bool.false_eq_true, ↓reduceIte,
        appliedWrites_cons, lastWrite_append, ih, absent, Option.or_none]

end

theorem mem_take_finRange {count : Nat} (index bound : Fin count) : index ∈ (List.finRange count).take bound ↔ index < bound := by
  rw [List.mem_take_iff_getElem]
  constructor
  · intro present
    obtain ⟨position, inside, same⟩ := present
    simp only [List.getElem_finRange] at same
    rw [← same, Fin.lt_def]
    simp only [Fin.val_cast]
    omega
  · intro below
    refine ⟨index, ?_, by simp⟩
    simp only [List.length_finRange]
    omega

variable {sem : Semantics Tx Loc Value Outcome} {ident : Loc → Key} {base : Loc → Value}
  {Order : List (Loc × Value) → List (Loc × Value) → Prop}

section Reorder

variable {steps : List (Executed Tx Loc Value Outcome)}

/-- An order of the steps that keeps conflicting ones as they were. -/
def KeepsConflicts (sem : Semantics Tx Loc Value Outcome) (ident : Loc → Key)
    (steps : List (Executed Tx Loc Value Outcome)) (order : List (Fin steps.length)) : Prop :=
  order.Pairwise fun earlier later =>
    Conflict ident sem (steps.get earlier) (steps.get later) → earlier < later

variable {order before after : List (Fin steps.length)} {table final : Overlay Key Value}

private theorem writers_increasing (keeps : KeepsConflicts sem ident steps order) (key : Key) :
    (order.filter fun index => WritesCell ident (steps.get index) key).Pairwise (· < ·) := by
  rw [List.pairwise_filter]
  refine keeps.imp ?_
  intro earlier later respects earlierWrites laterWrites
  simp only [decide_eq_true_eq] at earlierWrites laterWrites
  exact respects ⟨key, .inl ⟨earlierWrites, .inr laterWrites⟩⟩

private theorem lastWrite_eq_of_writers (ident : Loc → Key) {left right : List (Fin steps.length)} {key : Key}
    (same : (left.filter fun index => WritesCell ident (steps.get index) key) =
      right.filter fun index => WritesCell ident (steps.get index) key) :
    lastWrite ident (appliedWrites (left.map steps.get)) key = lastWrite ident (appliedWrites (right.map steps.get)) key := by
  rw [← lastWrite_appliedWrites_filter, ← lastWrite_appliedWrites_filter ident (right.map steps.get), List.filter_map, List.filter_map]
  simp only [Function.comp_def]
  rw [same]

private theorem writers_before {index : Fin steps.length} (complete : (before ++ index :: after).Perm (List.finRange steps.length))
    (keeps : KeepsConflicts sem ident steps (before ++ index :: after)) {key : Key}
    (reads : ReadsCell ident sem (steps.get index) key) :
    (before.filter fun other => WritesCell ident (steps.get other) key) =
      ((List.finRange steps.length).take index).filter fun other => WritesCell ident (steps.get other) key := by
  obtain ⟨beforeKeeps, afterKeeps, across⟩ := List.pairwise_append.mp keeps
  apply eq_of_increasing (writers_increasing beforeKeeps key)
  · rw [List.pairwise_filter]
    refine ((List.pairwise_lt_finRange _).sublist (List.take_sublist _ _)).imp ?_
    intro _ _ less _ _
    exact less
  · intro other
    simp only [List.mem_filter, decide_eq_true_eq, mem_take_finRange, and_congr_left_iff]
    intro writes
    constructor
    · intro member
      exact across other member index (.head _) ⟨key, .inl ⟨writes, .inl reads⟩⟩
    · intro below
      have present : other ∈ before ++ index :: after :=
        complete.mem_iff.mpr (List.mem_finRange other)
      rcases List.mem_append.mp present with early | late
      · exact early
      · rcases List.mem_cons.mp late with same | late
        · exact absurd (same ▸ below) (Fin.lt_irrefl _)
        · have above := List.rel_of_pairwise_cons afterKeeps late ⟨key, .inr ⟨reads, writes⟩⟩
          exact absurd above (Fin.lt_asymm below)

private theorem replay_outcome (run : SerialRun sem ident base Order table steps final) {index : Fin steps.length}
    (complete : (before ++ index :: after).Perm (List.finRange steps.length))
    (keeps : KeepsConflicts sem ident steps (before ++ index :: after)) :
    (steps.get index).outcome = sem.run (steps.get index).tx ((table.puts ident (appliedWrites (before.map steps.get))).view ident base) ∧
      Order (sem.writes (steps.get index).outcome) (steps.get index).applied := by
  have split : steps.take index ++ steps.get index :: steps.drop (index + 1) = steps := by simp
  rw [← split] at run
  obtain ⟨outcome, ordered⟩ := run.outcome_eq
  refine ⟨Semantics.run_eq_of_agree outcome ?_, ordered⟩
  intro loc member
  have taken : steps.take index = ((List.finRange steps.length).take index).map steps.get := by
    rw [List.map_take, List.map_get_finRange]
  have same := lastWrite_eq_of_writers ident (writers_before complete keeps ⟨loc, member, rfl⟩)
  simp only [Overlay.view, Overlay.puts_apply, taken, same]

theorem SerialRun.reorder (run : SerialRun sem ident base Order table steps final) (complete : order.Perm (List.finRange steps.length))
    (keeps : KeepsConflicts sem ident steps order) :
    SerialRun sem ident base Order table (order.map steps.get) final := by
  have suffix : ∀ after before, before ++ after = order →
      SerialRun sem ident base Order (table.puts ident (appliedWrites (before.map steps.get)))
        (after.map steps.get) (table.puts ident (appliedWrites (order.map steps.get))) := by
    intro after
    induction after with
    | nil =>
      intro before split
      rw [List.append_nil] at split
      subst split
      exact .nil
    | cons index after ih =>
      intro before split
      subst split
      obtain ⟨outcome, ordered⟩ := replay_outcome run complete keeps
      refine .cons outcome ordered ?_
      have rest := ih (before ++ [index]) (by simp)
      simpa only [List.map_append, appliedWrites_append, Overlay.puts_append, List.map_cons,
        List.map_nil, appliedWrites_cons, appliedWrites_nil, List.append_nil] using rest
  have sameFinal : final = table.puts ident (appliedWrites (order.map steps.get)) := by
    rw [run.final_eq]
    apply Overlay.puts_congr
    intro key
    have writers : ((List.finRange steps.length).filter fun index => WritesCell ident (steps.get index) key) =
        order.filter fun index => WritesCell ident (steps.get index) key := by
      apply eq_of_increasing _ (writers_increasing keeps key)
      · intro index
        simp only [List.mem_filter, complete.mem_iff]
      · exact (List.pairwise_lt_finRange _).sublist List.filter_sublist
    have same := lastWrite_eq_of_writers ident writers
    rwa [List.map_get_finRange] at same
  rw [sameFinal]
  exact suffix order [] rfl

end Reorder

end Pdcc.Library
