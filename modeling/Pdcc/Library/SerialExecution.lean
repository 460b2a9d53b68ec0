import Pdcc.Library.Overlay
import Mathlib.Data.List.Forall2

/-!
# Serial execution of deterministic transactions

A transaction is a program over the values it reads; its outcome names the
locations it read and the writes it makes. Serial execution threads the
written values through a list of transactions. The order in which the writes
of one transaction reach the table is left to a relation.
-/

set_option autoImplicit false

namespace Pdcc.Library

structure Semantics (Tx Loc Value Outcome : Type) where
  run : Tx → (Loc → Value) → Outcome
  reads : Outcome → List Loc
  writes : Outcome → List (Loc × Value)
  determined : ∀ tx view view', (∀ loc ∈ reads (run tx view), view' loc = view loc) →
    run tx view' = run tx view

structure Executed (Tx Loc Value Outcome : Type) where
  tx : Tx
  outcome : Outcome
  applied : List (Loc × Value)

variable {Tx Loc Key Value Outcome : Type} [DecidableEq Key]

def appliedWrites (steps : List (Executed Tx Loc Value Outcome)) : List (Loc × Value) :=
  steps.flatMap (·.applied)

@[simp] theorem appliedWrites_nil : appliedWrites ([] : List (Executed Tx Loc Value Outcome)) = [] := rfl

@[simp] theorem appliedWrites_cons (step : Executed Tx Loc Value Outcome) (steps : List (Executed Tx Loc Value Outcome)) :
    appliedWrites (step :: steps) = step.applied ++ appliedWrites steps := rfl

theorem appliedWrites_append (before after : List (Executed Tx Loc Value Outcome)) :
    appliedWrites (before ++ after) = appliedWrites before ++ appliedWrites after := by
  simp [appliedWrites]

variable (sem : Semantics Tx Loc Value Outcome) (ident : Loc → Key) (base : Loc → Value)
  (Order : List (Loc × Value) → List (Loc × Value) → Prop)

/-- Transactions executed one after another, each over the writes of those before it. -/
inductive SerialRun : Overlay Key Value → List (Executed Tx Loc Value Outcome) →
    Overlay Key Value → Prop where
  | nil {table} : SerialRun table [] table
  | cons {table final step rest} :
      step.outcome = sem.run step.tx (table.view ident base) →
      Order (sem.writes step.outcome) step.applied →
      SerialRun (table.puts ident step.applied) rest final →
      SerialRun table (step :: rest) final

variable {sem ident base Order} {final : Overlay Key Value}
  {before steps : List (Executed Tx Loc Value Outcome)} {table : Overlay Key Value}
  {after : List (Executed Tx Loc Value Outcome)}

theorem SerialRun.append {middle : Overlay Key Value} (first : SerialRun sem ident base Order table before middle)
    (second : SerialRun sem ident base Order middle after final) :
    SerialRun sem ident base Order table (before ++ after) final := by
  induction first with
  | nil => exact second
  | cons outcome ordered _ ih => exact .cons outcome ordered (ih second)

theorem SerialRun.final_eq (run : SerialRun sem ident base Order table steps final) : final = table.puts ident (appliedWrites steps) := by
  induction run with
  | nil => rfl
  | cons _ _ _ ih => rw [ih, appliedWrites_cons, Overlay.puts_append]

theorem SerialRun.outcome_eq {step : Executed Tx Loc Value Outcome}
    (run : SerialRun sem ident base Order table (before ++ step :: after) final) :
    step.outcome = sem.run step.tx ((table.puts ident (appliedWrites before)).view ident base) ∧
      Order (sem.writes step.outcome) step.applied := by
  induction before generalizing table with
  | nil =>
    cases run with
    | cons outcome ordered _ => exact ⟨outcome, ordered⟩
  | cons head before ih =>
    cases run with
    | cons _ _ rest =>
      rw [appliedWrites_cons, Overlay.puts_append]
      exact ih rest

theorem Semantics.run_eq_of_agree {tx : Tx} {view view' : Loc → Value} {outcome : Outcome} (executed : outcome = sem.run tx view)
    (agree : ∀ loc ∈ sem.reads outcome, view' loc = view loc) :
    outcome = sem.run tx view' := by
  subst executed
  exact (sem.determined tx view view' agree).symm

/-- No step reads what an earlier one has written. -/
def Unread (sem : Semantics Tx Loc Value Outcome) (ident : Loc → Key)
    (steps : List (Executed Tx Loc Value Outcome)) : Prop :=
  steps.Pairwise fun earlier later =>
    ∀ loc ∈ sem.reads later.outcome, ∀ write ∈ earlier.applied, ident write.1 ≠ ident loc

theorem SerialRun.of_unread (executed : ∀ step ∈ steps, step.outcome = sem.run step.tx (table.view ident base))
    (ordered : ∀ step ∈ steps, Order (sem.writes step.outcome) step.applied)
    (unread : Unread sem ident steps) :
    SerialRun sem ident base Order table steps (table.puts ident (appliedWrites steps)) := by
  induction steps generalizing table with
  | nil => exact .nil
  | cons step rest ih =>
    obtain ⟨headUnread, restUnread⟩ := List.pairwise_cons.mp unread
    rw [appliedWrites_cons, Overlay.puts_append]
    refine .cons (executed step (.head _)) (ordered step (.head _)) ?_
    refine ih ?_ (fun later member => ordered later (.tail _ member)) restUnread
    intro later member
    refine Semantics.run_eq_of_agree (executed later (.tail _ member)) ?_
    intro loc locRead
    exact Overlay.view_puts_of_unwritten ident (headUnread later member loc locRead)

/-- Writes whose order cannot be seen in the table may be taken in the order of
the outcome. -/
theorem SerialRun.inOrder (run : SerialRun sem ident base Order table steps final)
    (irrelevant : ∀ step ∈ steps, Order (sem.writes step.outcome) step.applied →
      ∀ key, lastWrite ident step.applied key = lastWrite ident (sem.writes step.outcome) key) :
    SerialRun sem ident base Eq table (steps.map fun step => { step with applied := sem.writes step.outcome }) final := by
  induction run with
  | nil => exact .nil
  | @cons table final step rest outcome ordered _ ih =>
    have later := ih fun other member => irrelevant other (.tail _ member)
    rw [Overlay.puts_congr ident (irrelevant step (.head _) ordered)] at later
    exact .cons outcome rfl later

end Pdcc.Library
