import Mathlib.Data.List.Perm.Basic

/-!
# Priority queues

A queue gives out an item of the highest level it holds; among items of that level any of
them may be next. The position of the item settles the choice.
-/

set_option autoImplicit false

namespace Pdcc.Library

variable {Item : Type} (level : Item → Nat)

def takeTop (queue : List Item) (position : Nat) : Option (Item × List Item) :=
  match queue[position]? with
  | none => none
  | some item =>
    if queue.all fun other => level other ≤ level item then
      some (item, queue.eraseIdx position)
    else none

variable {level} {queue rest : List Item} {position : Nat} {item : Item}

theorem perm_of_takeTop (taken : takeTop level queue position = some (item, rest)) : queue.Perm (item :: rest) := by
  rw [takeTop] at taken
  cases found : queue[position]? with
  | none =>
    rw [found] at taken
    cases taken
  | some first =>
    rw [found] at taken
    dsimp only at taken
    split at taken
    · cases taken
      obtain ⟨inside, rfl⟩ := List.getElem?_eq_some_iff.mp found
      exact (List.getElem_cons_eraseIdx_perm inside).symm
    · cases taken

theorem filterMap_perm_of_takeTop {Kind : Type} (kind : Item → Option Kind) (taken : takeTop level queue position = some (item, rest)) :
    (queue.filterMap kind).Perm ((kind item).toList ++ rest.filterMap kind) := by
  refine ((perm_of_takeTop taken).filterMap kind).trans ?_
  cases kinded : kind item with
  | none => simp [kinded]
  | some value => simp [kinded]

end Pdcc.Library
