import Mathlib.Data.List.Basic
import Mathlib.Data.List.Induction
import Mathlib.Order.Basic

/-!
# Logs

Tables, chains and completion orders are lists that grow at their end. An entry
of the extended list is an old one, with the same prefix before it, or the new
one after everything else.
-/

set_option autoImplicit false

namespace Pdcc.Library

variable {α : Type}

theorem getElem?_concat_cases {log : List α} {newest entry : α} {i : Nat} (present : (log ++ [newest])[i]? = some entry) :
    (i < log.length ∧ log[i]? = some entry ∧ (log ++ [newest]).take i = log.take i) ∨
      (i = log.length ∧ newest = entry ∧ (log ++ [newest]).take i = log) := by
  rcases Nat.lt_trichotomy i log.length with earlier | rfl | beyond
  · rw [List.getElem?_append_left earlier] at present
    exact .inl ⟨earlier, present, List.take_append_of_le_length (Nat.le_of_lt earlier)⟩
  · exact .inr ⟨rfl, by simpa using present, List.take_left⟩
  · rw [List.getElem?_eq_none (by simp; omega)] at present
    cases present

theorem eq_of_increasing {Index : Type} [Preorder Index] {left right : List Index}
    (leftIncreasing : left.Pairwise (· < ·)) (rightIncreasing : right.Pairwise (· < ·))
    (same : ∀ index, index ∈ left ↔ index ∈ right) : left = right := by
  have leftNodup : left.Nodup := leftIncreasing.imp ne_of_lt
  have rightNodup : right.Nodup := rightIncreasing.imp ne_of_lt
  refine List.Perm.eq_of_pairwise ?_ leftIncreasing rightIncreasing ((List.perm_ext_iff_of_nodup leftNodup rightNodup).mpr same)
  intro first second _ _ forward backward
  exact absurd forward (lt_asymm backward)

theorem filterMap_getElem?_range {β : Type} (f : α → β) (log : List α) :
    (List.range log.length).filterMap (fun i => log[i]?.map f) = log.map f := by
  induction log using List.reverseRecOn with
  | nil => rfl
  | append_singleton log newest ih =>
    have earlier : (List.range log.length).filterMap (fun i => (log ++ [newest])[i]?.map f) =
        (List.range log.length).filterMap fun i => log[i]?.map f := by
      refine List.filterMap_congr ?_
      intro i member
      rw [List.getElem?_append_left (List.mem_range.mp member)]
    rw [List.length_append, List.length_singleton, List.range_succ, List.filterMap_append, earlier, ih, List.map_append]
    simp

theorem filter_append_of_pairwise (p : α → Bool) {log : List α}
    (sorted : log.Pairwise fun earlier later => p later = true → p earlier = true) :
    log = log.filter p ++ log.filter fun entry => !p entry := by
  induction log with
  | nil => rfl
  | cons first log ih =>
    obtain ⟨head, tail⟩ := List.pairwise_cons.mp sorted
    cases here : p first with
    | true =>
      rw [List.filter_cons_of_pos here, List.filter_cons_of_neg (by simp [here]), List.cons_append, ← ih tail]
    | false =>
      have rest : log.filter p = [] := by
        refine List.filter_eq_nil_iff.mpr ?_
        intro entry member set
        rw [head entry member set] at here
        cases here
      have whole := ih tail
      rw [rest, List.nil_append] at whole
      rw [List.filter_cons_of_neg (by simp [here]), rest, List.nil_append, List.filter_cons_of_pos (by simp [here]), ← whole]

end Pdcc.Library
