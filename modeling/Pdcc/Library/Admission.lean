import Mathlib.Data.List.Basic

/-!
# Admission of keyed items

One pass over a list of keyed items with a check that may change a state: an item
that passes is kept, unless an item with its key has been kept before.
-/

set_option autoImplicit false

namespace Pdcc.Library

variable {σ κ α : Type} [BEq κ] (check : σ → κ → α → Bool × σ)

def admitOnce (seen : List κ) (state : σ) : List (κ × α) → List (κ × α) × σ
  | [] => ([], state)
  | (key, item) :: rest =>
    let (passed, state) := check state key item
    if passed && !seen.contains key then
      let (kept, state) := admitOnce (key :: seen) state rest
      ((key, item) :: kept, state)
    else admitOnce seen state rest

variable {check} [LawfulBEq κ] {seen : List κ} {state : σ} {items : List (κ × α)}

theorem admitOnce_cons_kept {state' : σ} {key : κ} {item : α}
    (passed : check state key item = (true, state')) (fresh : key ∉ seen) (rest : List (κ × α)) :
    admitOnce check seen state ((key, item) :: rest) = ((key, item) :: (admitOnce check (key :: seen) state' rest).1,
        (admitOnce check (key :: seen) state' rest).2) := by
  simp [admitOnce, passed, fresh]

theorem admitOnce_cons_dropped {state' : σ} {key : κ} {item : α} {passed : Bool}
    (checked : check state key item = (passed, state')) (dropped : passed = false ∨ key ∈ seen)
    (rest : List (κ × α)) :
    admitOnce check seen state ((key, item) :: rest) = admitOnce check seen state' rest := by
  have out : (passed && !seen.contains key) = false := by
    rcases dropped with rfl | old
    · rfl
    · simp [old]
  simp only [admitOnce, checked, out]
  rfl

theorem admitOnce_cons_cases (check : σ → κ → α → Bool × σ) (seen : List κ) (state : σ) (key : κ) (item : α) (rest : List (κ × α)) :
    (∃ state', check state key item = (true, state') ∧ key ∉ seen ∧ admitOnce check seen state ((key, item) :: rest) =
        ((key, item) :: (admitOnce check (key :: seen) state' rest).1, (admitOnce check (key :: seen) state' rest).2)) ∨
    admitOnce check seen state ((key, item) :: rest) = admitOnce check seen (check state key item).2 rest := by
  cases checked : check state key item with
  | mk passed state' =>
    by_cases kept : passed = true ∧ key ∉ seen
    · obtain ⟨rfl, fresh⟩ := kept
      exact .inl ⟨state', rfl, fresh, admitOnce_cons_kept checked fresh rest⟩
    · refine .inr (admitOnce_cons_dropped checked ?_ rest)
      cases passed with
      | false => exact .inl rfl
      | true =>
        refine .inr ?_
        by_contra fresh
        exact kept ⟨rfl, fresh⟩

theorem admitOnce_spec {Inv : σ → Prop} (keeps : ∀ state key item, Inv state → Inv (check state key item).2)
    (seen : List κ) (state : σ) (holds : Inv state) (items : List (κ × α)) :
    (admitOnce check seen state items).1.Sublist items ∧
    ((admitOnce check seen state items).1.map Prod.fst).Nodup ∧
    (∀ kept ∈ (admitOnce check seen state items).1, kept.1 ∉ seen) ∧
    (∀ kept ∈ (admitOnce check seen state items).1, ∃ reached, Inv reached ∧ (check reached kept.1 kept.2).1 = true) ∧
    Inv (admitOnce check seen state items).2 := by
  induction items generalizing seen state with
  | nil =>
    refine ⟨List.Sublist.refl _, List.nodup_nil, ?_, ?_, holds⟩ <;> intro kept member
    · cases member
    · cases member
  | cons pair rest ih =>
    obtain ⟨key, item⟩ := pair
    rcases admitOnce_cons_cases check seen state key item rest with
      ⟨state', passed, fresh, result⟩ | result
    · rw [result]
      have next : Inv state' := by
        have := keeps state key item holds
        rwa [passed] at this
      obtain ⟨sublist, distinct, unseen, checked, final⟩ := ih (key :: seen) state' next
      refine ⟨sublist.cons_cons _, List.nodup_cons.mpr ⟨?_, distinct⟩, ?_, ?_, final⟩
      · intro again
        obtain ⟨kept, member, same⟩ := List.mem_map.mp again
        exact unseen kept member (same ▸ List.mem_cons_self)
      · intro kept member
        rcases List.mem_cons.mp member with rfl | later
        · exact fresh
        · exact fun old => unseen kept later (List.mem_cons_of_mem _ old)
      · intro kept member
        rcases List.mem_cons.mp member with rfl | later
        · exact ⟨state, holds, by rw [passed]⟩
        · exact checked kept later
    · rw [result]
      obtain ⟨sublist, distinct, unseen, checked, final⟩ :=
        ih seen _ (keeps state key item holds)
      exact ⟨sublist.cons _, distinct, unseen, checked, final⟩

theorem admitOnce_complete {J : Nat → σ → Prop}
    (step : ∀ pair ∈ items, ∀ budget state, J (budget + 1) state → J budget (check state pair.1 pair.2).2)
    {chosen : κ × α} (inside : chosen ∈ items)
    (passes : ∀ budget state, J (budget + 1) state → (check state chosen.1 chosen.2).1 = true)
    (start : J items.length state) :
    chosen.1 ∈ seen ∨ chosen.1 ∈ (admitOnce check seen state items).1.map Prod.fst := by
  induction items generalizing seen state with
  | nil => cases inside
  | cons pair rest ih =>
    obtain ⟨key, item⟩ := pair
    have later := fun other member => step other (List.mem_cons_of_mem (key, item) member)
    have next := step (key, item) List.mem_cons_self rest.length state start
    rcases List.mem_cons.mp inside with rfl | below
    · by_cases old : key ∈ seen
      · exact .inl old
      · rw [admitOnce_cons_kept (Prod.ext (passes _ state start) rfl) old]
        exact .inr List.mem_cons_self
    · rcases admitOnce_cons_cases check seen state key item rest with
        ⟨state', passed, _, result⟩ | result
      · rw [passed] at next
        rw [result]
        rcases ih later below next with old | kept
        · rcases List.mem_cons.mp old with same | before
          · exact .inr (same ▸ List.mem_cons_self)
          · exact .inl before
        · exact .inr (List.mem_cons_of_mem _ kept)
      · rw [result]
        exact ih later below next

omit [LawfulBEq κ] in
theorem admitOnce_fst_eq {Inv : σ → Prop} (keeps : ∀ state key item, Inv state → Inv (check state key item).2) {pass : κ × α → Bool}
    (decided : ∀ pair ∈ items, ∀ state, Inv state → (check state pair.1 pair.2).1 = pass pair)
    (seen : List κ) (holds : Inv state) :
    (admitOnce check seen state items).1 = (admitOnce (fun (_ : Unit) key item => (pass (key, item), ())) seen () items).1 := by
  induction items generalizing seen state with
  | nil => rfl
  | cons pair rest ih =>
    obtain ⟨key, item⟩ := pair
    have later := fun other member => decided other (List.mem_cons_of_mem (key, item) member)
    have next := keeps state key item holds
    have result := decided (key, item) List.mem_cons_self state holds
    cases checked : check state key item with
    | mk passed state' =>
      rw [checked] at next result
      simp only [admitOnce, checked, ← result]
      split
      · exact congrArg ((key, item) :: ·) (ih later (key :: seen) next)
      · exact ih later seen next

theorem admitOnce_filter {selected : κ × α → Bool} (fails : ∀ pair ∈ items, selected pair = false →
      ∀ state, check state pair.1 pair.2 = (false, state))
    (seen : List κ) (state : σ) :
    admitOnce check seen state items = admitOnce check seen state (items.filter selected) := by
  induction items generalizing seen state with
  | nil => rfl
  | cons pair rest ih =>
    obtain ⟨key, item⟩ := pair
    have later := fun other member => fails other (List.mem_cons_of_mem (key, item) member)
    cases chosen : selected (key, item) with
    | false =>
      rw [List.filter_cons_of_neg (by simp [chosen]), admitOnce_cons_dropped (fails _ List.mem_cons_self chosen state) (.inl rfl)]
      exact ih later seen state
    | true =>
      rw [List.filter_cons_of_pos chosen]
      simp only [admitOnce, ih later]

end Pdcc.Library
