import Mathlib.Data.List.AList
import Mathlib.Data.List.Perm.Subperm

/-!
# Tables

Finite maps that are read by lookups, with their size, and the loops over their entries
that keep the least or the greatest value met so far.
-/

set_option autoImplicit false

namespace Pdcc.Library

section Lookups

variable {Key Value : Type} [DecidableEq Key]

abbrev Table (Key Value : Type) := AList fun _ : Key => Value

namespace Table

variable (table : Table Key Value)

def size {Key Value : Type} (table : Table Key Value) : Nat := table.keys.length

def eraseAll (keys : List Key) : Table Key Value :=
  keys.foldl (fun table key => table.erase key) table

theorem lookup_insert_eq (key : Key) (value : Value) (other : Key) : (table.insert key value).lookup other =
      if other = key then some value else table.lookup other := by
  by_cases same : other = key
  · subst same
    rw [if_pos rfl, AList.lookup_insert]
  · rw [if_neg same, AList.lookup_insert_ne same]

theorem lookup_erase_eq (key other : Key) : (table.erase key).lookup other = if other = key then none else table.lookup other := by
  by_cases same : other = key
  · subst same
    rw [if_pos rfl, AList.lookup_erase]
  · rw [if_neg same, AList.lookup_erase_ne same]

theorem lookup_eraseAll (keys : List Key) (other : Key) : (eraseAll table keys).lookup other =
      if other ∈ keys then none else table.lookup other := by
  induction keys generalizing table with
  | nil => rfl
  | cons key keys ih =>
    rw [eraseAll, List.foldl_cons]
    refine (ih _).trans ?_
    rw [lookup_erase_eq]
    by_cases same : other = key <;> by_cases later : other ∈ keys <;> simp [same, later]

theorem mem_keys_iff {key : Key} : key ∈ table.keys ↔ (table.lookup key).isSome = true := by
  rw [AList.lookup_isSome, AList.mem_keys]

theorem size_le_of_keys (bound : List Key) (inside : ∀ key, (table.lookup key).isSome = true → key ∈ bound) : table.size ≤ bound.length :=
  (List.subperm_of_subset table.keys_nodup fun key member =>
    inside key (table.mem_keys_iff.mp member)).length_le

end Table

end Lookups

section Extremes

variable {Item Value : Type} [LT Value] [DecidableLT Value]

def least (value : Item → Value) (counts : Item → Bool) (start : Value) (items : List Item) :
    Value :=
  items.foldl (fun min item => if min > value item && counts item then value item else min) start

def greatest (value : Item → Value) (start : Value) (items : List Item) : Value :=
  items.foldl (fun max item => if max < value item then value item else max) start

variable {value : Item → Value} {counts : Item → Bool} {start : Value} {items : List Item}

theorem least_cons (item : Item) : least value counts start (item :: items) =
      if start > value item && counts item then least value counts (value item) items
      else least value counts start items := by
  rw [least, List.foldl_cons]
  split <;> rfl

theorem greatest_cons (item : Item) : greatest value start (item :: items) = if start < value item then greatest value (value item) items
      else greatest value start items := by
  rw [greatest, List.foldl_cons]
  split <;> rfl

theorem least_attained (start : Value) : least value counts start items = start ∨
    ∃ item ∈ items, counts item = true ∧ value item = least value counts start items := by
  induction items generalizing start with
  | nil => exact .inl rfl
  | cons first items ih =>
    rw [least_cons]
    split
    · next lower =>
      refine .inr ?_
      rcases ih (value first) with same | ⟨item, member, counted, same⟩
      · exact ⟨first, List.mem_cons_self, (Bool.and_eq_true_iff.mp lower).2, same.symm⟩
      · exact ⟨item, List.mem_cons_of_mem _ member, counted, same⟩
    · rcases ih start with same | ⟨item, member, counted, same⟩
      · exact .inl same
      · exact .inr ⟨item, List.mem_cons_of_mem _ member, counted, same⟩

theorem greatest_attained (start : Value) : greatest value start items = start ∨ ∃ item ∈ items, value item = greatest value start items := by
  induction items generalizing start with
  | nil => exact .inl rfl
  | cons first items ih =>
    rw [greatest_cons]
    split
    · refine .inr ?_
      rcases ih (value first) with same | ⟨item, member, same⟩
      · exact ⟨first, List.mem_cons_self, same.symm⟩
      · exact ⟨item, List.mem_cons_of_mem _ member, same⟩
    · rcases ih start with same | ⟨item, member, same⟩
      · exact .inl same
      · exact .inr ⟨item, List.mem_cons_of_mem _ member, same⟩

variable [LE Value] [Std.IsLinearOrder Value] [Std.LawfulOrderLT Value]

theorem least_le_start : least value counts start items ≤ start := by
  induction items generalizing start with
  | nil => exact Std.le_refl _
  | cons item items ih =>
    rw [least_cons]
    split
    · next lower =>
      exact Std.le_trans ih (Std.le_of_lt (of_decide_eq_true (Bool.and_eq_true_iff.mp lower).1))
    · exact ih

theorem least_le {item : Item} (member : item ∈ items) (counted : counts item = true) : least value counts start items ≤ value item := by
  induction items generalizing start with
  | nil => cases member
  | cons first items ih =>
    rw [least_cons]
    rcases List.mem_cons.mp member with rfl | later
    · split
      · exact least_le_start
      · next kept =>
        simp only [counted, Bool.and_true, decide_eq_true_eq] at kept
        exact Std.le_trans least_le_start (Std.not_lt.mp kept)
    · split <;> exact ih later

theorem start_le_greatest : start ≤ greatest value start items := by
  induction items generalizing start with
  | nil => exact Std.le_refl _
  | cons item items ih =>
    rw [greatest_cons]
    split
    · next higher => exact Std.le_trans (Std.le_of_lt higher) ih
    · exact ih

theorem le_greatest (value : Item → Value) {item : Item} (member : item ∈ items) : value item ≤ greatest value start items := by
  induction items generalizing start with
  | nil => cases member
  | cons first items ih =>
    rw [greatest_cons]
    rcases List.mem_cons.mp member with rfl | later
    · split
      · exact start_le_greatest
      · next kept => exact Std.le_trans (Std.not_lt.mp kept) start_le_greatest
    · split <;> exact ih later

end Extremes

end Pdcc.Library
