import Mathlib.Data.List.AList
import Mathlib.Data.List.Dedup
import Mathlib.Data.List.Perm.Subperm
import Mathlib.Data.List.Induction

/-!
# Tallies

Two ways to fold a list of named amounts into a finite map: the amounts of a name
are added up, or the last one wins. Maps are compared by their size and the
entries of one of them.
-/

set_option autoImplicit false

namespace Pdcc.Library

variable {α M : Type} [DecidableEq α]

def amountsOf (entries : List (α × M)) (key : α) : List M :=
  (entries.filter (·.1 = key)).map (·.2)

theorem amountsOf_append (entries later : List (α × M)) (key : α) :
    amountsOf (entries ++ later) key = amountsOf entries key ++ amountsOf later key := by
  simp [amountsOf]

theorem amountsOf_singleton (entry : α × M) (key : α) : amountsOf [entry] key = if entry.1 = key then [entry.2] else [] := by
  unfold amountsOf
  split
  · next same => simp [same]
  · next different => simp [different]

theorem amountsOf_eq_nil_iff (entries : List (α × M)) (key : α) : amountsOf entries key = [] ↔ ∀ entry ∈ entries, entry.1 ≠ key := by
  simp [amountsOf]

theorem mem_amountsOf {entries : List (α × M)} {key : α} {amount : M} : amount ∈ amountsOf entries key ↔ (key, amount) ∈ entries := by
  simp [amountsOf]

theorem amountsOf_map {N : Type} (f : M → N) (entries : List (α × M)) (key : α) :
    amountsOf (entries.map fun entry => (entry.1, f entry.2)) key = (amountsOf entries key).map f := by
  simp only [amountsOf, List.filter_map, List.map_map]
  rfl

variable {β : Type}

theorem amountsOf_flatMap (f : β → List (α × M)) (items : List β) (key : α) :
    amountsOf (items.flatMap f) key = items.flatMap fun item => amountsOf (f item) key := by
  simp [amountsOf, List.filter_flatMap, List.map_flatMap]

theorem amountsOf_filterMap (name : β → Option α) (amount : β → M) (items : List β) (key : α) :
    amountsOf (items.filterMap fun item => (name item).map fun key => (key, amount item)) key =
      (items.filter (name · = some key)).map amount := by
  induction items with
  | nil => rfl
  | cons item rest ih =>
    cases named : name item with
    | none => rw [List.filterMap_cons_none (by rw [named]; rfl), ih, List.filter_cons_of_neg (by simp [named])]
    | some other =>
      rw [List.filterMap_cons_some (by rw [named]; rfl), ← List.singleton_append, amountsOf_append, amountsOf_singleton, ih]
      by_cases same : other = key
      · rw [if_pos same, List.filter_cons_of_pos (by simp [named, same])]
        rfl
      · rw [if_neg same, List.filter_cons_of_neg (by simp [named, same]), List.nil_append]

theorem amountsOf_keyed (key : β → α) (f : β → Option M) {items : List β}
    (distinct : (items.map key).Nodup) {item : β} (member : item ∈ items) :
    amountsOf (items.filterMap fun item => (f item).map fun amount => (key item, amount)) (key item) = (f item).toList := by
  induction items with
  | nil => cases member
  | cons first rest ih =>
    obtain ⟨fresh, distinct⟩ := List.nodup_cons.mp distinct
    have split : amountsOf ((first :: rest).filterMap fun item =>
          (f item).map fun amount => (key item, amount)) (key item) =
        (if key first = key item then (f first).toList else []) ++
          amountsOf (rest.filterMap fun item => (f item).map fun amount => (key item, amount)) (key item) := by
      cases here : f first with
      | none => simp [here]
      | some amount =>
        rw [List.filterMap_cons_some (by rw [here]; rfl), ← List.singleton_append, amountsOf_append, amountsOf_singleton]
        rfl
    rw [split]
    rcases List.mem_cons.mp member with rfl | later
    · have none : amountsOf (rest.filterMap fun item =>
          (f item).map fun amount => (key item, amount)) (key item) = [] := by
        rw [amountsOf_eq_nil_iff]
        intro entry found same
        obtain ⟨other, inside, some⟩ := List.mem_filterMap.mp found
        obtain ⟨amount, _, rfl⟩ := Option.map_eq_some_iff.mp some
        exact fresh (same ▸ List.mem_map_of_mem inside)
      rw [none, List.append_nil, if_pos rfl]
    · have different : key first ≠ key item := by
        intro same
        exact fresh (same ▸ List.mem_map_of_mem later)
      rw [ih distinct later, if_neg different, List.nil_append]

theorem amountsOf_perm {entries entries' : List (α × M)} (perm : entries.Perm entries') (key : α) :
    (amountsOf entries key).Perm (amountsOf entries' key) :=
  (perm.filter _).map _

section Fold

theorem find?_of_distinct {β : Type} (key : β → α) {items : List β} (distinct : (items.map key).Nodup) {item : β} (member : item ∈ items) :
    items.find? (key · = key item) = some item := by
  cases found : items.find? (key · = key item) with
  | none => simpa using List.find?_eq_none.mp found item member
  | some other =>
    have same : key other = key item := by simpa using List.find?_some found
    rw [List.inj_on_of_nodup_map distinct (List.mem_of_find?_eq_some found) member same]

variable (entries : List (α × M))

def lastAmounts : AList fun _ : α => M :=
  entries.foldl (fun m entry => m.insert entry.1 entry.2) ∅

theorem foldl_insert_lookup (m : AList fun _ : α => M) (key : α) :
    (entries.foldl (fun m entry => m.insert entry.1 entry.2) m).lookup key = (amountsOf entries key).getLast?.or (m.lookup key) := by
  induction entries using List.reverseRecOn with
  | nil => rfl
  | append_singleton entries entry ih =>
    rw [List.foldl_append, amountsOf_append, amountsOf_singleton]
    by_cases same : entry.1 = key
    · subst same
      simp
    · have different : key ≠ entry.1 := fun equal => same equal.symm
      rw [if_neg same, List.append_nil, ← ih]
      exact AList.lookup_insert_ne different

theorem lastAmounts_lookup (key : α) : (lastAmounts entries).lookup key = (amountsOf entries key).getLast? := by
  rw [lastAmounts, foldl_insert_lookup, AList.lookup_empty, Option.or_none]

theorem lastAmounts_lookup_of_mem {entries : List (α × M)} (distinct : (entries.map (·.1)).Nodup) {entry : α × M} (member : entry ∈ entries) :
    (lastAmounts entries).lookup entry.1 = some entry.2 := by
  rw [lastAmounts_lookup]
  have present : entry.2 ∈ amountsOf entries entry.1 := mem_amountsOf.mpr member
  have isLast := List.getLast?_eq_some_getLast (List.ne_nil_of_mem present)
  generalize (amountsOf entries entry.1).getLast _ = last at isLast
  have same : (entry.1, last) = entry :=
    List.inj_on_of_nodup_map distinct (mem_amountsOf.mp (List.mem_of_getLast? isLast)) member rfl
  rw [isLast, ← same]

theorem lastAmounts_lookup_eq_none {entries : List (α × M)} {key : α} :
    (lastAmounts entries).lookup key = none ↔ key ∉ entries.map (·.1) := by
  rw [lastAmounts_lookup, List.getLast?_eq_none_iff, amountsOf_eq_nil_iff]
  simp only [List.mem_map, not_exists, not_and]

theorem lastAmounts_length : (lastAmounts entries).entries.length = (entries.map (·.1)).dedup.length := by
  have keys : (lastAmounts entries).keys.Perm (entries.map (·.1)).dedup := by
    rw [List.perm_ext_iff_of_nodup (AList.keys_nodup _) (List.nodup_dedup _)]
    intro key
    rw [List.mem_dedup, ← not_iff_not, ← lastAmounts_lookup_eq_none, AList.lookup_eq_none]
    rfl
  rw [← keys.length_eq]
  exact (List.length_map _).symm

variable [Add M] [Zero M]

def addTo (m : AList fun _ : α => M) (key : α) (amount : M) : AList fun _ : α => M :=
  m.insert key ((m.lookup key).getD 0 + amount)

def tally : AList fun _ : α => M :=
  entries.foldl (fun m entry => addTo m entry.1 entry.2) ∅

theorem tally_append (entry : α × M) : tally (entries ++ [entry]) = addTo (tally entries) entry.1 entry.2 := by
  simp [tally]

theorem tally_lookup [Std.Associative (α := M) (· + ·)] [Std.LawfulIdentity (α := M) (· + ·) 0] (entries : List (α × M)) (key : α) :
    (tally entries).lookup key = if amountsOf entries key = [] then none else some (amountsOf entries key).sum := by
  induction entries using List.reverseRecOn with
  | nil => rfl
  | append_singleton entries entry ih =>
    rw [tally_append, addTo, amountsOf_append, amountsOf_singleton]
    by_cases same : entry.1 = key
    · subst same
      have nonempty : amountsOf entries entry.1 ++ [entry.2] ≠ [] := by simp
      rw [AList.lookup_insert, ih, if_pos (rfl : entry.1 = entry.1), if_neg nonempty, List.sum_append, List.sum_singleton]
      split
      · next empty => simp [empty]
      · rfl
    · have different : key ≠ entry.1 := fun equal => same equal.symm
      rw [if_neg same, List.append_nil, ← ih]
      exact AList.lookup_insert_ne different

end Fold

section Compare

omit [DecidableEq α] in
private theorem keys_length (m : AList fun _ : α => M) : m.keys.length = m.entries.length := by
  simp [AList.keys, List.keys]

theorem lookups_agree_iff (m n : AList fun _ : α => M) :
    (m.entries.length = n.entries.length ∧ ∀ entry ∈ m.entries, n.lookup entry.1 = some entry.2) ↔ ∀ key, m.lookup key = n.lookup key := by
  have found {key : α} {amount : M} (m : AList fun _ : α => M) : m.lookup key = some amount ↔ ⟨key, amount⟩ ∈ m.entries :=
    AList.mem_lookup_iff
  constructor
  · rintro ⟨sameLength, covered⟩ key
    have within : m.keys ⊆ n.keys := by
      intro name member
      obtain ⟨amount, entry⟩ := List.exists_of_mem_keys member
      exact AList.mem_keys.mp (AList.lookup_isSome.mp (by rw [covered _ entry]; rfl))
    have perm : m.keys.Perm n.keys := by
      refine (List.subperm_of_subset m.keys_nodup within).perm_of_length_le ?_
      rw [keys_length, keys_length, sameLength]
    cases here : m.lookup key with
    | some amount => exact (covered _ ((found m).mp here)).symm
    | none =>
      rw [AList.lookup_eq_none, AList.mem_keys, perm.mem_iff, ← AList.mem_keys, ← AList.lookup_eq_none] at here
      exact here.symm
  · intro agree
    have perm : m.keys.Perm n.keys := by
      refine (List.perm_ext_iff_of_nodup m.keys_nodup n.keys_nodup).mpr ?_
      intro name
      rw [← AList.mem_keys, ← AList.mem_keys, ← AList.lookup_isSome, ← AList.lookup_isSome, agree name]
    refine ⟨?_, ?_⟩
    · rw [← keys_length, ← keys_length, perm.length_eq]
    · intro entry member
      rw [← agree entry.1]
      exact (found m).mpr member

end Compare

section Distinct

variable {β γ : Type} [DecidableEq β]

theorem length_dedup_map_le (name : γ → α) (key : γ → β) (items : List γ)
    (single : ∀ first ∈ items, ∀ second ∈ items, key first = key second → name first = name second) :
    (items.map name).dedup.length ≤ (items.map key).dedup.length := by
  classical
  let nameOf : β → Option α := fun k =>
    if found : ∃ item ∈ items, key item = k then some (name found.choose) else none
  have named : ∀ item ∈ items, nameOf (key item) = some (name item) := by
    intro item member
    have found : ∃ other ∈ items, key other = key item := ⟨item, member, rfl⟩
    obtain ⟨inside, same⟩ := found.choose_spec
    simp only [nameOf, dif_pos found, Option.some.injEq]
    exact single _ inside item member same
  have covered : (items.map name).dedup.map some ⊆ (items.map key).dedup.map nameOf := by
    intro found member
    obtain ⟨_, inside, rfl⟩ := List.mem_map.mp member
    obtain ⟨item, itemIn, rfl⟩ := List.mem_map.mp (List.mem_dedup.mp inside)
    refine List.mem_map.mpr ⟨key item, ?_, named item itemIn⟩
    exact List.mem_dedup.mpr (List.mem_map_of_mem itemIn)
  have distinct : ((items.map name).dedup.map some).Nodup :=
    (List.nodup_dedup _).map fun _ _ => Option.some.inj
  have bound := (List.subperm_of_subset distinct covered).length_le
  rwa [List.length_map, List.length_map] at bound

end Distinct

end Pdcc.Library
