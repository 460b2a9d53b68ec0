import Mathlib.Data.List.Nodup
import Mathlib.Data.List.Perm.Basic
import Mathlib.Data.Set.Function

/-!
# Written values over a base state

A table holds the values written so far under a key identity; locations that
share an identity share a cell. Every fact about a sequence of writes is read
off the last write to a cell, which is independent of all other cells.
-/

set_option autoImplicit false

namespace Pdcc.Library

abbrev Overlay (Key Value : Type) := Key → Option Value

section LastWrite

variable {Loc Key Value : Type} [DecidableEq Key]

def lastWrite (ident : Loc → Key) : List (Loc × Value) → Key → Option Value
  | [], _ => none
  | write :: rest, key =>
    (lastWrite ident rest key).or (if ident write.1 = key then some write.2 else none)

variable (ident : Loc → Key)

@[simp] theorem lastWrite_nil (key : Key) : lastWrite ident ([] : List (Loc × Value)) key = none := rfl

theorem lastWrite_append (before after : List (Loc × Value)) (key : Key) :
    lastWrite ident (before ++ after) key = (lastWrite ident after key).or (lastWrite ident before key) := by
  induction before with
  | nil => simp
  | cons write before ih =>
    simp only [List.cons_append, lastWrite, ih, Option.or_assoc]

theorem lastWrite_eq_none_iff (writes : List (Loc × Value)) (key : Key) :
    lastWrite ident writes key = none ↔ ∀ write ∈ writes, ident write.1 ≠ key := by
  induction writes with
  | nil => simp
  | cons write rest ih =>
    simp only [lastWrite, Option.or_eq_none_iff, ih, List.mem_cons, forall_eq_or_imp]
    constructor
    · intro absent
      refine ⟨?_, absent.1⟩
      intro same
      simp [same] at absent
    · intro absent
      exact ⟨absent.2, by simp [absent.1]⟩

variable {writes : List (Loc × Value)}

theorem exists_mem_of_lastWrite {key : Key} {value : Value} (found : lastWrite ident writes key = some value) :
    ∃ write ∈ writes, ident write.1 = key ∧ write.2 = value := by
  induction writes with
  | nil => simp at found
  | cons write rest ih =>
    simp only [lastWrite, Option.or_eq_some_iff] at found
    rcases found with later | ⟨_, here⟩
    · obtain ⟨write, member, same, stored⟩ := ih later
      exact ⟨write, .tail _ member, same, stored⟩
    · split at here
      · next same =>
        cases here
        exact ⟨write, .head _, same, rfl⟩
      · cases here

theorem lastWrite_filter_of {keep : Loc × Value → Bool} {key : Key} (kept : ∀ write ∈ writes, ident write.1 = key → keep write = true) :
    lastWrite ident (writes.filter keep) key = lastWrite ident writes key := by
  induction writes with
  | nil => rfl
  | cons write rest ih =>
    have restEq := ih fun other member => kept other (.tail _ member)
    cases keeps : keep write with
    | true => rw [List.filter_cons_of_pos keeps, lastWrite, lastWrite, restEq]
    | false =>
      have other : ident write.1 ≠ key := by
        intro same
        rw [kept write (.head _) same] at keeps
        cases keeps
      rw [List.filter_cons_of_neg (by simp [keeps]), lastWrite, restEq, if_neg other, Option.or_none]

theorem lastWrite_filter (writes : List (Loc × Value)) (key : Key) :
    lastWrite ident (writes.filter fun write => ident write.1 = key) key = lastWrite ident writes key :=
  lastWrite_filter_of ident fun _ _ same => by simpa using same

theorem lastWrite_of_nodup (distinct : (writes.map fun write => ident write.1).Nodup) {write : Loc × Value} (member : write ∈ writes) :
    lastWrite ident writes (ident write.1) = some write.2 := by
  induction writes with
  | nil => cases member
  | cons head rest ih =>
    simp only [List.map_cons, List.nodup_cons] at distinct
    rcases List.mem_cons.mp member with same | member
    · subst same
      have absent : lastWrite ident rest (ident write.1) = none := by
        rw [lastWrite_eq_none_iff]
        intro other otherMember same
        exact distinct.1 (List.mem_map.mpr ⟨other, otherMember, same⟩)
      simp [lastWrite, absent]
    · simp [lastWrite, ih distinct.2 member]

theorem lastWrite_perm {left right : List (Loc × Value)} (perm : left.Perm right)
    (distinct : (left.map fun write => ident write.1).Nodup) (key : Key) :
    lastWrite ident left key = lastWrite ident right key := by
  have distinctRight : (right.map fun write => ident write.1).Nodup :=
    (perm.map _).nodup_iff.mp distinct
  cases found : lastWrite ident left key with
  | none =>
    rw [lastWrite_eq_none_iff] at found
    symm
    rw [lastWrite_eq_none_iff]
    intro write member
    exact found write (perm.mem_iff.mpr member)
  | some value =>
    obtain ⟨write, member, rfl, rfl⟩ := exists_mem_of_lastWrite ident found
    exact (lastWrite_of_nodup ident distinctRight (perm.mem_iff.mp member)).symm

theorem lastWrite_of_apart [DecidableEq Loc] {loc : Loc} (apart : ∀ write ∈ writes, ident write.1 = ident loc → write.1 = loc) :
    lastWrite ident writes (ident loc) = lastWrite id writes loc := by
  induction writes with
  | nil => rfl
  | cons write rest ih =>
    have same : ident write.1 = ident loc ↔ write.1 = loc :=
      ⟨apart write (.head _), congrArg ident⟩
    simp only [lastWrite, ih fun other member => apart other (.tail _ member), id, same]

theorem lastWrite_ident_eq [DecidableEq Loc] {scope : Set Loc} (injective : Set.InjOn ident scope)
    (within : ∀ write ∈ writes, write.1 ∈ scope) {loc : Loc} (inScope : loc ∈ scope) :
    lastWrite ident writes (ident loc) = lastWrite id writes loc :=
  lastWrite_of_apart ident fun write member same => injective (within write member) inScope same

theorem lastWrite_map {Loc' Value' : Type} (ident' : Loc' → Key) (f : Loc × Value → Loc' × Value')
    (g : Value → Value') (writes : List (Loc × Value)) (key : Key)
    (sameKey : ∀ write ∈ writes, ident' (f write).1 = ident write.1)
    (sameValue : ∀ write ∈ writes, (f write).2 = g write.2) :
    lastWrite ident' (writes.map f) key = (lastWrite ident writes key).map g := by
  induction writes with
  | nil => rfl
  | cons write rest ih =>
    have restSame := ih (fun other member => sameKey other (.tail _ member)) (fun other member => sameValue other (.tail _ member))
    simp only [List.map_cons, lastWrite, restSame, sameKey write (.head _), sameValue write (.head _)]
    split
    · cases lastWrite ident rest key with
      | none => rfl
      | some value => rfl
    · simp

def finalWrites : List (Loc × Value) → List (Key × Value)
  | [] => []
  | write :: rest =>
    if ident write.1 ∈ (finalWrites rest).map Prod.fst then finalWrites rest
    else (ident write.1, write.2) :: finalWrites rest

theorem finalWrites_distinct (writes : List (Loc × Value)) : ((finalWrites ident writes).map Prod.fst).Nodup := by
  induction writes with
  | nil => simp [finalWrites]
  | cons write rest ih =>
    unfold finalWrites
    split
    · exact ih
    · next absent =>
      rw [List.map_cons, List.nodup_cons]
      exact ⟨absent, ih⟩

theorem mem_finalWrites_iff (writes : List (Loc × Value)) (key : Key) (value : Value) :
    (key, value) ∈ finalWrites ident writes ↔ lastWrite ident writes key = some value := by
  induction writes generalizing key value with
  | nil => simp [finalWrites]
  | cons write rest ih =>
    unfold finalWrites lastWrite
    split
    · next present =>
      obtain ⟨⟨_, stored⟩, member, rfl⟩ := List.mem_map.mp present
      have found := (ih _ stored).mp member
      rw [ih]
      by_cases same : key = ident write.1
      · subst same
        simp [found]
      · have other : ident write.1 ≠ key := fun equal => same equal.symm
        simp [other]
    · next absent =>
      have unassigned : lastWrite ident rest (ident write.1) = none := by
        rw [Option.eq_none_iff_forall_ne_some]
        intro stored found
        exact absent (List.mem_map.mpr ⟨_, (ih _ stored).mpr found, rfl⟩)
      rw [List.mem_cons, ih]
      by_cases same : key = ident write.1
      · subst same
        simp [unassigned, eq_comm]
      · have other : ident write.1 ≠ key := fun equal => same equal.symm
        simp [other, same]

/-- A later write stands for every earlier one with its key. -/
theorem finalWrites_append (before after : List (Loc × Value)) : finalWrites ident (before ++ after) =
      ((finalWrites ident before).filter fun entry => (lastWrite ident after entry.1).isNone) ++ finalWrites ident after := by
  have keys : ∀ (writes : List (Loc × Value)) (key : Key), key ∈ (finalWrites ident writes).map Prod.fst ↔ lastWrite ident writes key ≠ none := by
    intro writes key
    rw [Option.ne_none_iff_exists', List.mem_map]
    constructor
    · rintro ⟨entry, member, rfl⟩
      exact ⟨entry.2, (mem_finalWrites_iff ident writes entry.1 entry.2).mp member⟩
    · rintro ⟨value, found⟩
      exact ⟨(key, value), (mem_finalWrites_iff ident writes key value).mpr found, rfl⟩
  induction before with
  | nil => rfl
  | cons write before ih =>
    rw [List.cons_append, finalWrites, finalWrites]
    simp only [keys, lastWrite_append]
    rw [ih]
    cases later : lastWrite ident after (ident write.1) with
    | some value =>
      rw [if_pos (by simp)]
      split
      · rfl
      · rw [List.filter_cons_of_neg (by simp [later])]
    | none =>
      simp only [Option.none_or]
      cases lastWrite ident before (ident write.1) with
      | some value => simp
      | none => simp [later]

theorem lastWrite_finalWrites (writes : List (Loc × Value)) (key : Key) :
    lastWrite id (finalWrites ident writes) key = lastWrite ident writes key := by
  have distinct := finalWrites_distinct ident writes
  cases found : lastWrite ident writes key with
  | none =>
    rw [lastWrite_eq_none_iff]
    intro write member same
    have assigned := (mem_finalWrites_iff ident writes write.1 write.2).mp member
    rw [id] at same
    rw [same, found] at assigned
    cases assigned
  | some value =>
    exact lastWrite_of_nodup id distinct ((mem_finalWrites_iff ident writes key value).mpr found)

theorem lastWrite_collected {Element Key' : Type} [DecidableEq Key'] (ident' : Element → Key')
    (entry : Element → Loc × Value) {elements : List Element}
    (agree : ∀ left ∈ elements, ∀ right ∈ elements, ident' left = ident' right → ident (entry left).1 = ident (entry right).1) (key : Key) :
    lastWrite ident ((finalWrites ident' (elements.map fun element => (element, element))).map fun pair => entry pair.2) key =
      lastWrite ident (elements.map entry) key := by
  induction elements with
  | nil => rfl
  | cons element rest ih =>
    have restEq := ih fun left leftMember right rightMember =>
      agree left (.tail _ leftMember) right (.tail _ rightMember)
    rw [List.map_cons, finalWrites, List.map_cons, lastWrite]
    split
    · next present =>
      -- a later element stands for this one
      obtain ⟨pair, collected, samePair⟩ := List.mem_map.mp present
      have found := (mem_finalWrites_iff ident' _ pair.1 pair.2).mp collected
      obtain ⟨source, member, sameSource, _⟩ := exists_mem_of_lastWrite ident' found
      obtain ⟨later, laterMember, rfl⟩ := List.mem_map.mp member
      rw [restEq]
      cases last : lastWrite ident (rest.map entry) key with
      | some value => rfl
      | none =>
        have same := agree later (.tail _ laterMember) element (.head _) (sameSource.trans samePair)
        have absent := (lastWrite_eq_none_iff ident _ key).mp last (entry later) (List.mem_map_of_mem laterMember)
        rw [same] at absent
        rw [if_neg absent, Option.none_or]
    · rw [List.map_cons, lastWrite, restEq]

end LastWrite

namespace Overlay

variable {Loc Key Value : Type} [DecidableEq Key]

def put (table : Overlay Key Value) (key : Key) (value : Value) : Overlay Key Value :=
  Function.update table key (some value)

def puts (ident : Loc → Key) (table : Overlay Key Value) (writes : List (Loc × Value)) :
    Overlay Key Value :=
  writes.foldl (fun table write => table.put (ident write.1) write.2) table

def view (ident : Loc → Key) (base : Loc → Value) (table : Overlay Key Value) : Loc → Value :=
  fun loc => (table (ident loc)).getD (base loc)

variable (ident : Loc → Key)

@[simp] theorem puts_nil (table : Overlay Key Value) : table.puts ident [] = table := rfl

theorem puts_append (table : Overlay Key Value) (before after : List (Loc × Value)) :
    table.puts ident (before ++ after) = (table.puts ident before).puts ident after :=
  List.foldl_append

theorem puts_apply (table : Overlay Key Value) (writes : List (Loc × Value)) (key : Key) :
    table.puts ident writes key = (lastWrite ident writes key).or (table key) := by
  induction writes generalizing table with
  | nil => simp
  | cons write rest ih =>
    have step : table.puts ident (write :: rest) = (table.put (ident write.1) write.2).puts ident rest := rfl
    rw [step, ih, lastWrite, Option.or_assoc]
    by_cases same : ident write.1 = key
    · subst same
      simp [put]
    · have other : key ≠ ident write.1 := fun equal => same equal.symm
      simp [put, same, Function.update_of_ne other]

variable {table : Overlay Key Value} {writes left right : List (Loc × Value)}

theorem puts_apply_of_unwritten {key : Key} (unwritten : ∀ write ∈ writes, ident write.1 ≠ key) :
    table.puts ident writes key = table key := by
  rw [puts_apply, (lastWrite_eq_none_iff ident writes key).mpr unwritten, Option.none_or]

theorem puts_perm (perm : left.Perm right) (distinct : (left.map fun write => ident write.1).Nodup) (table : Overlay Key Value) :
    table.puts ident left = table.puts ident right := by
  funext key
  rw [puts_apply, puts_apply, lastWrite_perm ident perm distinct]

theorem puts_congr (same : ∀ key, lastWrite ident left key = lastWrite ident right key)
    (table : Overlay Key Value) : table.puts ident left = table.puts ident right := by
  funext key
  rw [puts_apply, puts_apply, same]

theorem view_puts_of_unwritten {base : Loc → Value} {loc : Loc} (unwritten : ∀ write ∈ writes, ident write.1 ≠ ident loc) :
    (table.puts ident writes).view ident base loc = table.view ident base loc := by
  simp only [view, puts_apply_of_unwritten ident unwritten]

end Overlay

end Pdcc.Library
