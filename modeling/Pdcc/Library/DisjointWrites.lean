import Pdcc.Library.Interleaving
import Pdcc.Library.Overlay

/-!
# Concurrent writers of disjoint cells

Writers that share no cell leave the same table under every interleaving and in
every order of the writers.
-/

set_option autoImplicit false

namespace Pdcc.Library

variable {Loc Key Value : Type} [DecidableEq Key]

/-- No two threads write the same cell. -/
def DisjointWrites (ident : Loc → Key) (threads : List (List (Loc × Value))) : Prop :=
  threads.Pairwise fun left right =>
    ∀ write ∈ left, ∀ write' ∈ right, ident write.1 ≠ ident write'.1

variable {ident : Loc → Key} {threads threads' : List (List (Loc × Value))}

omit [DecidableEq Key] in
theorem DisjointWrites.perm (disjoint : DisjointWrites ident threads) (perm : threads.Perm threads') : DisjointWrites ident threads' := by
  refine List.Pairwise.perm disjoint perm ?_
  intro left right apart write member write' member' same
  exact apart write' member' write member same.symm

variable {word : List (Loc × Value)}

theorem DisjointWrites.lastWrite_eq (disjoint : DisjointWrites ident threads)
    (interleaves : Interleaves threads word) {thread : List (Loc × Value)}
    (member : thread ∈ threads) {write : Loc × Value} (written : write ∈ thread) :
    lastWrite ident word (ident write.1) = lastWrite ident thread (ident write.1) := by
  obtain ⟨before, after, rfl⟩ := List.append_of_mem member
  have alone := interleaves.filter fun other => ident other.1 = ident write.1
  rw [List.map_append, List.map_cons] at alone
  obtain ⟨_, later, apart⟩ := List.pairwise_append.mp disjoint
  have idle : ∀ others : List (List (Loc × Value)), (∀ other ∈ others, ∀ entry ∈ other, ident entry.1 ≠ ident write.1) →
      ∀ kept ∈ others.map (·.filter fun entry => ident entry.1 = ident write.1), kept = [] := by
    intro others unwritten kept keptMember
    obtain ⟨other, otherMember, rfl⟩ := List.mem_map.mp keptMember
    rw [List.filter_eq_nil_iff]
    intro entry entryMember
    simpa using unwritten other otherMember entry entryMember
  have whole := alone.eq_of_others_idle (idle before fun other otherMember entry entryMember =>
      apart other otherMember thread (.head _) entry entryMember write written)
    (idle after fun other otherMember entry entryMember same =>
      (List.pairwise_cons.mp later).1 other otherMember write written entry entryMember same.symm)
  rw [← lastWrite_filter ident word, whole, lastWrite_filter]

theorem DisjointWrites.lastWrite_flatten (disjoint : DisjointWrites ident threads)
    (interleaves : Interleaves threads word) (perm : threads.Perm threads') (key : Key) :
    lastWrite ident word key = lastWrite ident threads'.flatten key := by
  by_cases written : ∃ thread ∈ threads, ∃ write ∈ thread, ident write.1 = key
  · obtain ⟨thread, member, write, writeMember, rfl⟩ := written
    rw [disjoint.lastWrite_eq interleaves member writeMember,
      (disjoint.perm perm).lastWrite_eq (.sequential threads') (perm.mem_iff.mp member) writeMember]
  · have unwritten : ∀ write ∈ threads.flatten, ident write.1 ≠ key := by
      intro write writeMember same
      obtain ⟨thread, member, inThread⟩ := List.mem_flatten.mp writeMember
      exact written ⟨thread, member, write, inThread, same⟩
    have absent := (lastWrite_eq_none_iff ident word key).mpr fun write writeMember =>
      unwritten write (interleaves.perm.mem_iff.mp writeMember)
    have absent' := (lastWrite_eq_none_iff ident threads'.flatten key).mpr fun write writeMember =>
      unwritten write (perm.flatten.mem_iff.mpr writeMember)
    rw [absent, absent']

theorem DisjointWrites.puts_eq (disjoint : DisjointWrites ident threads)
    (interleaves : Interleaves threads word) (perm : threads.Perm threads')
    (table : Overlay Key Value) :
    table.puts ident word = table.puts ident threads'.flatten :=
  Overlay.puts_congr ident (disjoint.lastWrite_flatten interleaves perm) table

end Pdcc.Library
