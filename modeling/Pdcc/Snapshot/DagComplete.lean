import Pdcc.Snapshot.DagLinks

/-!
# Completeness of the dependency graph

The graph reaches what the examined pairs reach. A transaction that writes the
same key bytes twice does not find the writer before it; conflicting
transactions are ordered whenever somebody has read the key bytes before such a
transaction comes between them.
-/

set_option autoImplicit false

namespace Pdcc.Snapshot

open Ledger Library

section Graph

variable {table : List TxRWSet} {dict : KeyPositions} {i j : Nat} {rwSet : TxRWSet}

private theorem writerBefore_some (valid : DictValid table dict) (present : table[i]? = some rwSet)
    {key : Bytes} (accessed : 0 < readCount rwSet key ∨ 0 < writeCount rwSet key) :
    (writerBefore dict i key = some j → j ≤ i) ∧ (j ≠ i → (writerBefore dict i key = some j ↔
        ¬ WritesTwice table i key ∧ LastWriter table key i j)) := by
  have twice : WritesTwice table i key ↔ 2 ≤ writeCount rwSet key := by
    constructor
    · rintro ⟨other, otherPresent, count⟩
      rw [present] at otherPresent
      cases otherPresent
      exact count
    · exact fun count => ⟨rwSet, present, count⟩
  rw [writerBefore_eq valid present accessed, twice]
  by_cases double : 2 ≤ writeCount rwSet key
  · rw [if_pos double, Option.some.injEq]
    refine ⟨fun same => Nat.le_of_eq same.symm, fun different => ?_⟩
    exact ⟨fun same => absurd same.symm different, fun single => absurd double single.1⟩
  · rw [if_neg double, getLast?_writers_iff]
    exact ⟨fun writer => Nat.le_of_lt writer.before, fun _ => ⟨fun writer => ⟨double, writer⟩, fun writer => writer.2⟩⟩

theorem mem_candidates : j ∈ candidates dict i rwSet ↔ (∃ read ∈ rwSet.txReads, writerBefore dict i read.key = some j) ∨
      ∃ write ∈ rwSet.txWrites, j ∈ (dict.readKeyDict write.key).take ((dict.readPos i write.key).getD 0) ∨
          writerBefore dict i write.key = some j := by
  simp only [candidates, List.mem_append, List.mem_flatMap, Option.mem_toList, List.mem_reverse]

theorem candidates_le (valid : DictValid table dict) (present : table[i]? = some rwSet) (member : j ∈ candidates dict i rwSet) : j ≤ i := by
  rcases mem_candidates.mp member with ⟨read, readMember, found⟩ | ⟨write, writeMember, found⟩
  · exact (writerBefore_some valid present (.inl (readCount_pos_iff.mpr ⟨read, readMember, rfl⟩))).1 found
  · have writes := writeCount_pos_iff.mpr ⟨write, writeMember, rfl⟩
    rcases found with reader | writer
    · exact (mem_readersBefore valid present writes).1 reader
    · exact (writerBefore_some valid present (.inr writes)).1 writer

theorem mem_candidates_iff_linked (valid : DictValid table dict) (present : table[i]? = some rwSet) :
    j ∈ candidates dict i rwSet ∧ j ≠ i ↔ Linked table i j := by
  constructor
  · rintro ⟨member, different⟩
    rcases mem_candidates.mp member with ⟨read, readMember, found⟩ | ⟨write, writeMember, found⟩
    · have reads := readCount_pos_iff.mpr ⟨read, readMember, rfl⟩
      exact ⟨read.key, .inr ⟨.inl ⟨rwSet, present, reads⟩, ((writerBefore_some valid present (.inl reads)).2 different).mp found⟩⟩
    · have writes := writeCount_pos_iff.mpr ⟨write, writeMember, rfl⟩
      rcases found with reader | writer
      · exact ⟨write.key, .inl ⟨⟨rwSet, present, writes⟩, ((mem_readersBefore valid present writes).2 different).mp reader⟩⟩
      · exact ⟨write.key, .inr ⟨.inr ⟨rwSet, present, writes⟩, ((writerBefore_some valid present (.inr writes)).2 different).mp writer⟩⟩
  · intro linked
    have different : j ≠ i := Nat.ne_of_lt linked.lt
    refine ⟨mem_candidates.mpr ?_, different⟩
    have here : ∀ {count : TxRWSet → Bytes → Nat} {key : Bytes},
        (∃ other, table[i]? = some other ∧ 0 < count other key) → 0 < count rwSet key := by
      rintro count key ⟨other, otherPresent, positive⟩
      rw [present] at otherPresent
      cases otherPresent
      exact positive
    obtain ⟨key, ⟨writes, below, reader⟩ | ⟨reads | writes, single⟩⟩ := linked
    · have count : 0 < writeCount rwSet key := here writes
      obtain ⟨write, writeMember, rfl⟩ := writeCount_pos_iff.mp count
      exact .inr ⟨write, writeMember, .inl (((mem_readersBefore valid present count).2 different).mpr ⟨below, reader⟩)⟩
    · have count : 0 < readCount rwSet key := here reads
      obtain ⟨read, readMember, rfl⟩ := readCount_pos_iff.mp count
      exact .inl ⟨read, readMember, ((writerBefore_some valid present (.inl count)).2 different).mpr single⟩
    · have count : 0 < writeCount rwSet key := here writes
      obtain ⟨write, writeMember, rfl⟩ := writeCount_pos_iff.mp count
      exact .inr ⟨write, writeMember, .inr (((writerBefore_some valid present (.inr count)).2 different).mpr single)⟩

structure Built (dict : KeyPositions) (table : List TxRWSet) (built : Dag × List Bitmap) :
    Prop where
  vertexes : built.1.length = table.length
  reachMaps : built.2.length = table.length
  vertex : ∀ i rwSet, table[i]? = some rwSet → ∃ direct all, built.1[i]? = some direct.pos1 ∧
    built.2[i]? = some all ∧
    (direct, all) = PrunedReach.prune (reachAt (built.2.take i)) i (candidates dict i rwSet)

theorem built_foldl (dict : KeyPositions) (table : List TxRWSet) : Built dict table (table.zipIdx.foldl (addVertex dict) ([], [])) := by
  induction table using List.reverseRecOn with
  | nil => exact ⟨rfl, rfl, by simp⟩
  | append_singleton table newest ih =>
    rw [List.zipIdx_append, List.foldl_append]
    generalize table.zipIdx.foldl (addVertex dict) ([], []) = built at ih
    simp only [Nat.zero_add, List.zipIdx_cons, List.zipIdx_nil, List.foldl_cons, List.foldl_nil]
    obtain ⟨⟨direct, all⟩, reached⟩ : ∃ pruned, PrunedReach.prune (reachAt built.2)
        table.length (candidates dict table.length newest) = pruned := ⟨_, rfl⟩
    have step : addVertex dict built (newest, table.length) = (built.1 ++ [direct.pos1], built.2 ++ [all]) := by
      simp only [addVertex, buildReachMap_eq, reached]
    rw [step]
    refine ⟨by simp [ih.vertexes], by simp [ih.reachMaps], ?_⟩
    intro i rwSet present
    rcases getElem?_concat_cases present with ⟨earlier, old, _⟩ | ⟨rfl, rfl, _⟩
    · obtain ⟨direct, all, vertex, reach, processed⟩ := ih.vertex i rwSet old
      refine ⟨direct, all, ?_, ?_, ?_⟩
      · rwa [List.getElem?_append_left (by rw [ih.vertexes]; exact earlier)]
      · rwa [List.getElem?_append_left (by rw [ih.reachMaps]; exact earlier)]
      · rwa [List.take_append_of_le_length (by rw [ih.reachMaps]; exact Nat.le_of_lt earlier)]
    · refine ⟨direct, all, ?_, ?_, ?_⟩
      · rw [List.getElem?_append_right (Nat.le_of_eq ih.vertexes), ih.vertexes, Nat.sub_self]
        rfl
      · rw [List.getElem?_append_right (Nat.le_of_eq ih.reachMaps), ih.reachMaps, Nat.sub_self]
        rfl
      · have whole : (built.2 ++ [all]).take table.length = built.2 := by
          rw [← ih.reachMaps, List.take_left]
        rw [whole, reached]

def targetsOf (dict : KeyPositions) (table : List TxRWSet) (i : Nat) : List Nat :=
  (table[i]?).elim [] (candidates dict i)

theorem candidate_iff_linked (valid : DictValid table dict) : PrunedReach.Candidate (targetsOf dict table) j i ↔ Linked table j i := by
  unfold PrunedReach.Candidate targetsOf
  cases present : table[j]? with
  | some rwSet => exact mem_candidates_iff_linked valid present
  | none =>
    simp only [Option.elim_none, List.not_mem_nil, false_and, false_iff]
    rintro ⟨key, ⟨⟨rwSet, there, _⟩, _⟩ | ⟨⟨rwSet, there, _⟩ | ⟨rwSet, there, _⟩, _⟩⟩
    · simp [present] at there
    · simp [present] at there
    · simp [present] at there

def directOf (dict : KeyPositions) (table : List TxRWSet) (reachMap : List Bitmap) (i : Nat) :
    Bitmap :=
  (PrunedReach.prune (reachAt reachMap) i (targetsOf dict table i)).1

theorem Built.processed {built : Dag × List Bitmap} (valid : DictValid table dict)
    (complete : Built dict table built) (inside : i < table.length) :
    built.1[i]? = some (directOf dict table built.2 i).pos1 ∧ (directOf dict table built.2 i, reachAt built.2 i) =
        PrunedReach.prune (reachAt built.2) i (targetsOf dict table i) := by
  have present := List.getElem?_eq_getElem inside
  obtain ⟨direct, all, vertex, reach, processed⟩ := complete.vertex i _ present
  have targets : targetsOf dict table i = candidates dict i table[i] := by
    rw [targetsOf, present]
    rfl
  have same : PrunedReach.prune (reachAt (built.2.take i)) i (candidates dict i table[i]) =
      PrunedReach.prune (reachAt built.2) i (candidates dict i table[i]) := by
    refine PrunedReach.prune_congr ?_
    intro target member different
    have bound := candidates_le valid present member
    rw [reachAt, reachAt, List.getD_eq_getElem?_getD, List.getD_eq_getElem?_getD, List.getElem?_take_of_lt (by omega)]
  rw [same, ← targets] at processed
  have first : directOf dict table built.2 i = direct := by rw [directOf, ← processed]
  have second : reachAt built.2 i = all := by
    rw [reachAt, List.getD_eq_getElem?_getD, reach]
    rfl
  rw [first, second]
  exact ⟨vertex, processed⟩

theorem buildDAG_reaches_iff (table : List TxRWSet) (j i : Nat) :
    Dag.Reaches (buildDAG false table) j i ↔ Relation.TransGen (Linked table) j i := by
  have valid := dictValid_buildDictAndPos table
  have complete := built_foldl (buildDictAndPos table) table
  have dag : buildDAG false table = (table.zipIdx.foldl (addVertex (buildDictAndPos table)) ([], [])).1 := rfl
  rw [dag]
  generalize table.zipIdx.foldl (addVertex (buildDictAndPos table)) ([], []) = built at complete
  have pruned : PrunedReach.Pruned (targetsOf (buildDictAndPos table) table) table.length
      (directOf (buildDictAndPos table) table built.2) (reachAt built.2) := by
    refine ⟨?_, ?_, fun vertex inside => (complete.processed valid inside).2⟩
    · intro vertex target member
      unfold targetsOf at member
      cases present : table[vertex]? with
      | none =>
        rw [present] at member
        cases member
      | some rwSet =>
        rw [present] at member
        exact candidates_le valid present member
    · intro vertex beyond
      rw [targetsOf, List.getElem?_eq_none beyond]
      rfl
  have edges : Dag.Edge built.1 = fun vertex target => vertex < table.length ∧
      (directOf (buildDictAndPos table) table built.2 vertex).has target = true := by
    funext vertex target
    simp only [Dag.Edge, eq_iff_iff]
    constructor
    · rintro ⟨neighbors, found, member⟩
      have inside : vertex < table.length := by
        rw [← complete.vertexes]
        exact (List.getElem?_eq_some_iff.mp found).1
      rw [(complete.processed valid inside).1] at found
      cases found
      exact ⟨inside, (Bitmap.mem_pos1 _ _).mp member⟩
    · rintro ⟨inside, set⟩
      exact ⟨_, (complete.processed valid inside).1, (Bitmap.mem_pos1 _ _).mpr set⟩
  have links : PrunedReach.Candidate (targetsOf (buildDictAndPos table) table) = Linked table := by
    funext vertex target
    exact propext (candidate_iff_linked valid)
  rw [Dag.Reaches, edges, pruned.transGen_iff, links]

end Graph

section Completeness

variable {table : List TxRWSet}

def ReadsAt (table : List TxRWSet) (i : Nat) (loc : StateKey) : Prop :=
  ∃ rwSet, table[i]? = some rwSet ∧ ∃ read ∈ rwSet.txReads, read.location = loc

def WritesAt (table : List TxRWSet) (i : Nat) (loc : StateKey) : Prop :=
  ∃ rwSet, table[i]? = some rwSet ∧ ∃ write ∈ rwSet.txWrites, write.location = loc

/-- Both access the location, and one of them writes it. -/
def ConflictAt (table : List TxRWSet) (i j : Nat) (loc : StateKey) : Prop :=
  (WritesAt table i loc ∧ (ReadsAt table j loc ∨ WritesAt table j loc)) ∨
    (ReadsAt table i loc ∧ WritesAt table j loc)

def Dag.Complete (dag : Dag) (table : List TxRWSet) : Prop :=
  ∀ i j loc, i < j → ConflictAt table i j loc → dag.Reaches j i

variable {i : Nat}

theorem ReadsAt.readsKey {loc : StateKey} (reads : ReadsAt table i loc) : ReadsKey table i loc.key := by
  obtain ⟨rwSet, present, read, member, rfl⟩ := reads
  exact ⟨rwSet, present, readCount_pos_iff.mpr ⟨read, member, rfl⟩⟩

theorem WritesAt.writesKey {loc : StateKey} (writes : WritesAt table i loc) : WritesKey table i loc.key := by
  obtain ⟨rwSet, present, write, member, rfl⟩ := writes
  exact ⟨rwSet, present, writeCount_pos_iff.mpr ⟨write, member, rfl⟩⟩

theorem exists_lastWriter {key : Bytes} {j : Nat} (below : i < j) (writes : WritesKey table i key) :
    ∃ writer, i ≤ writer ∧ LastWriter table key j writer := by
  have member : i ∈ occurrences writeCount (table.take j) key :=
    mem_occurrences_take.mpr ⟨below, writes⟩
  cases found : (occurrences writeCount (table.take j) key).getLast? with
  | none =>
    rw [List.getLast?_eq_none_iff.mp found] at member
    cases member
  | some writer =>
    have last := getLast?_writers_iff.mp found
    refine ⟨writer, ?_, last⟩
    by_contra above
    exact last.last i (by omega) below writes

theorem transGen_linked_lt {table : List TxRWSet} {j i : Nat} (chain : Relation.TransGen (Linked table) j i) : i < j := by
  induction chain with
  | single linked => exact linked.lt
  | tail _ linked ih => exact linked.lt.trans ih

private theorem linked_of_linkedBy {key : Bytes} {j : Nat} (chain : Relation.TransGen (LinkedBy table key) j i) :
    Relation.TransGen (Linked table) j i :=
  Relation.TransGen.mono (fun _ _ link => ⟨key, link⟩) j i chain

/-- Whoever writes the key bytes twice after `i`, up to `j`, comes after a reader
of them that is `i` itself or later. -/
def Bridged (table : List TxRWSet) (key : Bytes) (i j : Nat) : Prop :=
  ∀ double, i < double → double ≤ j → WritesTwice table double key →
    ∃ reader, i ≤ reader ∧ reader < double ∧ ReadsKey table reader key

theorem WritesTwice.writesKey {key : Bytes} (twice : WritesTwice table i key) : WritesKey table i key := by
  obtain ⟨rwSet, present, count⟩ := twice
  exact ⟨rwSet, present, by omega⟩

theorem Bridged.chain {key : Bytes} {j : Nat} (bridged : Bridged table key i j) (below : i < j)
    (writes : WritesKey table i key) (accesses : ReadsKey table j key ∨ WritesKey table j key) :
    Relation.TransGen (LinkedBy table key) j i := by
  induction j using Nat.strongRecOn with
  | _ j ih =>
    have earlier : ∀ middle, middle < j → Bridged table key i middle :=
      fun middle before double after upTo => bridged double after (by omega)
    by_cases twice : WritesTwice table j key
    · -- only the link to an earlier reader is left
      obtain ⟨reader, bound, before, reads⟩ := bridged j below (Nat.le_refl j) twice
      have link : LinkedBy table key j reader := .inl ⟨twice.writesKey, before, reads⟩
      rcases Nat.eq_or_lt_of_le bound with rfl | above
      · exact .single link
      · exact .head link (ih reader before (earlier reader before) above (.inl reads))
    · obtain ⟨writer, bound, last⟩ := exists_lastWriter below writes
      have link : LinkedBy table key j writer := .inr ⟨accesses, twice, last⟩
      rcases Nat.eq_or_lt_of_le bound with rfl | above
      · exact .single link
      · exact .head link (ih writer last.before (earlier writer last.before) above (.inr last.writes))

/-- A chain over the key bytes passes a double writer only by way of a reader. -/
theorem bridged_of_chain {key : Bytes} {j : Nat} (chain : Relation.TransGen (LinkedBy table key) j i) : Bridged table key i j := by
  intro double after upTo twice
  have passes : ∀ {late early}, LinkedBy table key late early → i ≤ early → early < double → double ≤ late →
      ∃ reader, i ≤ reader ∧ reader < double ∧ ReadsKey table reader key := by
    rintro late early (⟨_, _, reads⟩ | ⟨_, single, last⟩) bound before beyond
    · exact ⟨early, bound, before, reads⟩
    · rcases Nat.eq_or_lt_of_le beyond with rfl | inside
      · exact absurd twice single
      · exact absurd twice.writesKey (last.last double before inside)
  induction chain using Relation.TransGen.head_induction_on with
  | single link => exact passes link (Nat.le_refl i) after upTo
  | @head late middle link rest ih =>
    by_cases past : double ≤ middle
    · exact ih past
    · have below := transGen_linked_lt (linked_of_linkedBy rest)
      exact passes link (Nat.le_of_lt below) (by omega) upTo

theorem linked_chain {key : Bytes} {j : Nat} (below : i < j) (writes : WritesKey table i key)
    (accesses : ReadsKey table j key ∨ WritesKey table j key)
    (single : ∀ between, i < between → between ≤ j → ¬ WritesTwice table between key) :
    Relation.TransGen (Linked table) j i :=
  linked_of_linkedBy (Bridged.chain (fun double after upTo twice => absurd twice (single double after upTo)) below writes accesses)

/-- The pairs that the code examines for the key bytes of a conflict order the two
transactions exactly when every double writer between them comes after a reader;
then the graph orders them. -/
theorem buildDAG_orders_conflict (table : List TxRWSet) (i j : Nat) (loc : StateKey) (below : i < j)
    (conflict : ConflictAt table i j loc) :
    (Relation.TransGen (LinkedBy table loc.key) j i ↔ Bridged table loc.key i j) ∧
      (Bridged table loc.key i j → Dag.Reaches (buildDAG false table) j i) := by
  have chain : Bridged table loc.key i j → Relation.TransGen (LinkedBy table loc.key) j i := by
    intro bridged
    rcases conflict with ⟨writes, accesses⟩ | ⟨reads, writes⟩
    · exact bridged.chain below writes.writesKey (accesses.imp ReadsAt.readsKey WritesAt.writesKey)
    · exact .single (.inl ⟨writes.writesKey, below, reads.readsKey⟩)
  refine ⟨⟨bridged_of_chain, chain⟩, ?_⟩
  intro bridged
  rw [buildDAG_reaches_iff]
  exact linked_of_linkedBy (chain bridged)

/-- A transaction reads the key between its writer and one that writes it under
two contracts: the three are ordered. -/
theorem buildDAG_orders_pastReader :
    let table : List TxRWSet :=
      [⟨ascii "t0", [], [⟨ascii "A", ascii "k", [1]⟩]⟩,
        ⟨ascii "t1", [⟨ascii "A", ascii "k", [1]⟩], []⟩,
        ⟨ascii "t2", [], [⟨ascii "A", ascii "k", [2]⟩, ⟨ascii "B", ascii "k", [3]⟩]⟩]
    ConflictAt table 0 2 ⟨ascii "A", ascii "k"⟩ ∧ Dag.Reaches (buildDAG false table) 2 0 := by
  intro table
  have conflict : ConflictAt table 0 2 ⟨ascii "A", ascii "k"⟩ :=
    .inl ⟨⟨_, rfl, _, .head _, rfl⟩, .inr ⟨_, rfl, _, .head _, rfl⟩⟩
  refine ⟨conflict, (buildDAG_orders_conflict table 0 2 ⟨ascii "A", ascii "k"⟩ (by decide) conflict).2 ?_⟩
  intro double after upTo twice
  by_cases last : double = 2
  · exact ⟨1, by omega, by omega, _, rfl, by decide⟩
  · have one : double = 1 := by omega
    obtain ⟨rwSet, present, count⟩ := twice
    subst one
    cases present
    exact absurd count (by decide)

/-- A transaction writes the same key of two contracts, the first of which an
earlier transaction has written: the graph leaves the two unordered. -/
theorem buildDAG_misses_writer :
    let table : List TxRWSet :=
      [⟨ascii "t0", [], [⟨ascii "A", ascii "k", [1]⟩]⟩,
        ⟨ascii "t1", [], [⟨ascii "A", ascii "k", [2]⟩, ⟨ascii "B", ascii "k", [3]⟩]⟩]
    ConflictAt table 0 1 ⟨ascii "A", ascii "k"⟩ ∧ ¬ Dag.Reaches (buildDAG false table) 1 0 := by
  intro table
  refine ⟨.inl ⟨⟨_, rfl, _, .head _, rfl⟩, .inr ⟨_, rfl, _, .head _, rfl⟩⟩, ?_⟩
  have dag : buildDAG false table = [[], []] := by decide
  rw [dag]
  intro reaches
  obtain ⟨_, ⟨neighbors, found, member⟩, _⟩ := Relation.TransGen.head'_iff.mp reaches
  cases found
  cases member

end Completeness

/-- `j` comes after `i`, and one writes key bytes that the other accesses. -/
def KeyConflict (table : List TxRWSet) (j i : Nat) : Prop :=
  i < j ∧ ∃ key, WritesKey table i key ∧ (ReadsKey table j key ∨ WritesKey table j key) ∨
    ReadsKey table i key ∧ WritesKey table j key

theorem buildDAG_reaches_iff_conflicts {table : List TxRWSet}
    (single : ∀ rwSet ∈ table, (rwSet.txWrites.map (·.key)).Nodup) (j i : Nat) :
    Dag.Reaches (buildDAG false table) j i ↔ Relation.TransGen (KeyConflict table) j i := by
  rw [buildDAG_reaches_iff]
  constructor
  · refine Relation.TransGen.mono (fun j i linked => ⟨linked.lt, ?_⟩) j i
    obtain ⟨key, ⟨writes, _, reads⟩ | ⟨accesses, _, last⟩⟩ := linked
    · exact ⟨key, .inr ⟨reads, writes⟩⟩
    · exact ⟨key, .inl ⟨last.writes, accesses⟩⟩
  · refine Relation.TransGen.closed ?_ j i
    rintro j i ⟨below, key, ⟨writes, accesses⟩ | ⟨reads, writes⟩⟩
    · refine linked_chain below writes accesses ?_
      rintro between _ _ ⟨rwSet, present, twice⟩
      have once := List.nodup_iff_count_le_one.mp (single rwSet (List.mem_of_getElem? present)) key
      simp only [List.count, List.countP_map, Function.comp_def, beq_eq_decide] at once
      exact absurd twice (Nat.not_le_of_lt (Nat.lt_succ_of_le once))
    · exact .single ⟨key, .inl ⟨writes, below, reads⟩⟩

theorem buildDAG_orders_reader :
    let table := [⟨[], [], [⟨[], [], []⟩]⟩, ⟨[], [⟨[], [], []⟩], []⟩]
    Dag.Reaches (buildDAG false table) 1 0 ↔ Relation.TransGen (KeyConflict table) 1 0 :=
  buildDAG_reaches_iff_conflicts (by decide) 1 0

end Pdcc.Snapshot
