import Pdcc.Snapshot.Dag
import Pdcc.Library.Logs

/-!
# The pairs of transactions that `BuildDAG` examines

The dictionaries list a transaction once for every access. A transaction that
writes some key bytes twice therefore finds itself in front of its own position
and does not see the writer before it. This module says which earlier
transactions are examined, in terms of the table alone.
-/

set_option autoImplicit false

namespace Pdcc.Snapshot

open Ledger Library

section Accesses

def readCount (rwSet : TxRWSet) (key : Bytes) : Nat := rwSet.txReads.countP (·.key = key)

def writeCount (rwSet : TxRWSet) (key : Bytes) : Nat := rwSet.txWrites.countP (·.key = key)

variable {key : Bytes} {count : TxRWSet → Bytes → Nat}

theorem readCount_pos_iff {rwSet : TxRWSet} : 0 < readCount rwSet key ↔ ∃ read ∈ rwSet.txReads, read.key = key := by
  simp [readCount, List.countP_pos_iff]

theorem writeCount_pos_iff {rwSet : TxRWSet} : 0 < writeCount rwSet key ↔ ∃ write ∈ rwSet.txWrites, write.key = key := by
  simp [writeCount, List.countP_pos_iff]

def occurrences (count : TxRWSet → Bytes → Nat) (table : List TxRWSet) (key : Bytes) : List Nat :=
  table.zipIdx.flatMap fun entry => List.replicate (count entry.1 key) entry.2

theorem occurrences_append (count : TxRWSet → Bytes → Nat) (table : List TxRWSet) (rwSet : TxRWSet) (key : Bytes) :
    occurrences count (table ++ [rwSet]) key = occurrences count table key ++ List.replicate (count rwSet key) table.length := by
  simp [occurrences, List.zipIdx_append]

theorem mem_occurrences {table : List TxRWSet} {i : Nat} :
    i ∈ occurrences count table key ↔ ∃ rwSet, table[i]? = some rwSet ∧ 0 < count rwSet key := by
  simp only [occurrences, List.mem_flatMap, Prod.exists, List.mk_mem_zipIdx_iff_getElem?, List.mem_replicate]
  constructor
  · rintro ⟨rwSet, _, present, some, rfl⟩
    exact ⟨rwSet, present, by omega⟩
  · rintro ⟨rwSet, present, some⟩
    exact ⟨rwSet, i, present, by omega, rfl⟩

theorem occurrences_lt {table : List TxRWSet} {i : Nat} (member : i ∈ occurrences count table key) : i < table.length := by
  obtain ⟨_, present, _⟩ := mem_occurrences.mp member
  exact (List.getElem?_eq_some_iff.mp present).1

end Accesses

section Dictionaries

variable (i : Nat) (dict : KeyPositions)

private theorem setPos_apply (pos : Nat → Bytes → Option Nat) (key : Bytes) (value : Nat) (j : Nat) (other : Bytes) :
    KeyPositions.setPos pos i key value j other = if j = i ∧ other = key then some value else pos j other := by
  unfold KeyPositions.setPos
  by_cases sameTx : j = i
  · subst sameTx
    by_cases sameKey : other = key
    · simp [sameKey]
    · simp [sameKey]
  · simp [sameTx]

private theorem lastPosition_succ (here : Prop) [Decidable here] (length count : Nat) (noted : Option Nat) :
    (if here ∧ 0 < count then some (length + 1 + count - 1) else if here then some length else noted) =
      if here ∧ 0 < count + 1 then some (length + (count + 1) - 1) else noted := by
  by_cases inTx : here
  · cases count with
    | zero => simp [inTx]
    | succ more =>
      simp only [inTx, Nat.succ_pos, and_self, ↓reduceIte, Option.some.injEq]
      omega
  · simp [inTx]

private theorem foldl_noteRead (reads : List TxRead) (key : Bytes) : (reads.foldl (KeyPositions.noteRead i) dict).readKeyDict key =
        dict.readKeyDict key ++ List.replicate (reads.countP (·.key = key)) i ∧
      (reads.foldl (KeyPositions.noteRead i) dict).writeKeyDict key = dict.writeKeyDict key ∧
      (∀ j, (reads.foldl (KeyPositions.noteRead i) dict).readPos j key = if j = i ∧ 0 < reads.countP (·.key = key) then
          some ((dict.readKeyDict key).length + reads.countP (·.key = key) - 1)
        else dict.readPos j key) ∧
      ∀ j, (reads.foldl (KeyPositions.noteRead i) dict).writePos j key =
        if j = i ∧ 0 < reads.countP (·.key = key) then some (dict.writeKeyDict key).length
        else dict.writePos j key := by
  induction reads generalizing dict with
  | nil => simp
  | cons read rest ih =>
    obtain ⟨readDict, writeDict, readPos, writePos⟩ := ih (dict.noteRead i read)
    rw [List.foldl_cons, readDict, writeDict]
    by_cases same : read.key = key
    · subst same
      have count : (read :: rest).countP (·.key = read.key) = rest.countP (·.key = read.key) + 1 := by simp
      refine ⟨?_, rfl, fun j => ?_, fun j => ?_⟩
      · rw [count]
        simp [KeyPositions.noteRead, List.replicate_succ]
      · rw [readPos, count]
        simp only [KeyPositions.noteRead, setPos_apply, Function.update_self, List.length_append, List.length_singleton, and_true]
        exact lastPosition_succ _ _ _ _
      · rw [writePos, count]
        simp only [KeyPositions.noteRead, setPos_apply]
        by_cases here : j = i
        · simp [here]
        · simp [here]
    · have other : key ≠ read.key := fun equal => same equal.symm
      have count : (read :: rest).countP (·.key = key) = rest.countP (·.key = key) := by
        simp [same]
      refine ⟨?_, rfl, fun j => ?_, fun j => ?_⟩
      · rw [count]
        simp [KeyPositions.noteRead, other]
      · rw [readPos, count]
        simp [KeyPositions.noteRead, setPos_apply, other]
      · rw [writePos, count]
        simp [KeyPositions.noteRead, setPos_apply, other]

private theorem noteWrite_readPos (write : TxWrite) (j : Nat) (key : Bytes) :
    (dict.noteWrite i write).readPos j key = if j = i ∧ write.key = key then
        some ((dict.readPos i key).getD (dict.readKeyDict key).length)
      else dict.readPos j key := by
  simp only [KeyPositions.noteWrite]
  by_cases same : write.key = key
  · subst same
    cases known : dict.readPos i write.key with
    | none =>
      simp only [Option.isSome_none, Bool.false_eq_true, ↓reduceIte, setPos_apply, Option.getD_none]
    | some position =>
      by_cases here : j = i
      · simp [here, known]
      · simp [here]
  · have other : key ≠ write.key := fun equal => same equal.symm
    split
    · simp [same]
    · simp [setPos_apply, same, other]

private theorem foldl_noteWrite (writes : List TxWrite) (key : Bytes) :
    (writes.foldl (KeyPositions.noteWrite i) dict).readKeyDict key = dict.readKeyDict key ∧
      (writes.foldl (KeyPositions.noteWrite i) dict).writeKeyDict key =
        dict.writeKeyDict key ++ List.replicate (writes.countP (·.key = key)) i ∧
      (∀ j, (writes.foldl (KeyPositions.noteWrite i) dict).readPos j key = if j = i ∧ 0 < writes.countP (·.key = key) then
          some ((dict.readPos i key).getD (dict.readKeyDict key).length)
        else dict.readPos j key) ∧
      ∀ j, (writes.foldl (KeyPositions.noteWrite i) dict).writePos j key = if j = i ∧ 0 < writes.countP (·.key = key) then
          some ((dict.writeKeyDict key).length + writes.countP (·.key = key) - 1)
        else dict.writePos j key := by
  induction writes generalizing dict with
  | nil => simp
  | cons write rest ih =>
    obtain ⟨readDict, writeDict, readPos, writePos⟩ := ih (dict.noteWrite i write)
    rw [List.foldl_cons, readDict, writeDict]
    by_cases same : write.key = key
    · subst same
      have count : (write :: rest).countP (·.key = write.key) = rest.countP (·.key = write.key) + 1 := by simp
      refine ⟨rfl, ?_, fun j => ?_, fun j => ?_⟩
      · rw [count]
        simp [KeyPositions.noteWrite, List.replicate_succ]
      · rw [readPos, count, noteWrite_readPos, noteWrite_readPos]
        by_cases here : j = i
        · simp [here]
        · simp [here]
      · rw [writePos, count]
        simp only [KeyPositions.noteWrite, setPos_apply, Function.update_self, List.length_append, List.length_singleton, and_true]
        exact lastPosition_succ _ _ _ _
    · have other : key ≠ write.key := fun equal => same equal.symm
      have count : (write :: rest).countP (·.key = key) = rest.countP (·.key = key) := by
        simp [same]
      refine ⟨rfl, ?_, fun j => ?_, fun j => ?_⟩
      · rw [count]
        simp [KeyPositions.noteWrite, other]
      · rw [readPos, count, noteWrite_readPos, noteWrite_readPos]
        simp [same, KeyPositions.noteWrite]
      · rw [writePos, count]
        simp [KeyPositions.noteWrite, setPos_apply, other]

end Dictionaries

section Positions

def writePosition (before : List TxRWSet) (rwSet : TxRWSet) (key : Bytes) : Option Nat :=
  if 0 < writeCount rwSet key then
    some ((occurrences writeCount before key).length + writeCount rwSet key - 1)
  else if 0 < readCount rwSet key then some (occurrences writeCount before key).length
  else none

def readPosition (before : List TxRWSet) (rwSet : TxRWSet) (key : Bytes) : Option Nat :=
  if 0 < readCount rwSet key then
    some ((occurrences readCount before key).length + readCount rwSet key - 1)
  else if 0 < writeCount rwSet key then some (occurrences readCount before key).length
  else none

structure DictValid (table : List TxRWSet) (dict : KeyPositions) : Prop where
  readKeyDict : ∀ key, dict.readKeyDict key = occurrences readCount table key
  writeKeyDict : ∀ key, dict.writeKeyDict key = occurrences writeCount table key
  readPos : ∀ i rwSet, table[i]? = some rwSet → ∀ key,
    dict.readPos i key = readPosition (table.take i) rwSet key
  writePos : ∀ i rwSet, table[i]? = some rwSet → ∀ key,
    dict.writePos i key = writePosition (table.take i) rwSet key
  fresh : ∀ i, table.length ≤ i → ∀ key, dict.readPos i key = none ∧ dict.writePos i key = none

theorem dictValid_empty : DictValid [] .empty where
  readKeyDict _ := rfl
  writeKeyDict _ := rfl
  readPos i rwSet present := by simp at present
  writePos i rwSet present := by simp at present
  fresh _ _ _ := ⟨rfl, rfl⟩

theorem DictValid.noteTx {table : List TxRWSet} {dict : KeyPositions} (valid : DictValid table dict) (rwSet : TxRWSet) :
    DictValid (table ++ [rwSet]) (dict.noteTx (rwSet, table.length)) := by
  have reads := foldl_noteRead table.length dict rwSet.txReads
  have writes := foldl_noteWrite table.length (rwSet.txReads.foldl (KeyPositions.noteRead table.length) dict) rwSet.txWrites
  refine ⟨fun key => ?_, fun key => ?_, fun i other present key => ?_, fun i other present key => ?_, fun i beyond key => ?_⟩
  · rw [KeyPositions.noteTx, (writes key).1, (reads key).1, occurrences_append, valid.readKeyDict]
    rfl
  · rw [KeyPositions.noteTx, (writes key).2.1, (reads key).2.1, occurrences_append, valid.writeKeyDict]
    rfl
  · rw [KeyPositions.noteTx, (writes key).2.2.1, (reads key).2.2.1, (reads key).2.2.1, (reads key).1, valid.readKeyDict]
    rcases getElem?_concat_cases present with ⟨earlier, old, before⟩ | ⟨rfl, rfl, before⟩
    · have different : i ≠ table.length := Nat.ne_of_lt earlier
      rw [before, ← valid.readPos i other old key]
      simp [different]
    · rw [before, (valid.fresh table.length (Nat.le_refl _) key).1]
      simp only [readPosition, readCount, writeCount, true_and, List.length_append]
      by_cases reading : 0 < rwSet.txReads.countP (·.key = key)
      · simp [reading]
      · have none : rwSet.txReads.countP (·.key = key) = 0 := by omega
        simp [none]
  · rw [KeyPositions.noteTx, (writes key).2.2.2, (reads key).2.2.2, (reads key).2.1, valid.writeKeyDict]
    rcases getElem?_concat_cases present with ⟨earlier, old, before⟩ | ⟨rfl, rfl, before⟩
    · have different : i ≠ table.length := Nat.ne_of_lt earlier
      rw [before, ← valid.writePos i other old key]
      simp [different]
    · rw [before, (valid.fresh table.length (Nat.le_refl _) key).2]
      simp only [writePosition, readCount, writeCount, true_and]
      rfl
  · rw [List.length_append, List.length_singleton] at beyond
    have different : i ≠ table.length := by omega
    rw [KeyPositions.noteTx, (writes key).2.2.1, (writes key).2.2.2, (reads key).2.2.1, (reads key).2.2.1, (reads key).2.2.2]
    simp [different, valid.fresh i (by omega) key]

theorem dictValid_buildDictAndPos (table : List TxRWSet) : DictValid table (buildDictAndPos table) := by
  induction table using List.reverseRecOn with
  | nil => exact dictValid_empty
  | append_singleton table rwSet ih =>
    rw [buildDictAndPos, List.zipIdx_append, List.foldl_append]
    simpa [buildDictAndPos] using ih.noteTx rwSet

end Positions

section Links

variable (table : List TxRWSet)

def ReadsKey (i : Nat) (key : Bytes) : Prop :=
  ∃ rwSet, table[i]? = some rwSet ∧ 0 < readCount rwSet key

def WritesKey (i : Nat) (key : Bytes) : Prop :=
  ∃ rwSet, table[i]? = some rwSet ∧ 0 < writeCount rwSet key

def WritesTwice (i : Nat) (key : Bytes) : Prop :=
  ∃ rwSet, table[i]? = some rwSet ∧ 2 ≤ writeCount rwSet key

/-- The last transaction before `j` that writes the key bytes. -/
structure LastWriter (table : List TxRWSet) (key : Bytes) (j i : Nat) : Prop where
  before : i < j
  writes : WritesKey table i key
  last : ∀ between, i < between → between < j → ¬ WritesKey table between key

/-- The pairs that `BuildDAG` orders by looking at the key bytes `key`: a writer
comes after every earlier reader, and whoever accesses the key after its last
writer, unless it writes the key bytes twice. -/
abbrev LinkedBy (key : Bytes) (j i : Nat) : Prop :=
  (WritesKey table j key ∧ i < j ∧ ReadsKey table i key) ∨
    ((ReadsKey table j key ∨ WritesKey table j key) ∧ ¬ WritesTwice table j key ∧
      LastWriter table key j i)

def Linked (j i : Nat) : Prop := ∃ key, LinkedBy table key j i

variable {j i : Nat}

theorem Linked.lt {table : List TxRWSet} (linked : Linked table j i) : i < j := by
  obtain ⟨_, ⟨_, below, _⟩ | ⟨_, _, writer⟩⟩ := linked
  · exact below
  · exact writer.before

variable {table : List TxRWSet}

theorem occurrences_split (count : TxRWSet → Bytes → Nat) {rwSet : TxRWSet} (present : table[i]? = some rwSet) (key : Bytes) :
    ∃ later, occurrences count table key = occurrences count (table.take i) key ++ (List.replicate (count rwSet key) i ++ later) := by
  obtain ⟨inside, here⟩ := List.getElem?_eq_some_iff.mp present
  have split : table.take i ++ rwSet :: table.drop (i + 1) = table := by
    subst here
    simp
  have size : (table.take i).length = i := List.length_take_of_le (Nat.le_of_lt inside)
  refine ⟨((table.drop (i + 1)).zipIdx (i + 1)).flatMap fun entry =>
    List.replicate (count entry.1 key) entry.2, ?_⟩
  conv_lhs => rw [← split]
  rw [occurrences, List.zipIdx_append, List.flatMap_append, List.zipIdx_cons, List.flatMap_cons, size, Nat.zero_add]
  rfl

theorem getLast?_occurrences (count : TxRWSet → Bytes → Nat) (table : List TxRWSet) (key : Bytes) (i : Nat) :
    (occurrences count table key).getLast? = some i ↔ i ∈ occurrences count table key ∧
        ∀ other, i < other → other ∉ occurrences count table key := by
  induction table using List.reverseRecOn with
  | nil => simp [occurrences]
  | append_singleton table rwSet ih =>
    rw [occurrences_append]
    by_cases accessed : count rwSet key = 0
    · rw [accessed, List.replicate_zero, List.append_nil]
      exact ih
    · have last : (List.replicate (count rwSet key) table.length).getLast? = some table.length := by
        rw [List.getLast?_replicate, if_neg accessed]
      rw [List.getLast?_append, last, Option.some_or, Option.some.injEq]
      have fresh : table.length ∉ occurrences count table key :=
        fun member => Nat.lt_irrefl _ (occurrences_lt member)
      constructor
      · rintro rfl
        refine ⟨by simp [accessed], ?_⟩
        intro other above member
        rcases List.mem_append.mp member with earlier | newest
        · have bound := occurrences_lt earlier
          omega
        · have same := List.eq_of_mem_replicate newest
          omega
      · rintro ⟨member, latest⟩
        rcases List.mem_append.mp member with earlier | newest
        · have bound := occurrences_lt earlier
          exact absurd (by simp [accessed]) (latest table.length bound)
        · exact (List.eq_of_mem_replicate newest).symm

theorem mem_occurrences_take {count : TxRWSet → Bytes → Nat} {key : Bytes} : i ∈ occurrences count (table.take j) key ↔
      i < j ∧ ∃ rwSet, table[i]? = some rwSet ∧ 0 < count rwSet key := by
  rw [mem_occurrences, List.getElem?_take]
  by_cases below : i < j
  · simp [below]
  · simp [below]

theorem getLast?_writers_iff {key : Bytes} : (occurrences writeCount (table.take j) key).getLast? = some i ↔ LastWriter table key j i := by
  rw [getLast?_occurrences]
  simp only [mem_occurrences_take]
  constructor
  · rintro ⟨⟨below, writes⟩, latest⟩
    refine ⟨below, writes, ?_⟩
    intro between above inside writesBetween
    exact latest between above ⟨inside, writesBetween⟩
  · intro writer
    refine ⟨⟨writer.before, writer.writes⟩, ?_⟩
    rintro other above ⟨inside, writesOther⟩
    exact writer.last other above inside writesOther

end Links

section Candidates

def writerBefore (dict : KeyPositions) (i : Nat) (key : Bytes) : Option Nat :=
  match (dict.writePos i key).getD 0 with
  | 0 => none
  | j + 1 => (dict.writeKeyDict key)[j]?

def candidates (dict : KeyPositions) (i : Nat) (rwSet : TxRWSet) : List Nat :=
  (rwSet.txReads.flatMap fun keyForI => (writerBefore dict i keyForI.key).toList) ++
    rwSet.txWrites.flatMap fun keyForI =>
      ((dict.readKeyDict keyForI.key).take ((dict.readPos i keyForI.key).getD 0)).reverse ++
        (writerBefore dict i keyForI.key).toList

theorem checkWriter_eq (i : Nat) (dict : KeyPositions) (reachMap : List Bitmap) (state : Bitmap × Bitmap) (key : Bytes) :
    checkWriter i dict reachMap state key = (writerBefore dict i key).toList.foldl (PrunedReach.link (reachAt reachMap)) state := by
  unfold checkWriter writerBefore
  cases (dict.writePos i key).getD 0 with
  | zero => rfl
  | succ j =>
    simp only
    cases (dict.writeKeyDict key)[j]? with
    | none => rfl
    | some writer => rfl

theorem buildReachMap_eq (i : Nat) (dict : KeyPositions) (reachMap : List Bitmap) (rwSet : TxRWSet) :
    buildReachMap i dict reachMap rwSet = PrunedReach.prune (reachAt reachMap) i (candidates dict i rwSet) := by
  simp only [buildReachMap, PrunedReach.prune, candidates, checkWriter_eq, checkReaders, List.foldl_append, List.foldl_flatMap]

variable {table : List TxRWSet} {dict : KeyPositions} {i : Nat} {rwSet : TxRWSet}

theorem writerBefore_eq (valid : DictValid table dict) (present : table[i]? = some rwSet)
    {key : Bytes} (accessed : 0 < readCount rwSet key ∨ 0 < writeCount rwSet key) :
    writerBefore dict i key = if 2 ≤ writeCount rwSet key then some i else (occurrences writeCount (table.take i) key).getLast? := by
  obtain ⟨later, split⟩ := occurrences_split writeCount present key
  rw [writerBefore, valid.writePos i rwSet present, valid.writeKeyDict, split]
  unfold writePosition
  generalize occurrences writeCount (table.take i) key = before
  by_cases twice : 2 ≤ writeCount rwSet key
  · rw [if_pos twice, if_pos (by omega)]
    obtain ⟨extra, count⟩ := Nat.exists_eq_add_of_le twice
    have position : before.length + writeCount rwSet key - 1 = before.length + extra + 1 := by
      omega
    simp only [Option.getD_some, position]
    rw [List.getElem?_append_right (by omega), Nat.add_sub_cancel_left,
      List.getElem?_append_left (by rw [List.length_replicate]; omega), List.getElem?_replicate,
      if_pos (by omega)]
  · have position : (if 0 < writeCount rwSet key then
        some (before.length + writeCount rwSet key - 1)
        else if 0 < readCount rwSet key then some before.length else none) =
        some before.length := by
      by_cases writes : 0 < writeCount rwSet key
      · rw [if_pos writes]
        congr 1
        omega
      · rw [if_neg writes, if_pos (by omega)]
    rw [if_neg twice, position, Option.getD_some]
    cases size : before.length with
    | zero =>
      have empty : before = [] := List.eq_nil_of_length_eq_zero size
      simp [empty]
    | succ last =>
      simp only
      rw [List.getElem?_append_left (by omega), List.getLast?_eq_getElem?, size]
      rfl

theorem mem_readersBefore (valid : DictValid table dict) (present : table[i]? = some rwSet)
    {key : Bytes} (writes : 0 < writeCount rwSet key) {j : Nat} :
    (j ∈ (dict.readKeyDict key).take ((dict.readPos i key).getD 0) → j ≤ i) ∧
      (j ≠ i → (j ∈ (dict.readKeyDict key).take ((dict.readPos i key).getD 0) ↔ j < i ∧ ReadsKey table j key)) := by
  obtain ⟨later, split⟩ := occurrences_split readCount present key
  have readers : j ∈ occurrences readCount (table.take i) key ↔ j < i ∧ ReadsKey table j key :=
    mem_occurrences_take
  rw [valid.readPos i rwSet present, valid.readKeyDict, split]
  unfold readPosition
  generalize occurrences readCount (table.take i) key = before at readers
  by_cases reads : 0 < readCount rwSet key
  · have taken : (before ++ (List.replicate (readCount rwSet key) i ++ later)).take (before.length + readCount rwSet key - 1) =
        before ++ List.replicate (readCount rwSet key - 1) i := by
      rw [show before.length + readCount rwSet key - 1 = before.length + (readCount rwSet key - 1) by omega, List.take_length_add_append,
        List.take_append_of_le_length (by simp), List.take_replicate, Nat.min_eq_left (by omega)]
    rw [if_pos reads, Option.getD_some, taken, List.mem_append, readers]
    constructor
    · rintro (⟨below, _⟩ | own)
      · omega
      · exact Nat.le_of_eq (List.eq_of_mem_replicate own)
    · intro different
      constructor
      · rintro (earlier | own)
        · exact earlier
        · exact absurd (List.eq_of_mem_replicate own) different
      · exact .inl
  · rw [if_neg reads, if_pos writes, Option.getD_some, List.take_left, readers]
    exact ⟨fun earlier => Nat.le_of_lt earlier.1, fun _ => Iff.rfl⟩

end Candidates

end Pdcc.Snapshot
