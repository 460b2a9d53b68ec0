import Mathlib.Data.List.Basic

/-!
# Bitmaps of 64-bit words

A growing bitmap, word by word. `has` characterizes it completely: setting a
bit, uniting two bitmaps and listing the set positions are all stated by it.
-/

set_option autoImplicit false

namespace Pdcc.Library

structure Bitmap where
  words : List (BitVec 64)
  deriving DecidableEq

namespace Bitmap

def empty : Bitmap := ⟨[]⟩

def testWord (word : BitVec 64) (bit : Nat) : Bool :=
  word &&& (1#64 <<< bit) != 0#64

def has (bitmap : Bitmap) (num : Nat) : Bool :=
  match bitmap.words[num / 64]? with
  | none => false
  | some word => testWord word (num % 64)

def fillLen (words : List (BitVec 64)) (length : Nat) : List (BitVec 64) :=
  words ++ List.replicate (length - words.length) 0#64

def set (bitmap : Bitmap) (num : Nat) : Bitmap :=
  ⟨(fillLen bitmap.words (num / 64 + 1)).modify (num / 64) fun word =>
    if testWord word (num % 64) then word else word ||| (1#64 <<< (num % 64))⟩

def or (bitmap other : Bitmap) : Bitmap :=
  ⟨(fillLen bitmap.words other.words.length).mapIdx fun index word =>
    match other.words[index]? with
    | none => word
    | some otherWord => word ||| otherWord⟩

def pos1 (bitmap : Bitmap) : List Nat :=
  bitmap.words.zipIdx.flatMap fun (word, index) =>
    ((List.range 64).filter (testWord word)).map (64 * index + ·)

variable {bit : Nat}

theorem testWord_eq_getLsbD (word : BitVec 64) (inside : bit < 64) : testWord word bit = word.getLsbD bit := by
  have mask : ∀ position, (word &&& (1#64 <<< bit)).getLsbD position = (word.getLsbD bit && decide (position = bit)) := by
    intro position
    rw [BitVec.getLsbD_and, ← BitVec.twoPow_eq, BitVec.getLsbD_twoPow]
    by_cases same : bit = position
    · subst same
      simp [inside]
    · have other : position ≠ bit := fun equal => same equal.symm
      simp [same, other]
  cases value : word.getLsbD bit with
  | false =>
    have zero : word &&& (1#64 <<< bit) = 0#64 := by
      apply BitVec.eq_of_getLsbD_eq
      intro position _
      rw [mask, value]
      simp
    simp [testWord, zero]
  | true =>
    have nonzero : word &&& (1#64 <<< bit) ≠ 0#64 := by
      intro zero
      have selected := mask bit
      rw [zero, value] at selected
      simp at selected
    simp [testWord, nonzero]

theorem testWord_or (left right : BitVec 64) (inside : bit < 64) :
    testWord (left ||| right) bit = (testWord left bit || testWord right bit) := by
  rw [testWord_eq_getLsbD _ inside, testWord_eq_getLsbD _ inside, testWord_eq_getLsbD _ inside, BitVec.getLsbD_or]

theorem testWord_zero (inside : bit < 64) : testWord 0#64 bit = false := by
  rw [testWord_eq_getLsbD _ inside, BitVec.getLsbD_zero]

theorem testWord_mask {position : Nat} (inside : bit < 64) (positionInside : position < 64) :
    testWord (1#64 <<< bit) position = decide (position = bit) := by
  rw [testWord_eq_getLsbD _ positionInside, ← BitVec.twoPow_eq, BitVec.getLsbD_twoPow]
  by_cases same : bit = position
  · subst same
    simp [inside]
  · have other : position ≠ bit := fun equal => same equal.symm
    simp [same, other]

@[simp] theorem has_empty (num : Nat) : empty.has num = false := rfl

private theorem has_fillLen (words : List (BitVec 64)) (length num : Nat) : has ⟨fillLen words length⟩ num = has ⟨words⟩ num := by
  have bitInside : num % 64 < 64 := Nat.mod_lt _ (by decide)
  simp only [has, fillLen]
  by_cases stored : num / 64 < words.length
  · rw [List.getElem?_append_left stored]
  · rw [List.getElem?_append_right (by omega), List.getElem?_eq_none (by omega : words.length ≤ _)]
    rw [List.getElem?_replicate]
    split
    · rfl
    · next word padded =>
      split at padded
      · cases padded
        exact testWord_zero bitInside
      · cases padded

theorem has_set (bitmap : Bitmap) (num tested : Nat) : (bitmap.set num).has tested = (bitmap.has tested || decide (tested = num)) := by
  have bitInside : num % 64 < 64 := Nat.mod_lt _ (by decide)
  have testedInside : tested % 64 < 64 := Nat.mod_lt _ (by decide)
  rw [← has_fillLen bitmap.words (num / 64 + 1) tested]
  have stored : num / 64 < (fillLen bitmap.words (num / 64 + 1)).length := by
    simp only [fillLen, List.length_append, List.length_replicate]
    omega
  simp only [has, set, List.getElem?_modify]
  by_cases sameWord : num / 64 = tested / 64
  · have sameNum : tested % 64 = num % 64 ↔ tested = num := by omega
    rw [← sameWord, List.getElem?_eq_getElem stored]
    simp only [Option.map_eq_map, Option.map_some, ↓reduceIte]
    generalize (fillLen bitmap.words (num / 64 + 1))[num / 64] = word
    by_cases present : testWord word (num % 64) = true
    · simp only [present, ↓reduceIte]
      by_cases same : tested = num
      · subst same
        simp [present]
      · simp [same]
    · simp only [present, Bool.false_eq_true, ↓reduceIte]
      rw [testWord_or _ _ testedInside, testWord_mask bitInside testedInside]
      simp only [sameNum]
  · have different : tested ≠ num := by
      intro same
      exact sameWord (by rw [same])
    simp only [sameWord, ↓reduceIte, different, decide_false, Bool.or_false]
    cases (fillLen bitmap.words (num / 64 + 1))[tested / 64]? <;> rfl

theorem has_or (bitmap other : Bitmap) (num : Nat) : (bitmap.or other).has num = (bitmap.has num || other.has num) := by
  have bitInside : num % 64 < 64 := Nat.mod_lt _ (by decide)
  rw [← has_fillLen bitmap.words other.words.length num]
  simp only [has, or, List.getElem?_mapIdx]
  cases stored : (fillLen bitmap.words other.words.length)[num / 64]? with
  | none =>
    have short : other.words.length ≤ num / 64 := by
      rw [List.getElem?_eq_none_iff] at stored
      simp only [fillLen, List.length_append, List.length_replicate] at stored
      omega
    simp [List.getElem?_eq_none short]
  | some word =>
    cases otherStored : other.words[num / 64]? with
    | none => simp
    | some otherWord => simp [testWord_or _ _ bitInside]

theorem mem_pos1 (bitmap : Bitmap) (num : Nat) : num ∈ bitmap.pos1 ↔ bitmap.has num = true := by
  simp only [pos1, List.mem_flatMap, Prod.exists, List.mem_map, List.mem_filter, List.mem_range, List.mk_mem_zipIdx_iff_getElem?, has]
  constructor
  · intro listed
    obtain ⟨word, index, stored, bit, ⟨inside, present⟩, rfl⟩ := listed
    have quotient : (64 * index + bit) / 64 = index := by omega
    have remainder : (64 * index + bit) % 64 = bit := by omega
    simp [quotient, remainder, stored, present]
  · intro present
    split at present
    · cases present
    · next word stored =>
      exact ⟨word, num / 64, stored, num % 64, ⟨Nat.mod_lt _ (by decide), present⟩, by omega⟩

theorem pos1_increasing (bitmap : Bitmap) : bitmap.pos1.Pairwise (· < ·) := by
  have indices : bitmap.words.zipIdx.Pairwise fun earlier later => earlier.2 < later.2 := by
    rw [← List.pairwise_map, List.zipIdx_map_snd]
    exact List.pairwise_lt_range'
  rw [pos1, List.pairwise_flatMap]
  refine ⟨?_, indices.imp ?_⟩
  · intro entry _
    refine List.pairwise_map.mpr ((List.pairwise_lt_range.filter _).imp ?_)
    intro left right below
    omega
  · intro earlier later below left leftMember right rightMember
    simp only [List.mem_map, List.mem_filter, List.mem_range] at leftMember rightMember
    obtain ⟨bit, ⟨inside, _⟩, rfl⟩ := leftMember
    obtain ⟨otherBit, _, rfl⟩ := rightMember
    omega

end Bitmap

end Pdcc.Library
