import Mathlib.Data.List.DropRight

/-!
# Windows in a shift register

A register keeps the last entries of a log of bits, the newest in position 0. A
counter that adds what comes in and subtracts what leaves holds the number of set
bits among the last entries.
-/

set_option autoImplicit false

namespace Pdcc.Library

def shiftIn {w : Nat} (register : BitVec w) (bit : Bool) : BitVec w :=
  register <<< 1 ||| if bit then 1#w else 0#w

def bitAgo (log : List Bool) (i : Nat) : Bool := log.reverse.getD i false

def recent (n : Nat) (log : List Bool) : Nat := (log.rtake n).count true

theorem bitAgo_concat_zero (log : List Bool) (bit : Bool) : bitAgo (log ++ [bit]) 0 = bit := by
  simp [bitAgo]

theorem bitAgo_concat_succ (log : List Bool) (bit : Bool) (i : Nat) : bitAgo (log ++ [bit]) (i + 1) = bitAgo log i := by
  simp [bitAgo]

section Recent

theorem recent_eq (n : Nat) (log : List Bool) : recent n log = (log.reverse.take n).count true := by
  rw [recent, List.rtake_eq_reverse_take_reverse, List.count_reverse]

theorem recent_succ (n : Nat) (log : List Bool) : recent (n + 1) log = recent n log + (bitAgo log n).toNat := by
  rw [recent_eq, recent_eq, List.take_add_one, List.count_append, bitAgo, List.getD_eq_getElem?_getD]
  cases log.reverse[n]? with
  | none => rfl
  | some bit => cases bit <;> rfl

theorem recent_concat (n : Nat) (log : List Bool) (bit : Bool) : recent (n + 1) (log ++ [bit]) = recent n log + bit.toNat := by
  rw [recent_eq, recent_eq, List.reverse_append, List.reverse_singleton, List.singleton_append, List.take_succ_cons, List.count_cons]
  cases bit <;> rfl

theorem recent_slide (n : Nat) (log : List Bool) (bit : Bool) : (recent (n + 1) (log ++ [bit]) : Int) =
      recent (n + 1) log + bit.toNat - (bitAgo log n).toNat := by
  rw [recent_concat, recent_succ]
  omega

end Recent

def Records {w : Nat} (register : BitVec w) (log : List Bool) : Prop :=
  ∀ i < w, register.getLsbD i = bitAgo log i

theorem records_zero (w : Nat) : Records 0#w [] := by
  intro i _
  simp [bitAgo]

section Records

variable {w : Nat} {register : BitVec w} {log : List Bool}

theorem Records.shiftIn (records : Records register log) (bit : Bool) : Records (shiftIn register bit) (log ++ [bit]) := by
  intro i inside
  have low : (if bit then 1#w else 0#w).getLsbD i = (bit && decide (i = 0)) := by
    cases bit with
    | true => simp [inside]
    | false => simp
  rw [Library.shiftIn, BitVec.getLsbD_or, low, BitVec.getLsbD_shiftLeft]
  cases i with
  | zero =>
    rw [bitAgo_concat_zero]
    simp
  | succ i =>
    rw [bitAgo_concat_succ, ← records i (Nat.lt_of_succ_lt inside)]
    simp [inside]

theorem Records.mask_eq_zero (records : Records register log) {n : Nat} (inside : n < w) :
    1#w <<< n &&& register = 0#w ↔ bitAgo log n = false := by
  rw [← records n inside]
  constructor
  · intro masked
    have bit := congrArg (·.getLsbD n) masked
    simpa [BitVec.getLsbD_one, inside, Nat.zero_lt_of_lt inside] using bit
  · intro unset
    refine BitVec.eq_of_getLsbD_eq ?_
    intro i below
    by_cases same : i = n
    · subst same
      rw [BitVec.getLsbD_and, unset, Bool.and_false, BitVec.getLsbD_zero]
    · have shifted : (1#w <<< n).getLsbD i = false := by
        simp [BitVec.getLsbD_one]
        omega
      rw [BitVec.getLsbD_and, shifted, Bool.false_and, BitVec.getLsbD_zero]

end Records

end Pdcc.Library
