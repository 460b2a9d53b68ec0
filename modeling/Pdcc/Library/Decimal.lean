import Mathlib.Data.Nat.Digits.Defs
import Mathlib.Tactic.NormNum

/-!
# Decimal numbers of 64 bits

Parsing and printing of decimal texts, with the error cases of the usual
fixed-width readers, and the round trips between them.
-/

set_option autoImplicit false

namespace Pdcc.Library

inductive ParseError where
  | invalidSyntax
  | outOfRange
deriving DecidableEq, Repr

def digitValue (char : UInt8) : Option Nat :=
  if 48 ≤ char.toNat ∧ char.toNat ≤ 57 then some (char.toNat - 48) else none

def parseDigits (value : Nat) : List UInt8 → Except ParseError Nat
  | [] => .ok value
  | char :: rest =>
    match digitValue char with
    | none => .error .invalidSyntax
    | some digit =>
      if 2 ^ 64 ≤ value * 10 + digit then .error .outOfRange
      else parseDigits (value * 10 + digit) rest

def parseUint : List UInt8 → Except ParseError Nat
  | [] => .error .invalidSyntax
  | char :: rest => parseDigits 0 (char :: rest)

def parseInt (text : List UInt8) : Except ParseError Int :=
  let negative := text.head? = some 45
  let magnitude := if text.head? = some 43 ∨ negative then text.tail else text
  match parseUint magnitude with
  | .error error => .error error
  | .ok value =>
    if negative then
      if 2 ^ 63 < value then .error .outOfRange else .ok (-(value : Int))
    else if 2 ^ 63 ≤ value then .error .outOfRange
    else .ok value

def formatUint (value : Nat) : List UInt8 :=
  (Nat.toDigits 10 value).map fun char => UInt8.ofNat char.toNat

def formatInt : Int → List UInt8
  | .ofNat value => formatUint value
  | .negSucc value => 45 :: formatUint (value + 1)

section Print

variable {digit value : Nat}

theorem digitValue_digitChar (small : digit < 10) : digitValue (UInt8.ofNat (Nat.digitChar digit).toNat) = some digit := by
  rw [Nat.toNat_digitChar_of_lt_ten small]
  have value : (UInt8.ofNat (48 + digit)).toNat = 48 + digit := by
    rw [UInt8.toNat_ofNat']
    omega
  rw [digitValue, value, if_pos ⟨by omega, by omega⟩]
  simp

theorem formatUint_step (positive : 0 < value) (small : digit < 10) : formatUint (10 * value + digit) =
      formatUint value ++ [UInt8.ofNat (Nat.digitChar digit).toNat] := by
  unfold formatUint
  rw [← Nat.toDigits_append_toDigits (by decide) positive small, List.map_append, Nat.toDigits_of_lt_base small]
  rfl

theorem formatUint_of_lt (small : digit < 10) : formatUint digit = [UInt8.ofNat (Nat.digitChar digit).toNat] := by
  rw [formatUint, Nat.toDigits_of_lt_base small]
  rfl

theorem parseDigits_append (value : Nat) (text later : List UInt8) : parseDigits value (text ++ later) =
      (parseDigits value text).bind fun value => parseDigits value later := by
  induction text generalizing value with
  | nil => rfl
  | cons char rest ih =>
    simp only [List.cons_append, parseDigits]
    cases digitValue char with
    | none => rfl
    | some digit =>
      simp only
      split
      · rfl
      · exact ih _

theorem formatUint_ne_nil (value : Nat) : formatUint value ≠ [] := by
  simp [formatUint]

theorem parseDigits_formatUint (small : value < 2 ^ 64) : parseDigits 0 (formatUint value) = .ok value := by
  induction value using Nat.strongRecOn with
  | _ value ih =>
    by_cases single : value < 10
    · rw [formatUint_of_lt single, parseDigits, digitValue_digitChar single]
      simp only [Nat.zero_mul, Nat.zero_add, parseDigits]
      rw [if_neg (by omega)]
    · have split : value = 10 * (value / 10) + value % 10 := (Nat.div_add_mod value 10).symm
      have before := ih (value / 10) (by omega) (by omega)
      rw [split, formatUint_step (by omega) (by omega), parseDigits_append, before]
      simp only [Except.bind, parseDigits, digitValue_digitChar (by omega : value % 10 < 10)]
      rw [if_neg (by omega), Nat.mul_comm]

theorem parseUint_formatUint (small : value < 2 ^ 64) : parseUint (formatUint value) = .ok value := by
  have parsed := parseDigits_formatUint small
  cases text : formatUint value with
  | nil => exact absurd text (formatUint_ne_nil value)
  | cons char rest => rwa [text] at parsed

theorem parseUint_formatInt {value : Int} (nonneg : 0 ≤ value) (small : value < 2 ^ 64) : parseUint (formatInt value) = .ok value.toNat := by
  obtain ⟨value, rfl⟩ := Int.eq_ofNat_of_zero_le nonneg
  exact parseUint_formatUint (by exact_mod_cast small)

theorem parseUint_formatInt_of_neg {value : Int} (negative : value < 0) : parseUint (formatInt value) = .error .invalidSyntax := by
  obtain ⟨value, rfl⟩ := Int.eq_negSucc_of_lt_zero negative
  rfl

end Print

section Read

variable {text : List UInt8}

theorem parseInt_of_parseUint {value : Nat} (parsed : parseUint text = .ok value) :
    parseInt text = if 2 ^ 63 ≤ value then .error .outOfRange else .ok (value : Int) := by
  have unsigned : text.head? ≠ some 43 ∧ text.head? ≠ some 45 := by
    cases text with
    | nil => simp
    | cons char rest =>
      rw [parseUint, parseDigits] at parsed
      constructor
      · intro sign
        cases sign
        simp [digitValue] at parsed
      · intro sign
        cases sign
        simp [digitValue] at parsed
  unfold parseInt
  simp only [unsigned.1, unsigned.2, or_self, if_false, parsed]

variable {value : Int}

theorem parseInt_lt (parsed : parseInt text = .ok value) : value < 2 ^ 63 := by
  simp only [parseInt] at parsed
  split at parsed
  · cases parsed
  · split at parsed
    · split at parsed
      · cases parsed
      · cases parsed
        omega
    · split at parsed
      · cases parsed
      · next small =>
        cases parsed
        omega

theorem parseInt_ge (parsed : parseInt text = .ok value) : -2 ^ 63 ≤ value := by
  simp only [parseInt] at parsed
  split at parsed
  · cases parsed
  · split at parsed
    · split at parsed
      · cases parsed
      · next small =>
        cases parsed
        omega
    · split at parsed
      · cases parsed
      · cases parsed
        omega

theorem parseInt_formatInt (large : -2 ^ 63 ≤ value) (small : value < 2 ^ 63) : parseInt (formatInt value) = .ok value := by
  cases value with
  | ofNat value =>
    have bounded : value < 2 ^ 63 := Int.ofNat_lt.mp small
    rw [formatInt, parseInt_of_parseUint (parseUint_formatUint (by omega)), if_neg (by omega)]
    rfl
  | negSucc value =>
    have magnitude := parseUint_formatUint (show value + 1 < 2 ^ 64 by omega)
    simp only [parseInt, formatInt, List.head?_cons, List.tail_cons, or_true, if_true, magnitude]
    rw [if_neg (by omega)]
    rfl

theorem digits_of_parseDigits {value result : Nat} (parsed : parseDigits value text = .ok result) :
    ∀ char ∈ text, digitValue char ≠ none := by
  induction text generalizing value with
  | nil => exact fun _ inside => absurd inside List.not_mem_nil
  | cons first rest ih =>
    rw [parseDigits] at parsed
    split at parsed
    · cases parsed
    · next digit value =>
      split at parsed
      · cases parsed
      · intro char inside
        rcases List.mem_cons.mp inside with rfl | later
        · simp [value]
        · exact ih parsed char later

theorem notMem_of_parseInt (parsed : parseInt text = .ok value) {char : UInt8} (plus : char ≠ 43)
    (minus : char ≠ 45) (other : digitValue char = none) :
    char ∉ text := by
  have digits {magnitude : List UInt8} {result : Nat} (read : parseUint magnitude = .ok result) : char ∉ magnitude := by
    cases magnitude with
    | nil => exact List.not_mem_nil
    | cons first rest => exact fun inside => digits_of_parseDigits read char inside other
  cases text with
  | nil => exact List.not_mem_nil
  | cons first rest =>
    simp only [parseInt, List.head?_cons, Option.some.injEq, List.tail_cons] at parsed
    split at parsed
    · cases parsed
    · next read =>
      by_cases sign : first = 43 ∨ first = 45
      · rw [if_pos sign] at read
        intro inside
        rcases List.mem_cons.mp inside with rfl | later
        · exact sign.elim plus minus
        · exact digits read later
      · rw [if_neg sign] at read
        exact digits read

end Read

end Pdcc.Library
