import Mathlib.Data.Nat.Digits.Defs

/-!
Owns numerals: lists of digits, the most significant one first. `value` is what
a list of digits is worth, `numeral` the decimal digits of a number. The one-step
rules are Horner's: a digit more at the end multiplies by the base and adds, also
modulo the size of a machine word.
-/

namespace TuyaAdapter.Foundation.Numeral

/-- What the digits are worth. -/
def value (base : Nat) (digits : List Nat) : Nat := Nat.ofDigits base digits.reverse

/-- The decimal digits of a number; zero has one. -/
def numeral (number : Nat) : List Nat :=
  if number = 0 then [0] else (Nat.digits 10 number).reverse

theorem value_concat (base : Nat) (digits : List Nat) (digit : Nat) :
    value base (digits ++ [digit]) = value base digits * base + digit := by
  unfold value
  rw [List.reverse_concat, Nat.ofDigits_cons]
  ring

/-- The step in a machine word. -/
theorem value_concat_mod (size base : Nat) (digits : List Nat) (digit : Nat) :
    (value base digits % size * base + digit) % size =
      value base (digits ++ [digit]) % size := by
  rw [value_concat, Nat.add_mod, Nat.mul_mod, Nat.mod_mod, ← Nat.mul_mod, ← Nat.add_mod]

/-! ## The decimal digits of a number -/

theorem numeral_of_ne_zero {number : Nat} (nonzero : number ≠ 0) :
    numeral number = (Nat.digits 10 number).reverse := if_neg nonzero

theorem value_numeral (number : Nat) : value 10 (numeral number) = number := by
  unfold numeral value
  split
  · rename_i isZero
    rw [isZero]
    rfl
  · rw [List.reverse_reverse, Nat.ofDigits_digits]

theorem numeral_of_lt {number : Nat} (single : number < 10) : numeral number = [number] := by
  unfold numeral
  split
  · rename_i isZero
    rw [isZero]
  · rename_i nonzero
    rw [Nat.digits_of_lt 10 number nonzero single, List.reverse_singleton]

theorem numeral_of_le {number : Nat} (more : 10 ≤ number) :
    numeral number = numeral (number / 10) ++ [number % 10] := by
  have quotient : number / 10 ≠ 0 := by omega
  rw [numeral_of_ne_zero (by omega), numeral_of_ne_zero quotient,
    Nat.digits_def' (by decide) (by omega), List.reverse_cons]

theorem numeral_length_pos (number : Nat) : 0 < (numeral number).length := by
  by_cases single : number < 10
  · rw [numeral_of_lt single]
    exact Nat.one_pos
  · rw [numeral_of_le (Nat.le_of_not_lt single), List.length_append]
    exact Nat.succ_pos _

theorem numeral_length_le {number width : Nat} (fits : number < 10 ^ (width + 1)) :
    (numeral number).length ≤ width + 1 := by
  induction width generalizing number with
  | zero =>
      rw [numeral_of_lt (by simpa using fits)]
      exact Nat.le_refl 1
  | succ width inductionHypothesis =>
      by_cases single : number < 10
      · rw [numeral_of_lt single]
        exact Nat.le_add_left _ _
      · have quotientFits : number / 10 < 10 ^ (width + 1) := by
          rw [Nat.pow_succ] at fits
          omega
        rw [numeral_of_le (Nat.le_of_not_lt single), List.length_append, List.length_singleton]
        exact Nat.succ_le_succ (inductionHypothesis quotientFits)

end TuyaAdapter.Foundation.Numeral
