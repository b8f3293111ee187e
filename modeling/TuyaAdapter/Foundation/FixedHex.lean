import Mathlib.Algebra.Order.Group.Nat
import TuyaAdapter.Foundation.Decimal

/-!
Owns hexadecimal numbers of a fixed width: what `%0<width>x` writes for a number
that has no more digits than that.
-/

namespace TuyaAdapter.Foundation.FixedHex

open Foundation.Decimal

/-- A digit that `%x` writes. -/
def isLowerHex (char : Char) : Bool :=
  char.isDigit || (decide ('a' ≤ char) && decide (char ≤ 'f'))

/-- The last digits of a number, as many as the width. -/
def hexDigits : Nat → Nat → Text
  | 0, _ => []
  | width + 1, value => hexDigits width (value / 16) ++ [Nat.digitChar (value % 16)]

/-! ## Digits -/

theorem digitChar_isLowerHex {digit : Nat} (small : digit < 16) :
    isLowerHex (Nat.digitChar digit) = true := by
  have all : ∀ digit ∈ List.range 16, isLowerHex (Nat.digitChar digit) = true := by decide
  exact all digit (List.mem_range.mpr small)

theorem digitChar_injective {left right : Nat} (leftSmall : left < 16) (rightSmall : right < 16)
    (same : Nat.digitChar left = Nat.digitChar right) : left = right := by
  have all : ∀ left ∈ List.range 16, ∀ right ∈ List.range 16,
      Nat.digitChar left = Nat.digitChar right → left = right := by decide
  exact all left (List.mem_range.mpr leftSmall) right (List.mem_range.mpr rightSmall) same

/-! ## Numbers -/

@[simp]
theorem hexDigits_length (width value : Nat) : (hexDigits width value).length = width := by
  induction width generalizing value with
  | zero => rfl
  | succ width inductionHypothesis =>
      rw [hexDigits, List.length_append, inductionHypothesis, List.length_singleton]

theorem hexDigits_isLowerHex {width value : Nat} {char : Char}
    (member : char ∈ hexDigits width value) : isLowerHex char = true := by
  induction width generalizing value with
  | zero => cases member
  | succ width inductionHypothesis =>
      rw [hexDigits, List.mem_append, List.mem_singleton] at member
      rcases member with earlier | isLast
      · exact inductionHypothesis earlier
      · rw [isLast]
        exact digitChar_isLowerHex (Nat.mod_lt _ (by decide))

theorem hexDigits_zero (width : Nat) : hexDigits width 0 = List.replicate width '0' := by
  induction width with
  | zero => rfl
  | succ width inductionHypothesis =>
      rw [hexDigits, Nat.zero_div, inductionHypothesis, List.replicate_succ']
      rfl

theorem hexDigits_append (left right value : Nat) :
    hexDigits (left + right) value = hexDigits left (value / 16 ^ right) ++ hexDigits right value := by
  induction right generalizing value with
  | zero => rw [Nat.add_zero, Nat.pow_zero, Nat.div_one, hexDigits, List.append_nil]
  | succ right inductionHypothesis =>
      rw [← Nat.add_assoc, hexDigits, inductionHypothesis, Nat.div_div_eq_div_mul, ← Nat.pow_succ',
        hexDigits, List.append_assoc]

theorem hexDigits_mod (width value : Nat) :
    hexDigits width (value % 16 ^ width) = hexDigits width value := by
  induction width generalizing value with
  | zero => rfl
  | succ width inductionHypothesis =>
      have quotient : value % 16 ^ (width + 1) / 16 = value / 16 % 16 ^ width := by
        rw [Nat.pow_succ', Nat.mod_mul_right_div_self]
      have remainder : value % 16 ^ (width + 1) % 16 = value % 16 :=
        Nat.mod_mod_of_dvd value ⟨16 ^ width, Nat.pow_succ'⟩
      rw [hexDigits, quotient, remainder, inductionHypothesis]
      rfl

theorem hexDigits_injective {width left right : Nat} (leftFits : left < 16 ^ width)
    (rightFits : right < 16 ^ width) (same : hexDigits width left = hexDigits width right) :
    left = right := by
  induction width generalizing left right with
  | zero => omega
  | succ width inductionHypothesis =>
      rw [Nat.pow_succ] at leftFits rightFits
      rw [hexDigits, hexDigits] at same
      obtain ⟨sameHigh, sameLow⟩ := List.append_inj' same rfl
      have high := inductionHypothesis (Nat.div_lt_of_lt_mul (by omega))
        (Nat.div_lt_of_lt_mul (by omega)) sameHigh
      have low := digitChar_injective (Nat.mod_lt _ (by decide)) (Nat.mod_lt _ (by decide))
        (List.singleton_inj.mp sameLow)
      omega

/-- `%0<width>x` writes the digits of a number that has no more. -/
theorem leftpad_toDigits {width value : Nat} (positive : 0 < width) (fits : value < 16 ^ width) :
    (Nat.toDigits 16 value).leftpad width '0' = hexDigits width value := by
  induction width generalizing value with
  | zero => exact absurd positive (Nat.lt_irrefl 0)
  | succ width inductionHypothesis =>
      rw [hexDigits]
      by_cases single : value < 16
      · rw [Nat.toDigits_of_lt_base single, Nat.div_eq_of_lt single, hexDigits_zero,
          Nat.mod_eq_of_lt single]
        rfl
      · have wider : 0 < width := by
          apply Nat.pos_of_ne_zero
          intro isZero
          rw [isZero] at fits
          exact single fits
        have quotientFits : value / 16 < 16 ^ width := by
          rw [Nat.pow_succ] at fits
          exact Nat.div_lt_of_lt_mul (by omega)
        have high := inductionHypothesis wider quotientFits
        rw [Nat.toDigits_of_base_le (by decide) (Nat.le_of_not_lt single), ← high]
        unfold List.leftpad
        rw [List.length_append, List.length_singleton, Nat.add_sub_add_right, List.append_assoc]

end TuyaAdapter.Foundation.FixedHex
