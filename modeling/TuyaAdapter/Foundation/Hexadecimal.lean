import TuyaAdapter.Foundation.Decimal

/-!
Owns hexadecimal digits in C texts: which characters `%x` accepts and what they
are worth.
-/

namespace TuyaAdapter.Foundation.Hexadecimal

open Foundation.Decimal

def isHexDigit (char : Char) : Bool :=
  char.isDigit || (decide ('a' ≤ char) && decide (char ≤ 'f')) ||
    (decide ('A' ≤ char) && decide (char ≤ 'F'))

def hexValue (char : Char) : Nat :=
  if char.isDigit then char.toNat - '0'.toNat
  else if 'a' ≤ char then char.toNat - 'a'.toNat + 10
  else char.toNat - 'A'.toNat + 10

theorem hexValue_lt {char : Char} (isHex : isHexDigit char = true) : hexValue char < 16 := by
  simp only [isHexDigit, Bool.or_eq_true, Bool.and_eq_true, decide_eq_true_eq, Char.isDigit,
    Char.le_def, ge_iff_le, UInt32.le_iff_toNat_le] at isHex
  unfold hexValue
  simp only [Char.isDigit, Bool.and_eq_true, decide_eq_true_eq, Char.le_def, ge_iff_le,
    UInt32.le_iff_toNat_le, Char.toNat]
  simp only [UInt32.reduceToNat, Char.reduceVal] at isHex ⊢
  split
  · omega
  · split
    · omega
    · omega

end TuyaAdapter.Foundation.Hexadecimal
