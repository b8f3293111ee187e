import Mathlib.Algebra.Order.Group.Nat
import Mathlib.Tactic.Ring

/-!
Owns unsigned machine arithmetic on natural numbers: addition and subtraction
modulo `2 ^ width`, and the two conditions under which they are the ordinary
operations. A value of a `width`-bit unsigned type is a natural number below
`2 ^ width`; nothing here depends on what the words stand for.
-/

namespace TuyaAdapter.Foundation.MachineWord

/-- Addition of two `width`-bit unsigned words. -/
def add (width left right : Nat) : Nat :=
  (left + right) % 2 ^ width

/-- Subtraction of two `width`-bit unsigned words: the result wraps when the
subtrahend is larger. -/
def sub (width left right : Nat) : Nat :=
  (left + (2 ^ width - right % 2 ^ width)) % 2 ^ width

/-- Addition is exact when the sum fits. -/
theorem add_of_lt {width left right : Nat} (fits : left + right < 2 ^ width) :
    add width left right = left + right :=
  Nat.mod_eq_of_lt fits

/-- Subtraction is exact when it does not borrow. -/
theorem sub_of_le {width left right : Nat} (fits : left < 2 ^ width)
    (noBorrow : right ≤ left) : sub width left right = left - right := by
  have rightFits : right % 2 ^ width = right :=
    Nat.mod_eq_of_lt (lt_of_le_of_lt noBorrow fits)
  unfold sub
  rw [rightFits]
  have shifted : left + (2 ^ width - right) = (left - right) + 2 ^ width := by omega
  rw [shifted, Nat.add_mod_right]
  exact Nat.mod_eq_of_lt (by omega)

end TuyaAdapter.Foundation.MachineWord
