import Mathlib.Data.Rat.Defs
import Mend.Number.Quantity

/-!
# Rational numbers

The operations on amounts and times, read over the rational numbers, where each of them is exact.
-/

namespace Mend.Number

/-- On rational numbers every operation is exact. -/
instance : Arithmetic ℚ where
  zero := 0
  one := 1
  add a b := .ok (a + b)
  sub a b := .ok (a - b)
  mul a b := .ok (a * b)
  div a b := .ok (a / b)
  less a b := decide (a < b)

theorem rational_zero : (Arithmetic.zero : ℚ) = 0 := rfl

theorem rational_add (a b : ℚ) : Arithmetic.add a b = .ok (a + b) := rfl

theorem rational_sub (a b : ℚ) : Arithmetic.sub a b = .ok (a - b) := rfl

theorem rational_div (a b : ℚ) : Arithmetic.div a b = .ok (a / b) := rfl

end Mend.Number
