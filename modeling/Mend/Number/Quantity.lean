import Mend.Number.Binary64

/-!
# Quantities

Amounts, times and rates are whole numbers without bound or floating-point numbers. Whole numbers
stay exact among themselves; with a floating-point number the result is one too, and a whole number
beyond the greatest finite one cannot take part. Comparisons are exact.

Rules on quantities that use no more than these operations are stated for any `Arithmetic`, so
that they can be read over other numbers as well.
-/

namespace Mend.Number

/-- A whole number is too large to become a floating-point number. -/
inductive Overflow
  | tooLarge
  | quotientTooLarge
  deriving DecidableEq, Repr

/-- The text of the error. -/
def Overflow.message : Overflow → Text
  | .tooLarge => "int too large to convert to float"
  | .quotientTooLarge => "integer division result too large for a float"

/-- The operations on amounts and times. -/
class Arithmetic (α : Type) where
  zero : α
  one : α
  add : α → α → Except Overflow α
  sub : α → α → Except Overflow α
  mul : α → α → Except Overflow α
  div : α → α → Except Overflow α
  less : α → α → Bool

namespace Arithmetic

variable {α : Type} [Arithmetic α]

/-- The lesser of two amounts, the first of two equal ones. -/
def least (a b : α) : α := if less b a then b else a

/-- The greater of two amounts, the first of two equal ones. -/
def greatest (a b : α) : α := if less a b then b else a

end Arithmetic

/-- A whole number or a floating-point number. -/
inductive Quantity
  | whole (n : Int)
  | real (x : Float)

instance : Inhabited Quantity := ⟨.whole 0⟩

namespace Quantity

/-- The quantity as a floating-point number. -/
def toReal : Quantity → Except Overflow Float
  | .whole n =>
    match ofInt? n with
    | some x => .ok x
    | none => .error .tooLarge
  | .real x => .ok x

/-- An operation on whole numbers or, where one is none, on floating-point numbers. -/
def combine (onWhole : Int → Int → Int) (onReal : Float → Float → Float) (a b : Quantity) :
    Except Overflow Quantity :=
  match a, b with
  | .whole m, .whole n => .ok (.whole (onWhole m n))
  | a, b => do
    let x ← a.toReal
    let y ← b.toReal
    return .real (onReal x y)

/-- The quotient, always a floating-point number. Of whole numbers it is the nearest one. -/
def div (a b : Quantity) : Except Overflow Quantity :=
  match a, b with
  | .whole m, .whole n =>
    let x := nearest ((m < 0) != (n < 0)) m.natAbs n.natAbs
    if x.isInf then .error .quotientTooLarge else .ok (.real x)
  | a, b => do
    let x ← a.toReal
    let y ← b.toReal
    return .real (x / y)

/-- How a whole number compares with a floating-point number that is one. -/
def compareWhole (n : Int) (x : Float) : Option Ordering :=
  match classify x with
  | .nan => none
  | .infinite negative => some (if negative then .gt else .lt)
  | .zero _ => some (compare n 0)
  | .finite negative d =>
    let (num, den) := Dyadic.fraction d.mantissa d.exponent
    let num : Int := if negative then -(num : Int) else num
    some (compare (n * den) num)

/-- Whether the first quantity is less than the second. -/
def less : Quantity → Quantity → Bool
  | .whole m, .whole n => m < n
  | .real x, .real y => x < y
  | .whole m, .real y => compareWhole m y == some .lt
  | .real x, .whole n => compareWhole n x == some .gt

/-- Whether the first quantity is at most the second. -/
def atMost : Quantity → Quantity → Bool
  | .whole m, .whole n => m ≤ n
  | .real x, .real y => x ≤ y
  | .whole m, .real y => compareWhole m y == some .lt || compareWhole m y == some .eq
  | .real x, .whole n => compareWhole n x == some .gt || compareWhole n x == some .eq

/-- The text of a quantity. -/
def text : Quantity → Text
  | .whole n => Text.ofInt n
  | .real x => floatText x

instance : Arithmetic Quantity where
  zero := .whole 0
  one := .real 1.0
  add := combine (· + ·) (· + ·)
  sub := combine (· - ·) (· - ·)
  mul := combine (· * ·) (· * ·)
  div := div
  less := less

end Quantity

end Mend.Number
