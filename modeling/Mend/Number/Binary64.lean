import Mend.Number.Power
import Mend.Text

/-!
# Binary floating-point numbers as text

A finite number is m · 2^q for naturals m and integers q. Its text has the fewest decimal digits
that read back as the same number and, of the texts with that many digits, the nearest one. The
digits are found by exact arithmetic on natural numbers: all decimals between the two midpoints
to the neighbouring numbers read back, and so do the midpoints themselves if m is even.

Numbers from 10^-4 up to 10^16 are written positionally, with at least one place after the
point; others get an exponent of at least two digits.
-/

namespace Mend.Number

/-- A finite number without its sign: `mantissa · 2^exponent`. The `isPowerStart` of a number that
begins a new power of two tells that its lower neighbour is only half as far away as its upper. -/
structure Dyadic where
  mantissa : Nat
  exponent : Int
  isPowerStart : Bool
  deriving DecidableEq, Repr

/-- Decimal digits and the power of ten of the first one. -/
structure Decimal where
  digits : Text
  exponent : Int
  deriving DecidableEq, Repr

/-- The kinds of floating-point numbers. -/
inductive FloatClass
  | nan
  | infinite (negative : Bool)
  | zero (negative : Bool)
  | finite (negative : Bool) (d : Dyadic)
  deriving DecidableEq, Repr

/-- Takes the 64 bits of a number apart: a sign bit, eleven of exponent, fifty-two of fraction. -/
def FloatClass.ofBits (bits : Nat) : FloatClass :=
  let negative := bits / twoTo 63 % 2 == 1
  let e : Nat := bits / twoTo 52 % twoTo 11
  let f : Nat := bits % twoTo 52
  if e = 0x7FF then if f = 0 then .infinite negative else .nan
  else if e = 0 then
    if f = 0 then .zero negative else .finite negative ⟨f, -1074, false⟩
  else .finite negative ⟨twoTo 52 + f, (e : Int) - 1075, f == 0 && e != 1⟩

/-- The kind of a floating-point number. -/
def classify (x : Float) : FloatClass := .ofBits x.toBits.toNat

namespace Dyadic

/-- A fraction with this value: numerator and denominator. -/
def fraction (m : Nat) (q : Int) : Nat × Nat :=
  if 0 ≤ q then (m * twoTo q.toNat, 1) else (m, twoTo (-q).toNat)

/-- Whether 10^e is at most `num / den`. -/
def tenPowLe (e : Int) (num den : Nat) : Bool :=
  if 0 ≤ e then tenTo e.toNat * den ≤ num else den ≤ num * tenTo (-e).toNat

/-- The greatest e with 10^e at most `num / den`, searched upward from an estimate. -/
def raiseTenPow (num den : Nat) : Nat → Int → Int
  | 0, e => e
  | k + 1, e => if tenPowLe (e + 1) num den then raiseTenPow num den k (e + 1) else e

/-- The power of ten of the first decimal digit. -/
def tenExponent (d : Dyadic) : Int :=
  let (num, den) := fraction d.mantissa d.exponent
  let twos : Int := (d.mantissa.log2 : Int) + d.exponent
  raiseTenPow num den 4 ((twos * 30103).fdiv 100000 - 1)

/-- The multiple of 10^k next to the number that reads back as it, if one of its two neighbours on
that grid does; of two such neighbours the nearer one, and the even one of two equally near. -/
def onGrid? (d : Dyadic) (k : Int) : Option Nat :=
  let (unit, den) := fraction 1 (d.exponent - 2)
  let unit := if k < 0 then unit * tenTo (-k).toNat else unit
  let den := if k < 0 then den else den * tenTo k.toNat
  let value := 4 * d.mantissa * unit
  let low := (4 * d.mantissa - (if d.isPowerStart then 1 else 2)) * unit
  let high := (4 * d.mantissa + 2) * unit
  let readsBack (n : Nat) : Bool :=
    if d.mantissa % 2 = 0 then low ≤ n * den && n * den ≤ high
    else low < n * den && n * den < high
  let below := value / den
  let above := below + 1
  if readsBack below then
    if readsBack above then
      let toBelow := value - below * den
      let toAbove := above * den - value
      if toBelow < toAbove then some below
      else if toAbove < toBelow then some above
      else some (if below % 2 = 0 then below else above)
    else some below
  else if readsBack above then some above
  else none

/-- The digits of the first grid, from one digit upward, on which a neighbour reads back. -/
def shortestFrom (d : Dyadic) (e : Int) : Nat → Nat → Decimal
  | 0, n => ⟨Text.ofNat (d.mantissa), n⟩
  | k + 1, n =>
    match onGrid? d (e - n) with
    | some v =>
      let ds := Text.ofNat v
      ⟨Text.dropEndWhile (· == .char '0') ds, e - n + (ds.length - 1 : Nat)⟩
    | none => shortestFrom d e k (n + 1)

/-- The shortest decimal that reads back as the number. Seventeen digits always suffice. -/
def shortest (d : Dyadic) : Decimal := shortestFrom d d.tenExponent 17 0

end Dyadic

/-- The layout of a decimal: positional from 10^-4 up to 10^16, else with an exponent. -/
def Decimal.render (d : Decimal) : Text :=
  let n := d.digits.length
  if -4 ≤ d.exponent && d.exponent < 16 then
    if d.exponent < 0 then
      "0." ++ (List.replicate ((-d.exponent).toNat - 1) '0' : Text) ++ d.digits
    else
      let whole := d.exponent.toNat + 1
      if n ≤ whole then d.digits ++ (List.replicate (whole - n) '0' : Text) ++ ".0"
      else d.digits.take whole ++ "." ++ d.digits.drop whole
  else
    let fraction : Text := if n ≤ 1 then [] else '.' :: d.digits.drop 1
    let size := Text.ofNat d.exponent.natAbs
    d.digits.take 1 ++ fraction ++ "e" ++ (if d.exponent < 0 then "-" else "+") ++
      (List.replicate (2 - size.length) '0' : Text) ++ size

/-- The text of each kind of number. -/
def FloatClass.text : FloatClass → Text
  | .nan => "nan"
  | .infinite negative => if negative then "-inf" else "inf"
  | .zero negative => if negative then "-0.0" else "0.0"
  | .finite negative d => (if negative then "-" else "") ++ d.shortest.render

/-- The text of a floating-point number. -/
def floatText (x : Float) : Text := (classify x).text

/-! ### Reading and rounding -/

/-- A quotient of natural numbers rounded to the nearest one, to the even one of two equally near. -/
def roundDiv (num den : Nat) : Nat :=
  let q := num / den
  let r := num % den
  if 2 * r < den then q else if den < 2 * r then q + 1 else q + q % 2

/-- The exponent of the power of two at or below `num / den`. -/
def twoExponent (num den : Nat) : Int :=
  let e : Int := (num.log2 : Int) - den.log2
  let reached : Bool := if 0 ≤ e then den * twoTo e.toNat ≤ num else den ≤ num * twoTo (-e).toNat
  if reached then e else e - 1

/-- The bits of infinity. -/
def infinityBits : Nat := 0x7FF * twoTo 52

/-- The bits of the number nearest to `num / den`; infinity beyond the greatest finite number. -/
def nearestBits (num den : Nat) : Nat :=
  if num = 0 then 0
  else
    let q : Int := max (twoExponent num den - 52) (-1074)
    let m := if 0 ≤ q then roundDiv num (den * twoTo q.toNat) else roundDiv (num * twoTo (-q).toNat) den
    min ((q + 1074).toNat * twoTo 52 + m) infinityBits

/-- The number nearest to ± `num / den`. -/
def nearest (negative : Bool) (num den : Nat) : Float :=
  let x := Float.ofBits (nearestBits num den).toUInt64
  if negative then -x else x

/-- The number nearest to ± n · 10^e. Beyond four hundred places all numbers are infinite or zero. -/
def ofScientific (negative : Bool) (n : Nat) (e : Int) : Float :=
  let size : Int := (Text.ofNat n).length
  if n = 0 || e + size < -400 then nearest negative 0 1
  else if 400 < e + size then nearest negative (tenTo 400) 1
  else if 0 ≤ e then nearest negative (n * tenTo e.toNat) 1
  else nearest negative n (tenTo (-e).toNat)

/-- The number nearest to an integer; none if it lies beyond the greatest finite number. -/
def ofInt? (n : Int) : Option Float :=
  let x := nearest (n < 0) n.natAbs 1
  if x.isInf then none else some x

/-- The integer part of a finite number, towards zero. -/
def truncate? (x : Float) : Option Int :=
  match classify x with
  | .nan | .infinite _ => none
  | .zero _ => some 0
  | .finite negative d =>
    let (num, den) := Dyadic.fraction d.mantissa d.exponent
    let n : Int := (num / den : Nat)
    some (if negative then -n else n)

/-- The least integer that is not below a finite number. -/
def ceil? (x : Float) : Option Int :=
  match classify x with
  | .nan | .infinite _ => none
  | .zero _ => some 0
  | .finite negative d =>
    let (num, den) := Dyadic.fraction d.mantissa d.exponent
    some (if negative then -((num / den : Nat) : Int) else ((num + den - 1) / den : Nat))

/-- Whether a number is finite and has no fraction. -/
def isIntegral (x : Float) : Bool :=
  match classify x with
  | .nan | .infinite _ => false
  | .zero _ => true
  | .finite _ d =>
    let (num, den) := Dyadic.fraction d.mantissa d.exponent
    num % den == 0

end Mend.Number
