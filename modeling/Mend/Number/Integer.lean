import Mend.Text.Blank
import Mend.Text.Digit

/-!
# Integer numerals

Numerals are read and printed up to a fixed length, so that no input can ask for an unbounded
conversion. A strict numeral is a run of decimal digits of any script. The lenient form, for
values given as text, also takes white space around it, a sign, single low lines between digits,
and, in bases two, eight and sixteen, a zero and a letter that announce the base.
-/

namespace Mend.Number

/-- The longest numeral that is read or printed. -/
def maxDigits : Nat := 4300

/-- A numeral beyond the longest one. -/
inductive NumeralError
  /-- A numeral of this many digits was to be read. -/
  | readingTooLong (digits : Nat)
  /-- A number with too many digits was to be printed. -/
  | printingTooLong
  deriving DecidableEq, Repr

/-- The text of the error. -/
def NumeralError.message : NumeralError → Text
  | .readingTooLong n =>
    "Exceeds the limit (4300 digits) for integer string conversion: value has " ++ Text.ofNat n ++
      " digits; use sys.set_int_max_str_digits() to increase the limit"
  | .printingTooLong =>
    "Exceeds the limit (4300 digits) for integer string conversion; " ++
      "use sys.set_int_max_str_digits() to increase the limit"

/-- The number of a run of decimal digits. -/
def ofDigits (t : Text) : Except NumeralError Nat :=
  if t.length ≤ maxDigits then .ok (Text.numeralValue t) else .error (.readingTooLong t.length)

/-- The numeral of an integer. -/
def print (n : Int) : Except NumeralError Text :=
  let t := Text.ofInt n
  if (Text.ofNat n.natAbs).length ≤ maxDigits then .ok t else .error .printingTooLong

theorem ofDigits_eq_ok {t : Text} {n : Nat} :
    ofDigits t = .ok n ↔ t.length ≤ maxDigits ∧ Text.numeralValue t = n := by
  unfold ofDigits
  split
  · next h => simp [h]
  · next h => simp [h]

/-- A run of digits with single low lines between digits, without the low lines. -/
def dropLowLines? (p : CodePoint → Bool) (t : Text) : Option Text :=
  let groups := Text.splitOn '_' t
  if groups.all fun g => !g.isEmpty && g.all p then some groups.flatten else none

/-- The sign in front of a numeral and what follows it. -/
def takeSign : Text → Bool × Text
  | '-' :: t => (true, t)
  | '+' :: t => (false, t)
  | t => (false, t)

/-! ### Lenient form -/

/-- The letter after a zero that announces a base. -/
def baseLetter? (base : Nat) : Option CodePoint :=
  if base = 2 then some 'b' else if base = 8 then some 'o' else if base = 16 then some 'x' else none

/-- The text after the announcement of a base, and after a low line that may follow it. -/
def dropBase (base : Nat) : Text → Text
  | z :: c :: t =>
    if Text.digitValue? z = some 0 && baseLetter? base = some c.toLower then
      if t.head? = some '_' then t.drop 1 else t
    else z :: c :: t
  | t => t

/-- The value of a decimal digit of any script, or of a letter that is a digit. -/
def digitOf? (base : Nat) (c : CodePoint) : Option Nat :=
  ((Text.digitValue? c).or (Text.hexValue? c)).filter (· < base)

/-- The number of some digits in a base. -/
def valueIn (base : Nat) (t : Text) : Nat :=
  t.foldl (fun n c => n * base + (digitOf? base c).getD 0) 0

/-- An integer in lenient form, in a base between two and sixteen. The length is limited only in bases
whose conversion is costly. -/
def readIn (base : Nat) (t : Text) : Except NumeralError (Option Int) :=
  let (negative, t) := takeSign (Text.trimSpaces t)
  let t := dropBase base t
  let run := t.takeWhile fun c => c = .char '_' || (digitOf? base c).isSome
  match dropLowLines? (fun _ => true) run with
  | none => .ok none
  | some ds =>
    if (baseLetter? base).isNone && maxDigits < ds.length then .error (.readingTooLong ds.length)
    else if run.length < t.length then .ok none
    else
      let n : Int := valueIn base ds
      .ok (some (if negative then -n else n))

/-- A decimal integer in lenient form. -/
def readLenient (t : Text) : Option Int := (readIn 10 t).toOption.join

end Mend.Number
