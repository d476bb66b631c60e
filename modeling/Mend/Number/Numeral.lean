import Mend.Number.Binary64
import Mend.Text.Blank
import Mend.Text.Digit

/-!
# Floating-point numerals

A plain numeral has a sign or none and then a name for infinity or for no number, or digits with at
most one point and at most one exponent. The lenient form also takes white space around it, the
digits of any script, and single low lines between digits.
-/

namespace Mend.Number

/-- The names of infinity and of no number, in small letters. -/
def floatNames : List (Text × Float) :=
  [("inf", 1.0 / 0.0), ("infinity", 1.0 / 0.0), ("nan", 0.0 / 0.0)]

/-- The sign in front of a numeral, if any, and what follows it. -/
def splitSign : Text → Bool × Text
  | '-' :: t => (true, t)
  | '+' :: t => (false, t)
  | t => (false, t)

/-- The exponent that a text consists of; none of an empty text is zero. -/
def wholeExponent? : Text → Option Int
  | [] => some 0
  | e :: t =>
    if e = 'e' || e = 'E' then
      let (negative, ds) := splitSign t
      if ds.isEmpty || !ds.all Text.isAsciiDigit then none
      else
        let n : Int := Text.digitsValue ds
        some (if negative then -n else n)
    else none

/-- A plain numeral. -/
def readPlainFloat (t : Text) : Option Float :=
  let (negative, t) := splitSign t
  match floatNames.lookup (Text.lowerAscii t) with
  | some x => some (if negative then -x else x)
  | none =>
    let whole := t.takeWhile Text.isAsciiDigit
    let rest := t.dropWhile Text.isAsciiDigit
    let (fraction, rest) : Text × Text :=
      match rest with
      | '.' :: r => (r.takeWhile Text.isAsciiDigit, r.dropWhile Text.isAsciiDigit)
      | r => ([], r)
    if whole.isEmpty && fraction.isEmpty then none
    else
      match wholeExponent? rest with
      | none => none
      | some e =>
        some (ofScientific negative (Text.digitsValue (whole ++ fraction)) (e - fraction.length))

/-- A text with the digits of any script written as ASCII digits. -/
def asciiDigits (t : Text) : Text :=
  t.map fun c => match Text.digitValue? c with
    | some n => CodePoint.ofNat (0x30 + n)
    | none => c

/-- A text without the low lines in it, each of which must stand between two digits. -/
def dropInnerLowLines? : (afterDigit : Bool) → Text → Option Text
  | _, [] => some []
  | afterDigit, '_' :: t =>
    if afterDigit && (t.head?.any Text.isAsciiDigit) then dropInnerLowLines? false t else none
  | _, c :: t => (dropInnerLowLines? (Text.isAsciiDigit c) t).map (c :: ·)

/-- A numeral in lenient form. -/
def readLenientFloat (t : Text) : Option Float :=
  (dropInnerLowLines? false (asciiDigits (Text.trimSpaces t))).bind readPlainFloat

end Mend.Number
