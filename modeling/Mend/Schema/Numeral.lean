import Mend.Number.Integer
import Mend.Number.Numeral

/-!
# Numbers given as text

A text may stand for a number in a datum. An integer has ASCII digits, with single low lines between them,
after a sign or none; zeros in front of it and a fraction of zeros do not count. A number is a plain
numeral between spaces, or one with single low lines in it.
-/

namespace Mend.Schema.Numeral

/-! ### Integers -/

/-- Why a text denotes no integer. -/
inductive IntegerError
  | unreadable
  | tooLong
  deriving DecidableEq, Repr

/-- What follows a zero and more zeros and low lines, the last of which is given. It is given back before a
point and at the end. -/
def afterZeros? (last : CodePoint) : Text → Option Text
  | [] => some [last]
  | c :: t =>
    if c = '0' || c = '_' then afterZeros? c t
    else if c = '-' || ('1' ≤ c && c ≤ '9') then some (c :: t)
    else if c = '.' then some (last :: c :: t)
    else none

/-- A numeral without the zeros in front of it. They may be followed by a minus sign. -/
def dropZeros? : Text → Option Text
  | '0' :: t => afterZeros? '0' t
  | c :: t => if '1' ≤ c && c ≤ '9' then some (c :: t) else none
  | [] => none

/-- A numeral without a fraction that consists of zeros only. -/
def dropZeroFraction (t : Text) : Text :=
  match t.dropWhile (· != .char '.') with
  | '.' :: '0' :: zeros => if zeros.all (· = .char '0') then t.takeWhile (· != .char '.') else t
  | _ => t

/-- A numeral without its low lines, which must stand alone and not at an end. -/
def dropLowLines? (t : Text) : Option Text :=
  let groups := Text.splitOn '_' t
  if groups.length = 1 then some t
  else if groups.all fun g => !g.isEmpty then some groups.flatten
  else none

/-- What is left of a text when all that does not count is left out. -/
def bare? (t : Text) : Option Text :=
  let digits? : Option Text := match Text.trimSpaces t with
    | '-' :: t => (dropZeros? t).map (.char '-' :: ·)
    | '+' :: t => dropZeros? t
    | t => dropZeros? t
  digits?.bind fun t => dropLowLines? (dropZeroFraction t)

/-- The natural number of digits that begin with no zero. A sign counts for their length. -/
def natural (signs : Nat) (ds : Text) : Except IntegerError Nat :=
  if ds = [.char '0'] then .ok 0
  else if ds.isEmpty || ds.head? = some '0' then .error .unreadable
  else
    let run := ds.takeWhile Text.isAsciiDigit
    if Number.maxDigits < signs + run.length then .error .tooLong
    else if run.length < ds.length then .error .unreadable
    else .ok (Text.digitsValue ds)

/-- The integer that a text denotes. -/
def integer (t : Text) : Except IntegerError Int :=
  match bare? t with
  | none => .error .unreadable
  | some ('-' :: ds) => (natural 1 ds).map fun n => -(n : Int)
  | some ds => (natural 0 ds).map Int.ofNat

/-! ### Numbers -/

/-- The number that a text denotes. Spaces and low lines do not go together. -/
def number? (t : Text) : Option Float :=
  (Number.readPlainFloat (Text.trimSpaces t)).or
    (if t.elem (.char '_') then (dropLowLines? t).bind Number.readPlainFloat else none)

end Mend.Schema.Numeral
