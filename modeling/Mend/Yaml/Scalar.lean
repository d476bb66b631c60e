import Mend.Datum
import Mend.Number.Integer
import Mend.Number.Numeral
import Mend.Text.LetterCase
import Mend.Yaml.Tag
import Mend.Yaml.Time

/-!
# Values of scalars

The tag that a plain scalar gets from its text, and the value of a scalar with a tag.
-/

namespace Mend.Yaml

/-- The tag of a plain scalar without a line feed at its end. -/
def Tag.ofWord (t : Text) : Tag :=
  if isWordIn (truthWords.map (·.1)) t then .bool
  else if isNumber t then .float
  else if isInteger t then .int
  else if t = "<<" then .merge
  else if t.isEmpty || t = "~" || isWordIn ["null"] t then .null
  else if Time.isTime t then .timestamp
  else if t = "=" then .value
  else if [("!" : Text), "&", "*"].elem t then .sign
  else .text

/-- The tag of a plain scalar. A line feed at the end of a text does not matter, unless it is all there is. -/
def Tag.ofPlain (t : Text) : Tag := if t = [.char '\n'] then .text else .ofWord (Text.withoutLineEnd t)

namespace Scalar

/-- The integer of some digits in a base. -/
def ofDigits (base : Nat) (t : Text) : Except ScalarError Int :=
  match Number.readIn base t with
  | .ok (some n) => .ok n
  | .ok none => .error (.notInteger base t)
  | .error e => .error (.numeral e)

/-- The value of the parts of a number in base sixty, the last part first. -/
def sixties : List Int → Int
  | [] => 0
  | d :: ds => d + 60 * sixties ds

/-- The integer that a text without low lines and sign denotes. -/
def unsignedInteger (t : Text) : Except ScalarError Int :=
  match t with
  | [] => .error .empty
  | ['0'] => .ok 0
  | '0' :: 'b' :: ds => ofDigits 2 ds
  | '0' :: 'x' :: ds => ofDigits 16 ds
  | '0' :: ds => ofDigits 8 ('0' :: ds)
  | t =>
    if t.elem (.char ':') then ((Text.splitOn ':' t).mapM (ofDigits 10)).map fun ds => sixties ds.reverse
    else ofDigits 10 t

/-- The text without low lines, and whether it has a minus sign, which is left out like a plus sign. -/
def unsigned (t : Text) : Bool × Text :=
  let t := t.filter (· != .char '_')
  (t.head? = some '-', dropSign t)

/-- The integer that a text denotes. -/
def integer (t : Text) : Except ScalarError Int :=
  let (negative, ds) := unsigned t
  (unsignedInteger ds).map fun n => if negative then -n else n

/-- The floating-point number that a text denotes. -/
def ofDecimal (t : Text) : Except ScalarError Float :=
  match Number.readLenientFloat t with
  | some x => .ok x
  | none => .error (.notNumber t)

/-- The sum of the parts of a number in base sixty, the last part first. A power of sixty beyond all numbers
is an error, even for a part that is zero. -/
def sixtiesSum (power : Nat) (sum : Float) : List Float → Except ScalarError Float
  | [] => .ok sum
  | d :: ds =>
    match Number.ofInt? power with
    | some x => sixtiesSum (power * 60) (sum + d * x) ds
    | none => .error .tooManyParts

/-- The number that a text without low lines and sign denotes. -/
def unsignedNumber (t : Text) : Except ScalarError Float :=
  if t.isEmpty then .error .empty
  else if t = ".inf" then .ok (1.0 / 0.0)
  else if t = ".nan" then .ok (0.0 / 0.0)
  else if t.elem (.char ':') then
    ((Text.splitOn ':' t).mapM ofDecimal).bind fun ds => sixtiesSum 1 0.0 ds.reverse
  else ofDecimal t

/-- The number that a text denotes. -/
def number (t : Text) : Except ScalarError Float :=
  let (negative, ds) := unsigned (Text.lower t)
  (unsignedNumber ds).map fun x => if negative then -1.0 * x else x

/-- The truth value that a text denotes. -/
def truthValue (t : Text) : Except ScalarError Bool :=
  match truthWords.lookup (Text.lower t) with
  | some b => .ok b
  | none => .error (.notTruthValue (Text.lower t))

/-- The time that a text denotes, which is of a kind that no setting has. -/
def time (t : Text) : Except ScalarError Atom :=
  match Time.read? (Text.withoutLineEnd t) with
  | none => .error .notTime
  | some (time, _) =>
    match time.fault? with
    | some reason => .error (.outOfRange reason)
    | none => .ok (.other time.kind time.display time.instant?)

/-- The value of a scalar with a tag. -/
def value (tag : Tag) (t : Text) : Except ScalarError Atom :=
  match tag with
  | .null => .ok .null
  | .bool => (truthValue t).map .bool
  | .int => (integer t).map .int
  | .float => (number t).map .float
  | .timestamp => time t
  | .binary =>
    match Text.Base64.decode t with
    | .ok bytes => .ok (.bytes bytes)
    | .error e => .error (.binary e)
  | _ => .ok (.text t)

end Scalar

end Mend.Yaml
