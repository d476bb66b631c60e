import Mend.Text.Word
import Mend.Yaml.Error

/-!
# Tags

A tag says what kind of value a node is. A plain scalar has no tag of its own: its text decides whether it
is a truth value, a number, a time, a sign of YAML itself, or just a text.
-/

namespace Mend.Yaml

/-- The kind of value of a node. -/
inductive Tag
  | null
  | bool
  | int
  | float
  | binary
  | timestamp
  | text
  | list
  | mapping
  | orderedMapping
  | pairs
  | set
  | other (name : Text)
  deriving DecidableEq, Repr

namespace Tag

/-- What the names of the known tags begin with. -/
def namespaceText : Text := "tag:yaml.org,2002:"

/-- The known tags by their names. -/
def known : List (Text × Tag) :=
  [("null", null), ("bool", bool), ("int", int), ("float", float), ("binary", binary),
    ("timestamp", timestamp), ("str", text), ("seq", list), ("map", mapping),
    ("omap", orderedMapping), ("pairs", pairs), ("set", set)]

/-- The tag with a name. -/
def ofName (t : Text) : Tag :=
  ((Text.after? namespaceText t).bind fun name => known.lookup name).getD (.other t)

/-- The tag of the key that merges another mapping. -/
def merge : Tag := .other (namespaceText ++ "merge")

/-- The tag of the key for the value of a mapping. -/
def value : Tag := .other (namespaceText ++ "value")

/-- The tag of the signs that no plain scalar can begin with. -/
def sign : Tag := .other (namespaceText ++ "yaml")

/-- Whether nodes with the tag are made of others. -/
def isCollection : Tag → Bool
  | list => true
  | mapping => true
  | orderedMapping => true
  | pairs => true
  | set => true
  | _ => false

end Tag

/-! ### Truth values and signs -/

/-- The words for the truth values. -/
def truthWords : List (Text × Bool) :=
  [("yes", true), ("no", false), ("true", true), ("false", false), ("on", true), ("off", false)]

/-- Whether a text is a word in lower case, in upper case, or with a capital letter. -/
def isWordIn (words : List Text) (t : Text) : Bool :=
  words.any fun w =>
    t = w || t = w.map CodePoint.toUpper || t = (w.take 1).map CodePoint.toUpper ++ w.drop 1

/-! ### Numbers -/

/-- Whether a text is not empty and all its characters are of a class. -/
def isAll (p : CodePoint → Bool) (t : Text) : Bool := !t.isEmpty && t.all p

/-- Whether a character may stand in a number after its first digit. -/
def isDigitOrLine (c : CodePoint) : Bool := Text.isAsciiDigit c || c = '_'

/-- A digit with more digits or low lines. -/
def isDigits : Text → Bool
  | c :: t => Text.isAsciiDigit c && t.all isDigitOrLine
  | [] => false

/-- The text without its sign. -/
def dropSign : Text → Text
  | '+' :: t => t
  | '-' :: t => t
  | t => t

/-- A part of a number in base sixty after the first one: one or two digits below sixty. -/
def isSixtieth : Text → Bool
  | [a] => Text.isAsciiDigit a
  | [a, b] => '0' ≤ a && a ≤ '5' && Text.isAsciiDigit b
  | _ => false

/-- Whether the parts of a text between colons are those of a number in base sixty. -/
def isSixties (first : Text → Bool) (t : Text) : Bool :=
  match Text.splitOn ':' t with
  | part :: next :: parts => first part && (next :: parts).all isSixtieth
  | _ => false

/-- Digits that do not begin with a zero. -/
def isWholeDigits (t : Text) : Bool := isDigits t && t.head? != some '0'

/-- Whether a text without a sign denotes an integer: in base two, eight, ten, sixteen or sixty. -/
def isUnsignedInteger (t : Text) : Bool :=
  match t with
  | ['0'] => true
  | '0' :: 'b' :: ds => isAll (fun c => c = '0' || c = '1' || c = '_') ds
  | '0' :: 'x' :: ds => isAll (fun c => (('a' ≤ c.toLower && c.toLower ≤ 'f') || isDigitOrLine c)) ds
  | '0' :: ds => isAll (fun c => ('0' ≤ c && c ≤ '7') || c = '_') ds
  | t => isWholeDigits t || isSixties isWholeDigits t

/-- Whether a text denotes an integer. -/
def isInteger (t : Text) : Bool := isUnsignedInteger (dropSign t)

/-- A fraction with an exponent or none; an exponent has a sign. -/
def isFraction (t : Text) : Bool :=
  match t.dropWhile isDigitOrLine with
  | [] => true
  | e :: s :: ds => (e = 'e' || e = 'E') && (s = '+' || s = '-') && isAll Text.isAsciiDigit ds
  | _ => false

/-- Whether a text has a point between a whole part and a fraction of the given forms. -/
def isPointed (whole fraction : Text → Bool) (t : Text) : Bool :=
  let before := t.takeWhile (· != .char '.')
  match t.drop before.length with
  | '.' :: after => whole before && fraction after
  | _ => false

/-- Whether a text denotes a number with a point. -/
def isNumber (t : Text) : Bool :=
  let u := dropSign t
  isPointed isDigits isFraction u ||
    isPointed List.isEmpty (fun f => (f.head?.any Text.isAsciiDigit) && isFraction f) t ||
    isPointed (isSixties isDigits) (·.all isDigitOrLine) u ||
    [(".inf" : Text), ".Inf", ".INF"].elem u || [(".nan" : Text), ".NaN", ".NAN"].elem t

end Mend.Yaml
