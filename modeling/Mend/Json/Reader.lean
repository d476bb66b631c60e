import Mend.Assoc
import Mend.Json
import Mend.Number.Binary64
import Mend.Number.Integer

/-!
# Reading JSON

The reader takes RFC 8259 texts and also the three names `NaN`, `Infinity` and `-Infinity`. An
error names what was expected and where: the position counts characters from zero, lines and
columns from one. Values may be nested up to a fixed depth. Where a name is repeated in an object
the last value holds.

A reading function returns the value and the text that remains, or the trouble and the text that
remains where it was found. The recursion is on a number of steps that the length of the text
bounds.
-/

namespace Mend.Json

/-- What is wrong with a text. -/
inductive Trouble
  | value
  | propertyName
  | colon
  | comma
  | unterminated
  | controlCharacter
  | escape
  | unicodeEscape
  | extraData
  | byteOrderMark
  deriving DecidableEq, Repr

/-- The wording of each trouble. -/
def Trouble.message : Trouble → Text
  | .value => "Expecting value"
  | .propertyName => "Expecting property name enclosed in double quotes"
  | .colon => "Expecting ':' delimiter"
  | .comma => "Expecting ',' delimiter"
  | .unterminated => "Unterminated string starting at"
  | .controlCharacter => "Invalid control character at"
  | .escape => "Invalid \\escape"
  | .unicodeEscape => "Invalid \\uXXXX escape"
  | .extraData => "Extra data"
  | .byteOrderMark => "Unexpected UTF-8 BOM (decode using utf-8-sig)"

/-- A place in a text. -/
structure Place where
  line : Nat
  column : Nat
  offset : Nat
  deriving DecidableEq, Repr

/-- The place before which `before` stands. -/
def Place.after (before : Text) : Place where
  line := before.count (.char '\n') + 1
  column := (before.reverse.takeWhile (· != .char '\n')).length + 1
  offset := before.length

/-- Why a text could not be read. -/
inductive ReadError
  | malformed (trouble : Trouble) (place : Place)
  | numeral (error : Number.NumeralError)
  | listTooDeep
  | objectTooDeep
  deriving DecidableEq, Repr

/-- The text of an error. -/
def ReadError.message : ReadError → Text
  | .malformed t p =>
    t.message ++ ": line " ++ Text.ofNat p.line ++ " column " ++ Text.ofNat p.column ++
      " (char " ++ Text.ofNat p.offset ++ ")"
  | .numeral e => e.message
  | .listTooDeep =>
    "maximum recursion depth exceeded while decoding a JSON array from a unicode string"
  | .objectTooDeep =>
    "maximum recursion depth exceeded while decoding a JSON object from a unicode string"

/-- An error inside the reader; a malformed text is described by what remains of it. -/
inductive Failure
  | malformed (trouble : Trouble) (rest : Text)
  | numeral (error : Number.NumeralError)
  | listTooDeep
  | objectTooDeep

/-- A reading step: a result and the text that remains. -/
abbrev Step (α : Type) := Except Failure (α × Text)

/-! ### Leaves -/

/-- Whether a character may stand between two tokens. -/
def isBlank (c : CodePoint) : Bool := c = ' ' || c = '\t' || c = '\n' || c = '\r'

/-- The text without leading blanks. -/
def skipBlanks (t : Text) : Text := t.dropWhile isBlank

/-- The number of four hexadecimal digits. -/
def hexQuad? (a b c d : CodePoint) : Option Nat := do
  let a ← Text.hexValue? a
  let b ← Text.hexValue? b
  let c ← Text.hexValue? c
  let d ← Text.hexValue? d
  return ((a * 16 + b) * 16 + c) * 16 + d

/-- Whether a code point is the first half of a surrogate pair. -/
def isHighSurrogate (n : Nat) : Bool := 0xD800 ≤ n && n ≤ 0xDBFF

/-- Whether a code point is the second half of a surrogate pair. -/
def isLowSurrogate (n : Nat) : Bool := 0xDC00 ≤ n && n ≤ 0xDFFF

/-- The character that a one-letter escape stands for. -/
def simpleEscape? : CodePoint → Option CodePoint
  | '"' => some '"'
  | '\\' => some '\\'
  | '/' => some '/'
  | 'b' => some '\x08'
  | 'f' => some '\x0c'
  | 'n' => some '\n'
  | 'r' => some '\r'
  | 't' => some '\t'
  | _ => none

/-- A string after its opening quote, in reverse; `start` is the text from that quote. An escape by code
point needs a character after its four digits. Two escapes that form a surrogate pair stand for one code
point. -/
def readString (start done : Text) : Text → Step Text
  | [] => .error (.malformed .unterminated start)
  | '"' :: t => .ok (done, t)
  | ['\\'] => .error (.malformed .unterminated start)
  | '\\' :: 'u' :: a :: b :: c :: d :: '\\' :: 'u' :: a' :: b' :: c' :: d' :: e :: t =>
    match hexQuad? a b c d with
    | none => .error (.malformed .unicodeEscape
        ('u' :: a :: b :: c :: d :: '\\' :: 'u' :: a' :: b' :: c' :: d' :: e :: t))
    | some n =>
      if isHighSurrogate n then
        match hexQuad? a' b' c' d' with
        | none => .error (.malformed .unicodeEscape ('u' :: a' :: b' :: c' :: d' :: e :: t))
        | some m =>
          if isLowSurrogate m then
            readString start (.ofNat (0x10000 + (n - 0xD800) * 0x400 + (m - 0xDC00)) :: done) (e :: t)
          else readString start (.ofNat n :: done) ('\\' :: 'u' :: a' :: b' :: c' :: d' :: e :: t)
      else readString start (.ofNat n :: done) ('\\' :: 'u' :: a' :: b' :: c' :: d' :: e :: t)
  | '\\' :: 'u' :: a :: b :: c :: d :: e :: t =>
    match hexQuad? a b c d with
    | none => .error (.malformed .unicodeEscape ('u' :: a :: b :: c :: d :: e :: t))
    | some n => readString start (.ofNat n :: done) (e :: t)
  | '\\' :: 'u' :: t => .error (.malformed .unicodeEscape ('u' :: t))
  | '\\' :: c :: t =>
    match simpleEscape? c with
    | some e => readString start (e :: done) t
    | none => .error (.malformed .escape ('\\' :: c :: t))
  | c :: t =>
    if c.toNat ≤ 0x1F then .error (.malformed .controlCharacter (c :: t))
    else readString start (c :: done) t

/-- A string from its opening quote on. -/
def readQuoted (t : Text) : Step Text :=
  match readString t [] (t.drop 1) with
  | .ok (done, rest) => .ok (done.reverse, rest)
  | .error e => .error e

/-- The digits after a point, if the point is followed by one. -/
def takeFraction : Text → Text × Text
  | '.' :: t =>
    let ds := t.takeWhile Text.isAsciiDigit
    if ds.isEmpty then ([], '.' :: t) else (ds, t.dropWhile Text.isAsciiDigit)
  | t => ([], t)

/-- The exponent after `e` or `E`, if it has a digit. -/
def takeExponent (t : Text) : Option Int × Text :=
  match t with
  | e :: r =>
    if e = 'e' || e = 'E' then
      let (negative, digits) := Number.takeSign r
      let ds := digits.takeWhile Text.isAsciiDigit
      if ds.isEmpty then (none, t)
      else
        let n : Int := Text.digitsValue ds
        (some (if negative then -n else n), digits.dropWhile Text.isAsciiDigit)
    else (none, t)
  | [] => (none, t)

/-- The digits before the point: a zero alone, or a run that begins with another digit. -/
def takeWhole : Text → Text × Text
  | '0' :: t => ("0", t)
  | t => (t.takeWhile Text.isAsciiDigit, t.dropWhile Text.isAsciiDigit)

/-- A number. Without a fraction and an exponent it is an integer. -/
def readNumber (start : Text) : Step Value :=
  let (negative, t) : Bool × Text := match start with
    | '-' :: t => (true, t)
    | t => (false, t)
  let (whole, t) := takeWhole t
  if whole.isEmpty then .error (.malformed .value start)
  else
    let (fraction, t) := takeFraction t
    let (exponent, t) := takeExponent t
    if fraction.isEmpty && exponent.isNone then
      match Number.ofDigits whole with
      | .ok n => .ok (.int (if negative then -(n : Int) else n), t)
      | .error e => .error (.numeral e)
    else
      let digits := Text.digitsValue (whole ++ fraction)
      let e : Int := exponent.getD 0 - fraction.length
      .ok (.float (Number.ofScientific negative digits e), t)

/-- The names that stand for values. -/
def names : List (Text × Value) :=
  [("null", .null), ("true", .bool true), ("false", .bool false), ("NaN", .float (0.0 / 0.0)),
    ("Infinity", .float (1.0 / 0.0)), ("-Infinity", .float (-1.0 / 0.0))]

/-- A named value or a number. -/
def readScalar (t : Text) : Step Value :=
  match names.findSome? fun (name, v) => (Text.after? name t).map (v, ·) with
  | some r => .ok r
  | none => readNumber t

/-! ### Values -/

mutual

/-- A value at the beginning of a text; `depth` counts the levels that may still be opened. -/
def readValue : Nat → Nat → Text → Step Value
  | 0, _, t => .error (.malformed .value t)
  | fuel + 1, depth, t =>
    match t with
    | '"' :: _ =>
      match readQuoted t with
      | .ok (s, rest) => .ok (.text s, rest)
      | .error e => .error e
    | '[' :: r =>
      match depth with
      | 0 => .error .listTooDeep
      | depth + 1 =>
        match skipBlanks r with
        | ']' :: rest => .ok (.list [], rest)
        | r => readItems fuel depth [] r
    | '{' :: r =>
      match depth with
      | 0 => .error .objectTooDeep
      | depth + 1 =>
        match skipBlanks r with
        | '}' :: rest => .ok (.object [], rest)
        | r => readMembers fuel depth [] r
    | t => readScalar t

/-- The items of a list after the opening bracket or a comma; `items` holds those before, the last
one first. -/
def readItems : Nat → Nat → List Value → Text → Step Value
  | 0, _, _, t => .error (.malformed .value t)
  | fuel + 1, depth, items, t =>
    match readValue fuel depth t with
    | .error e => .error e
    | .ok (v, rest) =>
      match skipBlanks rest with
      | ']' :: rest => .ok (.list (v :: items).reverse, rest)
      | ',' :: rest => readItems fuel depth (v :: items) (skipBlanks rest)
      | rest => .error (.malformed .comma rest)

/-- The members of an object after the opening brace or a comma. -/
def readMembers : Nat → Nat → List (Text × Value) → Text → Step Value
  | 0, _, _, t => .error (.malformed .value t)
  | fuel + 1, depth, members, t =>
    match t with
    | '"' :: _ =>
      match readQuoted t with
      | .error e => .error e
      | .ok (name, rest) =>
        match skipBlanks rest with
        | ':' :: rest =>
          match readValue fuel depth (skipBlanks rest) with
          | .error e => .error e
          | .ok (v, rest) =>
            let members := Assoc.put name v members
            match skipBlanks rest with
            | '}' :: rest => .ok (.object members, rest)
            | ',' :: rest => readMembers fuel depth members (skipBlanks rest)
            | rest => .error (.malformed .comma rest)
        | rest => .error (.malformed .colon rest)
    | t => .error (.malformed .propertyName t)

end

/-- The error for a failure in a text. -/
def Failure.inText (whole : Text) : Failure → ReadError
  | .malformed trouble rest =>
    .malformed trouble (.after (whole.take (whole.length - rest.length)))
  | .numeral e => .numeral e
  | .listTooDeep => .listTooDeep
  | .objectTooDeep => .objectTooDeep

/-- The value that a whole text denotes, if it nests no deeper than the process can read. -/
def read (depth : Nat) (t : Text) : Except ReadError Value :=
  if t.head? = some '\ufeff' then .error (.malformed .byteOrderMark (.after []))
  else
    match readValue (2 * t.length + 2) depth (skipBlanks t) with
    | .error e => .error (e.inText t)
    | .ok (v, rest) =>
      match skipBlanks rest with
      | [] => .ok v
      | rest => .error (Failure.inText t (.malformed .extraData rest))

end Mend.Json
