import Mend.Number.Integer
import Mend.Number.Power
import Mend.Text.Base64
import Mend.Text.Utf8
import Mend.Yaml.Mark

/-!
# What is wrong with a YAML text

An error has a problem, the place of the problem, and mostly what was being read and where that began.
Scalars whose text denotes no value of their kind are errors without a place, except for bytes.
-/

namespace Mend.Yaml

/-- What an error is about. -/
inductive Stage
  | token
  | grammar
  | reference
  | value
  deriving DecidableEq, Repr

/-- What is wrong. Nodes and tokens are given by their names. -/
inductive Problem
  | noToken (found : CodePoint)
  | noColon
  | itemNotAllowed
  | keyNotAllowed
  | valueNotAllowed
  | expected (what : Text) (found : CodePoint)
  | zeroIndentation
  | unknownEscape (found : CodePoint)
  | endInQuotes
  | separatorInQuotes
  | encoding (e : Utf8.DecodeError)
  | expectedToken (what found : Text)
  | noSeparator (what found : Text)
  | duplicateVersion
  | wrongVersion
  | duplicateHandle (handle : Text)
  | undefinedHandle (handle : Text)
  | undefinedAlias (name : Text)
  | secondAnchor
  | anotherDocument
  | unknownTag (tag : Text)
  | expectedNode (what found : Text)
  | severalMembers (count : Nat)
  | keyNotScalar
  | binary (e : Text.Base64.DecodeError)
  deriving DecidableEq, Repr

/-- The wording of a problem. -/
def Problem.message : Problem → Text
  | .noToken c => "found character " ++ Text.quoted [c] ++ " that cannot start any token"
  | .noColon => "could not find expected ':'"
  | .itemNotAllowed => "sequence entries are not allowed here"
  | .keyNotAllowed => "mapping keys are not allowed here"
  | .valueNotAllowed => "mapping values are not allowed here"
  | .expected what c => "expected " ++ what ++ ", but found " ++ Text.quoted [c]
  | .zeroIndentation => "expected indentation indicator in the range 1-9, but found 0"
  | .unknownEscape c => "found unknown escape character " ++ Text.quoted [c]
  | .endInQuotes => "found unexpected end of stream"
  | .separatorInQuotes => "found unexpected document separator"
  | .encoding e => e.message
  | .expectedToken what found => "expected " ++ what ++ ", but found " ++ Text.quoted found
  | .noSeparator what found => "expected " ++ what ++ ", but got " ++ Text.quoted found
  | .duplicateVersion => "found duplicate YAML directive"
  | .wrongVersion => "found incompatible YAML document (version 1.* is required)"
  | .duplicateHandle h => "duplicate tag handle " ++ Text.quoted h
  | .undefinedHandle h => "found undefined tag handle " ++ Text.quoted h
  | .undefinedAlias name => "found undefined alias " ++ Text.quoted name
  | .secondAnchor => "second occurrence"
  | .anotherDocument => "but found another document"
  | .unknownTag t => "could not determine a constructor for the tag " ++ Text.quoted t
  | .expectedNode what found => "expected " ++ what ++ ", but found " ++ found
  | .severalMembers n => "expected a single mapping item, but found " ++ Text.ofNat n ++ " items"
  | .keyNotScalar => "found unhashable key"
  | .binary e => e.message

/-- What was being read when a problem came up, and where it began. -/
structure Context where
  text : Text
  mark : Option Mark

/-- Why the text of a scalar denotes no value of its kind. -/
inductive ScalarError
  | empty
  | notInteger (base : Nat) (text : Text)
  | numeral (e : Number.NumeralError)
  | notNumber (text : Text)
  | notTruthValue (text : Text)
  | notTime
  /-- A mapping in the place of the text of a time. -/
  | noTimeText
  /-- More parts of a number in base sixty than there are powers of sixty. -/
  | tooManyParts
  | outOfRange (reason : Text)
  /-- An escape for a code point beyond the last one. -/
  | noCharacter (code : Nat)
  | binary (e : Text.Base64.DecodeError)
  deriving DecidableEq, Repr

/-- How much of a literal is shown, quotes included. -/
def literalRoom : Nat := 200

/-- The text of the error. -/
def ScalarError.message : ScalarError → Text
  | .empty => "string index out of range"
  | .notInteger base t =>
    "invalid literal for int() with base " ++ Text.ofNat base ++ ": " ++
      (Text.quoted t).take literalRoom
  | .numeral e => e.message
  | .notNumber t => "could not convert string to float: " ++ Text.quoted t
  | .notTruthValue t => Text.quoted t
  | .notTime => "'NoneType' object has no attribute 'groupdict'"
  | .noTimeText => "expected string or bytes-like object, got 'list'"
  | .tooManyParts => "int too large to convert to float"
  | .outOfRange reason => reason
  | .noCharacter code =>
    if code < Number.twoTo 31 then "chr() arg not in range(0x110000)"
    else "Python int too large to convert to C int"
  | .binary e => e.message

/-- Why a text could not be read. -/
inductive Error
  /-- A character that no YAML text may hold. -/
  | character (c : CodePoint) (index : Nat)
  | marked (stage : Stage) (context : Option Context) (problem : Problem) (mark : Mark)
  | scalar (e : ScalarError)
  | tooDeep

namespace Error

/-- The line that a context adds for its place; it adds none for the place of the problem itself. -/
def contextLines (c : Context) (problem : Mark) : List Text :=
  match c.mark with
  | some m =>
    if m.line = problem.line && m.column = problem.column then [c.text] else [c.text, m.text]
  | none => [c.text]

/-- The text of the error. -/
def message : Error → Text
  | .character c index =>
    "unacceptable character #x" ++ Text.hex 4 c.toNat ++
      ": special characters are not allowed\n  in \"<unicode string>\", position " ++
      Text.ofNat index
  | .marked _ context problem mark =>
    let before := match context with
      | some c => contextLines c mark
      | none => []
    Text.ofLines (before ++ [problem.message, mark.text])
  | .scalar e => e.message
  | .tooDeep => "maximum recursion depth exceeded"

end Error

end Mend.Yaml
