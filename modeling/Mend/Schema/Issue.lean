import Mend.Datum

/-!
# Issues

An issue says where in a datum something is wrong, what, and with which part of the datum. Each kind
of issue has a short name and a wording, and all issues with a datum have a report in one text.
-/

namespace Mend.Schema

/-- A step on the way to a place in a datum. -/
inductive Step
  | member (name : Text)
  | item (index : Nat)
  deriving DecidableEq, Repr

/-- What is wrong at a place. Bounds are given by their numerals. -/
inductive Fault
  | missing
  | notText
  | brokenText
  | textTooShort (least : Nat)
  | textTooLong (most : Nat)
  | notInteger
  | notFinite
  | fractional
  | unreadableInteger
  | integerTooLong
  | notNumber
  | unreadableNumber
  | notTruthValue
  | unreadableTruthValue
  | notAtLeast (bound : Text)
  | notAtMost (bound : Text)
  | notAbove (bound : Text)
  | notAChoice (choices : List Text)
  | notAName (names : List Text)
  | notPath
  | notList
  | listTooLong (most : Nat)
  | notRecord (model : Text)
  | refused (reason : Text)
  deriving DecidableEq, Repr

/-- Something that is wrong, where, and with what. For a member that is missing that is the record. -/
structure Issue where
  place : List Step
  fault : Fault
  input : Datum

/-- The short name of a kind of fault. -/
def Fault.kind : Fault → Text
  | .missing => "missing"
  | .notText => "string_type"
  | .brokenText => "string_unicode"
  | .textTooShort _ => "string_too_short"
  | .textTooLong _ => "string_too_long"
  | .notInteger => "int_type"
  | .notFinite => "finite_number"
  | .fractional => "int_from_float"
  | .unreadableInteger => "int_parsing"
  | .integerTooLong => "int_parsing_size"
  | .notNumber => "float_type"
  | .unreadableNumber => "float_parsing"
  | .notTruthValue => "bool_type"
  | .unreadableTruthValue => "bool_parsing"
  | .notAtLeast _ => "greater_than_equal"
  | .notAtMost _ => "less_than_equal"
  | .notAbove _ => "greater_than"
  | .notAChoice _ => "literal_error"
  | .notAName _ => "enum"
  | .notPath => "path_type"
  | .notList => "list_type"
  | .listTooLong _ => "too_long"
  | .notRecord _ => "model_type"
  | .refused _ => "value_error"

/-- Alternatives in quotes, with `or` before the last one. -/
def alternatives (ts : List Text) : Text :=
  let shown := ts.map Text.quoted
  match shown.getLast? with
  | none => []
  | some last =>
    if shown.length = 1 then last
    else Text.joinWith ", " shown.dropLast ++ " or " ++ last

/-- A number of things, with the plural of their name from two on and for none. -/
def counted (n : Nat) (thing : Text) : Text :=
  Text.ofNat n ++ " " ++ thing ++ (if n = 1 then "" else "s")

/-- The wording of a fault. -/
def Fault.message : Fault → Text
  | .missing => "Field required"
  | .notText => "Input should be a valid string"
  | .brokenText => "Input should be a valid string, unable to parse raw data as a unicode string"
  | .textTooShort n => "String should have at least " ++ counted n "character"
  | .textTooLong n => "String should have at most " ++ counted n "character"
  | .notInteger => "Input should be a valid integer"
  | .notFinite => "Input should be a finite number"
  | .fractional => "Input should be a valid integer, got a number with a fractional part"
  | .unreadableInteger =>
    "Input should be a valid integer, unable to parse string as an integer"
  | .integerTooLong => "Unable to parse input string as an integer, exceeded maximum size"
  | .notNumber => "Input should be a valid number"
  | .unreadableNumber => "Input should be a valid number, unable to parse string as a number"
  | .notTruthValue => "Input should be a valid boolean"
  | .unreadableTruthValue => "Input should be a valid boolean, unable to interpret input"
  | .notAtLeast bound => "Input should be greater than or equal to " ++ bound
  | .notAtMost bound => "Input should be less than or equal to " ++ bound
  | .notAbove bound => "Input should be greater than " ++ bound
  | .notAChoice choices => "Input should be " ++ alternatives choices
  | .notAName names => "Input should be " ++ alternatives names
  | .notPath => "Input is not a valid path for <class 'pathlib.Path'>"
  | .notList => "Input should be a valid list"
  | .listTooLong n => "List should have at most " ++ counted n "item"
  | .notRecord model => "Input should be a valid dictionary or instance of " ++ model
  | .refused reason => "Value error, " ++ reason

/-! ### The report -/

/-- The longest beginning of a text of at most so many bytes. -/
def firstBytes : Nat → Text → Text
  | _, [] => []
  | n, c :: t => if c.utf8Size ≤ n then c :: firstBytes (n - c.utf8Size) t else []

/-- A text of more than fifty bytes without its middle. -/
def shortened (t : Text) : Text :=
  if firstBytes 50 t = t then t
  else firstBytes 25 t ++ "..." ++ (firstBytes 24 t.reverse).reverse

/-- A step as the report writes it. -/
def Step.text : Step → Text
  | .member name => name
  | .item n => Text.ofNat n

/-- The place of an issue on a line of its own; the datum as a whole has none. -/
def placeLine (place : List Step) : Text :=
  if place.isEmpty then [] else Text.joinOn '.' (place.map Step.text) ++ [.char '\n']

/-- Where more is said about a kind of fault; nothing is said about paths. -/
def Fault.reference : Fault → Text
  | .notPath => []
  | f => "\n    For further information visit https://errors.pydantic.dev/2.14/v/" ++ f.kind

/-- A datum in the report. -/
def inputText (d : Datum) : Text :=
  if d.isDisplayable then d.display else "<unprintable " ++ d.kind ++ " object>"

/-- An issue in the report. -/
def Issue.text (i : Issue) : Text :=
  placeLine i.place ++ "  " ++ i.fault.message ++ " [type=" ++ i.fault.kind ++ ", input_value=" ++
    shortened (inputText i.input) ++ ", input_type=" ++ i.input.kind ++ "]" ++ i.fault.reference

/-- The report on all issues with a datum that was to be read as a model. -/
def report (model : Text) (issues : List Issue) : Text :=
  Text.joinOn '\n' ((counted issues.length "validation error" ++ " for " ++ model) ::
    issues.map Issue.text)

end Mend.Schema
