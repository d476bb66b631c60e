import Mend.Diagnostic
import Mend.Json.Display
import Mend.Number.Integer
import Mend.Number.Quantity

/-!
# Diagnostics from records

Analyzers report diagnostics as JSON objects with a file, a line, a message and a severity. Several
spellings of the names are known; of those present the first one with a value counts. Values of
other types than expected are converted where that makes sense.

An item of a list of diagnostics that is no object is refused. A list of pairs stands for an object
whose names come from the pairs, so that its refusal shows that object; a text stands for the list
of its characters.
-/

namespace Mend.DiagnosticRecord

open Json (Value)

/-- Why a record is refused. Records and values are given as messages show them. -/
inductive RecordError
  | noFile (record : Text)
  | noMessage (record : Text)
  | badLine (value : Text)
  | infiniteLine
  | noNames (kind : Text)
  | textWithName
  | listWithName
  | notAPair (index : Nat)
  | pairOfLength (index length : Nat)
  | compoundName (kind : Text)
  deriving DecidableEq, Repr

/-- The text of the error. -/
def RecordError.message : RecordError → Text
  | .noFile record => "Diagnostic has no file path: " ++ record
  | .noMessage record => "Diagnostic has no message: " ++ record
  | .badLine value => "Invalid line number: " ++ value
  | .infiniteLine => "cannot convert float infinity to integer"
  | .noNames kind => "argument of type '" ++ kind ++ "' is not iterable"
  | .textWithName => "string indices must be integers, not 'str'"
  | .listWithName => "list indices must be integers or slices, not str"
  | .notAPair index =>
    "cannot convert dictionary update sequence element #" ++ Text.ofNat index ++ " to a sequence"
  | .pairOfLength index length =>
    "dictionary update sequence element #" ++ Text.ofNat index ++ " has length " ++
      Text.ofNat length ++ "; 2 is required"
  | .compoundName kind => "unhashable type: '" ++ kind ++ "'"

/-! ### Objects -/

/-- The names of the file. -/
def fileNames : List Text := ["filePath", "file_path", "file"]

/-- The names of the line. -/
def lineNames : List Text := ["lineNumber", "line_number", "line"]

/-- The names of the message. -/
def messageNames : List Text := ["message", "messageText", "text"]

/-- The value of a member, if there is one other than null. -/
def given? (ms : List (Text × Value)) (name : Text) : Option Value :=
  match Value.member? name ms with
  | some .null => none
  | v => v

/-- The first value that is given under some names. -/
def firstGiven? (ms : List (Text × Value)) (names : List Text) : Option Value :=
  names.findSome? (given? ms)

/-- The line that a value stands for; fractions are cut off. -/
def lineOf (v : Value) : Except RecordError Int :=
  match v with
  | .int n => .ok n
  | .bool b => .ok (if b then 1 else 0)
  | .float x =>
    match Number.truncate? x with
    | some n => .ok n
    | none => .error (if x.isNaN then .badLine v.display else .infiniteLine)
  | .text t =>
    match Number.readLenient t with
    | some n => .ok n
    | none => .error (.badLine v.display)
  | v => .error (.badLine v.display)

/-- The severity that a category stands for. -/
def severityOfCategory (n : Int) : Severity :=
  if n = 0 then .warning else if n = 1 then .error else .info

/-- The severity of a record: its severity word, else its category, else error. -/
def severityOf (ms : List (Text × Value)) : Severity :=
  match given? ms "severity" with
  | some (.text t) => .ofWord t
  | some _ => .info
  | none =>
    match Value.member? "category" ms with
    | some (.int n) => severityOfCategory n
    | some (.bool b) => severityOfCategory (if b then 1 else 0)
    | _ => .error

/-- The diagnostic of an object. -/
def ofObject (ms : List (Text × Value)) : Except RecordError Diagnostic :=
  match firstGiven? ms fileNames, firstGiven? ms messageNames with
  | some (.text file), message =>
    if file.isEmpty then .error (.noFile (Value.object ms).display)
    else
      match message with
      | none => .error (.noMessage (Value.object ms).display)
      | some message =>
        match lineOf ((firstGiven? ms lineNames).getD (.int 1)) with
        | .ok line => .ok (.atLine file line message.plain (severityOf ms))
        | .error e => .error e
  | _, _ => .error (.noFile (Value.object ms).display)

/-! ### Items that are no objects -/

/-- All names that a record is searched for. -/
def allNames : List Text := fileNames ++ lineNames ++ messageNames

/-- Whether two names are the same; numbers and truth values are compared by their numeric value. What is
no number is the same name as itself. -/
def sameName : Value → Value → Bool
  | .null, .null => true
  | .text s, .text t => s == t
  | .float x, .float y => x == y || (x.isNaN && y.isNaN)
  | a, b =>
    match numeric? a, numeric? b with
    | some x, some y => x.atMost y && y.atMost x
    | _, _ => false
where
  numeric? : Value → Option Number.Quantity
    | .bool b => some (.whole (if b then 1 else 0))
    | .int n => some (.whole n)
    | .float x => some (.real x)
    | _ => none

/-- Sets the value of a name: the first spelling of the name stays. -/
def insertPair (k v : Value) : List (Value × Value) → List (Value × Value)
  | [] => [(k, v)]
  | (k', v') :: ps => if sameName k' k then (k', v) :: ps else (k', v') :: insertPair k v ps

/-- The parts of an item that may be a pair. -/
def partsOf? : Value → Option (List Value)
  | .text t => some (t.map fun c => .text [c])
  | .list vs => some vs
  | .object ms => some (ms.map fun (k, _) => .text k)
  | _ => none

/-- The pairs that items stand for, from the item with this index on. -/
def pairsFrom (index : Nat) (done : List (Value × Value)) :
    List Value → Except RecordError (List (Value × Value))
  | [] => .ok done
  | item :: rest =>
    match partsOf? item with
    | none => .error (.notAPair index)
    | some [.list _, _] => .error (.compoundName "list")
    | some [.object _, _] => .error (.compoundName "dict")
    | some [k, v] => pairsFrom (index + 1) (insertPair k v done) rest
    | some parts => .error (.pairOfLength index parts.length)

/-- Some pairs as messages show the object that they make up. -/
def displayPairs (ps : List (Value × Value)) : Text :=
  "\x7b" ++ Text.joinWith ", " (ps.map fun (k, v) => k.display ++ ": " ++ v.display) ++ "\x7d"

/-- The refusal of a list of items. -/
def refusePairs (items : List Value) : RecordError :=
  match pairsFrom 0 [] items with
  | .ok ps => .noFile (displayPairs ps)
  | .error e => e

/-- The diagnostic of an item of a list of diagnostics. -/
def ofItem : Value → Except RecordError Diagnostic
  | .object ms => ofObject ms
  | .text s =>
    if allNames.any (Text.contains s) then .error .textWithName
    else .error (refusePairs (s.map fun c => .text [c]))
  | .list vs =>
    if vs.any fun v => allNames.any fun n => sameName v (.text n) then .error .listWithName
    else .error (refusePairs vs)
  | v => .error (.noNames v.kind)

end Mend.DiagnosticRecord
