import Mend.Diagnostic.CompilerOutput
import Mend.Diagnostic.Record
import Mend.Json.Reader
import Mend.Notice
import Mend.TextFile
import Mend.Text.LetterCase

/-!
# Loading diagnostics

A file of diagnostics holds a JSON list of records if its name ends so, and else the saved output of
the compiler.
-/

namespace Mend.DiagnosticFile

/-- Why no diagnostics could be loaded. -/
inductive LoadError
  | missing (path : Text)
  /-- It cannot be found out whether the file is there. -/
  | hidden (e : FileError)
  | unreadable (e : TextFile.ReadError)
  | json (e : Json.ReadError)
  | notAList
  | record (e : DiagnosticRecord.RecordError)
  | numeral (e : Number.NumeralError)
  deriving DecidableEq, Repr

/-- The text of the error. -/
def LoadError.message : LoadError → Text
  | .missing path => "Diagnostics file not found: " ++ path
  | .hidden e => e.message
  | .unreadable e => e.message
  | .json e => e.message
  | .notAList => "Diagnostics JSON must be a list"
  | .record e => e.message
  | .numeral e => e.message

/-- The diagnostics of a JSON text. -/
def ofJson (depth : Nat) (t : Text) : Except LoadError (List Diagnostic) :=
  match Json.read depth t with
  | .error e => .error (.json e)
  | .ok (.list items) => (items.mapM DiagnosticRecord.ofItem).mapError .record
  | .ok _ => .error .notAList

/-- Whether a path names a JSON file. -/
def namesJson (path : Path) : Bool := Text.lower path.suffix = ".json"

/-- The diagnostics of a file, with what is reported. -/
def load (depth : Nat) (files : FileTree) (path : Path) :
    List Notice × Except LoadError (List Diagnostic) :=
  match files.holds path with
  | .error e => ([], .error (.hidden e))
  | .ok false => ([], .error (.missing path.text))
  | .ok true =>
    match TextFile.read files path with
    | .error e => ([], .error (.unreadable e))
    | .ok t =>
      if namesJson path then ([], ofJson depth t)
      else
        match CompilerOutput.read t with
        | .error e => ([], .error (.numeral e))
        | .ok ds => ([.outputParsed ds.length], .ok ds)

end Mend.DiagnosticFile
