import Mend.Assoc
import Mend.FileTree
import Mend.Json.Writer
import Mend.Notice
import Mend.Options
import Mend.Text.LetterCase

/-!
# Log output

The log goes to the terminal and perhaps to a file. It shows the entries from a level on, one in a line;
each of them carries the fields of its context and the name and the version of the program.
-/

namespace Mend

/-- The levels by their names. -/
def Level.named : List (Text × Level) :=
  [("DEBUG", .debug), ("INFO", .info), ("WARNING", .warning), ("ERROR", .error),
    ("CRITICAL", .critical)]

/-- The level of a call to the log. Two levels have a second name, and an error may be told with its
causes. -/
def Level.ofCall (call : Text) : Level :=
  let other : List (Text × Level) :=
    [("warn", .warning), ("fatal", .critical), ("exception", .error)]
  ((Level.named.map fun l => (l.2.name, l.2)) ++ other |>.lookup call).getD .error

/-- How the log is shown: from which level on, in which format, and in which file, if in any. -/
structure LogOutput where
  level : Level
  format : LogFormat
  file : Option Path

namespace LogOutput

/-- Why a log cannot be shown as wanted. -/
inductive NameError
  | level (name : Text)
  | format (name : Text)
  deriving DecidableEq, Repr

/-- The text of the error. -/
def NameError.message : NameError → Text
  | .level name => Text.quoted name ++ " is not a valid LogLevel"
  | .format name => Text.quoted name ++ " is not a valid LogFormat"

/-- The output with a level and a format, whose names may be in any case. -/
def ofNames (level format : Text) (file : Option Path) : Except NameError LogOutput :=
  match Level.named.lookup (Text.upper level), LogFormat.ofName? (Text.lower format) with
  | some l, some f => .ok ⟨l, f, file⟩
  | none, _ => .error (.level (Text.upper level))
  | some _, none => .error (.format (Text.lower format))

/-! ### The file -/

/-- An output that was set up: the files with the file of the log in them. Where the system refuses to
make that file there is a warning, and the log goes to the terminal alone. -/
structure Prepared where
  output : LogOutput
  files : FileTree
  warning : Text

/-- The tree in which a file and its folder exist. -/
def touch (files : FileTree) (path : Path) : Except FileError FileTree :=
  match files.makeFolders path.parent with
  | .error e => .error e
  | .ok files =>
    match files.read path with
    | .ok _ => .ok files
    | .error e => if e.problem = .notFound then files.write path .empty else .error e

/-- The line that tells that the file of the log could not be made. -/
def warningLine (path : Path) (e : FileError) : Text :=
  "Could not create log file " ++ path.text ++ ": " ++ e.message ++ "\n"

/-- Sets an output up. -/
def prepare (o : LogOutput) (files : FileTree) : Except FileError Prepared :=
  match o.file with
  | none => .ok ⟨o, files, []⟩
  | some path =>
    match touch files path with
    | .ok files => .ok ⟨o, files, []⟩
    | .error e =>
      if e.problem.isInvalidPath then .error e
      else .ok ⟨{ o with file := none }, files, warningLine path e⟩

/-! ### Lines -/

/-- Fields of the log. -/
abbrev Fields : Type := List (Text × Json.Value)

/-- Whether an entry is shown. -/
def shows (o : LogOutput) (e : LogEntry) : Bool := o.level.rank ≤ e.level.rank

/-- The fields that every entry has. -/
def programFields : Fields :=
  [("service", .text Options.programName), ("version", .text Options.versionNumber)]

/-- The names of the fields that ask for the error at hand or the calls on the way; they are not shown
themselves. -/
def requestNames : List Text := ["exc_info", "stack_info"]

/-- The fields of a line. The entry's own fields hide those of its context, and those that every entry has
hide both. -/
def fieldsOf (context : Fields) (e : LogEntry) : Fields :=
  (Assoc.ofList (context ++ e.fields ++ programFields)).filter fun f => !requestNames.elem f.1

/-- A line of JSON. -/
def jsonLine (context : Fields) (e : LogEntry) : Text :=
  let named : Fields := [("level", .text e.level.name), ("event", .text e.event)]
  (Json.Value.record (Assoc.ofList (fieldsOf context e ++ named))).written .compact

/-- A line for the eye: the level and the event, then the fields. -/
def plainLine (context : Fields) (e : LogEntry) : Text :=
  let shown (field : Text × Json.Value) : Text :=
    " " ++ field.1 ++ "=" ++ field.2.written .compact
  "[" ++ e.level.name ++ "] " ++ e.event ++ (fieldsOf context e).flatMap shown

/-- The lines of the entries that are shown, in a context. -/
def lines (o : LogOutput) (context : Fields) (es : List LogEntry) : List Text :=
  (es.filter o.shows).map fun e =>
    (match o.format with
      | .json => jsonLine context e
      | .console => plainLine context e) ++ [.char '\n']

/-- The files after lines were added to the file of the log. A line that cannot be encoded is left out. -/
def append (o : LogOutput) (ls : List Text) (files : FileTree) : FileTree :=
  match o.file with
  | none => files
  | some path =>
    match files.read path with
    | .error _ => files
    | .ok bytes =>
      match files.write path (bytes ++ Utf8.encode (ls.filter fun l => Utf8.Encodable l).flatten) with
      | .ok files => files
      | .error _ => files

end LogOutput

end Mend
