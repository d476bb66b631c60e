import Mend.Diagnostic.Load
import Mend.Options
import Mend.Run
import Mend.Settings.Load

/-!
# Failures

What ends the program early. A failure is a file that is missing, input that is not valid, or any other;
the log says which of the three it is.
-/

namespace Mend

/-- What kind of failure an error is. -/
inductive FailureKind
  | missing
  | invalid
  | other
  deriving DecidableEq, Repr

/-- The kind of an error with a file. -/
def FileError.failureKind (e : FileError) : FailureKind :=
  if e.problem = .notFound then .missing else if e.problem.isInvalidPath then .invalid else .other

/-- The kind of an error with the text of a file. -/
def TextFile.ReadError.failureKind : TextFile.ReadError → FailureKind
  | .file e => e.failureKind
  | .encoding _ => .invalid

/-- The kind of an error with a text that was to be written. -/
def TextFile.WriteError.failureKind : TextFile.WriteError → FailureKind
  | .file e => e.failureKind
  | .encoding _ => .invalid

/-- The kind of an error with JSON: depth is not a matter of validity. -/
def Json.ReadError.failureKind : Json.ReadError → FailureKind
  | .malformed _ _ => .invalid
  | .numeral _ => .invalid
  | .listTooDeep => .other
  | .objectTooDeep => .other

/-- The kind of an error with the record of a diagnostic. -/
def DiagnosticRecord.RecordError.failureKind : DiagnosticRecord.RecordError → FailureKind
  | .noFile _ => .invalid
  | .noMessage _ => .invalid
  | .badLine _ => .invalid
  | .pairOfLength _ _ => .invalid
  | _ => .other

/-- The kind of an error with a file of diagnostics. -/
def DiagnosticFile.LoadError.failureKind : DiagnosticFile.LoadError → FailureKind
  | .missing _ => .missing
  | .hidden e => e.failureKind
  | .unreadable e => e.failureKind
  | .json e => e.failureKind
  | .notAList => .invalid
  | .record e => e.failureKind
  | .numeral _ => .invalid

/-- The kind of an error with the text of a YAML scalar. -/
def Yaml.ScalarError.failureKind : Yaml.ScalarError → FailureKind
  | .notInteger _ _ => .invalid
  | .numeral _ => .invalid
  | .notNumber _ => .invalid
  | .outOfRange _ => .invalid
  | .noCharacter code => if code < Number.twoTo 31 then .invalid else .other
  | _ => .other

/-- The kind of an error with the sources of the settings. -/
def Settings.SourceError.failureKind : Settings.SourceError → FailureKind
  | .file e => e.failureKind
  | .unreadable e => e.failureKind
  | e => if e.isInvalidValue then .invalid else .other

/-- The kind of an error with the settings. -/
def Settings.LoadError.failureKind : Settings.LoadError → FailureKind
  | .missing _ => .missing
  | .hidden e => e.failureKind
  | .unreadable e => e.failureKind
  | .yaml (.scalar e) => e.failureKind
  | .yaml _ => .other
  | .badName => .other
  | .source e => e.failureKind
  | _ => .invalid

/-- The kind of an error with a rate limit. -/
def LimiterError.failureKind {α : Type} : LimiterError α → FailureKind
  | .overflow _ => .other
  | _ => .invalid

/-- The kind of a fault of the engine. -/
def Engine.Fault.failureKind : Engine.Fault → FailureKind
  | .file e => e.failureKind
  | .numeral _ => .invalid
  | .positionTooLarge => .other
  | .encoding _ => .invalid

/-- The text of a fault of the engine. -/
def Engine.Fault.message : Engine.Fault → Text
  | .file e => e.message
  | .numeral e => e.message
  | .positionTooLarge => Diff.ApplyError.positionTooLarge.message
  | .encoding e => e.message

/-- The kind of what ends a run. -/
def RunFault.failureKind : RunFault → FailureKind
  | .engine f => f.failureKind
  | .context e => e.failureKind
  | .numeral _ => .invalid
  | _ => .other

/-- The text of what ends a run. -/
def RunFault.message : RunFault → Text
  | .rule e => e.message
  | .engine f => f.message
  | .context e => e.message
  | .numeral e => e.message
  | .interrupted => []

/-- The text of the error with an option whose argument was dropped. -/
def Options.Switch.emptiedMessage : Options.Switch → Text
  | .maxPatches => "'<' not supported between instances of 'list' and 'int'"
  | .docs => "'list' object has no attribute 'read_text'"
  | .metricsOut => "'list' object has no attribute 'suffix'"
  | _ => "'list' object has no attribute 'exists'"

/-- What ends the program early. -/
inductive Failure
  /-- An option that is used has lost its argument. -/
  | emptied (s : Options.Switch)
  | settings (e : Settings.LoadError)
  | diagnostics (e : DiagnosticFile.LoadError)
  | limiter (e : LimiterError Number.Quantity)
  | docs (e : TextFile.ReadError)
  | run (f : RunFault)
  | print (e : Utf8.EncodeError)
  | metrics (e : Number.Overflow)
  | log (e : FileError)
  | output (e : TextFile.WriteError)

namespace Failure

/-- The kind of a failure. -/
def kind : Failure → FailureKind
  | .emptied _ => .other
  | .settings e => e.failureKind
  | .diagnostics e => e.failureKind
  | .limiter e => e.failureKind
  | .docs e => e.failureKind
  | .run f => f.failureKind
  | .print _ => .invalid
  | .metrics _ => .other
  | .log e => e.failureKind
  | .output e => e.failureKind

/-- The text of a failure. -/
def message : Failure → Text
  | .emptied s => s.emptiedMessage
  | .settings e => e.message
  | .diagnostics e => e.message
  | .limiter e => e.message
  | .docs e => e.message
  | .run f => f.message
  | .print e => e.message
  | .metrics e => e.message
  | .log e => e.message
  | .output e => e.message

/-- What is reported of a failure. -/
def notice : Failure → Notice
  | .run .interrupted => .interrupted
  | f =>
    match f.kind with
    | .missing => .fileNotFound f.message
    | .invalid => .configurationInvalid f.message
    | .other => .fatal f.message

end Failure

end Mend
