import Mend.Json.Display

/-!
# Diagnostics

What a compiler reports about a file: where, how severe, and in which words. Lines are counted
from one.
-/

namespace Mend

/-- How severe a diagnostic is. -/
inductive Severity
  | error
  | warning
  | info
  deriving DecidableEq, Repr

namespace Severity

/-- The name of a severity. -/
def name : Severity → Text
  | .error => "error"
  | .warning => "warning"
  | .info => "info"

/-- The severity with a name. -/
def ofName? (t : Text) : Option Severity := [error, warning, info].find? fun s => s.name = t

/-- The words by which tools call severities. -/
def words : List (Text × Severity) :=
  [("error", .error), ("warning", .warning), ("warn", .warning), ("info", .info),
    ("message", .info), ("suggestion", .info)]

/-- The severity that a word means in any letter case; other words mean information. -/
def ofWord (t : Text) : Severity := (words.lookup (Text.lowerAscii t)).getD .info

theorem ofName?_name (s : Severity) : ofName? s.name = some s := by cases s <;> decide

end Severity

/-- One issue that a compiler reports. -/
structure Diagnostic where
  file : Text
  line : Nat
  message : Text
  severity : Severity := .error
  line_pos : 1 ≤ line := by omega
  deriving DecidableEq, Repr

/-- Why there is no such diagnostic. Lines and severities are given as messages show them. -/
inductive DiagnosticError
  | lineBelowOne (line : Text)
  | notALine (kind : Text)
  | unknownSeverity (value : Text)
  deriving DecidableEq, Repr

/-- The text of the error. -/
def DiagnosticError.message : DiagnosticError → Text
  | .lineBelowOne line => "line_number must be >= 1, got " ++ line
  | .notALine kind => "'<' not supported between instances of '" ++ kind ++ "' and 'int'"
  | .unknownSeverity value => value ++ " is not a valid Severity"

namespace Diagnostic

/-- The line that a value stands for; of a number with a fraction its whole part counts. -/
def lineOf : Json.Value → Except DiagnosticError Int
  | .int n => .ok n
  | .bool b => .ok (if b then 1 else 0)
  | .float x => .ok (if x < 1.0 then 0 else x.floor.toUInt64.toNat)
  | v => .error (.notALine v.kind)

/-- The severity that a value names. -/
def severityOf : Json.Value → Except DiagnosticError Severity
  | .text t =>
    match Severity.ofName? t with
    | some s => .ok s
    | none => .error (.unknownSeverity (Text.quoted t))
  | v => .error (.unknownSeverity v.display)

/-- The diagnostic with these parts; the line is checked before the severity. -/
def make (file : Text) (line : Json.Value) (message : Text) (severity : Json.Value) :
    Except DiagnosticError Diagnostic := do
  let n ← lineOf line
  if h : 1 ≤ n.toNat then return ⟨file, n.toNat, message, ← severityOf severity, h⟩
  else .error (.lineBelowOne line.display)

/-- The diagnostic at a line, or at line one if the number is less. -/
def atLine (file : Text) (line : Int) (message : Text) (severity : Severity) : Diagnostic :=
  ⟨file, max 1 line.toNat, message, severity, Nat.le_max_left 1 _⟩

/-- The file and the line. -/
def location (d : Diagnostic) : Text := d.file ++ ":" ++ Text.ofNat d.line

end Diagnostic

end Mend
