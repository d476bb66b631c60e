import Mend.Outcome
import Mend.Schema.Issue

/-!
# Reports

Patches, diagnostics, clusters and what became of them as records, each with what follows from its parts;
and the issues with data.
-/

namespace Mend

open Json (Value)

/-- The record of a patch. -/
def Patch.record (p : Patch) : Value :=
  .record [("diff", .text p.diff), ("description", .text p.description),
    ("file_path", .text p.file), ("source", .text p.source.name)]

/-- The record of a diagnostic. -/
def Diagnostic.record (d : Diagnostic) : Value :=
  .record [("file_path", .text d.file), ("line_number", .nat d.line),
    ("message", .text d.message), ("severity", .text d.severity.name),
    ("location", .text d.location)]

/-- The record of a diagnostic whose parts are given as values. It shows them as they were given. -/
def Diagnostic.recordOf (file line message severity : Value) : Except DiagnosticError Value := do
  let d ← Diagnostic.make [] line [] severity
  return .record [("file_path", file), ("line_number", line), ("message", message),
    ("severity", .text d.severity.name), ("location", .text (file.plain ++ ":" ++ line.plain))]

/-- A list of texts. -/
def Json.Value.texts (ts : List Text) : Value := .list (ts.map .text)

/-- The record of a cluster; its diagnostics are given by their places. -/
def Cluster.record (c : Cluster) : Value :=
  .record [("id", .text c.id), ("pattern", .text c.pattern),
    ("representative", .text c.representative.location), ("size", .nat c.size),
    ("instances", .texts (c.instances.map (·.location))), ("file_paths", .texts c.files)]

/-- The record of the result of a batch. -/
def Engine.BatchResult.record (r : BatchResult) : Value :=
  .record [("applied_count", .nat r.appliedCount), ("rolled_back", .bool r.rolledBack),
    ("failure_reason", .textOrNull r.failureReason),
    ("failed_item", .textOrNull (r.failedItem.map (·.path))),
    ("rollback_failures", .texts (r.rollbackFailures.map (·.path))),
    ("success", .bool r.success), ("rollback_clean", .bool r.rollbackClean)]

/-- The record of an outcome. -/
def Outcome.record (o : Outcome) : Value :=
  .record [("cluster", o.cluster.record), ("resolution", .text o.resolution.name),
    ("rule", .textOrNull o.rule), ("applied", .bool o.applied), ("error", .textOrNull o.error),
    ("batch", (o.batch.map (·.record)).getD .null), ("patches", .list (o.patches.map Patch.record))]

/-- The members of the record of a summary. -/
def Summary.members (s : Summary) : List (Text × Value) :=
  [("total", .int s.total), ("patches_applied", .int s.patchesApplied),
    ("errors_fixed", .int s.errorsFixed), ("remaining", .int s.remaining),
    ("rolled_back", .nat s.rolledBack), ("tier1", .nat (s.count .rule)),
    ("tier2", .nat (s.count .generated)), ("unresolved", .nat s.unresolved),
    ("message", .text s.message), ("clusters", .texts (s.outcomes.map (·.cluster.id))),
    ("outcomes", .list (s.outcomes.map Outcome.record))]

/-- The record of a step on the way to a place in a datum: the name or the index. -/
def Schema.Step.record : Schema.Step → Value
  | .member name => .text name
  | .item n => .nat n

/-- The record of an issue with a datum. -/
def Schema.Issue.record (i : Schema.Issue) : Value :=
  .record [("loc", .list (i.place.map Schema.Step.record)), ("type", .text i.fault.kind),
    ("msg", .text i.fault.message)]

end Mend
