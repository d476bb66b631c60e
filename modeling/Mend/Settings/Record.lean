import Mend.Json
import Mend.Settings

/-!
# Settings as records

All settings with their names, in the form in which they are shown.
-/

namespace Mend

open Json (Value)

namespace Settings

/-- The record of the settings of the model. -/
def Model.record (m : Model) : Value :=
  .record [("api_key", .text m.apiKey), ("model", .text m.model), ("max_tokens", .int m.maxTokens),
    ("temperature", .float m.temperature), ("max_doc_chars", .int m.maxDocChars),
    ("requests_per_minute", .float m.requestsPerMinute),
    ("request_timeout", .float m.requestTimeout)]

/-- The record of the settings of the provider. -/
def Provider.record (p : Provider) : Value :=
  .record [("provider", .text p.name), ("anthropic", (p.anthropic.map Model.record).getD .null)]

/-- The record of the settings of a run. -/
def Run.record (r : Run) : Value :=
  .record [("workspace_root", .text r.workspaceRoot.text),
    ("max_patches_per_run", .int r.maxConsultations), ("auto_apply", .bool r.autoApply),
    ("use_generator", .bool r.useGenerator), ("strict_validation", .bool r.strictValidation),
    ("severities", .list (r.severities.map fun s => .text s.name)),
    ("context_lines", .int r.contextLines)]

/-- The record of the settings of the log file. -/
def LogFile.record (f : LogFile) : Value :=
  .record [("enabled", .bool f.enabled), ("path", .text f.path.text)]

/-- The record of the settings of the log. -/
def Logging.record (l : Logging) : Value :=
  .record [("level", .text l.level), ("format", .text l.format), ("file", l.file.record)]

/-- The record of the settings of retries. -/
def Retry.record (r : Retry) : Value :=
  .record [("max_attempts", .int r.maxAttempts), ("initial_delay", .float r.initialDelay),
    ("max_delay", .float r.maxDelay)]

end Settings

/-- The record of all settings. -/
def Settings.record (s : Settings) : Json.Value :=
  .record [("pipeline", s.run.record), ("llm", s.provider.record),
    ("logging", s.logging.record), ("retry", s.retry.record)]

end Mend
