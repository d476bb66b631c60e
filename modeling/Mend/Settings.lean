import Mend.Diagnostic
import Mend.Schema

/-!
# Settings

The settings of a run, of the model that is consulted, of the log and of retries, with their
defaults, their bounds and the readers that enforce the bounds.
-/

namespace Mend.Settings

open Schema (Checked Reader Members)

/-! ### The model -/

/-- How the model is consulted. -/
structure Model where
  apiKey : Text
  model : Text
  maxTokens : Int
  temperature : Float
  maxDocChars : Int
  requestsPerMinute : Float
  requestTimeout : Float

/-- Why an empty key is refused. -/
def emptyKey : Text := "Anthropic api_key must not be empty"

/-- The key of the service; it must not be blank. -/
def readKey : Reader Text := fun d =>
  Checked.test d (Schema.text d) fun t => if (Text.trim t).isEmpty then some (.refused emptyKey) else none

/-- The members of the settings of the model. -/
def Model.ofMembers (ms : Members) : Checked Model :=
  (((((((Checked.ok Model.mk).apply
    (Schema.required "api_key" readKey ms)).apply
    (Schema.optional "model" "claude-3-5-sonnet-20241022" Schema.text ms)).apply
    (Schema.optional "max_tokens" 4096 (Schema.integerBetween 256 (some 64000)) ms)).apply
    (Schema.optional "temperature" 0.2 (Schema.numberBetween 0.0 1.0) ms)).apply
    (Schema.optional "max_doc_chars" 2000 (Schema.integerBetween 0 none) ms)).apply
    (Schema.optional "requests_per_minute" 30.0 (Schema.numberAbove 0.0) ms)).apply
    (Schema.optional "request_timeout" 120.0 (Schema.numberBetween 5.0 600.0) ms)

/-- The settings of the model. -/
def Model.read : Reader Model := Schema.record "AnthropicConfig" Model.ofMembers

/-- The provider of the model and its settings, if there are any. -/
structure Provider where
  name : Text
  anthropic : Option Model

/-- The name of the only provider. -/
def onlyProvider : Text := "anthropic"

/-- The default provider, without settings. -/
def Provider.default : Provider := ⟨onlyProvider, none⟩

/-- The members of the settings of the provider. -/
def Provider.ofMembers (ms : Members) : Checked Provider :=
  ((Checked.ok Provider.mk).apply
    (Schema.optional "provider" onlyProvider (Schema.choice [onlyProvider]) ms)).apply
    (Schema.optional "anthropic" none (Schema.orNull Model.read) ms)

/-- The settings of the provider. -/
def Provider.read : Reader Provider := Schema.record "LLMConfig" Provider.ofMembers

/-! ### The run -/

/-- What a run works on and what it may do. -/
structure Run where
  workspaceRoot : Path
  maxConsultations : Int
  autoApply : Bool
  useGenerator : Bool
  strictValidation : Bool
  severities : List Severity
  contextLines : Int

/-- The default settings of a run. -/
def Run.default : Run := ⟨.ofText ".", 10, true, true, false, [.error], 15⟩

/-- Why a run without severities is refused. -/
def noSeverity : Text := "severities must name at least one severity"

/-- The severities that a run deals with. -/
def readSeverities : Reader (List Severity) := fun d =>
  let names := [.error, .warning, .info].map fun s : Severity => (s.name, s)
  Checked.test d (Schema.list (Schema.named names) d) fun ss =>
    if ss.isEmpty then some (.refused noSeverity) else none

/-- The members of the settings of a run. -/
def Run.ofMembers (ms : Members) : Checked Run :=
  (((((((Checked.ok Run.mk).apply
    (Schema.optional "workspace_root" Run.default.workspaceRoot Schema.path ms)).apply
    (Schema.optional "max_patches_per_run" 10 (Schema.integerBetween 1 (some 100)) ms)).apply
    (Schema.optional "auto_apply" true Schema.truthValue ms)).apply
    (Schema.optional "use_generator" true Schema.truthValue ms)).apply
    (Schema.optional "strict_validation" false Schema.truthValue ms)).apply
    (Schema.optional "severities" [.error] readSeverities ms)).apply
    (Schema.optional "context_lines" 15 (Schema.integerBetween 0 (some 200)) ms)

/-- The settings of a run. -/
def Run.read : Reader Run := Schema.record "PipelineConfig" Run.ofMembers

/-- The diagnostics that a run deals with. -/
def Run.selected (r : Run) (ds : List Diagnostic) : List Diagnostic :=
  ds.filter fun d => r.severities.elem d.severity

/-! ### The log -/

/-- Whether and where the log is also written to a file. -/
structure LogFile where
  enabled : Bool
  path : Path

/-- The default settings of the log file. -/
def LogFile.default : LogFile := ⟨false, .ofText "migration-repair.log"⟩

/-- The members of the settings of the log file. -/
def LogFile.ofMembers (ms : Members) : Checked LogFile :=
  ((Checked.ok LogFile.mk).apply
    (Schema.optional "enabled" false Schema.truthValue ms)).apply
    (Schema.optional "path" LogFile.default.path Schema.path ms)

/-- The settings of the log file. -/
def LogFile.read : Reader LogFile := Schema.record "FileLoggingConfig" LogFile.ofMembers

/-- What is logged and how. -/
structure Logging where
  level : Text
  format : Text
  file : LogFile

/-- The default settings of the log. -/
def Logging.default : Logging := ⟨"INFO", "console", LogFile.default⟩

/-- The names of the levels of the log. -/
def levelNames : List Text := ["DEBUG", "INFO", "WARNING", "ERROR", "CRITICAL"]

/-- The names of the formats of the log. -/
def formatNames : List Text := ["json", "console"]

/-- The members of the settings of the log. -/
def Logging.ofMembers (ms : Members) : Checked Logging :=
  (((Checked.ok Logging.mk).apply
    (Schema.optional "level" "INFO" (Schema.choice levelNames) ms)).apply
    (Schema.optional "format" "console" (Schema.choice formatNames) ms)).apply
    (Schema.optional "file" LogFile.default LogFile.read ms)

/-- The settings of the log. -/
def Logging.read : Reader Logging := Schema.record "LoggingConfig" Logging.ofMembers

/-! ### Retries -/

/-- How failing requests are repeated. -/
structure Retry where
  maxAttempts : Int
  initialDelay : Float
  maxDelay : Float

/-- The default settings of retries. -/
def Retry.default : Retry := ⟨3, 1.0, 30.0⟩

/-- The members of the settings of retries. -/
def Retry.ofMembers (ms : Members) : Checked Retry :=
  (((Checked.ok Retry.mk).apply
    (Schema.optional "max_attempts" 3 (Schema.integerBetween 1 (some 10)) ms)).apply
    (Schema.optional "initial_delay" 1.0 (Schema.numberBetween 0.1 10.0) ms)).apply
    (Schema.optional "max_delay" 30.0 (Schema.numberBetween 1.0 300.0) ms)

/-- The settings of retries. -/
def Retry.read : Reader Retry := Schema.record "RetryConfig" Retry.ofMembers

end Mend.Settings

namespace Mend

/-- All settings. -/
structure Settings where
  run : Settings.Run
  provider : Settings.Provider
  logging : Settings.Logging
  retry : Settings.Retry

open Schema (Checked) in
/-- The sections of the settings. -/
def Settings.ofMembers (ms : Schema.Members) : Checked Settings :=
  ((((Checked.ok Settings.mk).apply
    (Schema.optional "pipeline" Settings.Run.default Settings.Run.read ms)).apply
    (Schema.optional "llm" Settings.Provider.default Settings.Provider.read ms)).apply
    (Schema.optional "logging" Settings.Logging.default Settings.Logging.read ms)).apply
    (Schema.optional "retry" Settings.Retry.default Settings.Retry.read ms)

end Mend
