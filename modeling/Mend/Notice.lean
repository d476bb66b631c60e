import Mend.Json
import Mend.Number.Quantity

/-!
# Notices

What a run reports while it works. Each kind of notice has a level, a name and named fields; the
fields are the data that the notice is about. Notices of the exchange with a model are kept apart
from those of the run itself.
-/

namespace Mend

open Json (Value)

/-- How important a notice is. -/
inductive Level
  | debug
  | info
  | warning
  | error
  | critical
  deriving DecidableEq, Repr

/-- The rank of a level: a log that shows a level shows all of higher rank. -/
def Level.rank : Level → Nat
  | .debug => 10
  | .info => 20
  | .warning => 30
  | .error => 40
  | .critical => 50

/-- The name of a level. -/
def Level.name : Level → Text
  | .debug => "debug"
  | .info => "info"
  | .warning => "warning"
  | .error => "error"
  | .critical => "critical"

/-- A line of the log: its level, its name and its fields. -/
structure LogEntry where
  level : Level
  event : Text
  fields : List (Text × Value)

/-- What a run reports. -/
inductive Notice
  | weaklyValidated (file : Text) (start : Nat)
  | contextMismatch (file : Text) (line : Nat)
  | patchFailed (path reason kind : Text)
  | patchApplied (path description : Text)
  | reverting (path : Text)
  | applyingBatch (count : Nat)
  | batchApplied (count : Nat)
  | batchFailed (reason : Text) (rollingBack : Nat)
  | rollbackFailed (path : Text)
  | batchRolledBack (reverted failures : Nat)
  | clustered (diagnostics clusters : Nat)
  | outputParsed (diagnostics : Nat)
  | ruleMatched (cluster rule : Text)
  | noRuleMatched (cluster pattern : Text)
  | fixesGenerated (cluster rule : Text) (instances patches : Nat)
  | runStarted (diagnostics selected : Nat) (generatorEnabled autoApply : Bool)
  | clusteringComplete (clusters : Nat)
  | runComplete (patchesApplied errorsFixed remaining : Int)
  | ruleGaveNoPatches (cluster rule : Text)
  | budgetExhausted (budget skipped : Int)
  | consulting (cluster location model : Text)
  | consultationFailed (cluster error kind : Text)
  | untargetedDropped (cluster : Text) (dropped : Nat)
  | docsFailed (cluster error : Text)
  | contextUnreadable (path : Text)
  | patchesProposed (cluster : Text) (patches : Nat)
  | starting (version : Text)
  | diagnosticsLoaded (path : Text) (count : Nat)
  | metricsWritten (path : Text)
  | fileNotFound (error : Text)
  | configurationInvalid (error : Text)
  | fatal (error : Text)
  | interrupted
  deriving DecidableEq, Repr

/-- The line of the log for a notice. -/
def Notice.entry : Notice → LogEntry
  | .weaklyValidated file start =>
    ⟨.debug, "hunk_weakly_validated", [("file_path", .text file), ("old_start", .nat start)]⟩
  | .contextMismatch file line =>
    ⟨.warning, "context_mismatch", [("file_path", .text file), ("line", .nat line)]⟩
  | .patchFailed path reason kind =>
    ⟨.error, "patch_failed",
      [("file_path", .text path), ("reason", .text reason), ("error_type", .text kind)]⟩
  | .patchApplied path description =>
    ⟨.info, "patch_applied", [("file_path", .text path), ("description", .text description)]⟩
  | .reverting path => ⟨.info, "reverting_patch", [("file_path", .text path)]⟩
  | .applyingBatch count => ⟨.info, "applying_patch_batch", [("count", .nat count)]⟩
  | .batchApplied count => ⟨.info, "patch_batch_applied", [("count", .nat count)]⟩
  | .batchFailed reason rollingBack =>
    ⟨.error, "patch_batch_failed",
      [("reason", .text reason), ("rolling_back", .nat rollingBack)]⟩
  | .rollbackFailed path => ⟨.error, "patch_rollback_failed", [("file_path", .text path)]⟩
  | .batchRolledBack reverted failures =>
    ⟨.warning, "patch_batch_rolled_back",
      [("reverted", .nat reverted), ("rollback_failures", .nat failures)]⟩
  | .clustered diagnostics clusters =>
    ⟨.debug, "diagnostics_clustered",
      [("diagnostics", .nat diagnostics), ("clusters", .nat clusters)]⟩
  | .outputParsed diagnostics =>
    ⟨.debug, "tsc_output_parsed", [("diagnostics", .nat diagnostics)]⟩
  | .ruleMatched cluster rule =>
    ⟨.info, "pattern_matched", [("cluster_id", .text cluster), ("rule_id", .text rule)]⟩
  | .noRuleMatched cluster pattern =>
    ⟨.debug, "pattern_no_match", [("cluster_id", .text cluster), ("pattern", .text pattern)]⟩
  | .fixesGenerated cluster rule instances patches =>
    ⟨.debug, "pattern_fixes_generated",
      [("cluster_id", .text cluster), ("rule_id", .text rule), ("instances", .nat instances),
        ("patches", .nat patches)]⟩
  | .runStarted diagnostics selected generatorEnabled autoApply =>
    ⟨.info, "repair_run_started",
      [("diagnostics", .nat diagnostics), ("selected", .nat selected),
        ("tier2_enabled", .bool generatorEnabled), ("auto_apply", .bool autoApply)]⟩
  | .clusteringComplete clusters =>
    ⟨.info, "clustering_complete", [("clusters", .nat clusters)]⟩
  | .runComplete patchesApplied errorsFixed remaining =>
    ⟨.info, "repair_run_complete",
      [("patches_applied", .int patchesApplied), ("errors_fixed", .int errorsFixed),
        ("remaining_issues", .int remaining)]⟩
  | .ruleGaveNoPatches cluster rule =>
    ⟨.info, "pattern_produced_no_patches",
      [("cluster_id", .text cluster), ("rule_id", .text rule)]⟩
  | .budgetExhausted budget skipped =>
    ⟨.warning, "generator_budget_exhausted",
      [("budget", .int budget), ("skipped_clusters", .int skipped)]⟩
  | .consulting cluster location model =>
    ⟨.info, "generator_request",
      [("cluster_id", .text cluster), ("location", .text location), ("model", .text model)]⟩
  | .consultationFailed cluster error kind =>
    ⟨.error, "generator_failed",
      [("cluster_id", .text cluster), ("error", .text error), ("error_type", .text kind)]⟩
  | .untargetedDropped cluster dropped =>
    ⟨.warning, "generated_patches_without_target_dropped",
      [("cluster_id", .text cluster), ("dropped", .nat dropped)]⟩
  | .docsFailed cluster error =>
    ⟨.warning, "docs_provider_failed", [("cluster_id", .text cluster), ("error", .text error)]⟩
  | .contextUnreadable path =>
    ⟨.debug, "context_file_unreadable", [("file_path", .text path)]⟩
  | .patchesProposed cluster patches =>
    ⟨.info, "patches_proposed", [("cluster_id", .text cluster), ("patches", .nat patches)]⟩
  | .starting version => ⟨.info, "starting_migration_repair", [("version", .text version)]⟩
  | .diagnosticsLoaded path count =>
    ⟨.info, "diagnostics_loaded", [("path", .text path), ("count", .nat count)]⟩
  | .metricsWritten path => ⟨.info, "metrics_written", [("path", .text path)]⟩
  | .fileNotFound error => ⟨.error, "file_not_found", [("error", .text error)]⟩
  | .configurationInvalid error => ⟨.error, "configuration_invalid", [("error", .text error)]⟩
  | .fatal error => ⟨.error, "fatal_error", [("error", .text error)]⟩
  | .interrupted => ⟨.info, "interrupted", []⟩

/-- A request to a model. -/
structure ModelRequest where
  model : Text
  maxTokens : Int
  temperature : Float
  system : Text
  prompt : Text

/-- What happens between a run and the model that it consults. -/
inductive Exchange
  | prepared (model : Text) (promptSize : Nat)
  | sent (request : ModelRequest)
  | slept (seconds : Number.Quantity)
  | waitingForTokens (wait deficit : Number.Quantity)
  | retrying (attempt : Nat) (kind message : Text) (wait : Float)
  | parsed (patches : Nat)
  | fellBack (reason : Text) (blocks : Nat)
  | unparseable (reason preview : Text)
  | discarded (reason : Text)
  | rateLimited (error : Text) (retryAfter : Option Int)
  | timedOut (error : Text)
  | refused (error : Text)

/-- The value of a quantity. -/
def quantityValue : Number.Quantity → Value
  | .whole n => .int n
  | .real x => .float x

/-- The line of the log for an exchange that has one. -/
def Exchange.entry? : Exchange → Option LogEntry
  | .sent _ => none
  | .slept _ => none
  | .prepared model size =>
    some ⟨.info, "generator_request", [("model", .text model), ("prompt_chars", .nat size)]⟩
  | .waitingForTokens wait deficit =>
    some ⟨.debug, "rate_limiter_waiting",
      [("wait_time", quantityValue wait), ("deficit", quantityValue deficit)]⟩
  | .retrying attempt kind message wait =>
    some ⟨.warning, "retrying_operation",
      [("attempt", .nat attempt), ("exception_type", .text kind),
        ("exception_message", .text message), ("wait_time", .float wait)]⟩
  | .parsed patches => some ⟨.debug, "generator_response_parsed", [("patches", .nat patches)]⟩
  | .fellBack reason blocks =>
    some ⟨.info, "generator_response_fallback",
      [("reason", .text reason), ("diff_blocks", .nat blocks)]⟩
  | .unparseable reason preview =>
    some ⟨.warning, "generator_response_unparseable",
      [("reason", .text reason), ("preview", .text preview)]⟩
  | .discarded reason =>
    some ⟨.warning, "generator_response_discarded", [("reason", .text reason)]⟩
  | .rateLimited error retryAfter =>
    some ⟨.warning, "anthropic_rate_limit",
      [("error", .text error),
        ("retry_after", match retryAfter with | some n => .int n | none => .null)]⟩
  | .timedOut error => some ⟨.error, "anthropic_timeout", [("error", .text error)]⟩
  | .refused error => some ⟨.error, "anthropic_api_error", [("error", .text error)]⟩

end Mend
