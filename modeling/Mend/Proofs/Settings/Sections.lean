import Mathlib.Tactic.Simproc.ExistsAndEq
import Mend.Proofs.Schema
import Mend.Settings

/-!
# Sections member by member

A section is read exactly where each of its members is, and the settings where each section is.
-/

namespace Mend

open Schema (Checked Members)

namespace Settings

variable {ms : Members}

theorem Run.ofMembers_eq_ok {r : Run} : Run.ofMembers ms = .ok r ↔
    Schema.optional "workspace_root" Run.default.workspaceRoot Schema.path ms = .ok r.workspaceRoot ∧
    Schema.optional "max_patches_per_run" 10 (Schema.integerBetween 1 (some 100)) ms = .ok r.maxConsultations ∧
    Schema.optional "auto_apply" true Schema.truthValue ms = .ok r.autoApply ∧
    Schema.optional "use_generator" true Schema.truthValue ms = .ok r.useGenerator ∧
    Schema.optional "strict_validation" false Schema.truthValue ms = .ok r.strictValidation ∧
    Schema.optional "severities" [.error] readSeverities ms = .ok r.severities ∧
    Schema.optional "context_lines" 15 (Schema.integerBetween 0 (some 200)) ms = .ok r.contextLines := by
  rw [Checked.eq_ok_iff, Run.ofMembers]
  simp only [Checked.exists_apply, Checked.exists_ok]
  cases r
  simp only [Run.mk.injEq, ↓existsAndEq, and_true]

theorem Provider.ofMembers_eq_ok {p : Provider} : Provider.ofMembers ms = .ok p ↔
    Schema.optional "provider" onlyProvider (Schema.choice [onlyProvider]) ms = .ok p.name ∧
    Schema.optional "anthropic" none (Schema.orNull Model.read) ms = .ok p.anthropic := by
  rw [Checked.eq_ok_iff, Provider.ofMembers]
  simp only [Checked.exists_apply, Checked.exists_ok]
  cases p
  simp only [Provider.mk.injEq, ↓existsAndEq, and_true]

theorem LogFile.ofMembers_eq_ok {f : LogFile} : LogFile.ofMembers ms = .ok f ↔
    Schema.optional "enabled" false Schema.truthValue ms = .ok f.enabled ∧
    Schema.optional "path" LogFile.default.path Schema.path ms = .ok f.path := by
  rw [Checked.eq_ok_iff, LogFile.ofMembers]
  simp only [Checked.exists_apply, Checked.exists_ok]
  cases f
  simp only [LogFile.mk.injEq, ↓existsAndEq, and_true]

theorem Logging.ofMembers_eq_ok {l : Logging} : Logging.ofMembers ms = .ok l ↔
    Schema.optional "level" Logging.default.level (Schema.choice levelNames) ms = .ok l.level ∧
    Schema.optional "format" Logging.default.format (Schema.choice formatNames) ms = .ok l.format ∧
    Schema.optional "file" LogFile.default LogFile.read ms = .ok l.file := by
  rw [Checked.eq_ok_iff, Logging.ofMembers]
  simp only [Checked.exists_apply, Checked.exists_ok]
  cases l
  simp only [Logging.mk.injEq, ↓existsAndEq, and_true, Logging.default]

theorem Retry.ofMembers_eq_ok {r : Retry} : Retry.ofMembers ms = .ok r ↔
    Schema.optional "max_attempts" 3 (Schema.integerBetween 1 (some 10)) ms = .ok r.maxAttempts ∧
    Schema.optional "initial_delay" 1.0 (Schema.numberBetween 0.1 10.0) ms = .ok r.initialDelay ∧
    Schema.optional "max_delay" 30.0 (Schema.numberBetween 1.0 300.0) ms = .ok r.maxDelay := by
  rw [Checked.eq_ok_iff, Retry.ofMembers]
  simp only [Checked.exists_apply, Checked.exists_ok]
  cases r
  simp only [Retry.mk.injEq, ↓existsAndEq, and_true]

theorem ofMembers_eq_ok {s : Settings} : Settings.ofMembers ms = .ok s ↔
    Schema.optional "pipeline" Run.default Run.read ms = .ok s.run ∧
    Schema.optional "llm" Provider.default Provider.read ms = .ok s.provider ∧
    Schema.optional "logging" Logging.default Logging.read ms = .ok s.logging ∧
    Schema.optional "retry" Retry.default Retry.read ms = .ok s.retry := by
  rw [Checked.eq_ok_iff, Settings.ofMembers]
  simp only [Checked.exists_apply, Checked.exists_ok]
  cases s
  simp only [Settings.mk.injEq, ↓existsAndEq, and_true]

end Settings

end Mend
