import Mend.Proofs.Overlay
import Mend.Proofs.Settings.Sections
import Mend.Settings.Shape

/-!
# Single settings

The settings of a run, of the log and of retries, one by one: where each stands, how it is read, and what it
is among all settings. Settings are read exactly where each one of them is, and the provider
(`readsAs_of_ofMembers`, `ofMembers_of_readsAs`), and so a change of one member changes one setting
(`ofMembers_set`).
-/

namespace Mend.Settings

open Schema (Checked Members Reader)

/-- All settings by default. -/
def defaults : Settings := ⟨Run.default, Provider.default, Logging.default, Retry.default⟩

/-- A setting of a run, of the log or of retries. -/
inductive Setting
  | workspaceRoot
  | maxConsultations
  | autoApply
  | useGenerator
  | strictValidation
  | severities
  | contextLines
  | logLevel
  | logFormat
  | logFile
  | maxAttempts
  | initialDelay
  | maxDelay
  deriving DecidableEq, Repr

namespace Setting

/-- The name of the section of a setting. -/
def sectionName : Setting → Text
  | workspaceRoot | maxConsultations | autoApply | useGenerator | strictValidation | severities
  | contextLines => "pipeline"
  | logLevel | logFormat | logFile => "logging"
  | maxAttempts | initialDelay | maxDelay => "retry"

/-- The name of a setting in its section. -/
def name : Setting → Text
  | workspaceRoot => "workspace_root"
  | maxConsultations => "max_patches_per_run"
  | autoApply => "auto_apply"
  | useGenerator => "use_generator"
  | strictValidation => "strict_validation"
  | severities => "severities"
  | contextLines => "context_lines"
  | logLevel => "level"
  | logFormat => "format"
  | logFile => "file"
  | maxAttempts => "max_attempts"
  | initialDelay => "initial_delay"
  | maxDelay => "max_delay"

/-- What stands under the name of a setting. -/
def shape : Setting → Shape
  | severities => .listing
  | logFile => .group [("enabled", .scalar), ("path", .scalar)]
  | _ => .scalar

/-- The values of a setting. -/
def Value : Setting → Type
  | workspaceRoot => Path
  | maxConsultations | contextLines | maxAttempts => Int
  | autoApply | useGenerator | strictValidation => Bool
  | severities => List Severity
  | logLevel | logFormat => Text
  | logFile => LogFile
  | initialDelay | maxDelay => Float

/-- The reader of a setting. -/
def reader : (f : Setting) → Reader f.Value
  | workspaceRoot => Schema.path
  | maxConsultations => Schema.integerBetween 1 (some 100)
  | autoApply | useGenerator | strictValidation => Schema.truthValue
  | severities => readSeverities
  | contextLines => Schema.integerBetween 0 (some 200)
  | logLevel => Schema.choice levelNames
  | logFormat => Schema.choice formatNames
  | logFile => LogFile.read
  | maxAttempts => Schema.integerBetween 1 (some 10)
  | initialDelay => Schema.numberBetween 0.1 10.0
  | maxDelay => Schema.numberBetween 1.0 300.0

/-- The value of a setting. -/
def get : (f : Setting) → Settings → f.Value
  | workspaceRoot, s => s.run.workspaceRoot
  | maxConsultations, s => s.run.maxConsultations
  | autoApply, s => s.run.autoApply
  | useGenerator, s => s.run.useGenerator
  | strictValidation, s => s.run.strictValidation
  | severities, s => s.run.severities
  | contextLines, s => s.run.contextLines
  | logLevel, s => s.logging.level
  | logFormat, s => s.logging.format
  | logFile, s => s.logging.file
  | maxAttempts, s => s.retry.maxAttempts
  | initialDelay, s => s.retry.initialDelay
  | maxDelay, s => s.retry.maxDelay

/-- The settings with another value of a setting. -/
def set : (f : Setting) → f.Value → Settings → Settings
  | workspaceRoot, x, s => { s with run.workspaceRoot := x }
  | maxConsultations, x, s => { s with run.maxConsultations := x }
  | autoApply, x, s => { s with run.autoApply := x }
  | useGenerator, x, s => { s with run.useGenerator := x }
  | strictValidation, x, s => { s with run.strictValidation := x }
  | severities, x, s => { s with run.severities := x }
  | contextLines, x, s => { s with run.contextLines := x }
  | logLevel, x, s => { s with logging.level := x }
  | logFormat, x, s => { s with logging.format := x }
  | logFile, x, s => { s with logging.file := x }
  | maxAttempts, x, s => { s with retry.maxAttempts := x }
  | initialDelay, x, s => { s with retry.initialDelay := x }
  | maxDelay, x, s => { s with retry.maxDelay := x }

variable {f g : Setting}

theorem get_set (x : f.Value) (s : Settings) : f.get (f.set x s) = x := by cases f <;> rfl

theorem get_set_of_ne (h : g ≠ f) (x : f.Value) (s : Settings) : g.get (f.set x s) = g.get s := by
  cases f <;> cases g <;> first | rfl | exact absurd rfl h

theorem set_get (s : Settings) : f.set (f.get s) s = s := by cases f <;> rfl

theorem provider_set (x : f.Value) (s : Settings) : (f.set x s).provider = s.provider := by cases f <;> rfl

theorem eq_of_names (hsection : g.sectionName = f.sectionName) (hname : g.name = f.name) : g = f := by
  revert hsection hname
  cases f <;> cases g <;> decide

end Setting

/-! ### Reading setting by setting -/

/-- The members of a section among all members; a section that is missing has none. -/
def sectionFields? (name : Text) (fs : Fields) : Option Fields :=
  match Datum.member? name fs with
  | none => some []
  | some d =>
    match d.opened with
    | .record gs => some gs
    | _ => none

theorem sectionFields?_eq_some {name : Text} {fs gs : Fields} : sectionFields? name fs = some gs ↔
    (Datum.member? name fs = none ∧ gs = []) ∨ ∃ d, Datum.member? name fs = some d ∧ d.opened = .record gs := by
  unfold sectionFields?
  cases Datum.member? name fs with
  | none => simp [eq_comm]
  | some d =>
    simp only [Option.some.injEq, exists_eq_left', reduceCtorEq, false_and, false_or]
    cases d.opened <;> simp

/-- A section whose reader asks only for members is read from its members. -/
theorem optional_record_eq_ok {α : Type} {name model : Text} {default a : α} {read : Members → Checked α}
    {fs : Fields} (hdefault : read (.ofFields []) = .ok default)
    (hwhole : ∀ whole gs, read ⟨whole, gs⟩ = read (.ofFields gs)) :
    Schema.optional name default (Schema.record model read) (.ofFields fs) = .ok a ↔
      ∃ gs, sectionFields? name fs = some gs ∧ read (.ofFields gs) = .ok a := by
  rw [Schema.optional_eq_ok]
  constructor
  · rintro (⟨hnone, rfl⟩ | ⟨d, hd, hrecord⟩)
    · exact ⟨[], sectionFields?_eq_some.2 (.inl ⟨hnone, rfl⟩), hdefault⟩
    · obtain ⟨gs, hopened, hread⟩ := Schema.record_eq_ok.1 hrecord
      exact ⟨gs, sectionFields?_eq_some.2 (.inr ⟨d, hd, hopened⟩), (hwhole d gs).symm.trans hread⟩
  · rintro ⟨gs, hgs, hread⟩
    rcases sectionFields?_eq_some.1 hgs with ⟨hnone, rfl⟩ | ⟨d, hd, hopened⟩
    · exact .inl ⟨hnone, Checked.ok_inj (hread.symm.trans hdefault)⟩
    · exact .inr ⟨d, hd, Schema.record_eq_ok.2 ⟨gs, hopened, (hwhole d gs).trans hread⟩⟩

section Sections

variable {fs : Fields}

theorem optional_run_eq_ok {r : Run} : Schema.optional "pipeline" Run.default Run.read (.ofFields fs) = .ok r ↔
    ∃ gs, sectionFields? "pipeline" fs = some gs ∧ Run.ofMembers (.ofFields gs) = .ok r :=
  optional_record_eq_ok rfl fun _ _ => rfl

theorem optional_logging_eq_ok {l : Logging} :
    Schema.optional "logging" Logging.default Logging.read (.ofFields fs) = .ok l ↔
      ∃ gs, sectionFields? "logging" fs = some gs ∧ Logging.ofMembers (.ofFields gs) = .ok l :=
  optional_record_eq_ok rfl fun _ _ => rfl

theorem optional_retry_eq_ok {r : Retry} :
    Schema.optional "retry" Retry.default Retry.read (.ofFields fs) = .ok r ↔
      ∃ gs, sectionFields? "retry" fs = some gs ∧ Retry.ofMembers (.ofFields gs) = .ok r :=
  optional_record_eq_ok rfl fun _ _ => rfl

end Sections

/-- Whether a setting is read as a value from all members. -/
def Setting.ReadsAs (f : Setting) (fs : Fields) (x : f.Value) : Prop :=
  ∃ gs, sectionFields? f.sectionName fs = some gs ∧
    Schema.optional f.name (f.get defaults) f.reader (.ofFields gs) = .ok x

theorem Setting.ReadsAs.optional {f : Setting} {fs gs : Fields} {x : f.Value} (h : f.ReadsAs fs x)
    (hgs : sectionFields? f.sectionName fs = some gs) :
    Schema.optional f.name (f.get defaults) f.reader (.ofFields gs) = .ok x := by
  obtain ⟨gs', hgs', hx⟩ := h
  obtain rfl := Option.some.inj (hgs'.symm.trans hgs)
  exact hx

variable {fs : Fields} {s : Settings}

theorem readsAs_of_ofMembers (h : Settings.ofMembers (.ofFields fs) = .ok s) (f : Setting) :
    f.ReadsAs fs (f.get s) := by
  obtain ⟨hrun, -, hlogging, hretry⟩ := Settings.ofMembers_eq_ok.1 h
  obtain ⟨runFields, hrunFields, hrun⟩ := optional_run_eq_ok.1 hrun
  obtain ⟨logFields, hlogFields, hlogging⟩ := optional_logging_eq_ok.1 hlogging
  obtain ⟨retryFields, hretryFields, hretry⟩ := optional_retry_eq_ok.1 hretry
  obtain ⟨hroot, hbudget, happly, hgenerator, hstrict, hseverities, hcontext⟩ := Run.ofMembers_eq_ok.1 hrun
  obtain ⟨hlevel, hformat, hfile⟩ := Logging.ofMembers_eq_ok.1 hlogging
  obtain ⟨hattempts, hinitial, hmost⟩ := Retry.ofMembers_eq_ok.1 hretry
  cases f with
  | workspaceRoot => exact ⟨runFields, hrunFields, hroot⟩
  | maxConsultations => exact ⟨runFields, hrunFields, hbudget⟩
  | autoApply => exact ⟨runFields, hrunFields, happly⟩
  | useGenerator => exact ⟨runFields, hrunFields, hgenerator⟩
  | strictValidation => exact ⟨runFields, hrunFields, hstrict⟩
  | severities => exact ⟨runFields, hrunFields, hseverities⟩
  | contextLines => exact ⟨runFields, hrunFields, hcontext⟩
  | logLevel => exact ⟨logFields, hlogFields, hlevel⟩
  | logFormat => exact ⟨logFields, hlogFields, hformat⟩
  | logFile => exact ⟨logFields, hlogFields, hfile⟩
  | maxAttempts => exact ⟨retryFields, hretryFields, hattempts⟩
  | initialDelay => exact ⟨retryFields, hretryFields, hinitial⟩
  | maxDelay => exact ⟨retryFields, hretryFields, hmost⟩

/-- Settings are read where the provider and every setting are. -/
theorem ofMembers_of_readsAs
    (hprovider : Schema.optional "llm" Provider.default Provider.read (.ofFields fs) = .ok s.provider)
    (h : ∀ f : Setting, f.ReadsAs fs (f.get s)) : Settings.ofMembers (.ofFields fs) = .ok s := by
  obtain ⟨runFields, hrun, -⟩ := h .workspaceRoot
  obtain ⟨logFields, hlogging, -⟩ := h .logLevel
  obtain ⟨retryFields, hretry, -⟩ := h .maxAttempts
  refine Settings.ofMembers_eq_ok.2 ⟨?_, hprovider, ?_, ?_⟩
  · refine optional_run_eq_ok.2 ⟨runFields, hrun, Run.ofMembers_eq_ok.2 ?_⟩
    exact ⟨(h .workspaceRoot).optional hrun, (h .maxConsultations).optional hrun, (h .autoApply).optional hrun,
      (h .useGenerator).optional hrun, (h .strictValidation).optional hrun, (h .severities).optional hrun,
      (h .contextLines).optional hrun⟩
  · refine optional_logging_eq_ok.2 ⟨logFields, hlogging, Logging.ofMembers_eq_ok.2 ?_⟩
    exact ⟨(h .logLevel).optional hlogging, (h .logFormat).optional hlogging, (h .logFile).optional hlogging⟩
  · refine optional_retry_eq_ok.2 ⟨retryFields, hretry, Retry.ofMembers_eq_ok.2 ?_⟩
    exact ⟨(h .maxAttempts).optional hretry, (h .initialDelay).optional hretry, (h .maxDelay).optional hretry⟩

/-- A change of the member of one setting changes this setting alone. -/
theorem ofMembers_set {f : Setting} {fs' gs gs' : Fields} {y : f.Value}
    (h : Settings.ofMembers (.ofFields fs) = .ok s)
    (hsections : ∀ other, other ≠ f.sectionName → Datum.member? other fs' = Datum.member? other fs)
    (hgs : sectionFields? f.sectionName fs = some gs) (hgs' : sectionFields? f.sectionName fs' = some gs')
    (hmembers : ∀ other, other ≠ f.name → Datum.member? other gs' = Datum.member? other gs)
    (hy : Schema.optional f.name (f.get defaults) f.reader (.ofFields gs') = .ok y) :
    Settings.ofMembers (.ofFields fs') = .ok (f.set y s) := by
  refine ofMembers_of_readsAs ?_ fun g => ?_
  · obtain ⟨-, hprovider, -⟩ := Settings.ofMembers_eq_ok.1 h
    have hllm : ("llm" : Text) ≠ f.sectionName := by cases f <;> decide
    rw [Setting.provider_set]
    exact (Schema.optional_congr (hsections _ hllm) _).trans hprovider
  · by_cases hg : g = f
    · subst hg
      rw [Setting.get_set]
      exact ⟨gs', hgs', hy⟩
    · have hold := readsAs_of_ofMembers h g
      rw [Setting.get_set_of_ne hg]
      by_cases hsection : g.sectionName = f.sectionName
      · -- Another setting of the same section goes by another name.
        have hname : g.name ≠ f.name := fun hname => hg (Setting.eq_of_names hsection hname)
        rw [← hsection] at hgs hgs'
        exact ⟨gs', hgs', (Schema.optional_congr (hmembers _ hname) _).trans (hold.optional hgs)⟩
      · obtain ⟨gs0, hgs0, hoptional⟩ := hold
        refine ⟨gs0, ?_, hoptional⟩
        rwa [sectionFields?, hsections _ hsection]

end Mend.Settings
