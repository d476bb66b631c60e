import Mend.Settings
import Mend.Settings.Source
import Mend.Template
import Mend.Yaml.Document

/-!
# Loading settings

Settings are collected from their sources and read. A settings file is a YAML text in which references to
variables are replaced before it is read; its outermost mapping holds the sections. A run that may
consult the generator needs the settings of the model.
-/

namespace Mend

namespace Settings

/-- Why there are no settings. -/
inductive LoadError
  | missing (path : Text)
  /-- It cannot be found out whether the file is there. -/
  | hidden (e : FileError)
  | unreadable (e : TextFile.ReadError)
  | variable (m : Template.MissingVariable)
  | yaml (e : Yaml.Error)
  | notMapping
  | badName
  | source (e : SourceError)
  | invalid (model : Text) (issues : List Schema.Issue)
  | noModel
  | noBudget

/-- The text of the error. -/
def LoadError.message : LoadError → Text
  | .missing path => "Configuration file not found: " ++ path
  | .hidden e => e.message
  | .unreadable e => e.message
  | .variable m => m.message
  | .yaml e => e.message
  | .notMapping => "Configuration root must be a mapping"
  | .badName => "keywords must be strings"
  | .source e => e.message
  | .invalid model issues => Schema.report model issues
  | .noModel => "Anthropic provider selected but anthropic config missing"
  | .noBudget => "--max-patches must be at least 1"

/-- The name of the settings in reports. -/
def modelName : Text := "RepairConfig"

/-- How deep JSON and YAML may nest to be read, in values and in collections. -/
structure Depths where
  json : Nat
  yaml : Nat

/-- The settings from the given members and all other sources. -/
def fromSources (depth : Nat) (env : Environment) (files : FileTree) (given : Fields) :
    Except LoadError Settings :=
  match collect depth env files given with
  | .error e => .error (.source e)
  | .ok fs =>
    match Settings.ofMembers (.ofFields fs) with
    | .ok s => .ok s
    | .error issues => .error (.invalid modelName issues)

/-- Whether an error says that a value is not valid. -/
def SourceError.isInvalidValue : SourceError → Bool
  | .file (.encoding _) => true
  | .hidden _ _ => true
  | .notJson _ _ => true
  | .notFolder => true
  | _ => false

/-- An error with the other sources when a datum is given: where it says that a value is not valid, it is an
issue with this datum. -/
def LoadError.withGiven (given : Datum) : LoadError → LoadError
  | .source e =>
    if e.isInvalidValue then .invalid modelName [⟨[], .refused e.message, given⟩] else .source e
  | e => e

/-- The settings from a given datum and all other sources. -/
def ofDatum (depth : Nat) (env : Environment) (files : FileTree) (given : Datum) :
    Except LoadError Settings :=
  match given.opened with
  | .record fs =>
    if fs.all fun f => f.1.isString then
      match fromSources depth env files fs with
      | .error e => .error (e.withGiven given)
      | .ok s => .ok s
    else .error .badName
  | _ => .error (.invalid modelName [⟨[], .notRecord modelName, given⟩])

/-- The settings, unless they ask for the generator without the settings of the model. -/
def checkModel (s : Settings) : Except LoadError Settings :=
  if s.run.useGenerator && s.provider.name = onlyProvider && s.provider.anthropic.isNone then
    .error .noModel
  else .ok s

/-- The outermost mapping of a YAML text. An empty document stands for an empty one. -/
def mappingOfYaml (depth : Nat) (t : Text) : Except LoadError Datum :=
  match Yaml.Document.read depth t with
  | .error e => .error (.yaml e)
  | .ok d =>
    if d.content.isVoid then .ok (.record [])
    else match d.content.opened with
      | .record _ => .ok d.content
      | _ => .error .notMapping

/-- The outermost mapping of a text in a settings file. -/
def mappingOfText (depth : Nat) (env : Environment) (t : Text) : Except LoadError Datum :=
  match Template.fill env t with
  | .error m => .error (.variable m)
  | .ok yaml => mappingOfYaml depth yaml

/-- The settings of a text in a settings file. -/
def ofText (depths : Depths) (env : Environment) (files : FileTree) (t : Text) :
    Except LoadError Settings :=
  match mappingOfText depths.yaml env t with
  | .error e => .error e
  | .ok given =>
    match ofDatum depths.json env files given with
    | .error e => .error e
    | .ok s => checkModel s

/-- The text of a settings file. -/
def textOfFile (files : FileTree) (path : Path) : Except LoadError Text :=
  match files.holds path with
  | .error e => .error (.hidden e)
  | .ok false => .error (.missing path.text)
  | .ok true => (TextFile.read files path).mapError .unreadable

/-- The settings of a settings file. -/
def ofFile (depths : Depths) (env : Environment) (files : FileTree) (path : Path) :
    Except LoadError Settings :=
  match textOfFile files path with
  | .error e => .error e
  | .ok t => ofText depths env files t

/-- The rules for sources in a settings file; the default ones if none can be read there. -/
def rulesOfFile (depth : Nat) (env : Environment) (files : FileTree) (path : Path) : SourceRules :=
  match (textOfFile files path).bind (mappingOfText depth env) with
  | .error _ => {}
  | .ok d =>
    match d.opened with
    | .record fs => (SourceRules.ofFields env fs).toOption.getD {}
    | _ => {}

/-! ### Choices of the user -/

/-- What the user says about the settings of a run. -/
structure Choices where
  config : Option Path := none
  workspace : Option Path := none
  withoutGenerator : Bool := false
  withoutApplying : Bool := false
  maxConsultations : Option Int := none

/-- The variable with the key of the service. -/
def keyVariable : Text := "ANTHROPIC_API_KEY"

/-- The settings of the model: those that are there, or default ones with the key of the environment. -/
def modelFrom (env : Environment) (p : Provider) : Except LoadError (Option Model) :=
  match p.anthropic, env.lookup keyVariable with
  | some m, _ => .ok (some m)
  | none, some (c :: key) =>
    match Model.ofMembers (.ofFields [(.text "api_key", .text (c :: key))]) with
    | .ok m => .ok (some m)
    | .error issues => .error (.invalid "AnthropicConfig" issues)
  | none, _ => .ok none

/-- The settings without a settings file. Without the settings of a model the generator is off. -/
def withoutFile (depth : Nat) (env : Environment) (files : FileTree) : Except LoadError Settings :=
  match fromSources depth env files [] with
  | .error e => .error e
  | .ok s =>
    match modelFrom env s.provider with
    | .error e => .error e
    | .ok model =>
      .ok { s with
        provider := { s.provider with anthropic := model }
        run := { s.run with useGenerator := s.run.useGenerator && model.isSome } }

/-- The settings of a run under the choices of the user. -/
def Run.under (c : Choices) (r : Run) : Run :=
  { r with
    workspaceRoot := c.workspace.getD r.workspaceRoot
    useGenerator := r.useGenerator && !c.withoutGenerator
    autoApply := r.autoApply && !c.withoutApplying
    maxConsultations := c.maxConsultations.getD r.maxConsultations }

/-- The settings that the user chose. -/
def choose (depths : Depths) (env : Environment) (files : FileTree) (c : Choices) :
    Except LoadError Settings :=
  match (match c.config with
    | some path => ofFile depths env files path
    | none => withoutFile depths.json env files) with
  | .error e => .error e
  | .ok s =>
    if c.maxConsultations.any (· < 1) then .error .noBudget
    else checkModel { s with run := s.run.under c }

end Settings

end Mend
