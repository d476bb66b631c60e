import Mend.Json.Reader
import Mend.Overlay
import Mend.Settings.Shape
import Mend.TextFile
import Mend.VariableFile

/-!
# Sources of settings

Settings come from members that are given, from variables of the environment, from files of variables, and
from folders in which each file is a variable; what is said first is what counts. The variable of a
section holds a JSON object; the variable of a setting has the name of the section, a delimiter and the
name of the setting.
-/

namespace Mend.Settings

/-- Where variables come from. -/
inductive Source
  | environment
  | file
  | folder
  deriving DecidableEq, Repr

/-- The name of a source, as an error shows it. -/
def Source.name : Source → Text
  | .environment => "EnvSettingsSource"
  | .file => "DotEnvSettingsSource"
  | .folder => "SecretsSettingsSource"

/-- Why settings could not be collected. -/
inductive SourceError
  /-- The rules for sources are not valid. -/
  | rules (e : RuleError)
  /-- A file of variables has no text. -/
  | file (e : TextFile.ReadError)
  | unknownEncoding (name : Text)
  /-- The value for a section cannot be found. -/
  | hidden (section_ : Text) (source : Source)
  /-- A variable for a section holds no JSON. -/
  | notJson (section_ : Text) (source : Source)
  /-- A variable holds JSON beyond what can be read. -/
  | unreadable (e : Json.ReadError)
  | notFolder
  deriving DecidableEq, Repr

/-- The place of an error with a value. -/
def errorPlace (section_ : Text) (source : Source) : Text :=
  "value for field \"" ++ section_ ++ "\" from source \"" ++ source.name ++ "\""

/-- The text of the error. -/
def SourceError.message : SourceError → Text
  | .rules e => e.message
  | .file e => e.message
  | .unknownEncoding name => "unknown encoding: " ++ name
  | .hidden name source => "error getting " ++ errorPlace name source
  | .notJson name source => "error parsing " ++ errorPlace name source
  | .unreadable e => e.message
  | .notFolder => "secrets_dir must reference a directory, not a file"

/-! ### Variables -/

/-- Variables with their values, if they have one, by their names. -/
abbrev Variables : Type := List (Text × Option Text)

/-- The variables under the names by which they are found; of those with one name the last counts. -/
def SourceRules.variables (r : SourceRules) (vs : Variables) : Variables :=
  Assoc.ofList ((vs.filter fun v => !(r.ignoresEmpty && v.2 = some [])).map fun (name, value) =>
    (r.fold name, value))

/-- The parts of a name between delimiters, which are looked for so many times. -/
def splitName (delimiter : Text) : (cuts : Nat) → Text → List Text
  | 0, t => [t]
  | cuts + 1, t =>
    match Text.breakOn delimiter t with
    | some (part, rest) => part :: splitName delimiter cuts rest
    | none => [t]

/-- The result of reading JSON: a value, none, or an error that ends everything. -/
def readJson (depth : Nat) (t : Text) : Except SourceError (Option Json.Value) :=
  match Json.read depth t with
  | .ok v => .ok (some v)
  | .error .listTooDeep => .error (.unreadable .listTooDeep)
  | .error .objectTooDeep => .error (.unreadable .objectTooDeep)
  | .error _ => .ok none

/-- What the text of a variable puts into its place. The text for null replaces nothing but a record
without members. -/
def SourceRules.plain (r : SourceRules) (t : Text) : Option Datum → Datum
  | none => if r.nullText = some t then .null else .text t
  | some (.record []) => if r.nullText = some t then .null else .text t
  | some old => if r.nullText = some t then old else .text t

/-- What a variable puts into the place of what it stands for, if it stands for anything. -/
def SourceRules.valueFor (r : SourceRules) (depth : Nat) (error : SourceError)
    (target : Option Shape) (value : Option Text) : Except SourceError (Option Datum → Datum) :=
  match target, value with
  | _, none => .ok fun _ => .null
  | some shape, some (c :: t) =>
    if shape.isJson then
      match readJson depth (c :: t) with
      | .error e => .error e
      | .ok (some v) => .ok fun _ => .ofJson v
      | .ok none => if shape.mayBeText then .ok (r.plain (c :: t)) else .error error
    else .ok (r.plain (c :: t))
  | _, some t => .ok (r.plain t)

/-- The members that the variables of single settings make for a section. Their names begin alike. -/
def SourceRules.memberVariables (r : SourceRules) (depth : Nat) (error : SourceError)
    (start : Text) (shape : Shape) : Variables → Fields → Except SourceError Fields
  | [], fs => .ok fs
  | (name, value) :: vs, fs =>
    match Text.after? start name with
    | none => r.memberVariables depth error start shape vs fs
    | some rest =>
      let cuts := match r.mostParts with
        | some most => most - 1
        | none => rest.length
      let way := splitName r.delimiter cuts rest
      let target := way.foldl (fun s key => s.bind (·.field? r key)) (some shape)
      match r.valueFor depth error target value with
      | .error e => .error e
      | .ok change => r.memberVariables depth error start shape vs (Datum.alter change way fs)

/-- The datum that the variables of a source make for a section, if they make one. -/
def SourceRules.sectionDatum (r : SourceRules) (depth : Nat) (source : Source) (vs : Variables)
    (name : Text) (shape : Shape) : Except SourceError (Option Datum) :=
  match r.nameOf? name with
  | none => .error (.hidden name source)
  | some key =>
    let error := SourceError.notJson name source
    let members :=
      if r.delimiter.isEmpty then .ok []
      else r.memberVariables depth error (key ++ r.delimiter) shape vs []
    match vs.lookup key with
    | some (some t) =>
      if r.nullText = some t then .ok (some .null)
      else match readJson depth t with
        | .error e => .error e
        | .ok none => .error error
        | .ok (some .null) => .ok none
        | .ok (some v) =>
          match Datum.ofJson v with
          | .record fs => members.map fun own => some (.record (Datum.membersOver fs own))
          | d => .ok (some d)
    | _ => members.map fun fs => if fs.isEmpty then none else some (.record fs)

/-- The members of a section under the names of its settings, where the case of letters does not
matter. -/
def SourceRules.renamed (r : SourceRules) (shape : Shape) (d : Datum) : Datum :=
  if r.caseMatters then d else named shape d

/-- The sections that a source makes. -/
def SourceRules.sectionsFrom (r : SourceRules)
    (datum : Text → Shape → Except SourceError (Option Datum)) :
    List (Text × Shape) → Except SourceError Fields
  | [] => .ok []
  | (name, shape) :: rest =>
    match datum name shape with
    | .error e => .error e
    | .ok d =>
      match r.sectionsFrom datum rest with
      | .error e => .error e
      | .ok fs => .ok (match d with
        | some d => (.text name, r.renamed shape d) :: fs
        | none => fs)

/-! ### Files of variables -/

/-- The variables of one file; without the file there are none. -/
def SourceRules.variablesOf (r : SourceRules) (env : Environment) (files : FileTree) (path : Path) :
    Except SourceError Variables := do
  if !(← (files.holdsFile path).mapError fun e => .file (.file e)) then return []
  let name ← r.encoding.mapError .rules
  match Encoding.named? name with
  | none => .error (.unknownEncoding name)
  | some encoding =>
    let t ← (TextFile.readIn encoding files path).mapError .file
    return VariableFile.read env t

/-- The variables of all files; those of a later file count before those of an earlier one. -/
def SourceRules.fileVariables (r : SourceRules) (env : Environment) (files : FileTree) :
    Except SourceError Variables :=
  (r.files.mapM (r.variablesOf env files)).map fun vss => r.variables vss.flatten

/-! ### Folders of variables -/

/-- The folders of variables that are there. -/
def SourceRules.foldersIn (r : SourceRules) (files : FileTree) : Except SourceError (List Path) := do
  let named ← r.folders.mapError .rules
  let hidden (e : FileError) : SourceError := .file (.file e)
  let there ← named.filterM fun p => (files.holds p).mapError hidden
  if ← there.anyM fun p => (files.holdsFile p).mapError hidden then .error .notFolder
  return there

/-- The files that may hold variables of sections in the folders of variables: under names in the usual
cases of letters. -/
def SourceRules.keyFiles (r : SourceRules) : List Path :=
  let keys := Shape.sections.filterMap fun s => r.nameOf? s.1
  (r.folders.toOption.getD []).flatMap fun folder =>
    (keys ++ keys.map Text.upper).map fun key => folder.join ⟨.relative, [key]⟩

/-- The text of the first file in some folders that is the variable of a section. -/
def SourceRules.textIn (r : SourceRules) (files : FileTree) (key : Text) :
    List Path → Except TextFile.ReadError (Option Text)
  | [] => .ok none
  | folder :: folders => do
    match (files.entries folder).find? fun n => r.fold n = r.fold key with
    | none => r.textIn files key folders
    | some entry =>
      let path := folder.join ⟨.relative, [entry]⟩
      if ← (files.holdsFile path).mapError .file then
        return some (Text.trim (← TextFile.read files path))
      else r.textIn files key folders

/-- The datum that the folders of variables make for a section, if they make one. -/
def SourceRules.folderDatum (r : SourceRules) (depth : Nat) (files : FileTree)
    (folders : List Path) (name : Text) : Except SourceError (Option Datum) := do
  let some key := r.nameOf? name | .error (.hidden name .folder)
  match ← (r.textIn files key folders.reverse).mapError fun _ => .hidden name .folder with
  | none => return none
  | some t =>
    match ← readJson depth t with
    | none => .error (.notJson name .folder)
    | some .null => return none
    | some v => return some (.ofJson v)

/-- The sections that the folders of variables make. -/
def SourceRules.folderSections (r : SourceRules) (depth : Nat) (files : FileTree) :
    Except SourceError Fields := do
  let folders ← r.foldersIn files
  if folders.isEmpty then return []
  r.sectionsFrom (fun name _ => r.folderDatum depth files folders name) Shape.sections

/-! ### All sources -/

/-- The sections that are given; of members with one name the first counts. -/
def SourceRules.givenSections (r : SourceRules) (given : Fields) : Fields :=
  Shape.sections.filterMap fun (name, _) =>
    (given.find? fun
      | (.text key, _) => r.fold key = name
      | _ => false).map fun (_, d) => (.text name, d)

/-- The sections from all sources. The given ones come before those of the environment, these before those
of files, and these before those of folders. -/
def collect (depth : Nat) (env : Environment) (files : FileTree) (given : Fields) :
    Except SourceError Fields := do
  let r ← (SourceRules.ofFields env given).mapError .rules
  let environment := r.variables (env.map fun (name, value) => (name, some value))
  let own ← r.fileVariables env files
  let high ← r.sectionsFrom (r.sectionDatum depth .environment environment) Shape.sections
  let low ← r.sectionsFrom (r.sectionDatum depth .file own) Shape.sections
  let lowest ← r.folderSections depth files
  return Datum.membersOver lowest (Datum.membersOver low (Datum.membersOver high (r.givenSections given)))

end Mend.Settings
