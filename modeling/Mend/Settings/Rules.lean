import Mend.Datum
import Mend.Path
import Mend.Template
import Mend.Text.LetterCase

/-!
# Rules for sources

How the variables that hold settings are named and where they are found. There are default rules, and
members with reserved names beside the sections change them. A reserved member that is null changes
nothing, except that without a file of variables none is read.
-/

namespace Mend.Settings

/-! ### Reserved members -/

/-- Why a reserved member is refused. Kinds are given by their names. -/
inductive RuleError
  /-- A name that no member may have. -/
  | takenName (name : Text)
  | noDifference (kind : Text)
  | noLength (kind : Text)
  | notIterable (kind : Text)
  | notPath (kind : Text)
  | notEncoding (kind : Text)
  /-- A path given as bytes. -/
  | bytesPath
  /-- A path that begins in the folder of an unknown user. -/
  | noHome
  deriving DecidableEq, Repr

/-- The text of the error. -/
def RuleError.message : RuleError → Text
  | .takenName name => "BaseSettings.__init__() got multiple values for argument " ++ Text.quoted name
  | .noDifference kind =>
    "unsupported operand type(s) for -: " ++ Text.quoted kind ++ " and 'int'"
  | .noLength kind => "object of type " ++ Text.quoted kind ++ " has no len()"
  | .notIterable kind => Text.quoted kind ++ " object is not iterable"
  | .notPath kind => "expected str, bytes or os.PathLike object, not " ++ kind
  | .notEncoding kind => "open() argument 'encoding' must be str or None, not " ++ kind
  | .bytesPath =>
    "argument should be a str object or an os.PathLike object returning str, not <class 'bytes'>"
  | .noHome => "Could not determine home directory."

/-- The name that no member may have. -/
def ownName : Text := "__pydantic_self__"

/-- The reserved names. -/
def reservedNames : List Text :=
  ["_case_sensitive", "_env_prefix", "_env_file", "_env_file_encoding", "_env_ignore_empty",
    "_env_nested_delimiter", "_env_nested_max_split", "_env_parse_none_str", "_secrets_dir"]

/-- The value of a reserved member that is not null. -/
def reserved? (name : Text) (fs : Fields) : Option Datum :=
  match Datum.member? name fs with
  | some .null => none
  | d => d

/-! ### Paths -/

/-- The name of the kind of a datum, with the library of times before theirs. -/
def kindName (d : Datum) : Text :=
  match d with
  | .atom (.other kind _ _) => "datetime." ++ kind
  | d => d.kind

/-- The variable with the user's own folder. -/
def homeVariable : Text := "HOME"

/-- The path that a text names; a first name that is a tilde is the user's own folder. -/
def pathFrom (env : Environment) (t : Text) : Except RuleError Path :=
  let p := Path.ofText t
  match p.isAbsolute, p.names with
  | false, ('~' :: user) :: names =>
    if user.isEmpty then
      .ok ((Path.ofText ((env.lookup homeVariable).getD "/root")).join ⟨.relative, names⟩)
    else .error .noHome
  | _, _ => .ok p

/-- The path that an item names. -/
def itemPath (env : Environment) : Datum → Except RuleError Path
  | .text t => pathFrom env t
  | .bytes _ => .error .bytesPath
  | d => .error (.notPath (kindName d))

/-- The paths that a text or a collection of texts names. -/
def pathsOf (env : Environment) (d : Datum) : Except RuleError (List Path) :=
  match d.opened with
  | .text t => (pathFrom env t).map ([·])
  | .list ds => ds.mapM (itemPath env)
  | .set as => as.mapM fun a => itemPath env (.atom a)
  | .record fs => fs.mapM fun (k, _) => itemPath env (.atom k)
  | .bytes [] => .ok []
  | .bytes _ => .error (.notPath "int")
  | d => .error (.notIterable (kindName d))

/-! ### Rules -/

/-- What the names of all variables begin with. -/
def variableStart : Text := "MIGRATION_REPAIR_"

/-- The file of variables. -/
def variableFile : Path := .ofText ".env"

/-- How variables are named and where they are found. -/
structure SourceRules where
  /-- Whether the case of letters in names matters. -/
  caseMatters : Bool := false
  /-- What the names of all variables begin with, if names can be made at all. -/
  start : Option Text := some variableStart
  /-- What stands between the parts of a name; no text if names have one part only. -/
  delimiter : Text := "__"
  /-- Into how many parts a name is cut at most, after the name of the section. -/
  mostParts : Option Nat := none
  files : List Path := [variableFile]
  /-- The name of the encoding of the files. -/
  encoding : Except RuleError Text := .ok "utf8"
  /-- Whether variables without a text are left out. -/
  ignoresEmpty : Bool := false
  /-- The text that stands for null. -/
  nullText : Option Text := none
  /-- The folders in which files are variables. -/
  folders : Except RuleError (List Path) := .ok []

namespace SourceRules

/-- The number of parts for a number of cuts that counts from one. -/
def partsOf (n : Int) : Option Nat := if 1 ≤ n then some n.toNat else none

/-- The greatest number of parts. -/
def readMostParts (fs : Fields) : Except RuleError (Option Nat) :=
  match reserved? "_env_nested_max_split" fs with
  | none => .ok none
  | some (.int n) => .ok (partsOf n)
  | some (.bool b) => .ok (if b then some 1 else none)
  | some (.float _) => .ok none
  | some d => if d.isVoid then .ok none else .error (.noDifference (kindName d))

/-- What names begin with. -/
def readStart (fs : Fields) : Except RuleError (Option Text) :=
  match reserved? "_env_prefix" fs with
  | none => .ok (some variableStart)
  | some d =>
    match d with
    | .text t => .ok (some t)
    | .bytes _ => .ok none
    | .atom _ => .error (.noLength (kindName d))
    | _ => .ok none

/-- The files of variables. -/
def readFiles (env : Environment) (fs : Fields) : Except RuleError (List Path) :=
  match Datum.member? "_env_file" fs with
  | none => .ok [variableFile]
  | some .null => .ok []
  | some d => pathsOf env d

/-- The name of the encoding of the files. A member that counts as nothing names none. -/
def readEncoding (fs : Fields) : Except RuleError Text :=
  match reserved? "_env_file_encoding" fs with
  | some (.text (c :: t)) => .ok (c :: t)
  | some d => if d.isVoid then .ok "utf8" else .error (.notEncoding (kindName d))
  | none => .ok "utf8"

/-- A text that a reserved member gives, and none for a member that counts as nothing. -/
def readText (name : Text) (default : Text) (fs : Fields) : Text :=
  match reserved? name fs with
  | none => default
  | some (.text t) => t
  | some _ => []

/-- Whether a reserved member is there and does not count as nothing. -/
def readFlag (name : Text) (fs : Fields) : Bool := (reserved? name fs).any (!·.isVoid)

/-- The folders of variables. -/
def readFolders (env : Environment) (fs : Fields) : Except RuleError (List Path) :=
  match reserved? "_secrets_dir" fs with
  | none => .ok []
  | some d => pathsOf env d

/-- The rules for the members that are given. -/
def ofFields (env : Environment) (fs : Fields) : Except RuleError SourceRules := do
  if (Datum.member? ownName fs).isSome then .error (.takenName ownName)
  let mostParts ← readMostParts fs
  let start ← readStart fs
  let files ← readFiles env fs
  return {
    caseMatters := readFlag "_case_sensitive" fs
    start := start
    delimiter := readText "_env_nested_delimiter" "__" fs
    mostParts := mostParts
    files := files
    encoding := readEncoding fs
    ignoresEmpty := readFlag "_env_ignore_empty" fs
    nullText := match reserved? "_env_parse_none_str" fs with
      | some (.text t) => some t
      | _ => none
    folders := readFolders env fs }

/-! ### Names -/

/-- A name, in small letters unless the case matters. -/
def fold (r : SourceRules) (t : Text) : Text := if r.caseMatters then t else Text.lower t

/-- The name of the variable for a section or a setting, if names can be made. -/
def nameOf? (r : SourceRules) (name : Text) : Option Text := r.start.map fun s => r.fold (s ++ name)

/-- Whether a key in the name of a variable stands for a field. -/
def stands (r : SourceRules) (key field : Text) : Bool :=
  r.fold key = field || r.nameOf? field = some (r.fold key)

end SourceRules

end Mend.Settings
