import Mend.Number.Integer
import Mend.Path
import Mend.Text.Digit
import Mend.Text.Quoted

/-!
# Options of the command line

Each option has one or two names, and some take an argument: the next word, or what follows the name
and an equals sign, or what follows a letter. A long name may be shortened as long as it fits one
option only. Letters without an argument may share one dash. What is neither an option nor an
argument is refused in the end.
-/

namespace Mend

/-- The formats of the log. -/
inductive LogFormat
  | json
  | console
  deriving DecidableEq, Repr

/-- The name of a format. -/
def LogFormat.name : LogFormat → Text
  | json => "json"
  | console => "console"

/-- The format with a name. -/
def LogFormat.ofName? (t : Text) : Option LogFormat := [json, console].find? fun f => f.name = t

namespace Options

/-- An option. -/
inductive Switch
  | help
  | version
  | diagnostics
  | config
  | workspace
  | docs
  | dryRun
  | noGenerator
  | noApply
  | maxPatches
  | metricsOut
  | debug
  | format
  deriving DecidableEq, Repr

end Options

/-- What the user asks for. -/
structure Options where
  diagnostics : Path
  config : Option Path := none
  workspace : Option Path := none
  docs : Option Path := none
  dryRun : Bool := false
  noGenerator : Bool := false
  noApply : Bool := false
  maxPatches : Option Int := none
  metricsOut : Option Path := none
  debug : Bool := false
  format : Option LogFormat := none
  /-- The options that are there with an argument that was dropped. -/
  emptied : List Options.Switch := []
  deriving DecidableEq

namespace Options

/-- The names of all options, in order. -/
def switchNames : List (Text × Switch) :=
  [("-h", .help), ("--help", .help), ("--version", .version), ("--diagnostics", .diagnostics),
    ("-c", .config), ("--config", .config), ("-w", .workspace), ("--workspace", .workspace),
    ("--docs", .docs), ("--dry-run", .dryRun), ("--no-generator", .noGenerator),
    ("--no-apply", .noApply), ("--max-patches", .maxPatches), ("--metrics-out", .metricsOut),
    ("-d", .debug), ("--debug", .debug), ("--format", .format)]

namespace Switch

/-- Whether an option takes an argument. -/
def takesArgument : Switch → Bool
  | help => false
  | version => false
  | dryRun => false
  | noGenerator => false
  | noApply => false
  | debug => false
  | _ => true

/-- All names of an option, as errors show them. -/
def names (s : Switch) : Text :=
  Text.joinOn '/' ((switchNames.filter fun n => n.2 = s).map (·.1))

end Switch

/-! ### Errors -/

/-- Why the words of a command line are refused. -/
inductive UsageError
  | ambiguous (word : Text) (matching : List Text)
  | noArgument (s : Switch)
  | superfluous (s : Switch) (argument : Text)
  | badInteger (s : Switch) (argument : Text)
  | badChoice (s : Switch) (argument : Text)
  | missing (s : Switch)
  | unrecognized (words : List Text)
  deriving DecidableEq, Repr

/-- The text of the error. -/
def UsageError.message : UsageError → Text
  | .ambiguous word matching =>
    "ambiguous option: " ++ word ++ " could match " ++ Text.joinWith ", " matching
  | .noArgument s => "argument " ++ s.names ++ ": expected one argument"
  | .superfluous s t =>
    "argument " ++ s.names ++ ": ignored explicit argument " ++ Text.quoted t
  | .badInteger s t => "argument " ++ s.names ++ ": invalid int value: " ++ Text.quoted t
  | .badChoice s t =>
    "argument " ++ s.names ++ ": invalid choice: " ++ Text.quoted t ++
      " (choose from 'json', 'console')"
  | .missing s => "the following arguments are required: " ++ s.names
  | .unrecognized words => "unrecognized arguments: " ++ Text.joinOn ' ' words

/-- Why there are no options: the user asks for a text instead, or the words are refused. -/
inductive Stop
  | help
  | version
  | error (e : UsageError)
  deriving DecidableEq, Repr

/-! ### Words -/

/-- An option as it is named in a word. -/
structure Mention where
  switch : Switch
  /-- Whether the name is one letter after one dash. -/
  isLetter : Bool
  /-- What stands in the same word after the name, and after an equals sign if there is one. -/
  attached : Option Text
  deriving DecidableEq, Repr

/-- What a word is. -/
inductive Word
  | plain (t : Text)
  | mention (m : Mention)
  | unknown (t : Text)
  /-- The two dashes before words that are plain whatever they look like. -/
  | dashes
  deriving DecidableEq, Repr

/-- The parts of a word before and after its first equals sign, if it has one. -/
def splitEquals (t : Text) : Text × Option Text :=
  let name := t.takeWhile (· != .char '=')
  match t.drop name.length with
  | _ :: value => (name, some value)
  | [] => (name, none)

/-- Whether a name is one letter after one dash. -/
def isLetterName (name : Text) : Bool := name[1]? != some (.char '-')

/-- A name that fits a word, with the option as the word then mentions it. -/
abbrev Fit : Type := Text × Mention

/-- The names that fit a word with two dashes: those that begin with it. -/
def longFits (t : Text) : List Fit :=
  let (name, attached) := splitEquals t
  switchNames.filterMap fun (n, s) =>
    if Text.startsWith n name then some (n, ⟨s, isLetterName n, attached⟩) else none

/-- The names that fit a word with one dash: the letter that it begins with, whose argument is the rest of
the word. -/
def letterFits (t : Text) : List Fit :=
  switchNames.filterMap fun (n, s) =>
    if n = t.take 2 then some (n, ⟨s, true, some (t.drop 2)⟩)
    else if Text.startsWith n t then some (n, ⟨s, isLetterName n, none⟩)
    else none

/-- The names that fit a word with a dash. -/
def fits (t : Text) : List Fit := if isLetterName t then letterFits t else longFits t

/-- Whether a word is a negative number, which a line feed may follow. -/
def isNegativeNumber (t : Text) : Bool :=
  match Text.withoutLineEnd t with
  | '-' :: n =>
    let (whole, rest) := Text.spanDigits n
    match rest with
    | [] => !whole.isEmpty
    | '.' :: fraction => !fraction.isEmpty && fraction.all Text.isDigit
    | _ => false
  | _ => false

/-- What a word that begins with a dash is when no option fits it. -/
def wordWithoutFit (t : Text) : Word :=
  if isNegativeNumber t || t.elem (.char ' ') then .plain t else .unknown t

/-- What a word that begins with a dash and something else is. -/
def dashedWord (t : Text) : Except UsageError Word :=
  let (name, attached) := splitEquals t
  match switchNames.lookup t, switchNames.lookup name, attached with
  | some s, _, _ => .ok (.mention ⟨s, isLetterName t, none⟩)
  | none, some s, some a => .ok (.mention ⟨s, isLetterName name, some a⟩)
  | none, _, _ =>
    match fits t with
    | [] => .ok (wordWithoutFit t)
    | [(_, m)] => .ok (.mention m)
    | several => .error (.ambiguous t (several.map (·.1)))

/-- What the words are. -/
def words : List Text → Except UsageError (List Word)
  | [] => .ok []
  | t :: ts =>
    if t = "--" then .ok (.dashes :: ts.map .plain)
    else
      match (match t with
        | '-' :: _ :: _ => dashedWord t
        | _ => .ok (.plain t)) with
      | .error e => .error e
      | .ok w =>
        match words ts with
        | .error e => .error e
        | .ok ws => .ok (w :: ws)

/-! ### Options -/

/-- What is known so far: the options, of which one must be given, and the words that are neither
options nor arguments. -/
structure Progress where
  diagnostics : Option Path
  options : Options
  extras : List Text

/-- An option with its argument, if it takes one. -/
abbrev Use : Type := Switch × Text

/-- The options with one without its argument, whatever was said about it before. -/
def withEmptied (s : Switch) (o : Options) : Options :=
  let o := { o with emptied := s :: o.emptied }
  match s with
  | .config => { o with config := none }
  | .workspace => { o with workspace := none }
  | .docs => { o with docs := none }
  | .maxPatches => { o with maxPatches := none }
  | .metricsOut => { o with metricsOut := none }
  | .format => { o with format := none }
  | _ => o

/-- Takes note of an option. Two dashes are no argument: they are dropped wherever they stand. -/
def Progress.use (p : Progress) (u : Use) : Except Stop Progress :=
  let o := { p.options with emptied := p.options.emptied.filter (· != u.1) }
  let path := Path.ofText u.2
  let set (o : Options) : Except Stop Progress := .ok { p with options := o }
  if u.2 = "--" then
    .ok { p with diagnostics := p.diagnostics <|> (if u.1 = .diagnostics then some path else none)
                 options := withEmptied u.1 o }
  else match u.1 with
  | .help => .error .help
  | .version => .error .version
  | .diagnostics => .ok { p with diagnostics := some path, options := o }
  | .config => set { o with config := some path }
  | .workspace => set { o with workspace := some path }
  | .docs => set { o with docs := some path }
  | .dryRun => set { o with dryRun := true }
  | .noGenerator => set { o with noGenerator := true }
  | .noApply => set { o with noApply := true }
  | .maxPatches =>
    match Number.readLenient u.2 with
    | some n => set { o with maxPatches := some n }
    | none => .error (.error (.badInteger .maxPatches u.2))
  | .metricsOut => set { o with metricsOut := some path }
  | .debug => set { o with debug := true }
  | .format =>
    match LogFormat.ofName? u.2 with
    | some f => set { o with format := some f }
    | none => .error (.error (.badChoice .format u.2))

/-- The options of one word: those of the letters that share it. The last one may take the next word as its
argument. -/
structure Bundle where
  uses : List Use
  takesNext : Bool

/-- The option of a word whose argument, if it takes one, is the next word. -/
def single (s : Switch) (next : Option Text) : Except UsageError Bundle :=
  if s.takesArgument then
    match next with
    | some t => .ok ⟨[(s, t)], true⟩
    | none => .error (.noArgument s)
  else .ok ⟨[(s, [])], false⟩

/-- The options of a word from an attached text on: it is the argument of the option before it, or, after a
letter without an argument, begins with another letter. -/
def bundle (s : Switch) (isLetter : Bool) (next : Option Text) : Text → Except UsageError Bundle
  | [] => if s.takesArgument then .ok ⟨[(s, [])], false⟩ else .error (.superfluous s [])
  | c :: t =>
    if s.takesArgument then .ok ⟨[(s, c :: t)], false⟩
    else
      match if isLetter then switchNames.lookup [.char '-', c] else none with
      | none => .error (.superfluous s (c :: t))
      | some s' =>
        let rest := match t with
          | [] => single s' next
          | d :: t => bundle s' true next (d :: t)
        rest.map fun b => { b with uses := (s, []) :: b.uses }

/-- The options of a mention. -/
def Mention.bundle (m : Mention) (next : Option Text) : Except UsageError Bundle :=
  match m.attached with
  | none => single m.switch next
  | some t => Options.bundle m.switch m.isLetter next t

/-- The text of the next word, if it can be an argument. -/
def nextArgument : List Word → Option Text
  | .plain t :: _ => some t
  | _ => none

/-- Takes note of all words. The words that were taken as arguments are skipped. -/
def Progress.takeAll (p : Progress) : (skip : Bool) → List Word → Except Stop Progress
  | _, [] => .ok p
  | true, _ :: ws => takeAll p false ws
  | false, .plain t :: ws => takeAll { p with extras := p.extras ++ [t] } false ws
  | false, .unknown t :: ws => takeAll { p with extras := p.extras ++ [t] } false ws
  | false, .dashes :: ws => takeAll { p with extras := p.extras ++ [("--" : Text)] } false ws
  | false, .mention m :: ws =>
    match m.bundle (nextArgument ws) with
    | .error e => .error (.error e)
    | .ok b =>
      match b.uses.foldlM Progress.use p with
      | .error s => .error s
      | .ok p => takeAll p b.takesNext ws

/-- The options that the words of a command line ask for. -/
def parse (ts : List Text) : Except Stop Options :=
  match words ts with
  | .error e => .error (.error e)
  | .ok ws =>
    match Progress.takeAll ⟨none, { diagnostics := .ofText [] }, []⟩ false ws with
    | .error s => .error s
    | .ok p =>
      match p.diagnostics, p.extras with
      | none, _ => .error (.error (.missing .diagnostics))
      | some _, t :: ts => .error (.error (.unrecognized (t :: ts)))
      | some path, [] => .ok { p.options with diagnostics := path }

/-! ### Texts for the user -/

/-- The name of the program. -/
def programName : Text := "migration-repair"

/-- The version of the program. -/
def versionNumber : Text := "0.1.0"

/-- How the program is called. -/
def usage : List Text :=
  ["usage: migration-repair [-h] [--version] --diagnostics DIAGNOSTICS [-c CONFIG]",
    "                        [-w WORKSPACE] [--docs DOCS] [--dry-run]",
    "                        [--no-generator] [--no-apply]",
    "                        [--max-patches MAX_PATCHES]",
    "                        [--metrics-out METRICS_OUT] [-d]",
    "                        [--format \x7bjson,console\x7d]"]

/-- What the options are for. -/
def description : List Text :=
  ["",
    "Repair compiler errors left behind by a dependency upgrade",
    "",
    "options:",
    "  -h, --help            show this help message and exit",
    "  --version             show program's version number and exit",
    "  --diagnostics DIAGNOSTICS",
    "                        Diagnostics file: JSON list or saved tsc output",
    "  -c CONFIG, --config CONFIG",
    "                        Path to configuration file (defaults and environment",
    "                        if omitted)",
    "  -w WORKSPACE, --workspace WORKSPACE",
    "                        Workspace root that diagnostic paths are relative to",
    "  --docs DOCS           Migration notes passed to the generator as supporting",
    "                        docs",
    "  --dry-run             Load config and diagnostics, print the clusters, and",
    "                        exit",
    "  --no-generator        Only apply tier-1 pattern fixes",
    "  --no-apply            Propose patches without writing them",
    "  --max-patches MAX_PATCHES",
    "                        Maximum generator calls for this run",
    "  --metrics-out METRICS_OUT",
    "                        Write run metrics here (JSON for .json files, else",
    "                        Prometheus text)",
    "  -d, --debug           Enable debug logging",
    "  --format \x7bjson,console\x7d",
    "                        Log output format (default: from config, else console)"]

/-- Lines as a text that ends with a line feed. -/
def printed (ls : List Text) : Text := ls.flatMap fun l => l ++ [.char '\n']

/-- What the program ends with: its exit code, and what it prints and reports. -/
structure Ending where
  code : Nat
  output : Text
  errors : Text
  deriving DecidableEq, Repr

/-- The end of a program that does not run. -/
def Stop.ending : Stop → Ending
  | .help => ⟨0, printed (usage ++ description), []⟩
  | .version => ⟨0, printed [programName ++ " " ++ versionNumber], []⟩
  | .error e =>
    ⟨2, [], printed (usage ++ [programName ++ ": error: " ++ e.message])⟩

end Options

end Mend
