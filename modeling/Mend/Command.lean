import Mend.Failure
import Mend.LogOutput
import Mend.Rule.Builtin

/-!
# The command

What the program does with its options: it reads the settings and the diagnostics, repairs what it can
and prints a summary, or only lists the clusters. The exit code is 0 when no diagnostic is left, 2 when
some are, and 1 when a failure ended the run.
-/

namespace Mend.Command

/-- What the program finds when it is started: how deep texts may nest to be read, the variables, the
files, and a model that can be consulted. -/
structure Surroundings (σ : Type) where
  depths : Settings.Depths
  environment : Environment
  files : FileTree
  model : Model σ
  start : σ

/-- A part of the work that came to an end: the workspace, the lines that were printed, and whether
something remains to be done. -/
structure Ended where
  workspace : Workspace
  printed : List Text
  remains : Except Failure Bool

/-- The end of a part of the work by a failure. -/
def failed (w : Workspace) (printed : List Text) (f : Failure) : Ended := ⟨w, printed, .error f⟩

/-! ### Metrics -/

/-- The metrics as a text: JSON if the path names a JSON file. -/
def metricsText (w : Workspace) (path : Path) : Except Number.Overflow Text :=
  if DiagnosticFile.namesJson path then
    (w.metrics.record w.clock).map fun v => v.written (.indented 0)
  else .ok w.metrics.prometheus

/-- Writes the metrics to a file. -/
def writeMetrics (w : Workspace) (path : Path) : Workspace × Except Failure Unit :=
  match metricsText w path with
  | .error e => (w, .error (.metrics e))
  | .ok t =>
    match w.files.makeFolders path.parent with
    | .error e => (w, .error (.output (.file e)))
    | .ok files =>
      match TextFile.write files path (t ++ [.char '\n']) with
      | (files, .error e) => ({ w with files }, .error (.output e))
      | (files, .ok ()) => ({ w with files }.note (.metricsWritten path.text), .ok ())

/-! ### The work -/

/-- The work after some lines were to be printed. The first line that cannot be encoded ends it, and only
the lines before that one are printed. -/
def printThen (ls : List Text) (w : Workspace) (rest : Unit → Workspace × Except Failure Bool) : Ended :=
  match ls.findSome? Utf8.problem? with
  | some e => failed w (ls.takeWhile fun l => Utf8.Encodable l) (.print e)
  | none =>
    let (w, remains) := rest ()
    ⟨w, ls, remains⟩

/-- Work that came to its end printed all of its lines. -/
theorem remains_of_printThen {ls : List Text} {w : Workspace}
    {rest : Unit → Workspace × Except Failure Bool} {remains : Bool}
    (h : (printThen ls w rest).remains = .ok remains) : (rest ()).2 = .ok remains := by
  unfold printThen at h
  split at h
  · cases h
  · exact h

/-- Lists the clusters of the diagnostics that a run would deal with. -/
def listClusters (settings : Settings.Run) (ds : List Diagnostic) (w : Workspace) : Ended :=
  let clusters := Cluster.ofDiagnostics (settings.selected ds)
  let w := w.note (.clustered (Cluster.members clusters).length clusters.length)
  printThen (clusters.map Summary.clusterLine) w fun _ => (w, .ok false)

/-- Writes the metrics if they are wanted. -/
def writeWanted (w : Workspace) (o : Options) : Workspace × Except Failure Unit :=
  if o.emptied.elem .metricsOut then (w, .error (.emptied .metricsOut))
  else match o.metricsOut with
    | none => (w, .ok ())
    | some path => writeMetrics w path

/-- Runs a repair and writes its metrics if they are wanted. -/
def repair {σ : Type} (r : Repair σ) (start : σ) (o : Options) (ds : List Diagnostic)
    (w : Workspace) : Ended :=
  match r.run ds ⟨w, start⟩ with
  | (s, .error f) => failed s.workspace [] (.run f)
  | (s, .ok summary) =>
    printThen summary.lines s.workspace fun _ =>
      match writeWanted s.workspace o with
      | (w, .error f) => (w, .error f)
      | (w, .ok ()) => (w, .ok (summary.remaining != 0))

/-- The documentation in a file, the same for every cluster. -/
def docsOf (files : FileTree) (o : Options) : Except Failure Text :=
  if o.emptied.elem .docs then .error (.emptied .docs)
  else match o.docs with
    | none => .ok []
    | some path => (TextFile.read files path).mapError .docs

/-- Repairs with the generator that the settings ask for, if they do. -/
def repairUnder {σ : Type} (settings : Settings) (here : Surroundings σ) (o : Options)
    (ds : List Diagnostic) (w : Workspace) : Ended :=
  let run {τ : Type} (generator : Option (Generator τ)) (start : τ) : Ended :=
    match docsOf w.files o with
    | .error f => failed w [] f
    | .ok docs =>
      repair ⟨settings.run, Rule.builtinRegistry, generator, fun _ => .ok docs⟩ start o ds w
  let absent : Option (Generator Unit) := none
  match settings.provider.anthropic with
  | none => run absent ()
  | some model =>
    if settings.run.useGenerator then
      match Generator.startState model w.clock here.start with
      | .error e => failed w [] (.limiter e)
      | .ok start => run (some (Generator.ofModel model settings.retry here.depths.json here.model)) start
    else run absent ()

/-- Reads the diagnostics and deals with them. -/
def work {σ : Type} (settings : Settings) (here : Surroundings σ) (o : Options) (w : Workspace) :
    Ended :=
  if o.emptied.elem .diagnostics then failed w [] (.emptied .diagnostics)
  else match DiagnosticFile.load here.depths.json w.files o.diagnostics with
  | (ns, .error e) => failed (w.noteAll ns) [] (.diagnostics e)
  | (ns, .ok ds) =>
    let w := (w.noteAll ns).note (.diagnosticsLoaded o.diagnostics.text ds.length)
    if o.dryRun then listClusters settings.run ds w else repairUnder settings here o ds w

/-! ### The run of the program -/

/-- What the user says about the settings. -/
def choicesOf (o : Options) : Settings.Choices :=
  ⟨o.config, o.workspace, o.noGenerator, o.noApply, o.maxPatches⟩

/-- The settings of a run. -/
def settingsOf (depths : Settings.Depths) (env : Environment) (files : FileTree) (o : Options) :
    Except Failure Settings :=
  if o.emptied.elem .config then .error (.emptied .config)
  else match Settings.choose depths env files (choicesOf o) with
    | .error e => .error (.settings e)
    | .ok s => if o.emptied.elem .maxPatches then .error (.emptied .maxPatches) else .ok s

/-- The level of the log. -/
def levelOf (debug : Bool) : Level := if debug then .debug else .info

/-- The log before there are settings. -/
def firstOutput (o : Options) : LogOutput := ⟨levelOf o.debug, o.format.getD .console, none⟩

/-- The log under the settings of a settings file. -/
def outputUnder (s : Settings.Logging) (o : Options) : LogOutput :=
  { level := levelOf (o.debug || s.level = "DEBUG")
    format := (o.format <|> LogFormat.ofName? s.format).getD .console
    file := if s.file.enabled then some s.file.path else none }

/-- What the program leaves behind: its exit code, what it printed, its log, and the workspace. -/
structure Result where
  code : Nat
  printed : Text
  log : Text
  workspace : Workspace

/-- The exit code of an end. -/
def Ended.code (e : Ended) : Nat :=
  match e.remains with
  | .ok false => 0
  | .ok true => 2
  | .error _ => 1

theorem Ended.remains_of_code {e : Ended} (h : e.code = 0) : e.remains = .ok false := by
  unfold Ended.code at h
  split at h <;> simp_all

/-- The workspace after an end was reported. -/
def Ended.reported (e : Ended) : Workspace :=
  match e.remains with
  | .ok _ => e.workspace
  | .error f => e.workspace.note f.notice

/-- The result of an end. The log has the lines from before its output was set up, and those of the rest
of the journal. -/
def resultOf (p : LogOutput.Prepared) (before : Text) (known : Nat) (e : Ended) : Result :=
  let w := e.reported
  let later := p.output.lines [] ((w.journal.drop known).filterMap Event.entry?)
  { code := e.code
    printed := Options.printed e.printed
    log := before ++ p.warning ++ later.flatten
    workspace := { w with files := p.output.append later w.files } }

/-- Runs the program. -/
def run {σ : Type} (here : Surroundings σ) (o : Options) : Result :=
  let w := (Workspace.start here.files).note (.starting Options.versionNumber)
  let first := firstOutput o
  let before := (first.lines [] w.log).flatten
  let known := w.journal.length
  match settingsOf here.depths here.environment here.files o with
  | .error f => resultOf ⟨first, w.files, []⟩ before known (failed w [] f)
  | .ok settings =>
    let output := if o.config.isSome then outputUnder settings.logging o else first
    match output.prepare w.files with
    | .error e => resultOf ⟨first, w.files, []⟩ before known (failed w [] (.log e))
    | .ok p => resultOf p before known (work settings here o { w with files := p.files })

/-! ### Files that matter -/

/-- The files that the program reads before it knows the diagnostics. -/
def sourcesOf (o : Options) : List Path :=
  Settings.variableFile :: o.diagnostics :: (o.config.toList ++ o.docs.toList)

/-- The rules for the sources of the settings. -/
def rulesOf {σ : Type} (here : Surroundings σ) (o : Options) : Settings.SourceRules :=
  match o.config with
  | some path => Settings.rulesOfFile here.depths.yaml here.environment here.files path
  | none => {}

/-- The files that the program works on: that of the log, and those that diagnostics are about. -/
def targetsOf {σ : Type} (here : Surroundings σ) (o : Options) : List Path :=
  match settingsOf here.depths here.environment here.files o with
  | .error _ => []
  | .ok s =>
    s.logging.file.path ::
      match (DiagnosticFile.load here.depths.json here.files o.diagnostics).2 with
      | .error _ => []
      | .ok ds => ds.map fun d => CodeContext.resolve s.run d.file

end Mend.Command
