import Mend.Command

/-!
# The program

The command line: it loads the files that matter, runs the command, prints, and stores what changed.
Two dots in a path lead back one name here, whatever the folders are, and a file whose name is no
characters is out of reach. There is no connection to a model, so that every consultation fails like one
over a broken line.
-/

namespace Mend.Program

/-- A model that cannot be reached. -/
def disconnected : Model Unit where
  send s _ := (s, .error (.disconnected "Connection error."))

/-- A text on the terminal, where code points that are no characters are shown by their numbers. -/
def shown (t : Text) : String :=
  Utf8.string (t.flatMap fun c => if c.isChar then [c] else Text.escapeCode c.toNat)

/-- The variables in a block of bindings, each of which ends with a zero. -/
def variablesOf (block : Text) : Environment :=
  (Text.splitOn '\x00' block).filterMap fun binding =>
    let name := binding.takeWhile (· != .char '=')
    if name.isEmpty then none else some (name, binding.drop (name.length + 1))

/-- The variables of the process. -/
def environment : IO Environment := do
  try
    return variablesOf (Utf8.ofNameBytes (← IO.FS.readBinFile "/proc/self/environ").toList)
  catch _ => return []

/-- The files that two trees do not share, as they are in the second one. -/
def changes (old new : FileTree) : List (List Text × ByteArray) :=
  new.files.filter fun (names, bytes) => old.content? names != some bytes

/-- The tree without files, as it is seen from the working directory. -/
def start : IO FileTree := do
  let home := (Path.ofText (← IO.currentDir).toString).names
  return { FileTree.empty with folders := [home], home }

/-- The names from the top of the tree that a path is written for. -/
def target (t : FileTree) (p : Path) : List Text :=
  p.names.foldl (fun names n => if n = (".." : Text) then names.dropLast else names ++ [n])
    (t.beginning p)

/-- The tree with the file that a path leads to, if there is one. -/
def load (t : FileTree) (p : Path) : IO FileTree := do
  if !Utf8.Encodable p.text then return t
  try
    return t.put (target t p) (← IO.FS.readBinFile (Utf8.string p.text))
  catch _ => return t

/-- Stores a file, in a folder that is made if it is missing. -/
def store (names : List Text) (bytes : ByteArray) : IO Unit := do
  let p : Path := ⟨.root, names⟩
  IO.FS.createDirAll (Utf8.string p.parent.text)
  IO.FS.writeBinFile (Utf8.string p.text) bytes

/-- How deep texts may nest. -/
def depths : Settings.Depths := ⟨980, 485⟩

/-- Runs the program with its options. -/
def run (o : Options) : IO UInt32 := do
  let env ← environment
  let known ← (Command.sourcesOf o).foldlM load (← start)
  let rules := Command.rulesOf ⟨depths, env, known, disconnected, ()⟩ o
  let known ← (rules.files ++ rules.keyFiles).foldlM load known
  let files ← (Command.targetsOf ⟨depths, env, known, disconnected, ()⟩ o).foldlM load known
  let r := Command.run ⟨depths, env, files, disconnected, ()⟩ o
  for (names, bytes) in changes files r.workspace.files do store names bytes
  IO.eprint (shown r.log)
  IO.print (shown r.printed)
  return r.code.toUInt32

end Mend.Program

/-- Reads the options and runs the program, or says why it does not run. -/
def main (args : List String) : IO UInt32 := do
  match Mend.Options.parse (args.map fun (a : String) => (a : Mend.Text)) with
  | .ok o => Mend.Program.run o
  | .error s =>
    IO.eprint (Mend.Program.shown s.ending.errors)
    IO.print (Mend.Program.shown s.ending.output)
    return s.ending.code.toUInt32
