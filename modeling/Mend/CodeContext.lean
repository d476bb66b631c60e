import Mend.Diagnostic
import Mend.FileTree
import Mend.Notice
import Mend.Settings
import Mend.Text.Blank

/-!
# Code contexts

The lines around a diagnostic, for the question that is put to the model. Bytes that are no text are
replaced, and a file that cannot be read is no error: the context says so.
-/

namespace Mend.CodeContext

/-- The place of a file, seen from the root of the workspace. -/
def resolve (settings : Settings.Run) (file : Text) : Path :=
  settings.workspaceRoot.join (.ofText file)

/-- The lines of a file's text, as they are counted in a context. -/
def contextLines (bytes : ByteArray) : List Text :=
  Text.proseLines (Text.universalNewlines (Utf8.decodeLossy bytes))

/-- The lines around a diagnostic under a heading that numbers them. -/
def around (ls : List Text) (radius : Nat) (d : Diagnostic) : Text :=
  let start := max 1 (d.line - radius)
  let stop := min ls.length (d.line + radius)
  "// " ++ d.file ++ " lines " ++ Text.ofNat start ++ "-" ++ Text.ofNat stop ++
    ", error at line " ++ Text.ofNat d.line ++ "\n" ++
    Text.ofLines ((ls.take stop).drop (start - 1))

/-- The context of a diagnostic whose file cannot be read. -/
def unavailable (d : Diagnostic) : Text :=
  "// Error at " ++ d.location ++ " (source unavailable)"

/-- The context of a diagnostic, with what is reported. Only a path that no file can have is an
error. -/
def ofDiagnostic (settings : Settings.Run) (files : FileTree) (d : Diagnostic) :
    List Notice × Except FileError Text :=
  let path := resolve settings d.file
  match files.read path with
  | .ok bytes => ([], .ok (around (contextLines bytes) settings.contextLines.toNat d))
  | .error e =>
    if e.problem.isInvalidPath then ([], .error e)
    else ([.contextUnreadable path.text], .ok (unavailable d))

end Mend.CodeContext
