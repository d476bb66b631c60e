import Mend.Encoding
import Mend.FileTree

/-!
# Text files

The text of a file is read with its line ends reduced to line feeds. A file that a text is to be written
to is emptied first: it stays empty if the text cannot be encoded.
-/

namespace Mend.TextFile

/-- Why a file has no text. -/
inductive ReadError
  | file (e : FileError)
  | encoding (e : Encoding.DecodeError)
  deriving DecidableEq, Repr

/-- The text of the error. -/
def ReadError.message : ReadError → Text
  | .file e => e.message
  | .encoding e => e.message

/-- The text of the file that a path leads to, in an encoding. -/
def readIn (encoding : Encoding) (files : FileTree) (path : Path) : Except ReadError Text :=
  match files.read path with
  | .error e => .error (.file e)
  | .ok bytes =>
    match encoding.decode bytes with
    | .error e => .error (.encoding e)
    | .ok t => .ok (Text.universalNewlines t)

/-- The text of the file that a path leads to, in UTF-8. -/
def read (files : FileTree) (path : Path) : Except ReadError Text := readIn .utf8 files path

/-- Why a text was not written. -/
inductive WriteError
  | file (e : FileError)
  | encoding (e : Utf8.EncodeError)
  deriving DecidableEq, Repr

/-- The text of the error. -/
def WriteError.message : WriteError → Text
  | .file e => e.message
  | .encoding e => e.message

/-- The files after a text was to be written to the file that a path leads to, in UTF-8. -/
def write (files : FileTree) (path : Path) (t : Text) : FileTree × Except WriteError Unit :=
  match files.write path (if Utf8.Encodable t then Utf8.encode t else .empty), Utf8.problem? t with
  | .error e, _ => (files, .error (.file e))
  | .ok files, some e => (files, .error (.encoding e))
  | .ok files, none => (files, .ok ())

end Mend.TextFile
