import Mend.Assoc
import Mend.Path
import Mend.Text.Quoted
import Mend.Text.Utf8

/-!
# File trees

The files of a system as plain data, from the top of its folders on: what a path leads to is found by
walking the tree name by name, from the top or from the working directory. A name that is looked up in
a file or in a folder that may not be searched, or that is too long, is an error of its own, and so is a
path that no file can have.

The main statements say what reading finds after a file was written (`content?_put`).
-/

namespace Mend

/-- Why a path could not be followed. -/
inductive FileProblem
  | notFound
  | exists
  | notFolder
  | isFolder
  | forbidden
  | nameTooLong
  | nulCharacter
  | unencodable (e : Utf8.EncodeError)
  deriving DecidableEq, Repr

/-- A problem with a path. -/
structure FileError where
  problem : FileProblem
  path : Text
  deriving DecidableEq, Repr

/-- The number and the wording of a problem that the system reports. -/
def FileProblem.numbered : FileProblem → Option (Nat × Text)
  | .notFound => some (2, "No such file or directory")
  | .forbidden => some (13, "Permission denied")
  | .exists => some (17, "File exists")
  | .notFolder => some (20, "Not a directory")
  | .isFolder => some (21, "Is a directory")
  | .nameTooLong => some (36, "File name too long")
  | .nulCharacter => none
  | .unencodable _ => none

/-- The text of an error. -/
def FileError.message (e : FileError) : Text :=
  match e.problem.numbered, e.problem with
  | some (n, wording), _ =>
    "[Errno " ++ Text.ofNat n ++ "] " ++ wording ++ ": " ++ Text.quoted e.path
  | none, .unencodable e => e.message
  | none, _ => "embedded null byte"

/-- Whether no file at all can have the path. -/
def FileProblem.isInvalidPath : FileProblem → Bool
  | .nulCharacter => true
  | .unencodable _ => true
  | _ => false

/-- Whether a path with a problem leads nowhere. Where a folder may not be searched or a name is too
long, nothing is known. -/
def FileProblem.isAbsence : FileProblem → Bool
  | .forbidden => false
  | .nameTooLong => false
  | _ => true

/-- The files by the names on the way to them from the top, and the folders that exist whether or not
they hold a file; relative paths begin at the folder `home`. A folder that is sealed may not be searched,
and a file that is sealed may be neither read nor written. -/
structure FileTree where
  files : List (List Text × ByteArray)
  folders : List (List Text) := []
  home : List Text := []
  sealed : List (List Text) := []

namespace FileTree

/-- The tree without files. -/
def empty : FileTree := { files := [] }

instance : Inhabited FileTree := ⟨empty⟩

/-- The bytes of the file with these names. -/
def content? (t : FileTree) (names : List Text) : Option ByteArray := t.files.lookup names

/-- Whether the names lead to a folder: one that was made, or one that holds something. -/
def isFolder (t : FileTree) (names : List Text) : Bool :=
  names.isEmpty || t.folders.any (names.isPrefixOf ·) ||
    t.files.any fun (f, _) => names.isPrefixOf f && names.length < f.length

/-- Whether what has these names may not be opened. -/
def isSealed (t : FileTree) (names : List Text) : Bool := t.sealed.elem names

/-- The tree in which the file has these bytes. -/
def put (t : FileTree) (names : List Text) (bytes : ByteArray) : FileTree :=
  { t with files := Assoc.put names bytes t.files }

/-- The tree without the file; the folder that held it stays. -/
def remove (t : FileTree) (names : List Text) : FileTree :=
  { t with
    files := t.files.filter fun f => f.1 != names
    folders := names.dropLast :: t.folders }

/-- After a file was written, it has the new bytes and every other file has its own. -/
theorem content?_put (t : FileTree) (names other : List Text) (bytes : ByteArray) :
    (t.put names bytes).content? other =
      if other = names then some bytes else t.content? other := by
  simpa [content?, put] using Assoc.lookup_put names other bytes t.files

/-! ### Walking -/

/-- The longest name of a folder entry, in bytes. -/
def maxNameSize : Nat := 255

/-- The longest path, in bytes. -/
def maxPathSize : Nat := 4095

/-- The names one name further. Two dots lead back, and at the top they lead nowhere else. -/
def step (t : FileTree) (names : List Text) (name : Text) : Except FileProblem (List Text) :=
  if !t.isFolder names then
    .error (if (t.content? names).isSome then .notFolder else .notFound)
  else if t.isSealed names then .error .forbidden
  else if name = (".." : Text) then .ok names.dropLast
  else if maxNameSize < (Utf8.nameBytes name).length then .error .nameTooLong
  else .ok (names ++ [Utf8.nameOf name])

/-- Follows names from those that are already walked. -/
def walk (t : FileTree) (names : List Text) : List Text → Except FileProblem (List Text)
  | [] => .ok names
  | n :: ns =>
    match t.step names n with
    | .ok names => walk t names ns
    | .error e => .error e

/-- The names at which a path begins. -/
def beginning (t : FileTree) (p : Path) : List Text := if p.isAbsolute then [] else t.home

/-- What keeps a path from being looked up in any tree. -/
def pathProblem? (p : Path) : Option FileProblem :=
  match Utf8.nameProblem? p.text with
  | some e => some (.unencodable e)
  | none =>
    if p.text.elem (.char '\x00') then some .nulCharacter
    else if maxPathSize < (Utf8.nameBytes p.text).length then some .nameTooLong
    else none

/-- The names of what a path leads to; nothing need exist under the last one. -/
def locate (t : FileTree) (p : Path) : Except FileProblem (List Text) :=
  match pathProblem? p with
  | some e => .error e
  | none => t.walk (t.beginning p) p.names

/-- What a path leads to. -/
inductive Node
  | file (names : List Text) (bytes : ByteArray)
  | folder

/-- What has these names. -/
def nodeAt (t : FileTree) (names : List Text) : Except FileProblem Node :=
  match t.content? names with
  | some bytes => .ok (.file names bytes)
  | none => if t.isFolder names then .ok .folder else .error .notFound

/-- What a path leads to. -/
def lookup (t : FileTree) (p : Path) : Except FileProblem Node :=
  match t.locate p with
  | .ok names => t.nodeAt names
  | .error e => .error e

/-- What a path leads to, where a path that leads nowhere is no error. -/
def probe (t : FileTree) (p : Path) : Except FileError (Option Node) :=
  match t.lookup p with
  | .ok node => .ok (some node)
  | .error e => if e.isAbsence then .ok none else .error ⟨e, p.text⟩

/-- Whether a path leads to a file or a folder. -/
def holds (t : FileTree) (p : Path) : Except FileError Bool :=
  (t.probe p).map Option.isSome

/-- Whether a path leads to a file. -/
def holdsFile (t : FileTree) (p : Path) : Except FileError Bool :=
  (t.probe p).map fun
    | some (.file _ _) => true
    | _ => false

/-- The names of what stands in the folder that a path leads to. -/
def entries (t : FileTree) (p : Path) : List Text :=
  match t.locate p with
  | .ok names =>
    ((t.files.map (·.1) ++ t.folders).filterMap fun f =>
      if names.isPrefixOf f then f[names.length]? else none).eraseDups
  | _ => []

/-- The bytes of the file that a path leads to. -/
def read (t : FileTree) (p : Path) : Except FileError ByteArray :=
  match t.lookup p with
  | .ok (.file names bytes) =>
    if t.isSealed names then .error ⟨.forbidden, p.text⟩ else .ok bytes
  | .ok .folder => .error ⟨.isFolder, p.text⟩
  | .error e => .error ⟨e, p.text⟩

/-- The tree after bytes were written to the file that a path leads to. Its folder must exist. -/
def write (t : FileTree) (p : Path) (bytes : ByteArray) : Except FileError FileTree :=
  match t.locate p with
  | .error e => .error ⟨e, p.text⟩
  | .ok names =>
    if t.isFolder names then .error ⟨.isFolder, p.text⟩
    else if t.isSealed names then .error ⟨.forbidden, p.text⟩
    else .ok (t.put names bytes)

/-- The tree after the file that a path leads to was removed. -/
def delete (t : FileTree) (p : Path) : Except FileError FileTree :=
  match t.lookup p with
  | .ok (.file names _) => .ok (t.remove names)
  | .ok .folder => .error ⟨.isFolder, p.text⟩
  | .error e => .error ⟨e, p.text⟩

/-- Makes the folder at the end of the names that are already walked and those that follow. -/
def makeFoldersFrom (t : FileTree) (path : Path) : List Text → List Text → Except FileError FileTree
  | names, [] =>
    if (t.content? names).isSome then .error ⟨.exists, path.text⟩
    else .ok { t with folders := names :: t.folders }
  | names, n :: ns =>
    if (t.content? names).isSome then .error ⟨.notFolder, path.text⟩
    else
      let t := { t with folders := names :: t.folders }
      match t.step names n with
      | .ok names => makeFoldersFrom t path names ns
      | .error e => .error ⟨e, path.text⟩

/-- The tree in which the path is a folder, with the folders on the way to it. -/
def makeFolders (t : FileTree) (p : Path) : Except FileError FileTree :=
  match pathProblem? p with
  | some e => .error ⟨e, p.text⟩
  | none => t.makeFoldersFrom p (t.beginning p) p.names

end FileTree

end Mend
