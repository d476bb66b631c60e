import Mend.Diff.Hunk
import Mend.Diff.WholeFile
import Mend.Text.Quoted

/-!
# Patches

A patch is a diff for one file, with a description and a record of where it came from.
-/

namespace Mend

/-- Where a patch came from. -/
inductive PatchSource
  | rule
  | generated
  | manual
  deriving DecidableEq, Repr

namespace PatchSource

/-- The name of a source. -/
def name : PatchSource → Text
  | .rule => "pattern"
  | .generated => "generated"
  | .manual => "manual"

/-- The source with a name. -/
def ofName? (t : Text) : Option PatchSource :=
  [rule, generated, manual].find? fun s => s.name = t

theorem ofName?_name (s : PatchSource) : ofName? s.name = some s := by cases s <;> decide

end PatchSource

/-- A diff for one file. -/
structure Patch where
  diff : Text
  description : Text
  file : Text
  source : PatchSource := .manual
  deriving DecidableEq, Repr

namespace Patch

/-- The patch that turns one text of a file into another. -/
def wholeFile (file old new description : Text) (source : PatchSource) : Patch :=
  ⟨Diff.wholeFile file old new, description, file, source⟩

/-- The patch that replaces lines of a file from line `start` on. -/
def replacingLines (file : Text) (start : Nat) (removed added : List Text) (description : Text) :
    Patch :=
  let body := removed.map (.char '-' :: ·) ++ added.map (.char '+' :: ·)
  let header := Diff.headerLine start removed.length start added.length
  ⟨Text.ofLines (Diff.fileLines file ++ header :: body) ++ [.char '\n'], description, file, .rule⟩

/-- The first line that a patch speaks of; zero for a patch without hunks. -/
def firstLine (p : Patch) : Except Number.NumeralError Nat :=
  match Diff.hunks p.diff with
  | .error e => .error e
  | .ok hs => .ok ((hs.head?.map Diff.Hunk.oldStart).getD 0)

/-- The patches with the number that each one is sorted by. -/
def withFirstLines : List Patch → Except Number.NumeralError (List (Nat × Patch))
  | [] => .ok []
  | p :: ps =>
    match p.firstLine with
    | .error e => .error e
    | .ok n =>
      match withFirstLines ps with
      | .error e => .error e
      | .ok r => .ok ((n, p) :: r)

/-- The patches with those for later lines first. Patches for the same line keep their order. -/
def bottomUp (ps : List Patch) : Except Number.NumeralError (List Patch) :=
  match withFirstLines ps with
  | .error e => .error e
  | .ok r => .ok ((r.mergeSort fun a b => b.1 ≤ a.1).map (·.2))

end Patch

end Mend
