import Mend.Diff.Line

/-!
# Diffs of whole files

A diff of a whole file has one hunk that goes through both texts line by line. Lines are compared
by position only: a line that differs is removed and added, and the lines that one text has more
are removed or added.
-/

namespace Mend.Diff

/-- The body of the hunk from one list of lines to another. -/
def wholeBody : List Text → List Text → List Text
  | [], [] => []
  | o :: os, [] => ('-' :: o) :: wholeBody os []
  | [], n :: ns => ('+' :: n) :: wholeBody [] ns
  | o :: os, n :: ns =>
    if o = n then (' ' :: o) :: wholeBody os ns
    else ('-' :: o) :: ('+' :: n) :: wholeBody os ns

/-- The two lines that name the file. -/
def fileLines (file : Text) : List Text := ["--- a/" ++ file, "+++ b/" ++ file]

/-- A header whose two ranges begin at lines `old` and `new`. -/
def headerLine (old oldCount new newCount : Nat) : Text :=
  "@@ -" ++ Text.ofNat old ++ "," ++ Text.ofNat oldCount ++ " +" ++ Text.ofNat new ++ "," ++
    Text.ofNat newCount ++ " @@"

/-- The diff from one text of a file to another. -/
def wholeFile (file old new : Text) : Text :=
  let os := Text.lines old
  let ns := Text.lines new
  Text.ofLines (fileLines file ++ headerLine 1 os.length 1 ns.length :: wholeBody os ns) ++ [.char '\n']

end Mend.Diff
