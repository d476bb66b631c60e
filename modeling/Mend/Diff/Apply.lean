import Mend.Diff.Hunk
import Mend.Number.Power
import Mend.Text.Blank

/-!
# Applying a diff

A text is changed line by line. Hunks are applied from the last to the first, so that the line
numbers of those still to come stay valid. Within a hunk the body is replayed from the old start:
context goes one line further, a removal takes the line away that stands there, an addition puts
a line in front of it. A strict application first checks that every context line and every
removed line is there.
-/

namespace Mend.Diff

/-- Why a diff does not fit a text. -/
inductive Misfit
  | noHunks
  | startZero
  | removalPastEnd (line : Nat)
  | lineMismatch (line start : Nat)
  deriving DecidableEq, Repr

/-- The text of a misfit. -/
def Misfit.message : Misfit → Text
  | .noHunks => "No hunks found in diff"
  | .startZero => "Invalid hunk start 0"
  | .removalPastEnd line => "Removal past end of content at line " ++ Text.ofNat line
  | .lineMismatch line start =>
    "Line " ++ Text.ofNat line ++ " does not match hunk at -" ++ Text.ofNat start

/-- Why a diff cannot be applied: it does not fit, or its numbers are beyond all bounds. -/
inductive ApplyError
  | misfit (m : Misfit)
  | numeral (e : Number.NumeralError)
  | positionTooLarge
  deriving DecidableEq, Repr

/-- The text of an error. -/
def ApplyError.message : ApplyError → Text
  | .misfit m => m.message
  | .numeral e => e.message
  | .positionTooLarge => "Python int too large to convert to C ssize_t"

/-- The error for a misfit at a line, whose number has to be printed. The number of a line that the
list has is never too long for that. -/
def misfitAt (ls : List Text) (line : Nat) (m : Misfit) : ApplyError :=
  if line ≤ ls.length then .misfit m
  else match Number.print line with
    | .ok _ => .misfit m
    | .error e => .numeral e

/-- The line with a number, counted from one. -/
def lineAt? (ls : List Text) : Nat → Option Text
  | 0 => none
  | n + 1 => ls[n]?

/-- Positions beyond the end of a list of lines are below this bound. -/
def positionBound : Nat := Number.twoTo 63

/-- Checks the context and the removed lines of a body from line `line` on. -/
def verify (start : Nat) (ls : List Text) : Nat → List Text → Except ApplyError Unit
  | _, [] => .ok ()
  | line, b :: body =>
    if isContext b || isRemoval b then
      if lineAt? ls line = some (payload b) then verify start ls (line + 1) body
      else .error (misfitAt ls line (.lineMismatch line start))
    else verify start ls line body

/-- The list with a line in front of a position; at the end if there is no such position. -/
def insertAt (position : Nat) (l : Text) (ls : List Text) : List Text :=
  ls.take position ++ l :: ls.drop position

/-- Replays a body from a position, counted from zero. -/
def replay : Nat → List Text → List Text → Except ApplyError (List Text)
  | _, [], ls => .ok ls
  | position, b :: body, ls =>
    match kind b with
    | .removal =>
      if position < ls.length then replay position body (ls.eraseIdx position)
      else .error (misfitAt ls (position + 1) (.removalPastEnd (position + 1)))
    | .addition =>
      if position < positionBound || position ≤ ls.length then
        replay (position + 1) body (insertAt position (payload b) ls)
      else .error .positionTooLarge
    | .context => replay (position + 1) body ls
    | .other => replay position body ls

/-- Applies one hunk. -/
def applyHunk (strict : Bool) (h : Hunk) (ls : List Text) : Except ApplyError (List Text) :=
  match if strict then verify h.oldStart ls h.oldStart h.body else .ok () with
  | .error e => .error e
  | .ok () =>
    match h.oldStart with
    | 0 => .error (.misfit .startZero)
    | position + 1 => replay position h.body ls

/-- Applies hunks, the last one first. -/
def applyHunks (strict : Bool) : List Hunk → List Text → Except ApplyError (List Text)
  | [], ls => .ok ls
  | h :: hs, ls =>
    match applyHunks strict hs ls with
    | .error e => .error e
    | .ok ls => applyHunk strict h ls

/-- The text that a diff makes of a text. A diff without hunks must be blank. -/
def apply (strict : Bool) (content diff : Text) : Except ApplyError Text :=
  match hunks diff with
  | .error e => .error (.numeral e)
  | .ok [] => if diff.all Text.isBlank then .ok content else .error (.misfit .noHunks)
  | .ok hs =>
    match applyHunks strict hs (Text.lines content) with
    | .error e => .error e
    | .ok ls => .ok (Text.ofLines ls)

end Mend.Diff
