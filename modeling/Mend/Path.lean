import Mend.Text

/-!
# Paths

A path is anchored at the working directory, at the root, or at the alternate root that two
slashes name, and goes down from there by names. Empty names and single dots carry no meaning and
are dropped; two dots are kept, because what they mean is known only when a tree is walked.
-/

namespace Mend

/-- Where a path begins. -/
inductive Anchor
  | relative
  | root
  | doubleRoot
  deriving DecidableEq, Repr

/-- A path: where it begins and the names it goes through. -/
structure Path where
  anchor : Anchor
  names : List Text
  deriving DecidableEq, Repr

instance : Inhabited Path := ⟨⟨.relative, []⟩⟩

namespace Path

/-- The text in front of the names. -/
def anchorText : Anchor → Text
  | .relative => []
  | .root => ['/']
  | .doubleRoot => ['/', '/']

/-- The anchor that a text names: exactly two slashes are the alternate root. -/
def anchorOf : Text → Anchor
  | '/' :: '/' :: '/' :: _ => .root
  | '/' :: '/' :: _ => .doubleRoot
  | '/' :: _ => .root
  | _ => .relative

/-- The path that a text names. -/
def ofText (t : Text) : Path :=
  ⟨anchorOf t, (Text.splitOn '/' t).filter fun n => n ≠ [] && n ≠ ("." : Text)⟩

/-- The normal text of a path. The working directory itself is a dot. -/
def text (p : Path) : Text :=
  let t := anchorText p.anchor ++ Text.joinOn '/' p.names
  if t.isEmpty then ['.'] else t

/-- Whether a path begins at a root. -/
def isAbsolute (p : Path) : Bool := p.anchor != .relative

/-- The path `q` seen from the folder `p`. -/
def join (p q : Path) : Path := if q.isAbsolute then q else ⟨p.anchor, p.names ++ q.names⟩

/-- The folder that holds the path's last name. -/
def parent (p : Path) : Path := ⟨p.anchor, p.names.dropLast⟩

/-- The last name. -/
def name (p : Path) : Text := p.names.getLast?.getD []

/-- The ending of the last name from its last dot on; a dot at either end of the name starts none. -/
def suffix (p : Path) : Text :=
  let ending := (p.name.reverse.takeWhile (· != .char '.')).reverse
  let stem := p.name.length - (ending.length + 1)
  if ending.isEmpty || stem = 0 then [] else '.' :: ending

end Path

end Mend
