import Mend.Text

/-!
# Templates

A template is a text with references to variables, each written as a dollar sign and the name
between braces. Filling it replaces every reference by the value of its variable in one pass: what a
value holds is not looked at again.
-/

namespace Mend

/-- Named texts. -/
abbrev Environment : Type := List (Text × Text)

namespace Template

/-- A part of a template: a character that stands for itself, or a reference to a variable. -/
inductive Piece
  | char (c : CodePoint)
  | reference (name : Text)
  deriving DecidableEq, Repr

/-- The name in the reference at the beginning of a text, if one is there. A name is not empty and
holds no closing brace. -/
def nameAt? : Text → Option Text
  | '$' :: '\x7b' :: r =>
    let name := r.takeWhile (· != .char '\x7d')
    if name.isEmpty || name.length = r.length then none else some name
  | _ => none

/-- The pieces of a text after its first characters, which are skipped. -/
def piecesAfter : (skip : Nat) → Text → List Piece
  | _, [] => []
  | skip + 1, _ :: r => piecesAfter skip r
  | 0, c :: r =>
    match nameAt? (c :: r) with
    | some name => .reference name :: piecesAfter (name.length + 2) r
    | none => .char c :: piecesAfter 0 r

/-- The pieces of a text. -/
def pieces (t : Text) : List Piece := piecesAfter 0 t

/-- A variable that a template refers to and that has no value. -/
structure MissingVariable where
  name : Text
  deriving DecidableEq, Repr

/-- The text of the error. -/
def MissingVariable.message (m : MissingVariable) : Text :=
  "Environment variable " ++ m.name ++ " not found"

/-- The text of the pieces, or the first reference that leads nowhere. -/
def fillPieces (env : Environment) : List Piece → Except MissingVariable Text
  | [] => .ok []
  | .char c :: ps =>
    match fillPieces env ps with
    | .ok t => .ok (c :: t)
    | .error m => .error m
  | .reference name :: ps =>
    match env.lookup name with
    | none => .error ⟨name⟩
    | some value =>
      match fillPieces env ps with
      | .ok t => .ok (value ++ t)
      | .error m => .error m

/-- The template with the values of its variables. -/
def fill (env : Environment) (t : Text) : Except MissingVariable Text := fillPieces env (pieces t)

end Template

end Mend
