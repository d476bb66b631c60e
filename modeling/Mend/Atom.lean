import Mend.Json.Display
import Mend.Number.Integer

/-!
# Atoms

An atom is a value that holds no other values: it can be the name of a member or an element of a set. Two
numbers with the same value are the same name, and so are a truth value and the number that stands for it.
-/

namespace Mend

/-- A value that holds no other values. -/
inductive Atom
  | null
  | bool (b : Bool)
  | int (n : Int)
  | float (x : Float)
  | text (t : Text)
  | bytes (bytes : List UInt8)
  /-- A value of another kind, of which the kind and the look are known, and the instant if it is one. -/
  | other (kind shown : Text) (instant : Option Int)

namespace Atom

/-- Whether an atom is a string. -/
def isString : Atom → Bool
  | text _ => true
  | _ => false

/-- Whether an atom counts as nothing: no value, false, zero, or empty. -/
def isVoid : Atom → Bool
  | null => true
  | bool b => !b
  | int n => n = 0
  | float x => x == 0.0
  | text t => t.isEmpty
  | bytes bs => bs.isEmpty
  | _ => false

/-! ### Names -/

/-- The integer that an atom equals, if there is one. -/
def integer? : Atom → Option Int
  | bool b => some (if b then 1 else 0)
  | int n => some n
  | float x => if Number.isIntegral x then Number.truncate? x else none
  | _ => none

/-- Whether two atoms are the same name. What is no number is the same name as itself. -/
def sameName (a b : Atom) : Bool :=
  match a, b with
  | null, null => true
  | text s, text t => s == t
  | bytes s, bytes t => s == t
  | other k s i, other l t j => k == l && (if i.isSome && j.isSome then i == j else s == t)
  | float x, float y => x == y || (x.isNaN && y.isNaN)
  | a, b =>
    match a.integer?, b.integer? with
    | some m, some n => m == n
    | _, _ => false

instance : BEq Atom := ⟨sameName⟩

theorem text_beq_text (s t : Text) : (text s == text t) = (s == t) := rfl

/-! ### Atoms in messages -/

/-- A byte between two quotes of the given kind. -/
def quoteByte (quote : CodePoint) (b : UInt8) : Text :=
  if b < 128 then Text.quoteChar quote (CodePoint.ofNat b.toNat) else Text.escapeCode b.toNat

/-- Bytes as messages show them. -/
def displayBytes (bs : List UInt8) : Text :=
  let quote := Text.quoteFor (bs.map fun b => CodePoint.ofNat b.toNat)
  .char 'b' :: quote :: bs.flatMap (quoteByte quote) ++ [quote]

/-- The name of the kind of an atom. -/
def kind : Atom → Text
  | null => "NoneType"
  | bool _ => "bool"
  | int _ => "int"
  | float _ => "float"
  | text _ => "str"
  | bytes _ => "bytes"
  | other k _ _ => k

/-- An atom as messages show it. -/
def display : Atom → Text
  | null => "None"
  | bool b => if b then "True" else "False"
  | int n => Text.ofInt n
  | float x => Number.floatText x
  | text t => Text.quoted t
  | bytes bs => displayBytes bs
  | other _ shown _ => shown

/-- Whether an atom can be shown, which a number of too many digits cannot. -/
def isDisplayable : Atom → Bool
  | int n => (Number.print n).isOk
  | _ => true

end Atom

end Mend
