import Mend.Assoc
import Mend.Atom

/-!
# Data

A datum is a value as a source of settings or a payload gives it: an atom, or a collection of data. A
collection in which it stands itself again has a label, and the inner place names the label. Opening such
a collection puts it into that place, so that what is read of it is whole again. A set stands for the list
of its items.
-/

namespace Mend

/-- What a collection that stands in itself is known by. -/
abbrev Label : Type := Nat × Nat

/-- A value as a source gives it. -/
inductive Datum
  | atom (a : Atom)
  | list (items : List Datum)
  | pair (first second : Datum)
  | set (items : List Atom)
  | record (members : List (Atom × Datum))
  /-- A collection that may stand in itself. -/
  | labelled (label : Label) (d : Datum)
  /-- The collection with a label around this place. -/
  | again (label : Label)

/-- The members of a record, by their names. -/
abbrev Fields : Type := List (Atom × Datum)

namespace Datum

/-- The datum without a value. -/
@[match_pattern] abbrev null : Datum := .atom .null

/-- The datum of a truth value. -/
@[match_pattern] abbrev bool (b : Bool) : Datum := .atom (.bool b)

/-- The datum of an integer. -/
@[match_pattern] abbrev int (n : Int) : Datum := .atom (.int n)

/-- The datum of a floating-point number. -/
@[match_pattern] abbrev float (x : Float) : Datum := .atom (.float x)

/-- The datum of a text. -/
@[match_pattern] abbrev text (t : Text) : Datum := .atom (.text t)

/-- The datum of bytes. -/
@[match_pattern] abbrev bytes (bs : List UInt8) : Datum := .atom (.bytes bs)

instance : Inhabited Datum := ⟨null⟩

/-- The value of a member. -/
def member? (name : Text) (fs : Fields) : Option Datum := fs.lookup (.text name)

mutual

/-- The datum of a JSON value. -/
def ofJson : Json.Value → Datum
  | .null => null
  | .bool b => bool b
  | .int n => int n
  | .float x => float x
  | .text t => text t
  | .list vs => list (ofJsonItems vs)
  | .object ms => record (ofJsonMembers ms)

/-- The data of the items of a JSON list. -/
def ofJsonItems : List Json.Value → List Datum
  | [] => []
  | v :: vs => ofJson v :: ofJsonItems vs

/-- The data of the members of a JSON object. -/
def ofJsonMembers : List (Text × Json.Value) → Fields
  | [] => []
  | (k, v) :: ms => (.text k, ofJson v) :: ofJsonMembers ms

end

/-- Whether a datum counts as nothing: no value, false, zero, or empty. -/
def isVoid : Datum → Bool
  | .atom a => a.isVoid
  | .list ds => ds.isEmpty
  | .set as => as.isEmpty
  | .record fs => fs.isEmpty
  | .labelled _ d => d.isVoid
  | _ => false

/-! ### Labels -/

mutual

/-- A datum with a whole in every place that names its label. -/
def fill (label : Label) (whole : Datum) : Datum → Datum
  | .atom a => .atom a
  | .list ds => .list (fillItems label whole ds)
  | .pair a b => .pair (fill label whole a) (fill label whole b)
  | .set as => .set as
  | .record fs => .record (fillFields label whole fs)
  | .labelled l d => .labelled l (if l = label then d else fill label whole d)
  | .again l => if l = label then whole else .again l

/-- The same for the items of a list. -/
def fillItems (label : Label) (whole : Datum) : List Datum → List Datum
  | [] => []
  | d :: ds => fill label whole d :: fillItems label whole ds

/-- The same for the members of a record. -/
def fillFields (label : Label) (whole : Datum) : Fields → Fields
  | [] => []
  | (k, d) :: fs => (k, fill label whole d) :: fillFields label whole fs

end

/-- A datum without its label: wherever it stands in itself, it stands as a whole. -/
def opened : Datum → Datum
  | .labelled l d => fill l (.labelled l d) d
  | d => d

/-! ### Data in messages -/

/-- The name of the kind of a datum. -/
def kind : Datum → Text
  | .atom a => a.kind
  | .list _ => "list"
  | .pair _ _ => "tuple"
  | .set _ => "set"
  | .record _ => "dict"
  | .labelled _ d => d.kind
  | .again _ => []

/-- What a collection looks like inside itself. -/
def ellipsis : Datum → Text
  | .list _ => "[...]"
  | .pair _ _ => "(...)"
  | .set _ => "set(...)"
  | _ => "\x7b...\x7d"

mutual

/-- A datum as messages show it, inside of the collections with some labels, whose looks are given. -/
def displayIn (around : List (Label × Text)) : Datum → Text
  | .atom a => a.display
  | .list ds => "[" ++ Text.joinWith ", " (displayItems around ds) ++ "]"
  | .pair a b => "(" ++ displayIn around a ++ ", " ++ displayIn around b ++ ")"
  | .set [] => "set()"
  | .set as => "\x7b" ++ Text.joinWith ", " (as.map Atom.display) ++ "\x7d"
  | .record fs => "\x7b" ++ Text.joinWith ", " (displayFields around fs) ++ "\x7d"
  | .labelled l d =>
    match around.lookup l with
    | some look => look
    | none => displayIn ((l, d.ellipsis) :: around) d
  | .again l => (around.lookup l).getD []

/-- The items of a list as messages show them. -/
def displayItems (around : List (Label × Text)) : List Datum → List Text
  | [] => []
  | d :: ds => displayIn around d :: displayItems around ds

/-- The members of a record as messages show them. -/
def displayFields (around : List (Label × Text)) : Fields → List Text
  | [] => []
  | (k, d) :: fs => (k.display ++ ": " ++ displayIn around d) :: displayFields around fs

end

/-- A datum as messages show it. -/
def display (d : Datum) : Text := displayIn [] d

mutual

/-- Whether a datum can be shown, which numbers of too many digits cannot. -/
def isDisplayable : Datum → Bool
  | .atom a => a.isDisplayable
  | .list ds => areDisplayable ds
  | .pair a b => isDisplayable a && isDisplayable b
  | .set as => as.all Atom.isDisplayable
  | .record fs => haveDisplayable fs
  | .labelled _ d => isDisplayable d
  | .again _ => true

/-- Whether the items of a list can be shown. -/
def areDisplayable : List Datum → Bool
  | [] => true
  | d :: ds => isDisplayable d && areDisplayable ds

/-- Whether the members of a record can be shown. -/
def haveDisplayable : Fields → Bool
  | [] => true
  | (k, d) :: fs => k.isDisplayable && isDisplayable d && haveDisplayable fs

end

/-- A datum without a label is open already. -/
theorem opened_record (fs : Fields) : opened (.record fs) = .record fs := rfl

end Datum

end Mend
