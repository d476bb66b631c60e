import Mend.Json
import Mend.Number.Binary64
import Mend.Text.Quoted

/-!
# Writing JSON

A value is written in ASCII: any other character becomes an escape by its code unit, so that a
character beyond the basic plane takes two. The layout is compact, or with one item in a line and
two blanks for each level.
-/

namespace Mend.Json

/-- The escape of a code unit. -/
def unitEscape (n : Nat) : Text := "\\u" ++ Text.hex 4 n

/-- A code point between two quotes. -/
def escaped (c : CodePoint) : Text :=
  let n := c.toNat
  if n = 0x22 then "\\\"" else if n = 0x5C then "\\\\"
  else if n = 0x0A then "\\n" else if n = 0x0D then "\\r" else if n = 0x09 then "\\t"
  else if n = 0x08 then "\\b" else if n = 0x0C then "\\f"
  else if 0x20 ≤ n && n ≤ 0x7E then [c]
  else if n < 0x10000 then unitEscape n
  else unitEscape (0xD800 + (n - 0x10000) / 0x400) ++ unitEscape (0xDC00 + (n - 0x10000) % 0x400)

/-- A text in quotes. -/
def writtenText (t : Text) : Text := "\"" ++ t.flatMap escaped ++ "\""

/-- A number as JSON writes it; infinity and no number have names. -/
def writtenFloat (x : Float) : Text :=
  match Number.classify x with
  | .nan => "NaN"
  | .infinite negative => if negative then "-Infinity" else "Infinity"
  | c => c.text

/-- How items are laid out: in one line, or each in a line of its own at a depth. -/
inductive Layout
  | compact
  | indented (depth : Nat)

/-- The layout of the items inside a value. -/
def Layout.inner : Layout → Layout
  | .compact => .compact
  | .indented n => .indented (n + 1)

/-- The line break before an item or before a closing bracket. -/
def Layout.lineBreak : Layout → Text
  | .compact => []
  | .indented n => '\n' :: List.replicate (2 * n) ' '

/-- What stands between a name and its value. -/
def Layout.colon : Layout → Text
  | .compact => ":"
  | .indented _ => ": "

/-- Items between brackets. -/
def enclosed (l : Layout) (opening closing : Text) (items : List Text) : Text :=
  if items.isEmpty then opening ++ closing
  else
    opening ++ l.inner.lineBreak ++ Text.joinWith ("," ++ l.inner.lineBreak) items ++
      l.lineBreak ++ closing

mutual

/-- A value in a layout. -/
def Value.written (l : Layout) : Value → Text
  | .null => "null"
  | .bool true => "true"
  | .bool false => "false"
  | .int n => Text.ofInt n
  | .float x => writtenFloat x
  | .text t => writtenText t
  | .list items => enclosed l "[" "]" (Value.writtenItems l.inner items)
  | .object members => enclosed l "\x7b" "\x7d" (Value.writtenMembers l.inner members)

/-- The items of a list in a layout. -/
def Value.writtenItems (l : Layout) : List Value → List Text
  | [] => []
  | v :: vs => v.written l :: Value.writtenItems l vs

/-- The members of an object in a layout. -/
def Value.writtenMembers (l : Layout) : List (Text × Value) → List Text
  | [] => []
  | (k, v) :: ms => (writtenText k ++ l.colon ++ v.written l) :: Value.writtenMembers l ms

end

end Mend.Json
