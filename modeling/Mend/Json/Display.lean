import Mend.Json
import Mend.Number.Binary64
import Mend.Text.Quoted

/-!
# Values shown in messages

Messages show a value in one line: texts quoted, `None`, `True` and `False` for the names, items
between brackets and members between braces, with a comma and a blank between two of them.
-/

namespace Mend.Json

mutual

/-- A value as messages show it. -/
def Value.display : Value → Text
  | .null => "None"
  | .bool true => "True"
  | .bool false => "False"
  | .int n => Text.ofInt n
  | .float x => Number.floatText x
  | .text t => Text.quoted t
  | .list items => "[" ++ Text.joinWith ", " (Value.displayItems items) ++ "]"
  | .object members => "\x7b" ++ Text.joinWith ", " (Value.displayMembers members) ++ "\x7d"

/-- The items of a list as messages show them. -/
def Value.displayItems : List Value → List Text
  | [] => []
  | v :: vs => v.display :: Value.displayItems vs

/-- The members of an object as messages show them. -/
def Value.displayMembers : List (Text × Value) → List Text
  | [] => []
  | (k, v) :: ms => (Text.quoted k ++ ": " ++ v.display) :: Value.displayMembers ms

end

/-- A value as a message shows it when the value is the text to show: a text stands without quotes. -/
def Value.plain : Value → Text
  | .text t => t
  | v => v.display

end Mend.Json
