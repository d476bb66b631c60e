import Mend.Text

/-!
# JSON values

Integers are kept apart from floating-point numbers. The members of an object keep the order in
which their names were first written.
-/

namespace Mend.Json

/-- A JSON value. -/
inductive Value
  | null
  | bool (b : Bool)
  | int (n : Int)
  | float (x : Float)
  | text (t : Text)
  | list (items : List Value)
  | object (members : List (Text × Value))

instance : Inhabited Value := ⟨.null⟩

namespace Value

/-- The value of a natural number. -/
def nat (n : Nat) : Value := .int n

/-- The value of an optional text. -/
def textOrNull : Option Text → Value
  | some t => .text t
  | none => .null

/-- The name of the kind of a value. -/
def kind : Value → Text
  | .null => "NoneType"
  | .bool _ => "bool"
  | .int _ => "int"
  | .float _ => "float"
  | .text _ => "str"
  | .list _ => "list"
  | .object _ => "dict"

/-- The object with these members. -/
def record (members : List (Text × Value)) : Value := .object members

/-- The value of a member. -/
def member? (name : Text) (members : List (Text × Value)) : Option Value :=
  (members.find? fun (k, _) => k = name).map (·.2)

end Value

end Mend.Json
