import Mend.Settings.Rules

/-!
# Shapes of settings

The shape of the settings says which settings stand in which section, and which of them are lists or
sections. Sources that know only texts need it to tell which texts are JSON.
-/

namespace Mend.Settings

/-- What stands under a name. -/
inductive Shape
  | scalar
  | listing
  | group (fields : List (Text × Shape))
  /-- A section that may be left out. -/
  | optionalGroup (fields : List (Text × Shape))

namespace Shape

/-- The shapes of the sections. -/
def sections : List (Text × Shape) :=
  [("pipeline", .group
      [("workspace_root", scalar), ("max_patches_per_run", scalar), ("auto_apply", scalar),
        ("use_generator", scalar), ("strict_validation", scalar), ("severities", listing),
        ("context_lines", scalar)]),
    ("llm", .group
      [("provider", scalar),
        ("anthropic", .optionalGroup
          [("api_key", scalar), ("model", scalar), ("max_tokens", scalar), ("temperature", scalar),
            ("max_doc_chars", scalar), ("requests_per_minute", scalar),
            ("request_timeout", scalar)])]),
    ("logging", .group
      [("level", scalar), ("format", scalar),
        ("file", .group [("enabled", scalar), ("path", scalar)])]),
    ("retry", .group
      [("max_attempts", scalar), ("initial_delay", scalar), ("max_delay", scalar)])]

/-- What stands in a section. -/
def fields : Shape → List (Text × Shape)
  | group fs => fs
  | optionalGroup fs => fs
  | _ => []

/-- Whether a text for it is JSON. -/
def isJson : Shape → Bool
  | scalar => false
  | _ => true

/-- Whether a text for it that is no JSON is taken as it is. -/
def mayBeText : Shape → Bool
  | optionalGroup _ => true
  | _ => false

end Shape

/-- The field that a key in the name of a variable stands for. -/
def Shape.field? (r : SourceRules) (s : Shape) (key : Text) : Option Shape :=
  (s.fields.find? fun (name, _) => r.stands key name).map (·.2)

mutual

/-- The members of a section under the names of its fields, which are found whatever the case of their
letters. -/
def namedMembers (fields : List (Text × Shape)) : Fields → Fields
  | [] => []
  | (.text name, d) :: ms =>
    let lower := Text.lower name
    match fields.find? fun f => f.1 = lower with
    | some (field, shape) => (.text field, named shape d) :: namedMembers fields ms
    | none => (.text name, d) :: namedMembers fields ms
  | m :: ms => m :: namedMembers fields ms

/-- A datum for a section, with the members of that section and those in it under their names. -/
def named (shape : Shape) : Datum → Datum
  | .record ms => .record (Assoc.ofList (namedMembers shape.fields ms))
  | d => d

end

end Mend.Settings
