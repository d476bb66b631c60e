import Mend.Rule
import Mend.Text.Word

/-!
# The built-in rules

The rules for the known changes of Angular and RxJS: the deprecated HTTP module, the imports of
single RxJS operators, and the list of entry components. Each one replaces the line that the
diagnostic points to, or the lines from there on, and fails where the number of the line is too long to be
printed.
-/

namespace Mend.Rule

/-- A rule whose test cannot fail. -/
def plain (id name description : Text) (accepts : Diagnostic → Bool)
    (fix : Diagnostic → Except RuleError (Option Patch)) : Rule :=
  ⟨id, name, description, fun d => .ok (accepts d), fix⟩

/-- The patch that replaces lines from the line of a diagnostic on. -/
def replaceLines (d : Diagnostic) (removed added : List Text) (description : Text) :
    Except RuleError (Option Patch) :=
  match Number.print d.line with
  | .ok _ => .ok (some (.replacingLines d.file d.line removed added description))
  | .error e => .error ⟨e.message⟩

/-- Whether a message holds some words. -/
def mentions (d : Diagnostic) (words : Text) : Bool := Text.contains d.message words

/-- The words of a message about an import that the module does not have. -/
def missingExport : Text := "has no exported member"

/-! ### The HTTP module -/

/-- The module for HTTP was replaced by another one. -/
def httpModule : Rule :=
  plain "http-module-deprecation" "HttpModule Deprecation"
    "Replaces deprecated HttpModule with HttpClientModule"
    (fun d => mentions d "HttpModule" && (mentions d "deprecated" || mentions d missingExport))
    (fun d => replaceLines d
      ["import \x7b HttpModule \x7d from '@angular/http';"]
      ["import \x7b HttpClientModule \x7d from '@angular/common/http';"]
      "Replace HttpModule with HttpClientModule")

/-! ### RxJS operators -/

/-- The operators that the rule knows. -/
def operators : List Text := ["map", "switchMap", "tap"]

/-- Whether a character may begin an identifier. -/
def beginsIdentifier (c : CodePoint) : Bool :=
  ('A' ≤ c && c ≤ 'Z') || ('a' ≤ c && c ≤ 'z') || c = '_' || c = '$'

/-- Whether a character may continue an identifier. -/
def continuesIdentifier (c : CodePoint) : Bool := Text.isWord c || c = '$'

/-- The identifier in single quotes that follows the words about a missing member, where a text
begins with them. -/
def memberAt? (t : Text) : Option Text := do
  let t ← Text.after? (missingExport ++ " '") t
  let c ← t.head?
  if !beginsIdentifier c then none
  else if (t.dropWhile continuesIdentifier).head? = some '\'' then
    some (t.takeWhile continuesIdentifier)
  else none

/-- The first member that a message reports as missing. -/
def missingMember? : Text → Option Text
  | [] => none
  | c :: t => (memberAt? (c :: t)).or (missingMember? t)

/-- The operator that a message is about: the missing member if it is known, else the first operator
that the message mentions. -/
def operator? (d : Diagnostic) : Option Text :=
  match (missingMember? d.message).filter operators.elem with
  | some op => some op
  | none => operators.find? (mentions d)

/-- An operator is imported from the module of all operators. -/
def operatorImport : Rule :=
  plain "rxjs-operators" "RxJS Operators" "Fixes old RxJS operator imports"
    (fun d => mentions d "rxjs" && mentions d missingExport)
    (fun d =>
      match operator? d with
      | none => .ok none
      | some op => replaceLines d
        ["import 'rxjs/add/operator/" ++ op ++ "';"]
        ["import \x7b " ++ op ++ " \x7d from 'rxjs/operators';"]
        ("Update RxJS " ++ op ++ " operator import"))

/-! ### Entry components -/

/-- Modules no longer list their entry components. -/
def entryComponents : Rule :=
  plain "entry-components" "Remove entryComponents" "Removes deprecated entryComponents property"
    (fun d => mentions d "entryComponents" && mentions d "does not exist")
    (fun d => replaceLines d
      ["  entryComponents: [", "    MyComponent", "  ],"] []
      "Remove deprecated entryComponents")

/-- The built-in rules in the order of their priority. -/
def builtin : List Rule := [httpModule, operatorImport, entryComponents]

/-- The registry of the built-in rules. -/
def builtinRegistry : RuleRegistry := ⟨builtin, by decide⟩

end Mend.Rule
