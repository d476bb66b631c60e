import Mend.Json.Reader
import Mend.Patch
import Mend.Response.Fence
import Mend.Schema

/-!
# Payloads

A model answers with a JSON payload that lists patches: in a fenced block, or bare, from the first
brace of the text to the last one. A payload that is no JSON or does not follow the schema is refused
as a whole.
-/

namespace Mend.Response

/-- The file of a patch that names none. -/
def unknownFile : Text := "unknown"

/-- The description of a patch that has none. -/
def defaultDescription : Text := "Generated patch"

/-! ### Finding the payload -/

/-- The word that a bare payload must hold. -/
def patchesWord : Text := "\"patches\""

/-- The text from the first opening brace to the last closing one, if it holds the word for patches
between them. -/
def bareObject? (t : Text) : Option Text :=
  let whole := Text.dropEndWhile (· != .char '\x7d') (t.dropWhile (· != .char '\x7b'))
  if Text.contains (whole.drop 1).dropLast patchesWord then some whole else none

/-- The payload of a response. -/
def payload? (t : Text) : Option Text := (firstBlock? "json" true t).or (bareObject? t)

/-! ### Its schema -/

/-- A patch as a payload gives it. -/
structure Entry where
  diff : Text
  description : Text
  file : Text
  deriving DecidableEq, Repr

/-- The greatest number of patches in a payload. -/
def maxPatches : Nat := 20

open Schema (Checked Reader) in
/-- A patch of a payload. -/
def readEntry : Reader Entry :=
  Schema.record "PatchResponse" fun ms =>
    (((Checked.ok Entry.mk).apply
      (Schema.required "diff" (Schema.textOfLength 1 20000) ms)).apply
      (Schema.optional "description" defaultDescription (Schema.textOfLength 0 1000) ms)).apply
      (Schema.optionalNamed "filePath" "file_path" unknownFile (Schema.textOfLength 0 500) ms)

/-- The patches of a payload. -/
def readEntries : Schema.Reader (List Entry) :=
  Schema.record "PatchListResponse"
    (Schema.optional "patches" [] (Schema.listOfLength maxPatches readEntry))

/-- A text, or another one in place of the empty text. -/
def orElse (t other : Text) : Text := if t.isEmpty then other else t

/-- The patch of an entry. -/
def Entry.patch (e : Entry) : Patch :=
  ⟨e.diff, orElse e.description defaultDescription, orElse e.file unknownFile, .generated⟩

/-! ### Reading -/

/-- Why a response has no payload that counts. -/
inductive PayloadProblem
  | absent
  | malformed (e : Json.ReadError)
  | invalid (issues : Nat)
  deriving DecidableEq, Repr

/-- The text of the problem. -/
def PayloadProblem.message : PayloadProblem → Text
  | .absent => "No JSON payload found"
  | .malformed e => "Invalid JSON: " ++ e.message
  | .invalid n => "Payload failed validation: " ++ Text.ofNat n ++ " errors"

/-- The patches that a JSON text lists, or what is wrong with it. Numerals and nesting beyond what
can be read are no problem of the payload but a fault. -/
def readPayload (depth : Nat) (t : Text) : Except Json.ReadError (Except PayloadProblem (List Patch)) :=
  match Json.read depth t with
  | .error (.malformed trouble place) => .ok (.error (.malformed (.malformed trouble place)))
  | .error e => .error e
  | .ok v =>
    match readEntries (Datum.ofJson v) with
    | .ok es => .ok (.ok (es.map Entry.patch))
    | .error issues => .ok (.error (.invalid issues.length))

/-- The patches of the payload of a response. -/
def strict (depth : Nat) (t : Text) : Except Json.ReadError (Except PayloadProblem (List Patch)) :=
  match payload? t with
  | none => .ok (.error .absent)
  | some p => readPayload depth p

end Mend.Response
