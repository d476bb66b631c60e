import Mend.Response.Payload
import Mend.Session

/-!
# Responses of a model

A response is read in two stages. First its payload counts. If there is none that can be read, the
fenced diffs count, each for the file that its target header names. If there is none either, the
response gives no patches, and the reason is what was wrong with the payload.
-/

namespace Mend.Response

/-- What a response gives. -/
inductive Reading
  | payload (patches : List Patch)
  | diffs (patches : List Patch)
  | nothing (reason : Text)
  deriving DecidableEq, Repr

/-- The patches that a response gives. -/
def Reading.patches : Reading → List Patch
  | .payload ps => ps
  | .diffs ps => ps
  | .nothing _ => []

/-- Whether it is known which file a patch is for. -/
def hasTarget (p : Patch) : Bool := !p.file.isEmpty && p.file != unknownFile

/-- The reading of the first stage alone. -/
def ofPayload (depth : Nat) (t : Text) : Except Json.ReadError Reading :=
  match strict depth t with
  | .error e => .error e
  | .ok (.ok ps) => .ok (.payload ps)
  | .ok (.error problem) => .ok (.nothing problem.message)

/-! ### Fenced diffs -/

/-- The name at the beginning of a text, up to white space. -/
def nameAt? (t : Text) : Option Text :=
  let name := t.takeWhile fun c => !Text.isBlank c
  if name.isEmpty then none else some name

/-- The file that a target header names, without the letter for the new side. -/
def targetAt? (line : Text) : Option Text :=
  match Text.after? "+++ " line with
  | none => none
  | some t => ((Text.after? "b/" t).bind nameAt?).or (nameAt? t)

/-- The file that a diff is for. A diff that deletes its file names none. -/
def target (diff : Text) : Text :=
  match (Text.lines diff).findSome? targetAt? with
  | some file => if file = ("/dev/null" : Text) then unknownFile else file
  | none => unknownFile

/-- The patches of some diffs, numbered from one. -/
def patchesOf (diffs : List Text) : List Patch :=
  diffs.zipIdx.map fun (diff, i) =>
    ⟨diff, defaultDescription ++ " " ++ Text.ofNat (i + 1), target diff, .generated⟩

/-- The reading of the second stage alone. -/
def ofDiffs (t : Text) : Reading :=
  match blocks "diff" false t with
  | [] => .nothing "No diff blocks found"
  | ds => .diffs (patchesOf ds)

/-! ### Both stages -/

/-- The number of characters of a response that are shown when it cannot be read. -/
def previewSize : Nat := 200

/-- The reading of a response, with what is reported. -/
def read (depth : Nat) (t : Text) : Except Json.ReadError (Exchange × Reading) :=
  match ofPayload depth t with
  | .error e => .error e
  | .ok (.nothing reason) =>
    match ofDiffs t with
    | .nothing _ => .ok (.unparseable reason (t.take previewSize), .nothing reason)
    | r => .ok (.fellBack reason r.patches.length, r)
  | .ok r => .ok (.parsed r.patches.length, r)

end Mend.Response
