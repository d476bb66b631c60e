import Mend.Diff.Apply
import Mend.Diff.Reverse
import Mend.Patch
import Mend.Workspace

/-!
# The patch engine

The engine applies patches to files of a workspace. A patch that does not fit is refused, and then
no file changes; a file is written only after its new text is known in full. A batch is applied
item by item; when an item is refused, the items before it are reverted, the last one first.
Reverting applies the reversed diff, so it can be refused as well.

Some inputs are beyond what the engine can handle at all, such as numerals of thousands of digits.
They raise a fault instead of an answer. A new text that cannot be encoded is found out only when it is
written: the file is empty then.
-/

namespace Mend.Engine

open Diff (ApplyError Misfit Hunk)

/-- Why a patch is refused. -/
inductive Refusal
  | missing (path : Text)
  | unreadable (path cause : Text)
  | stale
  | misfit (m : Misfit)
  deriving DecidableEq, Repr

/-- The text of a refusal. -/
def Refusal.message : Refusal → Text
  | .missing path => "File not found: " ++ path
  | .unreadable path cause => "Failed to read " ++ path ++ ": " ++ cause
  | .stale => "Patch context does not match file; patch is stale"
  | .misfit m => m.message

/-- The kind of misfit that the log names. -/
def misfitKind : Misfit → Text
  | .noHunks => "PatchParseError"
  | .startZero => "PatchApplyError"
  | .removalPastEnd _ => "PatchApplyError"
  | .lineMismatch _ _ => "ValidationMismatchError"

/-- The kind of refusal that the log names. -/
def Refusal.kind : Refusal → Text
  | .missing _ => "PatchError"
  | .unreadable _ _ => "PatchError"
  | .stale => "ValidationMismatchError"
  | .misfit m => misfitKind m

/-- Why the engine has no answer. -/
inductive Fault
  | file (e : FileError)
  | numeral (e : Number.NumeralError)
  | positionTooLarge
  | encoding (e : Utf8.EncodeError)
  deriving DecidableEq, Repr

/-! ### Validation -/

/-- The first line, from `line` on, that differs from the expected ones. -/
def firstMismatch? (ls : List Text) : Nat → List Text → Option Nat
  | _, [] => none
  | line, e :: es =>
    if Diff.lineAt? ls line = some e then firstMismatch? ls (line + 1) es else some line

/-- Compares the leading context of each hunk with the lines of a file, up to the first hunk that
differs. Hunks with context after a change are reported: that context is not compared. -/
def checkContext (file : Text) (ls : List Text) : List Hunk → List Notice × Bool
  | [] => ([], true)
  | h :: hs =>
    let weak := if h.hasTrailingContext then [Notice.weaklyValidated file h.oldStart] else []
    match firstMismatch? ls h.oldStart h.leadingContext with
    | some line => (weak ++ [.contextMismatch file line], false)
    | none =>
      let (ns, ok) := checkContext file ls hs
      (weak ++ ns, ok)

/-- Whether the leading context of each hunk of a patch matches a text, with what is reported. -/
def validate (content : Text) (p : Patch) : Except Number.NumeralError (List Notice × Bool) :=
  match Diff.hunks p.diff with
  | .error e => .error e
  | .ok hs => .ok (checkContext p.file (Text.lines content) hs)

/-! ### One patch -/

/-- What becomes of a patch. -/
inductive Verdict
  | written (files : FileTree)
  | refused (r : Refusal)
  | raised (files : FileTree) (f : Fault)

/-- Whether a patch from this source is checked line by line: the patches of rules carry no context,
so that their removed lines are the only check. -/
def isStrict (strict : Bool) (p : Patch) : Bool := strict || p.source = .rule

/-- A text, if it can be written. -/
def writable (t : Text) : Except (Refusal ⊕ Fault) Text :=
  match Utf8.problem? t with
  | none => .ok t
  | some e => .error (.inr (.encoding e))

/-- The text that a patch makes of a text, with what is reported. -/
def revise (strict : Bool) (content : Text) (p : Patch) :
    List Notice × Except (Refusal ⊕ Fault) Text :=
  match validate content p with
  | .error e => ([], .error (.inr (.numeral e)))
  | .ok (ns, false) => (ns, .error (.inl .stale))
  | .ok (ns, true) =>
    match Diff.apply (isStrict strict p) content p.diff with
    | .ok t => (ns, writable t)
    | .error (.misfit m) => (ns, .error (.inl (.misfit m)))
    | .error (.numeral e) => (ns, .error (.inr (.numeral e)))
    | .error .positionTooLarge => (ns, .error (.inr .positionTooLarge))

/-- The files after a fault with the text of one of them. A file is emptied before it is written. -/
def afterFault (files : FileTree) (names : List Text) : Fault → FileTree
  | .encoding _ => files.put names .empty
  | _ => files

/-- Applies a patch to the file that a path leads to, with what is reported. -/
def patchFile (strict : Bool) (files : FileTree) (path : Path) (p : Patch) :
    List Notice × Verdict :=
  match files.probe path with
  | .error e => ([], .raised files (.file e))
  | .ok (some (.file names bytes)) =>
    if files.isSealed names then
      ([], .refused (.unreadable path.text (FileError.mk .forbidden path.text).message))
    else match Utf8.decode bytes with
      | .error e => ([], .refused (.unreadable path.text e.message))
      | .ok content =>
        match revise strict content p with
        | (ns, .ok t) => (ns, .written (files.put names (Utf8.encode t)))
        | (ns, .error (.inl r)) => (ns, .refused r)
        | (ns, .error (.inr f)) => (ns, .raised (afterFault files names f) f)
  | .ok _ => ([], .refused (.missing path.text))

/-- The label under which a patch is counted. -/
def sourceLabel (p : Patch) : Metrics.Labels := [("source", p.source.name)]

/-- Applies a patch to the file at a path. The answer tells whether it was applied. -/
def apply (strict : Bool) (w : Workspace) (path : Text) (p : Patch) :
    Workspace × Except Fault Bool :=
  let target := Path.ofText path
  match patchFile strict w.files target p with
  | (ns, .written files) =>
    let w := { w.noteAll ns with files := files }
    ((w.note (.patchApplied target.text p.description)).count .patchesApplied (sourceLabel p) 1,
      .ok true)
  | (ns, .refused r) =>
    let w := (w.noteAll ns).note (.patchFailed target.text r.message r.kind)
    (w.count .patchesFailed (sourceLabel p) 1, .ok false)
  | (ns, .raised files f) => ({ w.noteAll ns with files := files }, .error f)

/-- The patch that undoes a patch. -/
def reversed (p : Patch) : Patch := { p with diff := Diff.reverse p.diff }

/-- Applies the reversed patch. -/
def revert (strict : Bool) (w : Workspace) (path : Text) (p : Patch) :
    Workspace × Except Fault Bool :=
  apply strict (w.note (.reverting path)) path (reversed p)

/-! ### Batches -/

/-- A patch with the file that it is for. -/
structure Item where
  path : Text
  patch : Patch
  deriving DecidableEq, Repr

/-- What became of a batch. -/
structure BatchResult where
  appliedCount : Nat
  rolledBack : Bool := false
  failureReason : Option Text := none
  failedItem : Option Item := none
  rollbackFailures : List Item := []
  deriving DecidableEq, Repr

/-- Whether every item of the batch was applied. -/
def BatchResult.success (r : BatchResult) : Bool := r.failureReason.isNone

/-- Whether nothing of a failed batch is left. -/
def BatchResult.rollbackClean (r : BatchResult) : Bool := r.rollbackFailures.isEmpty

/-- Applies items up to the first one that is refused. The answer holds the applied items, the last
one first, and the refused one. -/
def applyItems (strict : Bool) : List Item → List Item → Workspace →
    Workspace × Except Fault (List Item × Option Item)
  | applied, [], w => (w, .ok (applied, none))
  | applied, item :: items, w =>
    match apply strict w item.path item.patch with
    | (w, .ok true) => applyItems strict (item :: applied) items w
    | (w, .ok false) => (w, .ok (applied, some item))
    | (w, .error f) => (w, .error f)

/-- Reverts items in the given order. The answer holds those that could not be reverted. -/
def revertItems (strict : Bool) : List Item → Workspace → Workspace × Except Fault (List Item)
  | [], w => (w, .ok [])
  | item :: items, w =>
    match revert strict w item.path item.patch with
    | (w, .ok true) => revertItems strict items w
    | (w, .ok false) =>
      match revertItems strict items (w.note (.rollbackFailed item.path)) with
      | (w, .ok failures) => (w, .ok (item :: failures))
      | (w, .error f) => (w, .error f)
    | (w, .error f) => (w, .error f)

/-- The reason that a batch gives for its failure. -/
def failureReason (item : Item) : Text := "Failed to apply patch to " ++ item.path

/-- Undoes the applied items of a batch, the last one first, after an item was refused. -/
def rollBack (strict : Bool) (applied : List Item) (failed : Item) (w : Workspace) :
    Workspace × Except Fault BatchResult :=
  let reason := failureReason failed
  match revertItems strict applied (w.note (.batchFailed reason applied.length)) with
  | (w, .error f) => (w, .error f)
  | (w, .ok failures) =>
    let w := w.count .batchesRolledBack [] 1
    let w := if failures.isEmpty then w else w.count .rollbackFailures [] failures.length
    let w := w.note (.batchRolledBack (applied.length - failures.length) failures.length)
    (w, .ok ⟨failures.length, true, some reason, some failed, failures⟩)

/-- Applies the items of a batch in order; when one is refused, undoes those before it. -/
def applyBatch (strict : Bool) (w : Workspace) (items : List Item) :
    Workspace × Except Fault BatchResult :=
  match applyItems strict [] items (w.note (.applyingBatch items.length)) with
  | (w, .error f) => (w, .error f)
  | (w, .ok (applied, none)) =>
    (w.note (.batchApplied applied.length), .ok ⟨applied.length, false, none, none, []⟩)
  | (w, .ok (applied, some failed)) => rollBack strict applied failed w

end Mend.Engine
