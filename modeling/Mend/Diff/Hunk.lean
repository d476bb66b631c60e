import Mend.Diff.Line
import Mend.Number.Integer

/-!
# Hunks

A diff is cut at its hunk headers, the lines that begin with `@@ -a,b +c,d @@`. The lines after a
header up to the next one are the hunk's body; lines before the first header belong to no hunk. A
count that is left out is one. Numbers may use the decimal digits of any script.
-/

namespace Mend.Diff

/-- The numerals of one side of a header: the first line and the number of lines. -/
structure Range where
  start : Text
  count : Text
  deriving DecidableEq, Repr

/-- A hunk header as it is written, with the text after its closing mark. -/
structure Header where
  old : Range
  new : Range
  rest : Text
  deriving DecidableEq, Repr

/-- A range at the beginning of a text, and what follows it. -/
def Range.take? (t : Text) : Option (Range × Text) :=
  match Text.spanDigits t with
  | ([], _) => none
  | (start, ',' :: t) =>
    let (count, t) := Text.spanDigits t
    some (⟨start, count⟩, t)
  | (start, t) => some (⟨start, []⟩, t)

/-- The header that a line begins with. -/
def Header.parse? (line : Text) : Option Header :=
  match Text.after? "@@ -" line with
  | none => none
  | some t =>
    match Range.take? t with
    | none => none
    | some (old, t) =>
      match Text.after? " +" t with
      | none => none
      | some t =>
        match Range.take? t with
        | none => none
        | some (new, t) =>
          match Text.after? " @@" t with
          | none => none
          | some rest => some ⟨old, new, rest⟩

/-- The count's numeral, one where it is left out. -/
def Range.countNumeral (r : Range) : Text := if r.count.isEmpty then "1" else r.count

/-- A range with its count written out. -/
def Range.text (r : Range) : Text := r.start ++ "," ++ r.countNumeral

/-- A header line with both counts written out. -/
def Header.text (h : Header) : Text :=
  "@@ -" ++ h.old.text ++ " +" ++ h.new.text ++ " @@" ++ h.rest

/-- A header with the lines up to the next one. -/
structure Section where
  header : Header
  body : List Text
  deriving DecidableEq, Repr

/-- Adds a line in front of a diff that is already cut into the lines before the first header and
the sections. -/
def consLine (line : Text) (cut : List Text × List Section) : List Text × List Section :=
  match Header.parse? line with
  | some h => ([], ⟨h, cut.1⟩ :: cut.2)
  | none => (line :: cut.1, cut.2)

/-- The lines before the first header, and the sections. -/
def cutLines (ls : List Text) : List Text × List Section := ls.foldr consLine ([], [])

/-- The sections of a diff. -/
def sections (diff : Text) : List Section := (cutLines (Text.lines diff)).2

theorem cutLines_cons (l : Text) (ls : List Text) :
    cutLines (l :: ls) = consLine l (cutLines ls) := rfl

/-- One contiguous region of change. -/
structure Hunk where
  oldStart : Nat
  oldCount : Nat
  newStart : Nat
  newCount : Nat
  body : List Text
  deriving DecidableEq, Repr

namespace Hunk

/-- The texts that a hunk removes. -/
def removed (h : Hunk) : List Text := (h.body.filter isRemoval).map payload

/-- The texts that a hunk adds. -/
def added (h : Hunk) : List Text := (h.body.filter isAddition).map payload

/-- The context before the first line that is none. -/
def leadingContext (h : Hunk) : List Text := (h.body.takeWhile isContext).map payload

/-- Whether a line changes something. -/
def isChange (line : Text) : Bool := isRemoval line || isAddition line

/-- Whether context stands after a change. -/
def hasTrailingContext (h : Hunk) : Bool :=
  (h.body.dropWhile fun l => !isChange l).any isContext

/-- The number of lines of the old text that a hunk speaks of. -/
def width (h : Hunk) : Nat := h.body.countP fun l => isContext l || isRemoval l

end Hunk

/-- The hunk of a section. Its numerals are read in the order in which they are written. -/
def Section.hunk (s : Section) : Except Number.NumeralError Hunk :=
  match Number.ofDigits s.header.old.start with
  | .error e => .error e
  | .ok oldStart =>
    match Number.ofDigits s.header.old.countNumeral with
    | .error e => .error e
    | .ok oldCount =>
      match Number.ofDigits s.header.new.start with
      | .error e => .error e
      | .ok newStart =>
        match Number.ofDigits s.header.new.countNumeral with
        | .error e => .error e
        | .ok newCount => .ok ⟨oldStart, oldCount, newStart, newCount, s.body⟩

/-- The hunks of sections; the first numeral that is too long is reported. -/
def hunksOf : List Section → Except Number.NumeralError (List Hunk)
  | [] => .ok []
  | s :: ss =>
    match s.hunk with
    | .error e => .error e
    | .ok h =>
      match hunksOf ss with
      | .error e => .error e
      | .ok hs => .ok (h :: hs)

/-- The hunks of a diff in the order in which they are written. -/
def hunks (diff : Text) : Except Number.NumeralError (List Hunk) := hunksOf (sections diff)

end Mend.Diff
