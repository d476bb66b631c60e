import Mend.Diff.Hunk

/-!
# Reversing a diff

The diff that undoes another one: removals and additions exchange their marks, and the two ranges
of each header change places, with both counts written out. Every other line stays as it is.
-/

namespace Mend.Diff

/-- A header with its two ranges exchanged. -/
def Header.swap (h : Header) : Header := { h with old := h.new, new := h.old }

/-- A line of the reversed diff. -/
def reverseLine (line : Text) : Text :=
  match kind line with
  | .addition => '-' :: payload line
  | .removal => '+' :: payload line
  | _ =>
    match Header.parse? line with
    | some h => h.swap.text
    | none => line

/-- The diff that undoes a diff. -/
def reverse (diff : Text) : Text := Text.ofLines ((Text.lines diff).map reverseLine)

end Mend.Diff
