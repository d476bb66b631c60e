/-!
# Ranges of code points

A property of characters beyond ASCII is given by the ranges of code points that have it. This
file holds the look-up; the tables stand in the module of each property.
-/

namespace Mend.Text

/-- Ranges of code points, each with its first and its last one, in increasing order. -/
abbrev CodeRanges := List (Nat × Nat)

/-- Whether a code point lies in one of the ranges. -/
def CodeRanges.has (rs : CodeRanges) (n : Nat) : Bool :=
  rs.any fun (first, last) => first ≤ n && n ≤ last

theorem CodeRanges.has_iff (rs : CodeRanges) (n : Nat) :
    rs.has n = true ↔ ∃ r ∈ rs, r.1 ≤ n ∧ n ≤ r.2 := by
  simp [CodeRanges.has]

end Mend.Text
