import Mend.Text.Blank
import Mend.Text.Digit
import Mend.Text.Word

/-!
# Pattern keys

The pattern key of a message is the message with its accidental parts masked: quoted names, numbers
and file paths. Messages that differ in those parts alone have one key.

The masks are laid on in this order, because digits and slashes between quotes belong to the name,
and digits in a path are masked before the path is. Each mask is one pass from left to right.
-/

namespace Mend.PatternKey

/-! ### Quoted names -/

/-- The characters that begin and end a quoted name; either one ends what either one began. -/
def isQuote (c : CodePoint) : Bool := c = '\'' || c = '"'

/-- What stands for a quoted name. -/
def nameMask : Text := "<STRING>"

/-- Masks quoted names. The argument holds what was read since an open quote, backwards and with the
quote; a quote that stays open masks nothing. -/
def maskNamesFrom : Option Text → Text → Text
  | none, [] => []
  | none, c :: t => if isQuote c then maskNamesFrom (some [c]) t else c :: maskNamesFrom none t
  | some read, [] => read.reverse
  | some read, c :: t =>
    if isQuote c then nameMask ++ maskNamesFrom none t else maskNamesFrom (some (c :: read)) t

/-- The text with its quoted names masked. -/
def maskNames (t : Text) : Text := maskNamesFrom none t

/-! ### Numbers -/

/-- What stands for a number. -/
def numberMask : Text := "<NUM>"

/-- Masks runs of digits; the argument tells whether a run is being read. -/
def maskNumbersFrom : Bool → Text → Text
  | _, [] => []
  | inside, c :: t =>
    if Text.isDigit c then
      if inside then maskNumbersFrom true t else numberMask ++ maskNumbersFrom true t
    else c :: maskNumbersFrom false t

/-- The text with its runs of digits masked. -/
def maskNumbers (t : Text) : Text := maskNumbersFrom false t

/-! ### Paths -/

/-- What stands for a path. -/
def pathMask : Text := "<PATH>"

/-- The characters of a name in a path. -/
def isPathChar (c : CodePoint) : Bool := Text.isWord c || c = '-' || c = '.'

/-- Whether a text begins with a name of a path. -/
def beginsName (t : Text) : Bool := t.head?.any isPathChar

/-- Masks runs of names that each follow a slash; the argument tells whether a run is being read. -/
def maskPathsFrom : Bool → Text → Text
  | _, [] => []
  | inside, c :: t =>
    if c = '/' && beginsName t then
      if inside then maskPathsFrom true t else pathMask ++ maskPathsFrom true t
    else if inside && isPathChar c then maskPathsFrom true t
    else c :: maskPathsFrom false t

/-- The text with its paths masked. -/
def maskPaths (t : Text) : Text := maskPathsFrom false t

/-! ### The key -/

/-- The pattern key of a message. -/
def ofMessage (message : Text) : Text :=
  Text.trim (maskPaths (maskNumbers (maskNames message)))

end Mend.PatternKey
