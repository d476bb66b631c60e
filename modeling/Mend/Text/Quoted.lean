import Mend.Text
import Mend.Text.Printable

/-!
# Quoted text

A quoted text stands between single quotes, or between double quotes if it holds a single quote
and no double quote. A backslash and the closing quote are written after a backslash, and so are
the letters for tab, line feed and carriage return. Any other character that is not printable is
written by its code point in two, four or eight hexadecimal digits.
-/

namespace Mend.Text

/-- A code point by its number: two digits below 2^8, four below 2^16, else eight. -/
def escapeCode (n : Nat) : Text :=
  if n < 0x100 then "\\x" ++ hex 2 n
  else if n < 0x10000 then "\\u" ++ hex 4 n
  else "\\U" ++ hex 8 n

/-- One character between two quotes of the given kind. -/
def quoteChar (quote c : CodePoint) : Text :=
  if c = quote || c = '\\' then ['\\', c]
  else if c = '\t' then "\\t"
  else if c = '\n' then "\\n"
  else if c = '\r' then "\\r"
  else if isPrintable c then [c]
  else escapeCode c.toNat

/-- The quote around a text that holds these characters. -/
def quoteFor (t : Text) : CodePoint := if t.elem (.char '\'') && !t.elem (.char '"') then '"' else '\''

/-- The quoted form of a text. -/
def quoted (t : Text) : Text :=
  let quote := quoteFor t
  quote :: t.flatMap (quoteChar quote) ++ [quote]

end Mend.Text
