import Mend.Text

/-!
# Places in a YAML text

A cursor is a place in a text together with what remains of the text. A mark is a place that a message
points at; it shows its line as far as there is room.
-/

namespace Mend.Yaml

/-! ### Characters -/

/-- Whether a character is a line break. -/
def isBreak (c : CodePoint) : Bool :=
  c = '\r' || c = '\n' || c = '\x85' || c = '\u2028' || c = '\u2029'

/-- What a cursor shows at the end of the text. No text may hold this character. -/
def endChar : CodePoint := '\x00'

/-- Whether a character is a line break or the end of the text. -/
def endsLine (c : CodePoint) : Bool := c = endChar || isBreak c

/-- Whether a character is a space, a line break or the end of the text. -/
def endsWord (c : CodePoint) : Bool := c = ' ' || endsLine c

/-- The same, or a tab. -/
def endsToken (c : CodePoint) : Bool := c = '\t' || endsWord c

/-! ### Marks -/

/-- A place that a message points at: its line and column, counted from zero, what is before it in its
line, last character first, and what is after it. -/
structure Mark where
  line : Nat
  column : Nat
  behind : Text
  ahead : Text

namespace Mark

/-- How much of a line is shown on either side of a place. -/
def room : Nat := 36

/-- How much of a longer line is shown. -/
def part : Nat := 32

/-- What stands for the part of a line that is left out. -/
def gap : Text := " ... "

/-- The beginning of the line before a place. -/
def head (m : Mark) : Text :=
  if room < m.behind.length then gap ++ (m.behind.take part).reverse else m.behind.reverse

/-- The end of the line from a place on. -/
def tail (m : Mark) : Text :=
  let line := m.ahead.takeWhile (!endsLine ·)
  if room < line.length then line.take part ++ gap else line

/-- The place and its line, with a pointer below. -/
def text (m : Mark) : Text :=
  "  in \"<unicode string>\", line " ++ Text.ofNat (m.line + 1) ++ ", column " ++
    Text.ofNat (m.column + 1) ++ ":\n    " ++ m.head ++ m.tail ++ "\n    " ++
    (List.replicate m.head.length ' ' : Text) ++ "^"

end Mark

/-! ### Cursors -/

/-- A place in a text: what remains, what is before it in its line, last character first, the number
of characters before it, and its line and column. -/
structure Cursor where
  rest : Text
  behind : Text
  index : Nat
  line : Nat
  column : Nat

namespace Cursor

/-- The beginning of a text. -/
def start (t : Text) : Cursor := ⟨t, [], 0, 0, 0⟩

/-- The character some places further. -/
def peek (c : Cursor) (n : Nat := 0) : CodePoint := c.rest[n]?.getD endChar

/-- The mark at a cursor. -/
def mark (c : Cursor) : Mark := ⟨c.line, c.column, c.behind, c.rest⟩

/-- The cursor behind the next character. A byte order mark takes no column, and a carriage return ends
its line only together with a line feed that follows. -/
def next (c : Cursor) : Cursor :=
  match c.rest with
  | [] => c
  | ch :: rest =>
    let behind := if isBreak ch then [] else ch :: c.behind
    if isBreak ch && !(ch = '\r' && rest.head? = some '\n') then
      ⟨rest, behind, c.index + 1, c.line + 1, 0⟩
    else ⟨rest, behind, c.index + 1, c.line, if ch = '\ufeff' then c.column else c.column + 1⟩

/-- The cursor behind some characters. -/
def skip (c : Cursor) : Nat → Cursor
  | 0 => c
  | n + 1 => c.next.skip n

/-- The characters from a cursor on that are of a class. -/
def span (c : Cursor) (p : CodePoint → Bool) : Text := c.rest.takeWhile p

/-- The cursor behind the characters of a class. -/
def skipWhile (c : Cursor) (p : CodePoint → Bool) : Cursor := c.skip (c.span p).length

/-- Whether the line at the cursor separates documents by the given sign. -/
def separates (c : Cursor) (sign : Text) : Bool :=
  Text.startsWith c.rest sign && endsToken (c.peek sign.length)

/-- Whether one of the two signs that separate documents is at the cursor. -/
def atSeparator (c : Cursor) : Bool := c.separates "---" || c.separates "..."

/-- The line break at a cursor, reduced to a line feed where it is an ordinary one, and the cursor
behind it. -/
def lineBreak? (c : Cursor) : Option (CodePoint × Cursor) :=
  let ch := c.peek
  if ch = '\r' && c.peek 1 = '\n' then some ('\n', c.skip 2)
  else if ch = '\r' || ch = '\n' || ch = '\x85' then some ('\n', c.next)
  else if isBreak ch then some (ch, c.next)
  else none

@[simp] theorem skip_zero (c : Cursor) : c.skip 0 = c := rfl

theorem next_rest (c : Cursor) : c.next.rest = c.rest.tail := by
  unfold next
  split
  · next h => simp [h]
  · next h =>
    rw [h]
    dsimp only
    split <;> rfl

theorem skip_rest (c : Cursor) (n : Nat) : (c.skip n).rest = c.rest.drop n := by
  induction n generalizing c with
  | zero => rfl
  | succ n ih => rw [skip, ih, next_rest, List.drop_tail]

end Cursor

end Mend.Yaml
