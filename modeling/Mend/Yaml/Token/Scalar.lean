import Mend.Yaml.Token.Name

/-!
# Scalars as they are written

A scalar is written without quotes, in single or double quotes, or as a block of lines. A line break
inside a scalar counts as a space unless empty lines follow, which count as line breaks; the lines of a
literal block are kept.
-/

namespace Mend.Yaml.Token

/-! ### Quoted scalars -/

/-- The line breaks at the beginning of lines inside quotes. -/
def takeQuotedBreaks (start : Mark) : Nat → Cursor → Except Error (Text × Cursor)
  | 0, c => .ok ([], c)
  | fuel + 1, c =>
    if c.atSeparator then failure "while scanning a quoted scalar" start .separatorInQuotes c
    else
      let c := c.skipWhile fun ch => ch = ' ' || ch = '\t'
      match c.lineBreak? with
      | none => .ok ([], c)
      | some (b, c) => do
        let (bs, c) ← takeQuotedBreaks start fuel c
        return (b :: bs, c)

/-- What a line break counts as, by the line breaks that follow it. -/
def foldedBreak (b : CodePoint) (more : Text) : Text :=
  (if b != '\n' then [b] else if more.isEmpty then [' '] else []) ++ more

/-- Blanks and line breaks inside quotes. -/
def takeQuotedBlanks (start : Mark) (c : Cursor) : Except Error (Text × Cursor) :=
  let blanks := c.span fun ch => ch = ' ' || ch = '\t'
  let c := c.skip blanks.length
  if c.peek = endChar then failure "while scanning a quoted scalar" start .endInQuotes c
  else
    match c.lineBreak? with
    | none => .ok (blanks, c)
    | some (b, c) => do
      let (bs, c) ← takeQuotedBreaks start (c.rest.length + 1) c
      return (foldedBreak b bs, c)

/-- The letters after a backslash that stand for a character. -/
def escapes : List (CodePoint × CodePoint) :=
  [('0', '\x00'), ('a', '\x07'), ('b', '\x08'), ('t', '\t'), ('\t', '\t'), ('n', '\n'),
    ('v', '\x0b'), ('f', '\x0c'), ('r', '\r'), ('e', '\x1b'), (' ', ' '), ('"', '"'),
    ('\\', '\\'), ('/', '/'), ('N', '\x85'), ('_', '\xa0'), ('L', '\u2028'), ('P', '\u2029')]

/-- The letters after a backslash that are followed by the digits of a code point, with the number of
digits. -/
def codeEscapes : List (CodePoint × Nat) := [('x', 2), ('u', 4), ('U', 8)]

/-- The code point of so many hexadecimal digits. -/
def takeCode (start : Mark) (size : Nat) (c : Cursor) : Except Error (Nat × Cursor) :=
  let ds := (c.rest.take size).map Text.hexValue?
  let good := ds.takeWhile Option.isSome
  if good.length < size then
    failure "while scanning a double-quoted scalar" start
      (.expected ("escape sequence of " ++ Text.ofNat size ++ " hexadecimal numbers")
        (c.peek good.length)) c
  else
    let code := good.foldl (fun n d => n * 16 + d.getD 0) 0
    if 0x110000 ≤ code then .error (.scalar (.noCharacter code)) else .ok (code, c.skip size)

/-- What an escape stands for; the cursor is behind the backslash. -/
def takeEscape (start : Mark) (c : Cursor) : Except Error (Text × Cursor) :=
  match escapes.lookup c.peek, codeEscapes.lookup c.peek, c.lineBreak? with
  | some ch, _, _ => .ok ([ch], c.next)
  | none, some size, _ => do
    let (code, c) ← takeCode start size c.next
    return ([.ofNat code], c)
  | none, none, some (_, c) => takeQuotedBreaks start (c.rest.length + 1) c
  | none, none, none =>
    failure "while scanning a double-quoted scalar" start (.unknownEscape c.peek) c

/-- The text of a scalar in quotes; the cursor is behind the opening quote. -/
def takeQuotedFrom (quote : CodePoint) (start : Mark) :
    Nat → Cursor → Except Error (Text × Cursor)
  | 0, c => .ok ([], c)
  | fuel + 1, c =>
    let more (t : Text) (c : Cursor) : Except Error (Text × Cursor) := do
      let (rest, c) ← takeQuotedFrom quote start fuel c
      return (t ++ rest, c)
    if quote = '\'' && c.peek = '\'' && c.peek 1 = '\'' then more ['\''] (c.skip 2)
    else if c.peek = quote then .ok ([], c.next)
    else if quote = '"' && c.peek = '\\' then do
      let (t, c) ← takeEscape start c.next
      more t c
    else if endsToken c.peek then do
      let (blanks, c) ← takeQuotedBlanks start c
      more blanks c
    else more [c.peek] c.next

/-- A scalar in quotes. -/
def takeQuoted (c : Cursor) : Except Error (Text × Cursor) :=
  takeQuotedFrom c.peek c.mark (c.rest.length + 1) c.next

/-! ### Plain scalars -/

/-- The number of characters of a plain scalar at the beginning of a text. In a flow collection its signs
end a scalar. -/
def plainLength (flow : Bool) : Text → Nat
  | [] => 0
  | ch :: t =>
    let following := t.head?.getD endChar
    let ends := endsToken ch ||
      (ch = ':' && (endsToken following || flow && (",[]\x7b\x7d" : Text).elem following)) ||
      (flow && (",?[]\x7b\x7d" : Text).elem ch)
    if ends then 0 else plainLength flow t + 1

/-- The line breaks between the lines of a plain scalar, and whether the document ends there. -/
def takePlainBreaks : Nat → Cursor → Text × Bool × Cursor
  | 0, c => ([], false, c)
  | fuel + 1, c =>
    if c.atSeparator then ([], true, c)
    else
      let c := skipSpaces c
      match c.lineBreak? with
      | none => ([], false, c)
      | some (b, c) =>
        let (bs, ends, c) := takePlainBreaks fuel c
        (b :: bs, ends, c)

/-- What is between two parts of a plain scalar. -/
structure PlainGap where
  text : Text
  /-- Whether it holds a line break. -/
  crossesLine : Bool

/-- The blanks and line breaks after a part of a plain scalar. At the end of a document they are no part
of the scalar. -/
def takePlainGap (c : Cursor) : PlainGap × Cursor :=
  let blanks := c.span (· = .char ' ')
  let c := c.skip blanks.length
  match c.lineBreak? with
  | none => (⟨blanks, false⟩, c)
  | some (b, c) =>
    let (bs, ends, c) := takePlainBreaks (c.rest.length + 1) c
    (⟨if ends then [] else foldedBreak b bs, true⟩, c)

/-- A plain scalar from a part on: its text, whether a line break follows it, and the place of its end. -/
def takePlainFrom (flow : Bool) (indent : Int) :
    Nat → Cursor → Text × Bool × Mark × Cursor
  | 0, c => ([], false, c.mark, c)
  | fuel + 1, c =>
    let size := plainLength flow c.rest
    let word := c.rest.take size
    let stop := c.skip size
    let (gap, after) := takePlainGap stop
    if gap.text.isEmpty || after.peek = '#' || (!flow && after.column < indent) ||
        plainLength flow after.rest = 0 then
      (word, gap.crossesLine, stop.mark, after)
    else
      let (rest, crosses, stop, c) := takePlainFrom flow indent fuel after
      (word ++ gap.text ++ rest, crosses, stop, c)

/-- A plain scalar, whose further lines are indented at least so far. -/
def takePlain (flow : Bool) (indent : Int) (c : Cursor) : Text × Bool × Mark × Cursor :=
  takePlainFrom flow indent (c.rest.length + 1) c

/-! ### Block scalars -/

/-- What becomes of the line breaks at the end of a block. -/
inductive Chomping
  | clip
  | strip
  | keep
  deriving DecidableEq, Repr

/-- The chomping that a sign asks for. -/
def Chomping.ofChar? : CodePoint → Option Chomping
  | '+' => some .keep
  | '-' => some .strip
  | _ => none

/-- The indentation in the header of a block, if it is given. -/
def takeIndentation (start : Mark) (c : Cursor) : Except Error (Option Nat × Cursor) :=
  if c.peek = '0' then failure "while scanning a block scalar" start .zeroIndentation c
  else if Text.isAsciiDigit c.peek then .ok (some (Text.digitsValue [c.peek]), c.next)
  else .ok (none, c)

/-- The header of a block: its chomping and its indentation, in either order. -/
def takeHeader (start : Mark) (c : Cursor) :
    Except Error (Chomping × Option Nat × Cursor) := do
  let (chomping, indentation, c) ← (match Chomping.ofChar? c.peek with
    | some chomping => do
      let (indentation, c) ← takeIndentation start c.next
      pure (chomping, indentation, c)
    | none => do
      let (indentation, c) ← takeIndentation start c
      match if indentation.isSome then Chomping.ofChar? c.peek else none with
      | some chomping => pure (chomping, indentation, c.next)
      | none => pure (.clip, indentation, c))
  let context : Text := "while scanning a block scalar"
  require endsWord "chomping or indentation indicators" context start c
  return (chomping, indentation, ← takeLineEnd context start c)

/-- The empty lines before a block without a given indentation, and the greatest width of a line of
spaces among them and before the first other line. -/
def takeWidth : Nat → Cursor → Text × Nat × Cursor
  | 0, c => ([], 0, c)
  | fuel + 1, c =>
    if c.peek = ' ' then
      let (bs, width, after) := takeWidth fuel c.next
      (bs, max width c.next.column, after)
    else
      match c.lineBreak? with
      | none => ([], 0, c)
      | some (b, c) =>
        let (bs, width, after) := takeWidth fuel c
        (b :: bs, width, after)

/-- The cursor behind spaces up to a column. -/
def skipIndentation (indent : Nat) (c : Cursor) : Cursor :=
  c.skip (min (c.span (· = .char ' ')).length (indent - c.column))

/-- The empty lines between the lines of a block. -/
def takeBlockBreaks (indent : Nat) : Nat → Cursor → Text × Cursor
  | 0, c => ([], c)
  | fuel + 1, c =>
    let c := skipIndentation indent c
    match c.lineBreak? with
    | none => ([], c)
    | some (b, c) =>
      let (bs, c) := takeBlockBreaks indent fuel c
      (b :: bs, c)

/-- The end of a block: the line break of its last line and the empty lines that follow. -/
def blockEnding (chomping : Chomping) (lineBreak breaks : Text) : Text :=
  match chomping with
  | .strip => []
  | .clip => lineBreak
  | .keep => lineBreak ++ breaks

/-- Whether a character is a space or a tab. -/
def isBlank (c : CodePoint) : Bool := c = ' ' || c = '\t'

/-- What stands for the end of a line of a block before another one. -/
def blockJoint (folded indented : Bool) (lineBreak breaks : Text) : Text :=
  if folded && lineBreak = [.char '\n'] && !indented then (if breaks.isEmpty then [' '] else breaks)
  else lineBreak ++ breaks

/-- The lines of a block from the one at the cursor on. -/
def takeBlockLines (folded : Bool) (chomping : Chomping) (indent : Nat) :
    Nat → Cursor → Text × Cursor
  | 0, c => ([], c)
  | fuel + 1, c =>
    let indented := isBlank c.peek
    let line := c.span (!endsLine ·)
    let c := c.skip line.length
    let (lineBreak, c) : Text × Cursor := match c.lineBreak? with
      | some (b, c) => ([b], c)
      | none => ([], c)
    let (breaks, c) := takeBlockBreaks indent (c.rest.length + 1) c
    if c.column = indent && c.peek != endChar then
      let joint := blockJoint folded (indented || isBlank c.peek) lineBreak breaks
      let (rest, c) := takeBlockLines folded chomping indent fuel c
      (line ++ joint ++ rest, c)
    else (line ++ blockEnding chomping lineBreak breaks, c)

/-- A block scalar inside a block that is indented so far. -/
def takeBlock (folded : Bool) (outer : Int) (c : Cursor) : Except Error (Text × Cursor) := do
  let start := c.mark
  let (chomping, indentation, c) ← takeHeader start c.next
  let least := max 1 (outer + 1).toNat
  let size := c.rest.length + 1
  let (breaks, indent, c) : Text × Nat × Cursor := match indentation with
    | some n =>
      let (breaks, c) := takeBlockBreaks (least + n - 1) size c
      (breaks, least + n - 1, c)
    | none =>
      let (breaks, width, c) := takeWidth size c
      (breaks, max least width, c)
  if c.column = indent && c.peek != endChar then
    let (lines, c) := takeBlockLines folded chomping indent size c
    return (breaks ++ lines, c)
  else return (blockEnding chomping [] breaks, c)

end Mend.Yaml.Token
