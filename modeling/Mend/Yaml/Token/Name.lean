import Mend.Yaml.Error
import Mend.Yaml.Token

/-!
# Names in YAML

Anchors and aliases, tags, and directives: the tokens that name something. Each reader starts at the
sign of its token and returns the cursor behind it.
-/

namespace Mend.Yaml.Token

/-- The error with a token that began at a mark. -/
def failure {α : Type} (context : Text) (start : Mark) (p : Problem) (c : Cursor) :
    Except Error α :=
  .error (.marked .token (some ⟨context, some start⟩) p c.mark)

/-- Whether a character may stand in a name. -/
def isNameChar (c : CodePoint) : Bool := c.isAlphanum || c = '-' || c = '_'

/-- Fails unless the next character is of a class. -/
def require (ok : CodePoint → Bool) (what context : Text) (start : Mark) (c : Cursor) :
    Except Error Unit :=
  if ok c.peek then .ok () else failure context start (.expected what c.peek) c

/-- The cursor behind spaces. -/
def skipSpaces (c : Cursor) : Cursor := c.skipWhile (· = .char ' ')

/-- A comment and the end of the line. -/
def takeLineEnd (context : Text) (start : Mark) (c : Cursor) : Except Error Cursor := do
  let c := skipSpaces c
  let c := if c.peek = '#' then c.skipWhile (!endsLine ·) else c
  require endsLine "a comment or a line break" context start c
  return match c.lineBreak? with
    | some (_, c) => c
    | none => c

/-! ### Anchors -/

/-- What may follow a name. -/
def endsName (c : CodePoint) : Bool := endsToken c || ("?:,]\x7d%@\x60" : Text).elem c

/-- The name of an anchor or an alias. -/
def takeName (context : Text) (c : Cursor) : Except Error (Text × Cursor) := do
  let start := c.mark
  let what : Text := "alphabetic or numeric character"
  let name := c.next.span isNameChar
  require isNameChar what context start c.next
  let c := c.next.skip name.length
  require endsName what context start c
  return (name, c)

/-! ### Tags -/

/-- Whether a character may stand in a tag. -/
def isTagChar (c : CodePoint) : Bool := c.isAlphanum || ("-;/?:@&=+$,_.!~*'()[]%" : Text).elem c

/-- The bytes that are written by their numbers after percent signs. -/
def takeBytes (context : Text) (start : Mark) :
    Nat → Cursor → Except Error (List UInt8 × Cursor)
  | 0, c => .ok ([], c)
  | fuel + 1, c =>
    if c.peek = '%' then
      let c := c.next
      let bad (c' : CodePoint) : Except Error (List UInt8 × Cursor) :=
        failure context start (.expected "URI escape sequence of 2 hexadecimal numbers" c') c
      match Text.hexValue? c.peek, Text.hexValue? (c.peek 1) with
      | some a, some b => do
        let (bytes, c) ← takeBytes context start fuel (c.skip 2)
        return ((a * 16 + b).toUInt8 :: bytes, c)
      | none, _ => bad c.peek
      | some _, none => bad (c.peek 1)
    else .ok ([], c)

/-- The characters of a tag. -/
def tagCharsFrom (context : Text) (start : Mark) :
    Nat → Cursor → Except Error (Text × Cursor)
  | 0, c => .ok ([], c)
  | fuel + 1, c =>
    if c.peek = '%' then do
      let (bytes, after) ← takeBytes context start (c.rest.length + 1) c
      match Utf8.decode ⟨bytes.toArray⟩ with
      | .error e => failure context start (.encoding e) c
      | .ok t =>
        let (rest, c) ← tagCharsFrom context start fuel after
        return (t ++ rest, c)
    else if isTagChar c.peek then do
      let (rest, after) ← tagCharsFrom context start fuel c.next
      return (c.peek :: rest, after)
    else .ok ([], c)

/-- The characters of a tag, of which there must be one at least. The thing that they belong to is
named in errors. -/
def takeTagChars (thing : Text) (start : Mark) (c : Cursor) : Except Error (Text × Cursor) := do
  let (t, after) ← tagCharsFrom ("while scanning a " ++ thing) start (c.rest.length + 1) c
  if after.index = c.index then
    failure ("while parsing a " ++ thing) start (.expected "URI" after.peek) after
  else return (t, after)

/-- The handle of a tag: a name between two exclamation marks, or one mark before a space. -/
def takeHandle (thing : Text) (start : Mark) (c : Cursor) : Except Error (Text × Cursor) := do
  let context : Text := "while scanning a " ++ thing
  require (· = .char '!') "'!'" context start c
  if c.peek 1 = ' ' then return ("!", c.next)
  let name := c.next.span isNameChar
  let after := c.next.skip name.length
  require (· = .char '!') "'!'" context start after
  return (.char '!' :: name ++ [.char '!'], after.next)

/-- Whether an exclamation mark follows in the same word. -/
def hasHandle (c : Cursor) : Bool :=
  let word := c.next.span (!endsWord ·)
  word.elem (.char '!')

/-- A tag: its handle, if it has one, and its suffix. -/
def takeTag (c : Cursor) : Except Error (Option Text × Text × Cursor) := do
  let start := c.mark
  let (handle, suffix, c) ←
    if c.peek 1 = '<' then do
      let (suffix, c) ← takeTagChars "tag" start (c.skip 2)
      require (· = .char '>') "'>'" "while parsing a tag" start c
      pure (none, suffix, c.next)
    else if endsToken (c.peek 1) then pure (none, ['!'], c.next)
    else do
      let (handle, c) ← if hasHandle c then takeHandle "tag" start c else pure (['!'], c.next)
      let (suffix, c) ← takeTagChars "tag" start c
      pure (some handle, suffix, c)
  require endsWord "' '" "while scanning a tag" start c
  return (handle, suffix, c)

/-! ### Directives -/

/-- A number in a directive. -/
def takeNumber (context : Text) (start : Mark) (c : Cursor) : Except Error (Nat × Cursor) := do
  let ds := c.span Text.isAsciiDigit
  require Text.isAsciiDigit "a digit" context start c
  match Number.ofDigits ds with
  | .ok n => return (n, c.skip ds.length)
  | .error e => .error (.scalar (.numeral e))

/-- What a directive says, by its name. -/
def takeMeaning (context : Text) (start : Mark) (name : Text) (c : Cursor) :
    Except Error (Directive × Cursor) := do
  if name = "YAML" then
    let (major, c) ← takeNumber context start (skipSpaces c)
    require (· = .char '.') "a digit or '.'" context start c
    let (_, c) ← takeNumber context start c.next
    require endsWord "a digit or ' '" context start c
    return (.version major, c)
  else if name = "TAG" then
    let (handle, c) ← takeHandle "directive" start (skipSpaces c)
    require (· = .char ' ') "' '" context start c
    let (meaning, c) ← takeTagChars "directive" start (skipSpaces c)
    require endsWord "' '" context start c
    return (.tag handle meaning, c)
  else return (.other, c.skipWhile (!endsLine ·))

/-- A directive. -/
def takeDirective (c : Cursor) : Except Error (Directive × Cursor) := do
  let context : Text := "while scanning a directive"
  let start := c.mark
  let what : Text := "alphabetic or numeric character"
  let name := c.next.span isNameChar
  require isNameChar what context start c.next
  let c := c.next.skip name.length
  require endsWord what context start c
  let (d, c) ← takeMeaning context start name c
  return (d, ← takeLineEnd context start c)

end Mend.Yaml.Token
