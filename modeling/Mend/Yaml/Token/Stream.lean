import Mend.Yaml.Token.Scalar

/-!
# Streams of tokens

Tokens are read from a cursor one after the other, as far as they are asked for. What begins like a
key is known to be one only when a colon follows, so that tokens wait in a queue while a possible key is
open. Indentation opens and closes blocks.
-/

namespace Mend.Yaml

/-- A place where a key may have begun: the number of its token, and whether a key must stand there. -/
structure PossibleKey where
  number : Nat
  required : Bool
  index : Nat
  line : Nat
  column : Nat
  mark : Mark

/-- The tokens that wait, how many were taken before, the cursor behind them, and what the next ones
depend on: the depth of flow collections, the columns of the open blocks, whether a key may begin, and
the possible keys that are open, by the depth at which they are. -/
structure TokenStream where
  cursor : Cursor
  queue : List Token
  taken : Nat
  ended : Bool
  depth : Int
  indent : Int
  indents : List Int
  allowsKey : Bool
  keys : List (Int × PossibleKey)

namespace TokenStream

/-- The stream of a text. -/
def start (t : Text) : TokenStream := ⟨.start t, [], 0, false, 0, -1, [], true, []⟩

/-- Whether the cursor is inside a flow collection. -/
def inFlow (s : TokenStream) : Bool := s.depth != 0

/-- The stream with a further token that ends at a cursor. -/
def push (s : TokenStream) (kind : TokenKind) (c : Cursor) : TokenStream :=
  { s with cursor := c, queue := s.queue ++ [⟨kind, s.cursor.mark, c.mark⟩] }

/-- The stream with a further token that takes no characters. -/
def pushEmpty (s : TokenStream) (kind : TokenKind) : TokenStream := s.push kind s.cursor

/-- The stream with a further token that is a sign of some characters. -/
def pushSign (s : TokenStream) (kind : TokenKind) (size : Nat := 1) : TokenStream :=
  s.push kind (s.cursor.skip size)

/-! ### Possible keys -/

/-- The error with a key that must be there. -/
def noColon {α : Type} (s : TokenStream) (k : PossibleKey) : Except Error α :=
  Token.failure "while scanning a simple key" k.mark .noColon s.cursor

/-- Whether a key would be too far away: it takes one line and at most 1024 characters. -/
def isStale (s : TokenStream) (k : PossibleKey) : Bool :=
  k.line != s.cursor.line || 1024 < s.cursor.index - k.index

/-- The stream without keys that are too far away. -/
def dropStale (s : TokenStream) : Except Error TokenStream :=
  match s.keys.find? fun (_, k) => s.isStale k && k.required with
  | some (_, k) => s.noColon k
  | none => .ok { s with keys := s.keys.filter fun (_, k) => !s.isStale k }

/-- The stream without a possible key at the present depth. -/
def dropKey (s : TokenStream) : Except Error TokenStream :=
  match s.keys.lookup s.depth with
  | some k =>
    if k.required then s.noColon k
    else .ok { s with keys := s.keys.filter fun (d, _) => d != s.depth }
  | none => .ok s

/-- The stream in which the next token may be a key. -/
def openKey (s : TokenStream) : Except Error TokenStream :=
  if s.allowsKey then do
    let s ← s.dropKey
    let c := s.cursor
    let key : PossibleKey := ⟨s.taken + s.queue.length, !s.inFlow && s.indent = c.column, c.index,
      c.line, c.column, c.mark⟩
    return { s with keys := s.keys ++ [(s.depth, key)] }
  else .ok s

/-- The stream with or without leave for the next token to be a key. -/
def allowKey (s : TokenStream) (b : Bool) : TokenStream := { s with allowsKey := b }

/-! ### Indentation -/

/-- Closes the blocks that are indented further than a column. -/
def closeBlocks (column : Int) : List Int → TokenStream → TokenStream
  | [], s => s
  | outer :: indents, s =>
    if column < s.indent then
      closeBlocks column indents
        { s.pushEmpty .blockEnd with indent := outer, indents := indents }
    else s

/-- The stream after the blocks that end before a column. -/
def unwind (s : TokenStream) (column : Int) : TokenStream :=
  if s.inFlow then s else closeBlocks column s.indents s

/-- The stream with a block at a column, unless one is open there. Its token comes before the last
tokens, if it is put there. -/
def openBlock (s : TokenStream) (kind : TokenKind) (column : Nat) (mark : Mark)
    (position : Nat) : TokenStream :=
  if s.inFlow || column ≤ s.indent then s
  else
    { s with
      indent := column
      indents := s.indent :: s.indents
      queue := s.queue.insertIdx position ⟨kind, mark, mark⟩ }

/-- The stream with a block that begins at the cursor, unless one is open there. -/
def openBlockHere (s : TokenStream) (kind : TokenKind) : TokenStream :=
  s.openBlock kind s.cursor.column s.cursor.mark s.queue.length

/-! ### The next token -/

/-- The cursor behind blanks, comments and line breaks, and whether a line break was among them. -/
def skipToToken : Nat → Cursor → Bool × Cursor
  | 0, c => (false, c)
  | fuel + 1, c =>
    let c := Token.skipSpaces c
    let c := if c.peek = '#' then c.skipWhile (!endsLine ·) else c
    match c.lineBreak? with
    | some (_, c) => (true, (skipToToken fuel c).2)
    | none => (false, c)

/-- The stream at its next token, with the blocks closed that end before it. -/
def advance (s : TokenStream) : Except Error TokenStream := do
  let c := if s.cursor.index = 0 && s.cursor.peek = '\ufeff' then s.cursor.next else s.cursor
  let (crosses, c) := skipToToken (c.rest.length + 1) c
  let s := { s with cursor := c, allowsKey := s.allowsKey || (crosses && !s.inFlow) }
  return (← s.dropStale).unwind c.column

/-- The end of the stream. -/
def pushEnd (s : TokenStream) : Except Error TokenStream := do
  let s ← (s.unwind (-1)).dropKey
  return { (s.allowKey false).pushEmpty .streamEnd with keys := [], ended := true }

/-- A directive. -/
def pushDirective (s : TokenStream) : Except Error TokenStream := do
  let s ← (s.unwind (-1)).dropKey
  let (d, c) ← Token.takeDirective s.cursor
  return (s.allowKey false).push (.directive d) c

/-- A line that separates documents. -/
def pushSeparator (s : TokenStream) (kind : TokenKind) : Except Error TokenStream := do
  let s ← (s.unwind (-1)).dropKey
  return (s.allowKey false).pushSign kind 3

/-- The beginning of a flow collection. -/
def pushFlowStart (s : TokenStream) (kind : TokenKind) : Except Error TokenStream := do
  let s ← s.openKey
  return ({ s with depth := s.depth + 1 }.allowKey true).pushSign kind

/-- The end of a flow collection. -/
def pushFlowEnd (s : TokenStream) (kind : TokenKind) : Except Error TokenStream := do
  let s ← s.dropKey
  return ({ s with depth := s.depth - 1 }.allowKey false).pushSign kind

/-- A comma between the items of a flow collection. -/
def pushFlowEntry (s : TokenStream) : Except Error TokenStream := do
  let s ← (s.allowKey true).dropKey
  return s.pushSign .flowEntry

/-- The error with something that may stand only where a key may begin. -/
def notAllowed {α : Type} (s : TokenStream) (p : Problem) : Except Error α :=
  .error (.marked .token none p s.cursor.mark)

/-- The sign of an item of a block. -/
def pushBlockEntry (s : TokenStream) : Except Error TokenStream := do
  if !s.inFlow && !s.allowsKey then s.notAllowed .itemNotAllowed
  else
    let s ← ((s.openBlockHere .sequenceStart).allowKey true).dropKey
    return s.pushSign .blockEntry

/-- The sign of a key. -/
def pushKey (s : TokenStream) : Except Error TokenStream := do
  if !s.inFlow && !s.allowsKey then s.notAllowed .keyNotAllowed
  else
    let s ← ((s.openBlockHere .mappingStart).allowKey (!s.inFlow)).dropKey
    return s.pushSign .key

/-- The sign of a value. If a possible key is open, it is one. -/
def pushValue (s : TokenStream) : Except Error TokenStream := do
  match s.keys.lookup s.depth with
  | some k =>
    let position := k.number - s.taken
    let s := { s with
      keys := s.keys.filter fun (d, _) => d != s.depth
      queue := s.queue.insertIdx position ⟨.key, k.mark, k.mark⟩ }
    return ((s.openBlock .mappingStart k.column k.mark position).allowKey false).pushSign .value
  | none =>
    if !s.inFlow && !s.allowsKey then s.notAllowed .valueNotAllowed
    else
      let s ← ((s.openBlockHere .mappingStart).allowKey (!s.inFlow)).dropKey
      return s.pushSign .value

/-- An alias or an anchor. -/
def pushName (s : TokenStream) (context : Text) (kind : Text → TokenKind) :
    Except Error TokenStream := do
  let s ← s.openKey
  let (name, c) ← Token.takeName context s.cursor
  return (s.allowKey false).push (kind name) c

/-- A tag. -/
def pushTag (s : TokenStream) : Except Error TokenStream := do
  let s ← s.openKey
  let (handle, suffix, c) ← Token.takeTag s.cursor
  return (s.allowKey false).push (.tag handle suffix) c

/-- A block scalar. -/
def pushBlock (s : TokenStream) (folded : Bool) : Except Error TokenStream := do
  let s ← (s.allowKey true).dropKey
  let (t, c) ← Token.takeBlock folded s.indent s.cursor
  return s.push (.scalar ⟨t, false⟩) c

/-- A scalar in quotes. -/
def pushQuoted (s : TokenStream) : Except Error TokenStream := do
  let s ← s.openKey
  let (t, c) ← Token.takeQuoted s.cursor
  return (s.allowKey false).push (.scalar ⟨t, false⟩) c

/-- A plain scalar. After a line break the next token may be a key. -/
def pushPlain (s : TokenStream) : Except Error TokenStream := do
  let s ← s.openKey
  let (t, crosses, stop, c) := Token.takePlain s.inFlow (s.indent + 1) s.cursor
  let token : Token := ⟨.scalar ⟨t, true⟩, s.cursor.mark, stop⟩
  return { s with cursor := c, queue := s.queue ++ [token], allowsKey := crosses }

/-- Whether a plain scalar begins at the cursor. -/
def atPlain (s : TokenStream) : Bool :=
  let ch := s.cursor.peek
  let isSign := endsToken ch || ("-?:,[]\x7b\x7d#&*!|>'\"%@\x60" : Text).elem ch
  !isSign || (!endsToken (s.cursor.peek 1) && (ch = '-' || (!s.inFlow && (ch = '?' || ch = ':'))))

/-- The stream with the next token in its queue. -/
def fetch (s : TokenStream) : Except Error TokenStream := do
  let s ← s.advance
  let c := s.cursor
  let atSign := s.inFlow || endsToken (c.peek 1)
  if c.peek = endChar then s.pushEnd
  else if c.peek = '%' && c.column = 0 then s.pushDirective
  else if c.column = 0 && c.separates "---" then s.pushSeparator .documentStart
  else if c.column = 0 && c.separates "..." then s.pushSeparator .documentEnd
  else if c.peek = '[' then s.pushFlowStart .flowSequenceStart
  else if c.peek = '\x7b' then s.pushFlowStart .flowMappingStart
  else if c.peek = ']' then s.pushFlowEnd .flowSequenceEnd
  else if c.peek = '\x7d' then s.pushFlowEnd .flowMappingEnd
  else if c.peek = ',' then s.pushFlowEntry
  else if c.peek = '-' && endsToken (c.peek 1) then s.pushBlockEntry
  else if c.peek = '?' && atSign then s.pushKey
  else if c.peek = ':' && atSign then s.pushValue
  else if c.peek = '*' then s.pushName "while scanning an alias" .alias
  else if c.peek = '&' then s.pushName "while scanning an anchor" .anchor
  else if c.peek = '!' then s.pushTag
  else if c.peek = '|' && !s.inFlow then s.pushBlock false
  else if c.peek = '>' && !s.inFlow then s.pushBlock true
  else if c.peek = '\'' || c.peek = '"' then s.pushQuoted
  else if s.atPlain then s.pushPlain
  else
    .error (.marked .token (some ⟨"while scanning for the next token", none⟩) (.noToken c.peek)
      c.mark)

/-! ### Taking tokens -/

/-- Whether the first token is open: there is none, or a possible key begins with it. -/
def isOpen (s : TokenStream) : Bool :=
  s.queue.isEmpty ||
    ((s.keys.map fun (_, k) => k.number).min?).any (· = s.taken)

/-- The stream with its first token settled. -/
def fill : Nat → TokenStream → Except Error TokenStream
  | 0, s => .ok s
  | fuel + 1, s =>
    if s.ended then .ok s
    else if s.queue.isEmpty then do fill fuel (← s.fetch)
    else do
      let s ← s.dropStale
      if s.isOpen then fill fuel (← s.fetch) else return s

/-- The next token, and the stream in which it still waits. -/
def first (s : TokenStream) : Except Error (Token × TokenStream) := do
  let s ← fill (s.cursor.rest.length + 2) s
  return (s.queue.head?.getD ⟨.streamEnd, s.cursor.mark, s.cursor.mark⟩, s)

/-- The stream behind the next token. -/
def drop (s : TokenStream) : TokenStream :=
  { s with queue := s.queue.tail, taken := s.taken + 1 }

end TokenStream

end Mend.Yaml
