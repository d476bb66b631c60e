import Mend.Assoc
import Mend.Template
import Mend.Text.Blank

/-!
# Files of variables

A file of variables holds one binding in each line: a name, perhaps after the word `export`, and
perhaps an equals sign with a value. Values stand without quotes, in single or in double quotes, and
a comment may follow. A line that is no binding is skipped. Values may refer to other variables, with a
default for those that are not set.
-/

namespace Mend.VariableFile

/-- A name with its value, if it has one. -/
abbrev Binding : Type := Text × Option Text

/-- A reading step: a result and the text that remains, or the text at which the step failed. -/
abbrev Step (α : Type) : Type := Except Text (α × Text)

/-! ### Blanks and line ends -/

/-- Whether a character ends a line. -/
def endsLine (c : CodePoint) : Bool := c = '\n' || c = '\r'

/-- The text after the blanks at the beginning of its first line. -/
def skipBlanks (t : Text) : Text := t.dropWhile fun c => Text.isBlank c && !endsLine c

/-- The text after the rest of its first line. -/
def skipLine (t : Text) : Text := (t.dropWhile (!endsLine ·)).drop 1

/-- The text after a comment, if it begins with one. -/
def skipComment (t : Text) : Text :=
  match skipBlanks t with
  | '#' :: r => r.dropWhile (!endsLine ·)
  | _ => t

/-- The text after the end of a line. -/
def takeLineEnd (t : Text) : Step Unit :=
  match skipBlanks t with
  | [] => .ok ((), [])
  | '\r' :: '\n' :: r => .ok ((), r)
  | '\n' :: r => .ok ((), r)
  | '\r' :: r => .ok ((), r)
  | _ => .error t

/-! ### Names -/

/-- The text after the word `export` and blanks. -/
def skipExport (t : Text) : Text :=
  match Text.after? "export" t with
  | some r => if (skipBlanks r).length < r.length then skipBlanks r else t
  | none => t

/-- The name of a variable; a comment has none. -/
def takeName : Text → Step (Option Text)
  | '#' :: r => .ok (none, '#' :: r)
  | '\'' :: r =>
    let name := r.takeWhile (· != .char '\'')
    if name.isEmpty || name.length = r.length then .error ('\'' :: r)
    else .ok (some name, r.drop (name.length + 1))
  | t =>
    let name := t.takeWhile fun c => c != .char '=' && c != .char '#' && !Text.isBlank c
    if name.isEmpty then .error t else .ok (some name, t.drop name.length)

/-! ### Values -/

/-- The text up to the closing quote, and what follows it. A backslash and the next character in its line
belong together. -/
def closeQuote (quote : CodePoint) : Text → Option (Text × Text)
  | [] => none
  | [c] => if c = quote then some ([], []) else none
  | c :: d :: r =>
    if c = quote then some ([], d :: r)
    else if c = '\\' then
      if d = '\n' then none
      else match closeQuote quote r with
        | some (t, rest) => some (c :: d :: t, rest)
        | none => none
    else
      match closeQuote quote (d :: r) with
      | some (t, rest) => some (c :: t, rest)
      | none => none

/-- The escapes of a value between single quotes. -/
def singleEscapes : List (CodePoint × CodePoint) := [('\\', '\\'), ('\'', '\'')]

/-- The escapes of a value between double quotes. -/
def doubleEscapes : List (CodePoint × CodePoint) :=
  [('\\', '\\'), ('\'', '\''), ('"', '"'), ('a', '\x07'), ('b', '\x08'), ('f', '\x0c'),
    ('n', '\n'), ('r', '\r'), ('t', '\t'), ('v', '\x0b')]

/-- The text that is meant by a text with escapes. -/
def unescape (escapes : List (CodePoint × CodePoint)) : Text → Text
  | [] => []
  | [c] => [c]
  | c :: d :: r =>
    match if c = '\\' then escapes.lookup d else none with
    | some e => e :: unescape escapes r
    | none => c :: unescape escapes (d :: r)

/-- A value without the comment that follows it after a blank. -/
def dropComment : Text → Text
  | [] => []
  | c :: t =>
    if Text.isBlank c && (t.dropWhile Text.isBlank).head? = some '#' then []
    else c :: dropComment t

/-- A value between quotes. -/
def takeQuoted (quote : CodePoint) (escapes : List (CodePoint × CodePoint)) (t : Text) : Step Text :=
  match closeQuote quote t with
  | some (v, r) => .ok (unescape escapes v, r)
  | none => .error (quote :: t)

/-- A value, perhaps after blanks. -/
def takeValue (t : Text) : Step Text :=
  match skipBlanks t with
  | '\'' :: r => takeQuoted '\'' singleEscapes r
  | '"' :: r => takeQuoted '"' doubleEscapes r
  | _ =>
    let line := t.takeWhile (!endsLine ·)
    .ok (Text.trim (dropComment line), t.drop line.length)

/-- The value after an equals sign, if there is one. -/
def takeAssigned (t : Text) : Step (Option Text) :=
  match t with
  | '=' :: r =>
    match takeValue r with
    | .ok (v, rest) => .ok (some v, rest)
    | .error rest => .error rest
  | _ => .ok (none, t)

/-! ### Bindings -/

/-- A line that begins with a name: the binding, unless the line is a comment. -/
def takeBinding (t : Text) : Step (Option Binding) :=
  match takeName (skipExport t) with
  | .error rest => .error rest
  | .ok (name, t) =>
    match takeAssigned (skipBlanks t) with
    | .error rest => .error rest
    | .ok (value, t) =>
      match takeLineEnd (skipComment t) with
      | .error rest => .error rest
      | .ok ((), t) => .ok (name.map fun n => (n, value), t)

/-- The bindings of a text, at most so many. -/
def bindingsFrom : Nat → Text → List Binding
  | 0, _ => []
  | fuel + 1, t =>
    match t.dropWhile Text.isBlank with
    | [] => []
    | t =>
      match takeBinding t with
      | .ok (some b, rest) => b :: bindingsFrom fuel rest
      | .ok (none, rest) => bindingsFrom fuel rest
      | .error rest => bindingsFrom fuel (skipLine rest)

/-- The bindings of a text, in order. -/
def bindings (t : Text) : List Binding := bindingsFrom (t.length + 1) t

/-! ### References -/

/-- A reference to a variable in a value: its name, its default, and how many characters it takes. -/
structure Reference where
  name : Text
  default : Text
  size : Nat

/-- The reference at the beginning of a text, if one is there. -/
def referenceAt? : Text → Option Reference
  | '$' :: '\x7b' :: r =>
    let name := r.takeWhile fun c => c != .char '\x7d' && c != .char ':'
    match r.drop name.length with
    | '\x7d' :: _ => some ⟨name, [], name.length + 3⟩
    | ':' :: '-' :: d =>
      let default := d.takeWhile (· != .char '\x7d')
      if default.length = d.length then none
      else some ⟨name, default, name.length + default.length + 5⟩
    | _ => none
  | _ => none

/-- A value with its references replaced, after its first characters, which are skipped. -/
def resolveAfter (get : Text → Option (Option Text)) : (skip : Nat) → Text → Text
  | _, [] => []
  | skip + 1, _ :: t => resolveAfter get skip t
  | 0, c :: t =>
    match referenceAt? (c :: t) with
    | some r =>
      let value := match get r.name with
        | some v => v.getD []
        | none => r.default
      value ++ resolveAfter get (r.size - 1) t
    | none => c :: resolveAfter get 0 t

/-- The variables that some bindings make: a reference sees the variables of earlier bindings, and else
the environment. -/
def resolve (env : Environment) (bs : List Binding) : List Binding :=
  bs.foldl (fun done (name, value) =>
    let get (n : Text) : Option (Option Text) :=
      match done.lookup n with
      | some v => some v
      | none => (env.lookup n).map some
    Assoc.put name (value.map (resolveAfter get 0)) done) []

/-- The variables of a file with this text, which may begin with a byte order mark. -/
def read (env : Environment) (t : Text) : List Binding :=
  resolve env (bindings (match t with
    | '\ufeff' :: t => t
    | t => t))

end Mend.VariableFile
