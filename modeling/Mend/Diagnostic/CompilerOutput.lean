import Mend.Diagnostic
import Mend.Number.Integer

/-!
# Compiler output

The TypeScript compiler reports a diagnostic in a header line, in one of two forms:

    path(line,column): word TScode: message
    path:line:column - word TScode: message

Indented lines right after a header continue its message. All other lines are passed over, and end
the message before them. The word and the letters of the code may be in any letter case.
-/

namespace Mend.CompilerOutput

/-! ### Pieces of a header -/

/-- Drops one or more characters of white space. -/
def dropBlanks? : Text → Option Text
  | [] => none
  | c :: t => if Text.isBlank c then some (t.dropWhile Text.isBlank) else none

/-- One or more digits and what follows them. -/
def takeDigits? (t : Text) : Option (Text × Text) :=
  if (Text.spanDigits t).1.isEmpty then none else some (Text.spanDigits t)

/-- Whether a character is a small letter in any case. Two letters have a third form: the long s, and
the i with a dot where the small form has it or without one where the capital has none. -/
def isLetter (letter c : CodePoint) : Bool :=
  c.toLower = letter || (letter = 's' && c = 'ſ') || (letter = 'i' && (c = 'ı' || c = 'İ'))

/-- Reads a word of small letters in any letter case: the word as written, and what follows it. -/
def takeWord? : Text → Text → Option (Text × Text)
  | [], t => some ([], t)
  | _ :: _, [] => none
  | a :: word, c :: t =>
    if isLetter a c then (takeWord? word t).map fun (w, r) => (c :: w, r) else none

/-- The words with which a report begins. -/
def severityWords : List Text := ["error", "warning", "message", "suggestion"]

/-- A header: where the diagnostic is, its severity word, and the beginning of its message. -/
structure Header where
  file : Text
  line : Text
  word : Text
  message : Text
  deriving DecidableEq, Repr

/-- The severity word, the code and the message, at the end of a header of either form. -/
def report? (file line t : Text) : Option Header := do
  let (word, t) ← severityWords.findSome? (takeWord? · t)
  let t ← dropBlanks? t
  let (_, t) ← takeWord? "ts" t
  let (_, t) ← takeDigits? t
  let t ← Text.after? ":" t
  return ⟨Text.trim file, line, word, Text.trim t⟩

/-- The file at the beginning of a header, up to the first occurrence of a mark, and what follows the
mark. It begins with neither the mark nor white space. -/
def takeFile? (mark : CodePoint) (t : Text) : Option (Text × Text) :=
  match t.dropWhile (· != mark) with
  | [] => none
  | _ :: rest =>
    let file := t.takeWhile (· != mark)
    if file.head?.all Text.isBlank then none else some (file, rest)

/-- A header with the position in parentheses. -/
def parenthesized? (t : Text) : Option Header := do
  let (file, t) ← takeFile? '(' t
  let (line, t) ← takeDigits? t
  let t ← Text.after? "," t
  let (_, t) ← takeDigits? t
  let t ← Text.after? "):" t
  let t ← dropBlanks? t
  report? file line t

/-- A header with the position between colons. -/
def colonSeparated? (t : Text) : Option Header := do
  let (file, t) ← takeFile? ':' t
  let (line, t) ← takeDigits? t
  let t ← Text.after? ":" t
  let (_, t) ← takeDigits? t
  let t ← dropBlanks? t
  let t ← Text.after? "-" t
  let t ← dropBlanks? t
  report? file line t

/-! ### Lines and blocks -/

/-- What a line of the output is. -/
inductive Line
  | header (h : Header)
  | continuation (message : Text)
  | noise
  deriving DecidableEq, Repr

/-- What a line is; white space at its end does not count. -/
def Line.ofText (t : Text) : Line :=
  let t := Text.trimEnd t
  match (parenthesized? t).or (colonSeparated? t) with
  | some h => .header h
  | none =>
    match t with
    | ' ' :: t => .continuation (Text.trim t)
    | '\t' :: t => .continuation (Text.trim t)
    | _ => .noise

/-- The messages of the continuation lines at the beginning. -/
def continuations : List Line → List Text
  | .continuation m :: ls => m :: continuations ls
  | _ => []

/-- The headers, each with the lines that continue it. -/
def blocks : List Line → List (Header × List Text)
  | [] => []
  | .header h :: ls => (h, continuations ls) :: blocks ls
  | _ :: ls => blocks ls

/-- The diagnostic of a block. -/
def diagnosticOf (b : Header × List Text) : Except Number.NumeralError Diagnostic :=
  match Number.ofDigits b.1.line with
  | .error e => .error e
  | .ok n =>
    let message := Text.trim (Text.joinOn ' ' (b.1.message :: b.2))
    .ok (.atLine b.1.file n message (.ofWord b.1.word))

/-- The diagnostics of some compiler output. -/
def read (t : Text) : Except Number.NumeralError (List Diagnostic) :=
  (blocks ((Text.proseLines t).map Line.ofText)).mapM diagnosticOf

end Mend.CompilerOutput
