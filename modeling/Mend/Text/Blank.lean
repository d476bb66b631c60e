import Mend.Text

/-!
# White space and line ends

White space is the set of characters that separate words: the ASCII controls for layout and for
separating records, the next-line character and the Unicode spaces and separators. Some of them
also end a line.
-/

namespace Mend.Text

/-- White space. -/
def isBlank (c : CodePoint) : Bool :=
  let n := c.toNat
  (0x09 ≤ n && n ≤ 0x0D) || (0x1C ≤ n && n ≤ 0x20) || n == 0x85 || n == 0xA0 || n == 0x1680 ||
    (0x2000 ≤ n && n ≤ 0x200A) || n == 0x2028 || n == 0x2029 || n == 0x202F || n == 0x205F ||
    n == 0x3000

/-- White space without the four separators of records among the ASCII controls. -/
def isSpace (c : CodePoint) : Bool := isBlank c && !(0x1C ≤ c.toNat && c.toNat ≤ 0x1F)

/-- The characters that end a line of prose. -/
def isLineEnd (c : CodePoint) : Bool :=
  let n := c.toNat
  (0x0A ≤ n && n ≤ 0x0D) || (0x1C ≤ n && n ≤ 0x1E) || n == 0x85 || n == 0x2028 || n == 0x2029

theorem isBlank_of_isLineEnd {c : CodePoint} (h : isLineEnd c = true) : isBlank c = true := by
  simp only [isLineEnd, isBlank, Bool.or_eq_true, Bool.and_eq_true, decide_eq_true_eq,
    beq_iff_eq] at h ⊢
  omega

/-- The text without white space at either end. -/
def trim (t : Text) : Text := trimBy isBlank t

/-- The text without white space at either end, separators of records excepted. -/
def trimSpaces (t : Text) : Text := trimBy isSpace t

/-- The text without white space at its end. -/
def trimEnd (t : Text) : Text := dropEndWhile isBlank t

/-- The lines of prose: every line end closes a line, a carriage return with the line feed after
it counts as one, and a line end at the very end opens no further line. -/
def proseLines (t : Text) : List Text :=
  go [] [] t
where
  go (done : List Text) (line : Text) : Text → List Text
    | [] => (if line.isEmpty then done else line.reverse :: done).reverse
    | '\r' :: '\n' :: t => go (line.reverse :: done) [] t
    | c :: t =>
      if isLineEnd c then go (line.reverse :: done) [] t else go done (c :: line) t

end Mend.Text
