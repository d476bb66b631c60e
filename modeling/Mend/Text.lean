import Mend.Text.CodePoint

/-!
# Text

A text is the list of its code points, so that every operation is a function on lists and its
laws are proved by induction. String literals stand for texts wherever a text is expected.

The file holds searching, trimming, cutting at a separator and decimal numerals. Its main
statements say that cutting at a separator and joining with it undo each other
(`joinOn_splitOn`, `splitOn_joinOn`).
-/

namespace Mend

/-- A text: its code points in order. -/
abbrev Text := List CodePoint

namespace Text

/-- The text of some characters. -/
abbrev ofChars (cs : List Char) : Text := cs.map .char

end Text

instance : Coe String Text := ⟨fun s => s.toList.map .char⟩

namespace Text

/-! ### Searching -/

/-- Whether `t` begins with `p`. -/
def startsWith (t p : Text) : Bool := p.isPrefixOf t

/-- What follows `p` at the beginning of `t`. -/
def after? : Text → Text → Option Text
  | [], t => some t
  | _ :: _, [] => none
  | a :: p, b :: t => if a = b then after? p t else none

/-- Whether `needle` stands somewhere in `t`. -/
def contains : Text → Text → Bool
  | [], needle => needle.isEmpty
  | c :: t, needle => needle.isPrefixOf (c :: t) || contains t needle

/-- The text before the first occurrence of `needle` and the text after it. -/
def breakOn (needle : Text) (t : Text) : Option (Text × Text) :=
  go [] t
where
  go (before : Text) : Text → Option (Text × Text)
    | [] => if needle.isEmpty then some (before.reverse, []) else none
    | c :: t =>
      match after? needle (c :: t) with
      | some rest => some (before.reverse, rest)
      | none => go (c :: before) t

/-- Whether one text comes before another or is equal to it, by the code points in order. -/
def atMost : Text → Text → Bool
  | [], _ => true
  | _ :: _, [] => false
  | a :: s, b :: t => a.toNat < b.toNat || (a.toNat == b.toNat && atMost s t)

/-! ### Trimming -/

/-- Drops the characters at the end that satisfy `p`. -/
def dropEndWhile (p : CodePoint → Bool) (t : Text) : Text := (t.reverse.dropWhile p).reverse

/-- Drops the characters at both ends that satisfy `p`. -/
def trimBy (p : CodePoint → Bool) (t : Text) : Text := dropEndWhile p (t.dropWhile p)

/-! ### Cutting and joining -/

/-- Adds a character to the first piece of a cut text. -/
def pushFront (c : CodePoint) : List Text → List Text
  | [] => [[c]]
  | p :: ps => (c :: p) :: ps

/-- The pieces between the occurrences of `sep`; there is always at least one. -/
def splitOn (sep : CodePoint) (t : Text) : List Text :=
  t.foldr (fun c pieces => if c = sep then [] :: pieces else pushFront c pieces) [[]]

/-- The texts one after the other with `sep` between two neighbours. -/
def joinWith (sep : Text) (ts : List Text) : Text := sep.intercalate ts

/-- The texts one after the other with the character `sep` between two neighbours. -/
def joinOn (sep : CodePoint) (ts : List Text) : Text := joinWith [sep] ts

@[simp] theorem splitOn_nil (sep : CodePoint) : splitOn sep [] = [[]] := rfl

theorem splitOn_cons (sep c : CodePoint) (t : Text) :
    splitOn sep (c :: t) =
      if c = sep then [] :: splitOn sep t else pushFront c (splitOn sep t) := rfl

theorem splitOn_ne_nil (sep : CodePoint) (t : Text) : splitOn sep t ≠ [] := by
  cases t with
  | nil => simp
  | cons c t =>
    rw [splitOn_cons]
    split
    · simp
    · cases splitOn sep t <;> simp [pushFront]

@[simp] theorem joinOn_nil (sep : CodePoint) : joinOn sep [] = [] := rfl

@[simp] theorem joinOn_singleton (sep : CodePoint) (p : Text) : joinOn sep [p] = p := by
  simp [joinOn, joinWith, List.intercalate]

@[simp] theorem joinOn_cons_cons (sep : CodePoint) (p q : Text) (ps : List Text) :
    joinOn sep (p :: q :: ps) = p ++ sep :: joinOn sep (q :: ps) := by
  simp [joinOn, joinWith, List.intercalate]

theorem joinOn_pushFront (sep c : CodePoint) {ps : List Text} (h : ps ≠ []) :
    joinOn sep (pushFront c ps) = c :: joinOn sep ps := by
  match ps with
  | [p] => simp [pushFront]
  | p :: q :: ps => simp [pushFront]

/-- Joining the pieces of a cut text gives the text back. -/
@[simp] theorem joinOn_splitOn (sep : CodePoint) (t : Text) : joinOn sep (splitOn sep t) = t := by
  induction t with
  | nil => simp
  | cons c t ih =>
    rw [splitOn_cons]
    split
    · next h =>
      subst h
      cases hs : splitOn c t with
      | nil => exact absurd hs (splitOn_ne_nil c t)
      | cons p ps => rw [hs] at ih; simp [ih]
    · rw [joinOn_pushFront sep c (splitOn_ne_nil sep t), ih]

theorem splitOn_append_sep (sep : CodePoint) (p t : Text) (h : sep ∉ p) :
    splitOn sep (p ++ sep :: t) = p :: splitOn sep t := by
  induction p with
  | nil => simp [splitOn_cons]
  | cons c p ih =>
    have hc : c ≠ sep := fun e => h (by simp [e])
    have hp : sep ∉ p := fun m => h (List.mem_cons_of_mem _ m)
    rw [List.cons_append, splitOn_cons, if_neg hc, ih hp]
    rfl

theorem splitOn_of_not_mem (sep : CodePoint) (p : Text) (h : sep ∉ p) : splitOn sep p = [p] := by
  induction p with
  | nil => rfl
  | cons c p ih =>
    have hc : c ≠ sep := fun e => h (by simp [e])
    have hp : sep ∉ p := fun m => h (List.mem_cons_of_mem _ m)
    rw [splitOn_cons, if_neg hc, ih hp]
    rfl

/-- Cutting joined pieces gives the pieces back if none of them holds the separator. -/
theorem splitOn_joinOn (sep : CodePoint) {ps : List Text} (hne : ps ≠ []) (h : ∀ p ∈ ps, sep ∉ p) :
    splitOn sep (joinOn sep ps) = ps := by
  induction ps with
  | nil => exact absurd rfl hne
  | cons p ps ih =>
    cases ps with
    | nil => simpa using splitOn_of_not_mem sep p (h p (by simp))
    | cons q ps =>
      rw [joinOn_cons_cons, splitOn_append_sep sep p _ (h p (by simp))]
      rw [ih (by simp) (fun r hr => h r (List.mem_cons_of_mem _ hr))]

theorem not_mem_of_mem_splitOn (sep : CodePoint) (t : Text) : ∀ p ∈ splitOn sep t, sep ∉ p := by
  induction t with
  | nil => simp
  | cons c t ih =>
    rw [splitOn_cons]
    split
    · intro p hp
      rcases List.mem_cons.1 hp with rfl | hp
      · simp
      · exact ih p hp
    · next hc =>
      cases hs : splitOn sep t with
      | nil => exact absurd hs (splitOn_ne_nil sep t)
      | cons q qs =>
        rw [hs] at ih
        intro p hp
        rcases List.mem_cons.1 hp with rfl | hp
        · simp only [List.mem_cons, not_or]
          exact ⟨fun e => hc e.symm, ih q (by simp)⟩
        · exact ih p (List.mem_cons_of_mem _ hp)

/-! ### Lines -/

/-- The lines of a text: the pieces between line feeds. A final line feed leaves an empty line. -/
def lines (t : Text) : List Text := splitOn '\n' t

/-- The text with these lines. -/
def ofLines (ls : List Text) : Text := joinOn '\n' ls

@[simp] theorem ofLines_lines (t : Text) : ofLines (lines t) = t := joinOn_splitOn '\n' t

/-- The text without a line feed at its end. -/
def withoutLineEnd (t : Text) : Text := if t.getLast? = some '\n' then t.dropLast else t

/-- Line ends reduced to a line feed: a carriage return and a line feed that follows it count as
one line end, and so does a carriage return alone. -/
def universalNewlines (t : Text) : Text :=
  go [] t
where
  go (done : Text) : Text → Text
    | [] => done.reverse
    | '\r' :: '\n' :: t => go ('\n' :: done) t
    | '\r' :: t => go ('\n' :: done) t
    | c :: t => go (c :: done) t

/-! ### Numerals -/

/-- The decimal numeral of a natural number. -/
def ofNat (n : Nat) : Text := ofChars (Nat.toDigits 10 n)

/-- The decimal numeral of an integer, with a minus sign where it is negative. -/
def ofInt : Int → Text
  | .ofNat n => ofNat n
  | .negSucc n => '-' :: ofNat (n + 1)

/-- A number in lower-case hexadecimal digits, filled up with zeros to a width. -/
def hex (width n : Nat) : Text :=
  let ds := ofChars (Nat.toDigits 16 n)
  (List.replicate (width - ds.length) '0' : Text) ++ ds

/-- Whether a character is one of the ten ASCII digits. -/
def isAsciiDigit (c : CodePoint) : Bool := 0x30 ≤ c.toNat && c.toNat ≤ 0x39

/-- The natural number that a run of ASCII digits denotes. -/
def digitsValue (t : Text) : Nat :=
  t.foldl (fun n c => 10 * n + (c.toNat - 0x30)) 0

/-- The value of a hexadecimal digit. -/
def hexValue? (c : CodePoint) : Option Nat :=
  if 0x30 ≤ c.toNat && c.toNat ≤ 0x39 then some (c.toNat - 0x30)
  else if 0x61 ≤ c.toNat && c.toNat ≤ 0x66 then some (c.toNat - 0x57)
  else if 0x41 ≤ c.toNat && c.toNat ≤ 0x46 then some (c.toNat - 0x37)
  else none

/-- A character in lower case if it is an ASCII letter. -/
def lowerAscii (t : Text) : Text := t.map CodePoint.toLower

end Text

end Mend
