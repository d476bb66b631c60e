/-!
# Code points

A text may hold any code point. Most of them are characters. The others are the two halves of surrogate
pairs, which stand for nothing when they stand alone and have no form in UTF-8.

A character stands for its code point wherever a code point is expected.
-/

namespace Mend

/-- A code point: a character, or half of a surrogate pair that stands alone, by its number among them. -/
inductive CodePoint
  | char (c : Char)
  | lone (half : Fin 2048)
  deriving DecidableEq, Repr

instance : Coe Char CodePoint := ⟨.char⟩

instance : Inhabited CodePoint := ⟨.char default⟩

namespace CodePoint

/-- The number of a code point. -/
def toNat : CodePoint → Nat
  | char c => c.toNat
  | lone half => 0xD800 + half

@[simp] theorem toNat_char (c : Char) : (CodePoint.char c).toNat = c.toNat := rfl

/-- The code point with a number, and a replacement character beyond the last one. -/
def ofNat (n : Nat) : CodePoint :=
  if h : 0xD800 ≤ n ∧ n < 0xE000 then .lone ⟨n - 0xD800, by omega⟩
  else if n.isValidChar then .char (Char.ofNat n)
  else .char '\ufffd'

theorem ofNat_toNat (c : CodePoint) : ofNat c.toNat = c := by
  cases c with
  | char c =>
    have hvalid : c.toNat.isValidChar := c.valid
    have hrange : ¬ (0xD800 ≤ c.toNat ∧ c.toNat < 0xE000) := by
      unfold Nat.isValidChar at hvalid
      omega
    simp only [toNat, ofNat, dif_neg hrange, if_pos hvalid, Char.ofNat_toNat]
  | lone half =>
    have hrange : 0xD800 ≤ 0xD800 + half.val ∧ 0xD800 + half.val < 0xE000 := by omega
    simp only [toNat, ofNat, dif_pos hrange, Nat.add_sub_cancel_left]

theorem toNat_inj {a b : CodePoint} : a.toNat = b.toNat ↔ a = b :=
  ⟨fun h => by rw [← ofNat_toNat a, h, ofNat_toNat], congrArg toNat⟩

instance : LE CodePoint := ⟨fun a b => a.toNat ≤ b.toNat⟩

instance (a b : CodePoint) : Decidable (a ≤ b) := inferInstanceAs (Decidable (a.toNat ≤ b.toNat))

/-- How many bytes a code point has in UTF-8. Half of a pair has none. -/
def utf8Size : CodePoint → Nat
  | char c => c.utf8Size
  | lone _ => 0

/-- Whether a code point is a character. -/
def isChar : CodePoint → Bool
  | char _ => true
  | lone _ => false

/-- Whether a code point is a character that passes a test. -/
def passes (test : Char → Bool) : CodePoint → Bool
  | char c => test c
  | lone _ => false

/-- The code point with a function applied to it if it is a character. -/
def mapChar (f : Char → Char) : CodePoint → CodePoint
  | char c => .char (f c)
  | lone half => .lone half

/-- Whether a code point is an ASCII digit. -/
def isDigit (c : CodePoint) : Bool := c.passes Char.isDigit

/-- Whether a code point is an ASCII letter. -/
def isAlpha (c : CodePoint) : Bool := c.passes Char.isAlpha

/-- Whether a code point is an ASCII letter or digit. -/
def isAlphanum (c : CodePoint) : Bool := c.passes Char.isAlphanum

/-- Whether a code point is an ASCII capital letter. -/
def isUpper (c : CodePoint) : Bool := c.passes Char.isUpper

/-- Whether a code point is an ASCII small letter. -/
def isLower (c : CodePoint) : Bool := c.passes Char.isLower

/-- An ASCII letter as a small one. -/
def toLower (c : CodePoint) : CodePoint := c.mapChar Char.toLower

/-- An ASCII letter as a capital one. -/
def toUpper (c : CodePoint) : CodePoint := c.mapChar Char.toUpper

end CodePoint

end Mend
