import Mend.Text
import Mend.Text.CodeRanges

/-!
# Decimal digits

The decimal digits of Unicode (general category Nd) come in runs of ten, from zero to nine. A
digit is known by the zero of its run. Numerals may mix the digits of several scripts.
-/

namespace Mend.Text

/-- The zeros of the runs of decimal digits. -/
def digitZeros : List Nat :=
  [0x30, 0x660, 0x6F0, 0x7C0, 0x966, 0x9E6, 0xA66, 0xAE6, 0xB66, 0xBE6, 0xC66, 0xCE6, 0xD66, 0xDE6,
  0xE50, 0xED0, 0xF20, 0x1040, 0x1090, 0x17E0, 0x1810, 0x1946, 0x19D0, 0x1A80, 0x1A90, 0x1B50,
  0x1BB0, 0x1C40, 0x1C50, 0xA620, 0xA8D0, 0xA900, 0xA9D0, 0xA9F0, 0xAA50, 0xABF0, 0xFF10, 0x104A0,
  0x10D30, 0x11066, 0x110F0, 0x11136, 0x111D0, 0x112F0, 0x11450, 0x114D0, 0x11650, 0x116C0,
  0x11730, 0x118E0, 0x11950, 0x11C50, 0x11D50, 0x11DA0, 0x16A60, 0x16AC0, 0x16B50, 0x1D7CE,
  0x1D7D8, 0x1D7E2, 0x1D7EC, 0x1D7F6, 0x1E140, 0x1E2F0, 0x1E950, 0x1FBF0]

/-- The value of a decimal digit. -/
def digitValue? (c : CodePoint) : Option Nat :=
  (digitZeros.find? fun z => z ≤ c.toNat && c.toNat ≤ z + 9).map (c.toNat - ·)

/-- Whether a character is a decimal digit of any script. -/
def isDigit (c : CodePoint) : Bool := (digitValue? c).isSome

/-- The number that a run of decimal digits denotes. -/
def numeralValue (t : Text) : Nat :=
  t.foldl (fun n c => 10 * n + (digitValue? c).getD 0) 0

/-- The longest run of decimal digits at the beginning, and what follows it. -/
def spanDigits (t : Text) : Text × Text := (t.takeWhile isDigit, t.dropWhile isDigit)

theorem isDigit_iff (c : CodePoint) :
    isDigit c = true ↔ ∃ z ∈ digitZeros, z ≤ c.toNat ∧ c.toNat ≤ z + 9 := by
  simp [isDigit, digitValue?]

theorem digitValue?_lt {c : CodePoint} {n : Nat} (h : digitValue? c = some n) : n < 10 := by
  simp only [digitValue?, Option.map_eq_some_iff] at h
  obtain ⟨z, hz, rfl⟩ := h
  have := List.find?_some hz
  simp only [Bool.and_eq_true, decide_eq_true_eq] at this
  omega

/-! ### Numerals that are written -/

theorem length_ofNat (n : Nat) : (ofNat n).length = (Nat.toDigits 10 n).length := List.length_map _

theorem ofNat_ne_nil (n : Nat) : ofNat n ≠ [] := fun h => Nat.toDigits_ne_nil (List.map_eq_nil_iff.1 h)

theorem digitValue?_of_ascii {c : CodePoint} (h : c.isDigit = true) :
    digitValue? c = some (c.toNat - 0x30) := by
  have hrange : 0x30 ≤ c.toNat ∧ c.toNat ≤ 0x30 + 9 := by
    cases c with
    | char c => exact Char.isDigit_iff_toNat.1 h
    | lone half => cases h
  simp [digitValue?, digitZeros, hrange]

theorem isDigit_ascii_of_mem_ofNat {n : Nat} {c : CodePoint} (h : c ∈ ofNat n) : c.isDigit = true := by
  obtain ⟨d, hd, rfl⟩ := List.mem_map.1 h
  exact Nat.isDigit_of_mem_toDigits (by decide) (by decide) hd

theorem isDigit_of_mem_ofNat {n : Nat} {c : CodePoint} (h : c ∈ ofNat n) : isDigit c = true := by
  rw [isDigit, digitValue?_of_ascii (isDigit_ascii_of_mem_ofNat h)]
  rfl

/-- A run of ASCII digits is read as usual. -/
theorem foldl_digitValue? (cs : List Char) (k : Nat) (hcs : ∀ c ∈ cs, c.isDigit = true) :
    (ofChars cs).foldl (fun n c => 10 * n + (digitValue? c).getD 0) k = Nat.ofDigitChars 10 cs k := by
  induction cs generalizing k with
  | nil => rfl
  | cons c cs ih =>
    obtain ⟨hc, hrest⟩ := List.forall_mem_cons.1 hcs
    have hvalue : digitValue? c = some (c.toNat - 0x30) := digitValue?_of_ascii (c := .char c) hc
    rw [ofChars, List.map_cons, List.foldl_cons, Nat.ofDigitChars_cons, hvalue]
    exact ih _ hrest

/-- The numeral of a number denotes the number. -/
theorem numeralValue_ofNat (n : Nat) : numeralValue (ofNat n) = n := by
  have hdigits : ∀ c ∈ Nat.toDigits 10 n, c.isDigit = true := fun c hc =>
    Nat.isDigit_of_mem_toDigits (by decide) (by decide) hc
  rw [numeralValue, ofNat, foldl_digitValue? _ _ hdigits]
  exact Nat.ofDigitChars_ten_toDigits

end Mend.Text
