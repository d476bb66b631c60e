import Mend.Text.Quoted

/-!
# Base 64

Bytes written with four characters for three of them. Characters outside the alphabet are skipped, and
the text ends at the padding that fills up a group of four.
-/

namespace Mend.Text.Base64

/-- Why a text does not denote bytes. -/
inductive DecodeError
  /-- Characters that are not ASCII, from a place on; the first of them is given by its code point. -/
  | notAscii (first start count : Nat)
  /-- One character more than a multiple of four, of this many. -/
  | extraCharacter (count : Nat)
  | padding
  deriving DecidableEq, Repr

/-- The text of the error. -/
def DecodeError.message : DecodeError → Text
  | .notAscii first start count =>
    let place : Text :=
      if count = 1 then " '" ++ escapeCode first ++ "' in position " ++ ofNat start
      else "s in position " ++ ofNat start ++ "-" ++ ofNat (start + count - 1)
    "failed to convert base64 data into ascii: 'ascii' codec can't encode character" ++ place ++
      ": ordinal not in range(128)"
  | .extraCharacter count =>
    "failed to decode base64 data: Invalid base64-encoded string: number of data characters (" ++
      ofNat count ++ ") cannot be 1 more than a multiple of 4"
  | .padding => "failed to decode base64 data: Incorrect padding"

/-- The six bits that a character stands for. -/
def sextet? (c : CodePoint) : Option Nat :=
  if c.isUpper then some (c.toNat - 'A'.toNat)
  else if c.isLower then some (c.toNat - 'a'.toNat + 26)
  else if c.isDigit then some (c.toNat - '0'.toNat + 52)
  else if c = '+' then some 62
  else if c = '/' then some 63
  else none

/-- The bytes of a text from the middle of a group of four on: `filled` characters of the group were
read, the last of them left the bits `rest`, `pads` signs of padding came after it, and `count` bytes
were read so far. -/
def decodeFrom (filled rest pads count : Nat) : Text → Except DecodeError (List UInt8)
  | [] =>
    if filled = 0 then .ok []
    else if filled = 1 then .error (.extraCharacter (count / 3 * 4 + 1))
    else .error .padding
  | c :: t =>
    if c = '=' then
      if 2 ≤ filled && 3 ≤ filled + pads then .ok []
      else decodeFrom filled rest (if 2 ≤ filled then pads + 1 else pads) count t
    else
      match sextet? c, filled with
      | none, _ => decodeFrom filled rest pads count t
      | some v, 0 => decodeFrom 1 v 0 count t
      | some v, 1 =>
        (decodeFrom 2 (v % 16) 0 (count + 1) t).map ((rest * 4 + v / 16).toUInt8 :: ·)
      | some v, 2 =>
        (decodeFrom 3 (v % 4) 0 (count + 1) t).map ((rest * 16 + v / 4).toUInt8 :: ·)
      | some v, _ => (decodeFrom 0 0 0 (count + 1) t).map ((rest * 64 + v).toUInt8 :: ·)

/-- The bytes that a text denotes. -/
def decode (t : Text) : Except DecodeError (List UInt8) :=
  let ascii := t.takeWhile fun c => c.toNat < 128
  match t.drop ascii.length with
  | first :: more =>
    .error (.notAscii first.toNat ascii.length ((first :: more).takeWhile fun c => 128 ≤ c.toNat).length)
  | [] => decodeFrom 0 0 0 0 t

end Mend.Text.Base64
