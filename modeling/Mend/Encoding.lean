import Mend.Text.Utf8

/-!
# Encodings of text files

A text file is UTF-8, perhaps behind a signature, or Latin-1 or ASCII, in which a byte is a character. An
encoding goes by many names; signs between the words of a name, and the case of its letters, do not count.
-/

namespace Mend

/-- How the text of a file is written in bytes. -/
inductive Encoding
  | utf8
  /-- UTF-8 that may begin with a signature. -/
  | signedUtf8
  | latin1
  | ascii
  deriving DecidableEq, Repr

namespace Encoding

/-- The names of the encodings, in small letters with low lines between the words. -/
def names : Encoding → List Text
  | utf8 => ["utf_8", "utf8", "u8", "utf", "utf8_ucs2", "utf8_ucs4", "cp65001"]
  | signedUtf8 => ["utf_8_sig"]
  | latin1 =>
    ["latin_1", "latin1", "latin", "l1", "8859", "iso8859", "iso8859_1", "iso_8859_1",
      "iso_8859_1_1987", "iso_ir_100", "cp819", "ibm819", "csisolatin1"]
  | ascii =>
    ["ascii", "us_ascii", "us", "646", "iso646_us", "iso_ir_6", "cp367", "ibm367", "csascii",
      "ansi_x3.4_1968", "ansi_x3.4_1986", "ansi_x3_4_1968"]

/-- A name in small letters with low lines between its words. -/
def normalName (t : Text) : Text :=
  let isSign (c : CodePoint) : Bool := !(c.isAlphanum || c = '.')
  let words := Text.splitOn ' ' (t.map fun c => if isSign c then ' ' else c.toLower)
  Text.joinOn '_' (words.filter (· != []))

/-- The encoding with a name. -/
def named? (t : Text) : Option Encoding :=
  [utf8, signedUtf8, latin1, ascii].find? fun e => e.names.elem (normalName t)

/-- Why some bytes are no text. -/
inductive DecodeError
  | utf8 (e : Utf8.DecodeError)
  /-- A byte that is not ASCII, and where it stands. -/
  | notAscii (byte : UInt8) (start : Nat)
  deriving DecidableEq, Repr

/-- The text of the error. -/
def DecodeError.message : DecodeError → Text
  | utf8 e => e.message
  | notAscii byte start =>
    "'ascii' codec can't decode byte 0x" ++ Text.hex 2 byte.toNat ++ " in position " ++
      Text.ofNat start ++ ": ordinal not in range(128)"

/-- The text of some bytes. -/
def decode (e : Encoding) (bytes : ByteArray) : Except DecodeError Text :=
  match e with
  | utf8 => (Utf8.decode bytes).mapError .utf8
  | signedUtf8 =>
    (Utf8.decode bytes).mapError .utf8 |>.map fun
      | '\ufeff' :: t => t
      | t => t
  | latin1 => .ok (bytes.toList.map fun b => CodePoint.ofNat b.toNat)
  | ascii =>
    let plain := bytes.toList.takeWhile (· < 0x80)
    match bytes.toList[plain.length]? with
    | some b => .error (.notAscii b plain.length)
    | none => .ok (plain.map fun b => CodePoint.ofNat b.toNat)

/-- Every encoding is known by the names it has in the table. -/
theorem normalName_of_mem_names (e : Encoding) : ∀ t ∈ e.names, normalName t = t := by
  cases e <;> decide

end Encoding

end Mend
