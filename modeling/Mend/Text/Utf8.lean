import Mend.Text

/-!
# UTF-8

Files hold bytes. A text of characters is written as UTF-8; half of a surrogate pair has no bytes, and
the error names the first run of such halves. Bytes are read back strictly: the error names the first
bytes that belong to no character and why. Reading for display only puts one replacement character in
the place of each such group of bytes instead.

The main statements are that reading gives back what was written (`decode_encode`) and that bytes
which can be read are the written form of what was read (`encode_of_decode`).
-/

namespace Mend.Utf8

/-- Why some bytes belong to no character. -/
inductive Reason
  | invalidStart
  | invalidContinuation
  | unexpectedEnd
  deriving DecidableEq, Repr

/-- The wording of each reason. -/
def Reason.message : Reason → Text
  | .invalidStart => "invalid start byte"
  | .invalidContinuation => "invalid continuation byte"
  | .unexpectedEnd => "unexpected end of data"

/-- Bytes that belong to no character: where they begin, how many they are, and the first. -/
structure DecodeError where
  start : Nat
  size : Nat
  byte : UInt8
  reason : Reason
  deriving DecidableEq, Repr

/-- The text of the error. -/
def DecodeError.message (e : DecodeError) : Text :=
  let place : Text :=
    if e.size = 1 then
      "byte 0x" ++ Text.hex 2 e.byte.toNat ++ " in position " ++ Text.ofNat e.start
    else
      "bytes in position " ++ Text.ofNat e.start ++ "-" ++ Text.ofNat (e.start + e.size - 1)
  "'utf-8' codec can't decode " ++ place ++ ": " ++ e.reason.message

/-- Code points of a text that are no characters: where they begin, how many they are, and the number of
the first. -/
structure EncodeError where
  start : Nat
  size : Nat
  code : Nat
  deriving DecidableEq, Repr

/-- The text of the error. -/
def EncodeError.message (e : EncodeError) : Text :=
  let place : Text :=
    if e.size = 1 then
      "character '\\u" ++ Text.hex 4 e.code ++ "' in position " ++ Text.ofNat e.start
    else
      "characters in position " ++ Text.ofNat e.start ++ "-" ++ Text.ofNat (e.start + e.size - 1)
  "'utf-8' codec can't encode " ++ place ++ ": surrogates not allowed"

/-! ### One character -/

/-- Whether a byte continues a character. -/
def isTail (b : UInt8) : Bool := 0x80 ≤ b && b < 0xC0

/-- How many bytes a character has that begins with `a`, and the bounds of its second byte. The
bounds leave out overlong forms, surrogates and numbers beyond the last code point. -/
def leading? (a : UInt8) : Option (Nat × UInt8 × UInt8) :=
  if a < 0xC2 then none
  else if a < 0xE0 then some (2, 0x80, 0xBF)
  else if a < 0xF0 then some (3, if a = 0xE0 then 0xA0 else 0x80, if a = 0xED then 0x9F else 0xBF)
  else if a < 0xF5 then some (4, if a = 0xF0 then 0x90 else 0x80, if a = 0xF4 then 0x8F else 0xBF)
  else none

/-- A character from its bytes. -/
def charOf : List UInt8 → Char
  | [a] => Char.ofNat a.toNat
  | [a, b] => Char.ofNat ((a.toNat % 32) * 64 + b.toNat % 64)
  | [a, b, c] => Char.ofNat (((a.toNat % 16) * 64 + b.toNat % 64) * 64 + c.toNat % 64)
  | [a, b, c, d] =>
    Char.ofNat ((((a.toNat % 8) * 64 + b.toNat % 64) * 64 + c.toNat % 64) * 64 + d.toNat % 64)
  | _ => '\ufffd'

/-- What stands at the beginning of some bytes: a character or bytes that belong to none, with the
number of bytes. -/
inductive Piece
  | char (c : Char) (size : Nat)
  | broken (reason : Reason) (size : Nat)

/-- The piece that begins with the byte `a`. -/
def pieceAt (a : UInt8) (rest : List UInt8) : Piece :=
  if a < 0x80 then .char (charOf [a]) 1
  else match leading? a with
    | none => .broken .invalidStart 1
    | some (size, low, high) =>
      match rest with
      | [] => .broken .unexpectedEnd 1
      | b :: rest =>
        if b < low || high < b then .broken .invalidContinuation 1
        else
          let tail := (rest.take (size - 2)).takeWhile isTail
          if tail.length = size - 2 then .char (charOf (a :: b :: tail)) size
          else if tail.length = rest.length then .broken .unexpectedEnd (2 + tail.length)
          else .broken .invalidContinuation (2 + tail.length)

/-- The first bytes that belong to no character; `offset` bytes stand before. The bytes still to be
skipped belong to the last character. -/
def firstError? (skip offset : Nat) : List UInt8 → Option DecodeError
  | [] => none
  | a :: rest =>
    match skip with
    | skip + 1 => firstError? skip (offset + 1) rest
    | 0 =>
      match pieceAt a rest with
      | .char _ size => firstError? (size - 1) (offset + 1) rest
      | .broken reason size => some ⟨offset, size, a, reason⟩

/-- The text of some bytes, where each group of bytes that belongs to no character is replaced. -/
def replaceErrors (substitute : List UInt8 → Text) (skip : Nat) (done : Text) : List UInt8 → Text
  | [] => done.reverse
  | a :: rest =>
    match skip with
    | skip + 1 => replaceErrors substitute skip done rest
    | 0 =>
      match pieceAt a rest with
      | .char c size => replaceErrors substitute (size - 1) (.char c :: done) rest
      | .broken _ size =>
        replaceErrors substitute (size - 1) ((substitute ((a :: rest).take size)).reverse ++ done) rest

/-! ### Texts -/

/-- The characters of a text. -/
def chars (t : Text) : List Char :=
  t.filterMap fun
    | .char c => some c
    | .lone _ => none

/-- The string of the characters of a text. -/
def string (t : Text) : String := .ofList (chars t)

/-- The bytes of the characters of a text. Half of a pair has none. -/
def encode (t : Text) : ByteArray := (string t).toUTF8

theorem encode_eq (t : Text) : encode t = (chars t).utf8Encode := rfl

/-- The first code point of a text that may not be encoded, with the code points behind it that are no
characters either. -/
def problemAmong? (mayEncode : CodePoint → Bool) (t : Text) : Option EncodeError :=
  match t.dropWhile mayEncode with
  | [] => none
  | c :: rest =>
    some ⟨(t.takeWhile mayEncode).length, ((c :: rest).takeWhile (!·.isChar)).length, c.toNat⟩

/-- The first code points of a text that are no characters. -/
def problem? (t : Text) : Option EncodeError := problemAmong? CodePoint.isChar t

/-- The text of some bytes, or the first bytes that belong to no character. -/
def decode (bytes : ByteArray) : Except DecodeError Text :=
  match bytes.utf8Decode? with
  | some cs => .ok (.ofChars cs.toList)
  | none => .error ((firstError? 0 0 bytes.toList).getD ⟨0, 1, 0, .invalidStart⟩)

/-- The text of some bytes for display: one replacement character stands for each group of bytes that
belongs to no character. -/
def decodeLossy (bytes : ByteArray) : Text := replaceErrors (fun _ => ['\ufffd']) 0 [] bytes.toList

/-- Whether every code point of a text is a character. -/
def Encodable (t : Text) : Prop := ∀ c ∈ t, c.isChar = true

instance (t : Text) : Decidable (Encodable t) := inferInstanceAs (Decidable (∀ c ∈ t, _))

/-! ### Names of files

The name of a file is any bytes. A byte in it that belongs to no character is half of a pair in the text of
the name, so that each name has a text. -/

/-- Whether a code point may stand in the name of a file. -/
def mayName : CodePoint → Bool
  | .char _ => true
  | .lone half => 0x480 ≤ half.val && half.val < 0x500

/-- The first code points of a text that no name of a file has. -/
def nameProblem? (t : Text) : Option EncodeError := problemAmong? mayName t

/-- The bytes of the name of a file. -/
def nameBytes (t : Text) : List UInt8 :=
  t.flatMap fun
    | .char c => String.utf8EncodeChar c
    | .lone half => [half.val.toUInt8]

/-- The text of the name of a file. -/
def ofNameBytes (bytes : List UInt8) : Text :=
  replaceErrors (fun bs => bs.map fun b => .ofNat (0xDC00 + b.toNat)) 0 [] bytes

/-- The text that the name of a file has when it is read back. -/
def nameOf (t : Text) : Text := if Encodable t then t else ofNameBytes (nameBytes t)

/-! ### Writing and reading back -/

theorem dropWhile_isChar_eq_nil_iff {t : Text} : t.dropWhile CodePoint.isChar = [] ↔ Encodable t := by
  induction t with
  | nil => simp [Encodable]
  | cons c t ih => cases hc : c.isChar <;> simp_all [Encodable]

theorem problem?_eq_none_iff {t : Text} : problem? t = none ↔ Encodable t := by
  rw [← dropWhile_isChar_eq_nil_iff, problem?, problemAmong?]
  split <;> simp_all

theorem encodable_ofChars (cs : List Char) : Encodable (.ofChars cs) := by
  intro c hc
  obtain ⟨d, -, rfl⟩ := List.mem_map.1 hc
  rfl

@[simp] theorem chars_ofChars (cs : List Char) : chars (.ofChars cs) = cs := by
  induction cs with
  | nil => rfl
  | cons c cs ih => exact congrArg (List.cons c) ih

theorem ofChars_chars {t : Text} (h : Encodable t) : Text.ofChars (chars t) = t := by
  induction t with
  | nil => rfl
  | cons c t ih =>
    have hrest := ih fun d hd => h d (List.mem_cons_of_mem _ hd)
    cases c with
    | char c => exact congrArg (List.cons (.char c)) hrest
    | lone half => exact absurd (h _ List.mem_cons_self) nofun

theorem decode_encode {t : Text} (h : Encodable t) : decode (encode t) = .ok t := by
  simp [decode, encode_eq, List.utf8Decode?_utf8Encode, ofChars_chars h]

theorem encodable_of_decode {bytes : ByteArray} {t : Text} (h : decode bytes = .ok t) : Encodable t := by
  unfold decode at h
  split at h
  · next cs hcs =>
    cases h
    exact encodable_ofChars _
  · cases h

theorem encode_of_decode {bytes : ByteArray} {t : Text} (h : decode bytes = .ok t) :
    encode t = bytes := by
  unfold decode at h
  split at h
  · next cs hcs =>
    cases h
    have hs : bytes.utf8Decode?.isSome = true := by simp [hcs]
    have := ByteArray.utf8Encode_get_utf8Decode? (b := bytes) (h := hs)
    simpa [encode_eq, hcs] using this
  · cases h

end Mend.Utf8
