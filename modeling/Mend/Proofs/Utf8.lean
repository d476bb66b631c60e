import Mathlib.Data.List.TakeWhile
import Mend.Text.Utf8

/-!
# Reading back the bytes of a text

The bytes of a text hold no error: they are cut into the pieces that were written for its characters, so
that reading them for display replaces nothing (`decodeLossy_encode`). The cases are those of the four
lengths that a character can have (`exists_pieceAt`).
-/

namespace Mend.Utf8

/-! ### The piece of a character -/

theorem isTail_iff (b : UInt8) : isTail b = true ↔ 0x80 ≤ b.toNat ∧ b.toNat < 0xC0 := by
  simp [isTail, UInt8.le_iff_toNat_le, UInt8.lt_iff_toNat_lt]

theorem not_lt_of_toNat {a n : UInt8} (h : n.toNat ≤ a.toNat) : ¬ a < n := by
  rw [UInt8.lt_iff_toNat_lt]
  exact Nat.not_lt.2 h

theorem pieceAt_one {a : UInt8} (ha : a.toNat < 0x80) (rest : List UInt8) :
    pieceAt a rest = .char (charOf [a]) 1 := by
  have hlt : a < 0x80 := UInt8.lt_iff_toNat_lt.2 ha
  rw [pieceAt, if_pos hlt]

theorem pieceAt_many {a b low high : UInt8} (tail rest : List UInt8) (ha : 0x80 ≤ a.toNat)
    (hlead : leading? a = some (tail.length + 2, low, high)) (hlow : low.toNat ≤ b.toNat)
    (hhigh : b.toNat ≤ high.toNat) (htail : ∀ c ∈ tail, isTail c = true) :
    pieceAt a (b :: (tail ++ rest)) = .char (charOf (a :: b :: tail)) (tail.length + 2) := by
  have hnot : ¬ a < 0x80 := not_lt_of_toNat ha
  have hbounds : ¬ (b < low || high < b) = true := by
    simp only [Bool.or_eq_true, decide_eq_true_eq, UInt8.lt_iff_toNat_lt]
    omega
  have htake : ((tail ++ rest).take tail.length).takeWhile isTail = tail := by
    rw [List.take_left, List.takeWhile_eq_self_iff.2 htail]
  rw [pieceAt, if_neg hnot, hlead]
  simp only [if_neg hbounds, Nat.add_sub_cancel, htake, if_true]

theorem leading?_two {a : UInt8} (h : 0xC2 ≤ a.toNat) (h' : a.toNat < 0xE0) :
    leading? a = some (2, 0x80, 0xBF) := by
  have h1 : ¬ a < 0xC2 := not_lt_of_toNat h
  rw [leading?, if_neg h1, if_pos (UInt8.lt_iff_toNat_lt.2 h')]

theorem leading?_three {a : UInt8} (h : 0xE0 ≤ a.toNat) (h' : a.toNat < 0xF0) :
    leading? a = some (3, if a = 0xE0 then 0xA0 else 0x80, if a = 0xED then 0x9F else 0xBF) := by
  have h1 : ¬ a < 0xC2 := not_lt_of_toNat (Nat.le_trans (by decide) h)
  have h2 : ¬ a < 0xE0 := not_lt_of_toNat h
  rw [leading?, if_neg h1, if_neg h2, if_pos (UInt8.lt_iff_toNat_lt.2 h')]

theorem leading?_four {a : UInt8} (h : 0xF0 ≤ a.toNat) (h' : a.toNat < 0xF5) :
    leading? a = some (4, if a = 0xF0 then 0x90 else 0x80, if a = 0xF4 then 0x8F else 0xBF) := by
  have h1 : ¬ a < 0xC2 := not_lt_of_toNat (Nat.le_trans (by decide) h)
  have h2 : ¬ a < 0xE0 := not_lt_of_toNat (Nat.le_trans (by decide) h)
  have h3 : ¬ a < 0xF0 := not_lt_of_toNat h
  rw [leading?, if_neg h1, if_neg h2, if_neg h3, if_pos (UInt8.lt_iff_toNat_lt.2 h')]

theorem toNat_byte {n : Nat} (h : n < 256) : (UInt8.ofNat n).toNat = n := by
  rw [UInt8.toNat_ofNat']
  exact Nat.mod_eq_of_lt h

theorem isTail_byte (n : Nat) : isTail (UInt8.ofNat (n % 64 + 128)) = true := by
  rw [isTail_iff, toNat_byte (by omega)]
  omega

theorem ite_toNat_le {a first x y : UInt8} {n : Nat} (hx : a.toNat = first.toNat → x.toNat ≤ n)
    (hy : y.toNat ≤ n) : (if a = first then x else y).toNat ≤ n := by
  split
  · next heq => exact hx (congrArg UInt8.toNat heq)
  · exact hy

theorem le_ite_toNat {a first x y : UInt8} {n : Nat} (hx : a.toNat = first.toNat → n ≤ x.toNat)
    (hy : n ≤ y.toNat) : n ≤ (if a = first then x else y).toNat := by
  split
  · next heq => exact hx (congrArg UInt8.toNat heq)
  · exact hy

section Sizes

variable {v : Nat} (rest : List UInt8)

theorem pieceAt_two (h : 0x7F < v) (h' : v ≤ 0x7FF) :
    pieceAt (UInt8.ofNat (v / 64 % 32 + 192)) (UInt8.ofNat (v % 64 + 128) :: rest) = .char (Char.ofNat v) 2 := by
  have ha := toNat_byte (show v / 64 % 32 + 192 < 256 by omega)
  have hb := toNat_byte (show v % 64 + 128 < 256 by omega)
  generalize UInt8.ofNat (v / 64 % 32 + 192) = a at ha
  generalize UInt8.ofNat (v % 64 + 128) = b at hb
  have hlead : leading? a = some (2, 0x80, 0xBF) := leading?_two (by omega) (by omega)
  have hlow : (0x80 : UInt8).toNat ≤ b.toNat := by
    change 128 ≤ b.toNat
    omega
  have hhigh : b.toNat ≤ (0xBF : UInt8).toNat := by
    change b.toNat ≤ 191
    omega
  have hvalue : a.toNat % 32 * 64 + b.toNat % 64 = v := by omega
  have hread := pieceAt_many [] rest (by omega) hlead hlow hhigh (List.forall_mem_nil _)
  rwa [charOf, hvalue] at hread

/-- The bounds of the second byte leave out overlong forms and surrogates. -/
theorem pieceAt_three (h : 0x7FF < v) (h' : v ≤ 0xFFFF) (hvalid : v < 0xD800 ∨ 0xDFFF < v) :
    pieceAt (UInt8.ofNat (v / 4096 % 16 + 224))
      (UInt8.ofNat (v / 64 % 64 + 128) :: UInt8.ofNat (v % 64 + 128) :: rest) = .char (Char.ofNat v) 3 := by
  have ha := toNat_byte (show v / 4096 % 16 + 224 < 256 by omega)
  have hb := toNat_byte (show v / 64 % 64 + 128 < 256 by omega)
  have hc := toNat_byte (show v % 64 + 128 < 256 by omega)
  have htail : ∀ d ∈ [UInt8.ofNat (v % 64 + 128)], isTail d = true :=
    List.forall_mem_singleton.2 (isTail_byte v)
  generalize UInt8.ofNat (v / 4096 % 16 + 224) = a at ha
  generalize UInt8.ofNat (v / 64 % 64 + 128) = b at hb
  generalize UInt8.ofNat (v % 64 + 128) = c at hc htail
  have hlead := leading?_three (a := a) (by omega) (by omega)
  have hlow : (if a = 0xE0 then 0xA0 else 0x80 : UInt8).toNat ≤ b.toNat := by
    refine ite_toNat_le (fun hfirst => ?_) ?_
    · change a.toNat = 224 at hfirst
      change 160 ≤ b.toNat
      omega
    · change 128 ≤ b.toNat
      omega
  have hhigh : b.toNat ≤ (if a = 0xED then 0x9F else 0xBF : UInt8).toNat := by
    refine le_ite_toNat (fun hfirst => ?_) ?_
    · change a.toNat = 237 at hfirst
      change b.toNat ≤ 159
      omega
    · change b.toNat ≤ 191
      omega
  have hvalue : (a.toNat % 16 * 64 + b.toNat % 64) * 64 + c.toNat % 64 = v := by omega
  have hread := pieceAt_many [c] rest (by omega) hlead hlow hhigh htail
  rwa [charOf, hvalue] at hread

/-- The bounds of the second byte leave out overlong forms and numbers beyond the last code point. -/
theorem pieceAt_four (h : 0xFFFF < v) (h' : v < 0x110000) :
    pieceAt (UInt8.ofNat (v / 262144 % 8 + 240)) (UInt8.ofNat (v / 4096 % 64 + 128) ::
      UInt8.ofNat (v / 64 % 64 + 128) :: UInt8.ofNat (v % 64 + 128) :: rest) = .char (Char.ofNat v) 4 := by
  have ha := toNat_byte (show v / 262144 % 8 + 240 < 256 by omega)
  have hb := toNat_byte (show v / 4096 % 64 + 128 < 256 by omega)
  have hc := toNat_byte (show v / 64 % 64 + 128 < 256 by omega)
  have hd := toNat_byte (show v % 64 + 128 < 256 by omega)
  have htail : ∀ e ∈ [UInt8.ofNat (v / 64 % 64 + 128), UInt8.ofNat (v % 64 + 128)], isTail e = true :=
    List.forall_mem_cons.2 ⟨isTail_byte (v / 64), List.forall_mem_singleton.2 (isTail_byte v)⟩
  generalize UInt8.ofNat (v / 262144 % 8 + 240) = a at ha
  generalize UInt8.ofNat (v / 4096 % 64 + 128) = b at hb
  generalize UInt8.ofNat (v / 64 % 64 + 128) = c at hc htail
  generalize UInt8.ofNat (v % 64 + 128) = d at hd htail
  have hlead := leading?_four (a := a) (by omega) (by omega)
  have hlow : (if a = 0xF0 then 0x90 else 0x80 : UInt8).toNat ≤ b.toNat := by
    refine ite_toNat_le (fun hfirst => ?_) ?_
    · change a.toNat = 240 at hfirst
      change 144 ≤ b.toNat
      omega
    · change 128 ≤ b.toNat
      omega
  have hhigh : b.toNat ≤ (if a = 0xF4 then 0x8F else 0xBF : UInt8).toNat := by
    refine le_ite_toNat (fun hfirst => ?_) ?_
    · change a.toNat = 244 at hfirst
      change b.toNat ≤ 143
      omega
    · change b.toNat ≤ 191
      omega
  have hvalue : ((a.toNat % 8 * 64 + b.toNat % 64) * 64 + c.toNat % 64) * 64 + d.toNat % 64 = v := by omega
  have hread := pieceAt_many [c, d] rest (by omega) hlead hlow hhigh htail
  rwa [charOf, hvalue] at hread

end Sizes

/-- The bytes of a character are read as this character, whatever follows them. -/
theorem exists_pieceAt (c : Char) (rest : List UInt8) :
    ∃ a tail, String.utf8EncodeChar c = a :: tail ∧ pieceAt a (tail ++ rest) = .char c (tail.length + 1) := by
  have hvalid : c.val.toNat < 0xD800 ∨ 0xDFFF < c.val.toNat ∧ c.val.toNat < 0x110000 := c.valid
  have hback : Char.ofNat c.val.toNat = c := Char.ofNat_toNat c
  unfold String.utf8EncodeChar
  generalize c.val.toNat = v at hvalid hback
  subst hback
  by_cases h1 : v ≤ 0x7F
  · refine ⟨_, _, if_pos h1, ?_⟩
    have ha := toNat_byte (show v < 256 by omega)
    rw [List.nil_append, pieceAt_one (by omega), charOf, ha]
    rfl
  by_cases h2 : v ≤ 0x7FF
  · refine ⟨_, _, (if_neg h1).trans (if_pos h2), ?_⟩
    exact pieceAt_two rest (by omega) h2
  by_cases h3 : v ≤ 0xFFFF
  · refine ⟨_, _, (if_neg h1).trans ((if_neg h2).trans (if_pos h3)), ?_⟩
    exact pieceAt_three rest (by omega) h3 (by omega)
  · refine ⟨_, _, (if_neg h1).trans ((if_neg h2).trans (if_neg h3)), ?_⟩
    exact pieceAt_four rest (by omega) (by omega)

/-! ### The bytes of a text -/

theorem replaceErrors_skip (substitute : List UInt8 → Text) (tail rest : List UInt8) (done : Text) :
    replaceErrors substitute tail.length done (tail ++ rest) = replaceErrors substitute 0 done rest := by
  induction tail with
  | nil => rfl
  | cons b tail ih => exact ih

theorem replaceErrors_encoded (substitute : List UInt8 → Text) (cs : List Char) (done : Text) :
    replaceErrors substitute 0 done (cs.flatMap String.utf8EncodeChar) = done.reverse ++ .ofChars cs := by
  induction cs generalizing done with
  | nil => simp [replaceErrors]
  | cons c cs ih =>
    obtain ⟨a, tail, hbytes, hpiece⟩ := exists_pieceAt c (cs.flatMap String.utf8EncodeChar)
    rw [List.flatMap_cons, hbytes, List.cons_append, replaceErrors, hpiece]
    simp only [Nat.add_sub_cancel]
    rw [replaceErrors_skip, ih, List.reverse_cons, List.append_assoc, List.singleton_append]
    rfl

theorem toList_loop_eq (bytes : ByteArray) (i : Nat) (done : List UInt8) :
    ByteArray.toList.loop bytes i done = done.reverse ++ bytes.data.toList.drop i := by
  fun_induction ByteArray.toList.loop bytes i done with
  | case1 i done hlt ih =>
    have hget : bytes.get! i = bytes.data[i] := by
      rw [ByteArray.get!, getElem!_pos bytes.data i hlt]
    have hdrop : bytes.data.toList.drop i = bytes.data[i] :: bytes.data.toList.drop (i + 1) :=
      List.drop_eq_getElem_cons (by simpa using hlt)
    rw [ih, hget, hdrop, List.reverse_cons, List.append_assoc, List.singleton_append]
  | case2 i done hge =>
    rw [List.drop_eq_nil_of_le (by simpa using Nat.le_of_not_lt hge), List.append_nil]

theorem toList_encode (t : Text) : (encode t).toList = (chars t).flatMap String.utf8EncodeChar := by
  rw [ByteArray.toList, toList_loop_eq, encode_eq, List.utf8Encode, List.toList_data_toByteArray]
  rfl

/-- Nothing is replaced in the bytes of a text. -/
theorem decodeLossy_encode {t : Text} (h : Encodable t) : decodeLossy (encode t) = t := by
  rw [decodeLossy, toList_encode, replaceErrors_encoded, ofChars_chars h]
  rfl

end Mend.Utf8
