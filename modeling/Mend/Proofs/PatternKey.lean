import Mathlib.Data.List.DropRight
import Mend.PatternKey
import Mend.Proofs.Text

/-!
# What pattern keys keep

Each pass that masks a message keeps the characters outside the masks, in their places (`Masked`). So words
without angle brackets which a key holds stand in the message as well, unless they are part of a mask
(`isInfix_of_isInfix_ofMessage`). A key is in normal form, with nothing left to mask or to trim, and the texts
in normal form are their own keys (`ofMessage_normalizes`).
-/

namespace Mend.PatternKey

/-! ### Masks -/

/-- Whether a text comes from another one by putting a mask for some of its parts. -/
inductive Masked (mask : Text) : Text → Text → Prop
  | nil : Masked mask [] []
  | keep (c : CodePoint) {t u : Text} (rest : Masked mask t u) : Masked mask (c :: t) (c :: u)
  | hide (hidden : Text) {t u : Text} (rest : Masked mask t u) : Masked mask (hidden ++ t) (mask ++ u)

namespace Masked

variable {mask t u w : Text}

theorem refl (mask t : Text) : Masked mask t t := by
  induction t with
  | nil => exact .nil
  | cons c t ih => exact .keep c ih

theorem keepAll (read : Text) (h : Masked mask t u) : Masked mask (read ++ t) (read ++ u) := by
  induction read with
  | nil => exact h
  | cons c read ih => exact .keep c ih

theorem mem_or_mem {c : CodePoint} (h : Masked mask t u) (hc : c ∈ u) : c ∈ t ∨ c ∈ mask := by
  induction h with
  | nil => exact .inl hc
  | keep d rest ih =>
    rcases List.mem_cons.1 hc with rfl | hc
    · exact .inl List.mem_cons_self
    · exact (ih hc).imp_left (List.mem_cons_of_mem _)
  | hide hidden rest ih =>
    rcases List.mem_append.1 hc with hc | hc
    · exact .inr hc
    · exact (ih hc).imp_left (List.mem_append_right _)

theorem countP_le (h : Masked mask t u) {p : CodePoint → Bool} (hmask : mask.countP p = 0) :
    u.countP p ≤ t.countP p := by
  induction h with
  | nil => exact Nat.le_refl _
  | keep d rest ih =>
    rw [List.countP_cons, List.countP_cons]
    omega
  | hide hidden rest ih =>
    rw [List.countP_append, List.countP_append]
    omega

/-- What a masked text begins with, outside the masks, the text begins with. -/
theorem isPrefix (h : Masked (.char '<' :: mask) t u) (hw : .char '<' ∉ w) (hu : w <+: u) : w <+: t := by
  induction h generalizing w with
  | nil => exact hu
  | keep d rest ih =>
    cases w with
    | nil => exact List.nil_prefix
    | cons c w =>
      obtain ⟨rfl, hrest⟩ := List.cons_prefix_cons.1 hu
      exact List.cons_prefix_cons.2 ⟨rfl, ih (fun hmem => hw (List.mem_cons_of_mem _ hmem)) hrest⟩
  | hide hidden rest ih =>
    cases w with
    | nil => exact List.nil_prefix
    | cons c w =>
      obtain ⟨rfl, -⟩ := List.cons_prefix_cons.1 hu
      exact absurd List.mem_cons_self hw

end Masked

/-- Words without the character that ends a text do not go beyond this end. -/
theorem isInfix_append_end {w s u : Text} {c : CodePoint} (hw : c ∉ w) (h : w <:+: s ++ [c] ++ u) :
    w <:+: s ∨ w <:+: u := by
  have hcut : ∀ {v : Text}, w <+: v ++ [c] ++ u → w <+: v := by
    intro v hv
    rw [List.append_assoc] at hv
    rcases List.prefix_or_prefix_of_prefix hv (List.prefix_append v _) with hshort | hlong
    · exact hshort
    · obtain ⟨x, rfl⟩ := hlong
      rw [List.prefix_append_right_inj] at hv
      cases x with
      | nil => simp
      | cons d x =>
        obtain ⟨rfl, -⟩ := List.cons_prefix_cons.1 hv
        exact absurd (by simp) hw
  induction s with
  | nil =>
    rcases List.infix_cons_iff.1 h with hp | hi
    · exact .inl (hcut (v := []) hp).isInfix
    · exact .inr hi
  | cons d s ih =>
    rcases List.infix_cons_iff.1 h with hp | hi
    · exact .inl (hcut (v := d :: s) hp).isInfix
    · rcases ih hi with hs | hu
      · exact .inl (List.infix_cons hs)
      · exact .inr hu

/-- Words that stand in a masked text and have no angle bracket stand in the text, or in the mask. -/
theorem Masked.isInfix (name : Text) {t u w : Text} (h : Masked (.char '<' :: name ++ [.char '>']) t u)
    (hl : .char '<' ∉ w)
    (hr : .char '>' ∉ w) (hname : ¬ w <:+: .char '<' :: name) (hu : w <:+: u) : w <:+: t := by
  induction h with
  | nil => exact hu
  | keep d rest ih =>
    rcases List.infix_cons_iff.1 hu with hp | hi
    · exact ((Masked.keep d rest).isPrefix hl hp).isInfix
    · exact List.infix_cons (ih hi)
  | hide hidden rest ih =>
    rcases isInfix_append_end hr hu with hm | hi
    · exact absurd hm hname
    · exact (ih hi).trans (List.suffix_append hidden _).isInfix

/-! ### The passes -/

theorem masked_maskNamesFrom (t : Text) :
    Masked nameMask t (maskNamesFrom none t) ∧
      ∀ read : Text, Masked nameMask (read.reverse ++ t) (maskNamesFrom (some read) t) := by
  induction t with
  | nil => exact ⟨.nil, fun read => by simpa [maskNamesFrom] using Masked.refl nameMask read.reverse⟩
  | cons c t ih =>
    obtain ⟨hnone, hsome⟩ := ih
    refine ⟨?_, fun read => ?_⟩
    · unfold maskNamesFrom
      split
      · exact hsome [c]
      · exact .keep c hnone
    · unfold maskNamesFrom
      split
      · have hhide : Masked nameMask _ _ := .hide (read.reverse ++ [c]) hnone
        simpa using hhide
      · simpa using hsome (c :: read)

theorem masked_maskNames (t : Text) : Masked nameMask t (maskNames t) := (masked_maskNamesFrom t).1

/-- While a run of digits is being read, the mask for it is already out: what is left of the run is dropped. -/
theorem masked_maskNumbersFrom (t : Text) :
    Masked numberMask t (maskNumbersFrom false t) ∧
      ∃ hidden rest, t = hidden ++ rest ∧ Masked numberMask rest (maskNumbersFrom true t) := by
  induction t with
  | nil => exact ⟨.nil, [], [], rfl, .nil⟩
  | cons c t ih =>
    obtain ⟨hfalse, hidden, rest, rfl, htrue⟩ := ih
    unfold maskNumbersFrom
    by_cases hd : Text.isDigit c = true
    · simp only [hd, if_true, Bool.false_eq_true, if_false]
      exact ⟨Masked.hide (c :: hidden) htrue, c :: hidden, rest, rfl, htrue⟩
    · simp only [hd, if_false, Bool.false_eq_true]
      exact ⟨.keep c hfalse, [], c :: (hidden ++ rest), rfl, .keep c hfalse⟩

theorem masked_maskNumbers (t : Text) : Masked numberMask t (maskNumbers t) :=
  (masked_maskNumbersFrom t).1

theorem masked_maskPathsFrom (t : Text) :
    Masked pathMask t (maskPathsFrom false t) ∧
      ∃ hidden rest, t = hidden ++ rest ∧ Masked pathMask rest (maskPathsFrom true t) := by
  induction t with
  | nil => exact ⟨.nil, [], [], rfl, .nil⟩
  | cons c t ih =>
    obtain ⟨hfalse, hidden, rest, hrest, htrue⟩ := ih
    have hdrop : c :: t = (c :: hidden) ++ rest := by rw [hrest]; rfl
    unfold maskPathsFrom
    by_cases hslash : (c = '/' && beginsName t) = true
    · simp only [hslash, if_true, Bool.false_eq_true, if_false]
      exact ⟨hdrop ▸ Masked.hide (c :: hidden) htrue, c :: hidden, rest, hdrop, htrue⟩
    · simp only [hslash, Bool.false_eq_true, if_false, Bool.false_and, Bool.true_and]
      refine ⟨.keep c hfalse, ?_⟩
      by_cases hc : isPathChar c = true
      · rw [if_pos hc]
        exact ⟨c :: hidden, rest, hdrop, htrue⟩
      · rw [if_neg hc]
        exact ⟨[], c :: t, rfl, .keep c hfalse⟩

theorem masked_maskPaths (t : Text) : Masked pathMask t (maskPaths t) := (masked_maskPathsFrom t).1

theorem trim_isInfix (t : Text) : Text.trim t <:+: t := by
  have hend : Text.trim t <+: t.dropWhile Text.isBlank := List.rdropWhile_prefix _ _
  exact hend.isInfix.trans (List.dropWhile_suffix _).isInfix

/-- Words that a key holds stand in the message, if they have no angle bracket and are in none of the masks. -/
theorem isInfix_of_isInfix_ofMessage {w m : Text} (hl : .char '<' ∉ w) (hr : .char '>' ∉ w)
    (hmasks : ∀ mask ∈ [nameMask, numberMask, pathMask], ¬ w <:+: mask) (h : w <:+: ofMessage m) :
    w <:+: m := by
  have hname : ∀ name : Text, ¬ w <:+: .char '<' :: name ++ [.char '>'] → ¬ w <:+: .char '<' :: name :=
    fun name hn hi =>
    hn (hi.trans (List.prefix_append _ _).isInfix)
  have hpaths := h.trans (trim_isInfix _)
  have hnumbers := (masked_maskPaths _).isInfix "PATH" hl hr
    (hname _ (hmasks pathMask (by simp))) hpaths
  have hnames := (masked_maskNumbers _).isInfix "NUM" hl hr
    (hname _ (hmasks numberMask (by simp))) hnumbers
  exact (masked_maskNames m).isInfix "STRING" hl hr
    (hname _ (hmasks nameMask (by simp))) hnames

/-! ### Nothing is left to mask -/

/-- At most one quote is left: any two would have been a quoted name. -/
theorem countP_maskNamesFrom (t : Text) :
    (maskNamesFrom none t).countP isQuote ≤ 1 ∧
      ∀ read : Text, read.countP isQuote ≤ 1 → (maskNamesFrom (some read) t).countP isQuote ≤ 1 := by
  induction t with
  | nil => exact ⟨Nat.zero_le _, fun read hread => by simpa [maskNamesFrom] using hread⟩
  | cons c t ih =>
    obtain ⟨hnone, hsome⟩ := ih
    have hmask : nameMask.countP isQuote = 0 := by decide
    refine ⟨?_, fun read hread => ?_⟩
    · unfold maskNamesFrom
      split
      · exact hsome [c] List.countP_le_length
      · next hc => simpa [hc] using hnone
    · unfold maskNamesFrom
      split
      · rw [List.countP_append]
        omega
      · next hc => exact hsome (c :: read) (by simpa [hc] using hread)

theorem maskNamesFrom_of_no_quote {t : Text} (h : ∀ c ∈ t, isQuote c = false) :
    maskNamesFrom none t = t ∧ ∀ read : Text, maskNamesFrom (some read) t = read.reverse ++ t := by
  induction t with
  | nil => exact ⟨rfl, fun read => by simp [maskNamesFrom]⟩
  | cons c t ih =>
    obtain ⟨hc, hrest⟩ := List.forall_mem_cons.1 h
    obtain ⟨hnone, hsome⟩ := ih hrest
    refine ⟨?_, fun read => ?_⟩
    · rw [maskNamesFrom, if_neg (by simp [hc]), hnone]
    · rw [maskNamesFrom, if_neg (by simp [hc]), hsome]
      simp

theorem maskNames_of_countP {t : Text} (h : t.countP isQuote ≤ 1) : maskNames t = t := by
  unfold maskNames
  induction t with
  | nil => rfl
  | cons c t ih =>
    unfold maskNamesFrom
    by_cases hc : isQuote c = true
    · have hrest : ∀ d ∈ t, isQuote d = false := by
        rw [List.countP_cons_of_pos hc] at h
        have hzero : t.countP isQuote = 0 := by omega
        simpa using List.countP_eq_zero.1 hzero
      rw [if_pos hc, (maskNamesFrom_of_no_quote hrest).2]
      rfl
    · rw [List.countP_cons_of_neg hc] at h
      rw [if_neg hc, ih h]

theorem no_digit_maskNumbersFrom (inside : Bool) (t : Text) :
    ∀ c ∈ maskNumbersFrom inside t, Text.isDigit c = false := by
  have hmask : ∀ c ∈ numberMask, Text.isDigit c = false := by
    have hnone : numberMask.countP Text.isDigit = 0 := by decide
    simpa using List.countP_eq_zero.1 hnone
  induction t generalizing inside with
  | nil => exact List.forall_mem_nil _
  | cons d t ih =>
    unfold maskNumbersFrom
    split
    · split
      · exact ih true
      · exact List.forall_mem_append.2 ⟨hmask, ih true⟩
    · next hd => exact List.forall_mem_cons.2 ⟨by simpa using hd, ih false⟩

theorem maskNumbers_append_of_no_digit {s : Text} (hs : ∀ c ∈ s, Text.isDigit c = false) (t : Text) :
    maskNumbers (s ++ t) = s ++ maskNumbers t := by
  refine Text.append_of_keeps (fun c hc u => ?_) hs t
  rw [maskNumbers, maskNumbersFrom, if_neg (by simp [hc])]
  rfl

theorem maskNumbers_of_no_digit {t : Text} (h : ∀ c ∈ t, Text.isDigit c = false) :
    maskNumbers t = t := by
  have hkeep := maskNumbers_append_of_no_digit h []
  rwa [List.append_nil, show maskNumbers [] = [] from rfl, List.append_nil] at hkeep

def HasNoPath (t : Text) : Prop := ∀ c, isPathChar c = true → ¬ [.char '/', c] <:+: t

theorem hasNoPath_cons {c : CodePoint} {t : Text} :
    HasNoPath (c :: t) ↔ (c = '/' && beginsName t) = false ∧ HasNoPath t := by
  constructor
  · intro h
    refine ⟨?_, fun d hd hi => h d hd (List.infix_cons hi)⟩
    by_contra hbegins
    obtain ⟨rfl, hb⟩ : c = '/' ∧ beginsName t = true := by simpa using hbegins
    obtain ⟨d, hhead, hd⟩ := (Option.any_eq_true _ _).1 hb
    obtain ⟨rest, rfl⟩ := List.head?_eq_some_iff.1 hhead
    exact h d hd (List.cons_prefix_cons.2 ⟨rfl, List.cons_prefix_cons.2 ⟨rfl, List.nil_prefix⟩⟩).isInfix
  · rintro ⟨hbegins, h⟩ d hd hi
    rcases List.infix_cons_iff.1 hi with hp | hi
    · obtain ⟨rfl, hrest⟩ := List.cons_prefix_cons.1 hp
      obtain ⟨rest, rfl⟩ := hrest
      simp [beginsName, hd] at hbegins
    · exact h d hd hi

theorem hasNoPath_append_pathMask {t : Text} (h : HasNoPath t) : HasNoPath (pathMask ++ t) := by
  have hcons : ∀ {c : CodePoint} {u : Text}, c ≠ '/' → HasNoPath u → HasNoPath (c :: u) := fun hc hu =>
    hasNoPath_cons.2 ⟨by simp [hc], hu⟩
  exact hcons (by decide) (hcons (by decide) (hcons (by decide) (hcons (by decide) (hcons (by decide)
    (hcons (by decide) h)))))

theorem beginsName_maskPathsFrom {t : Text} (h : beginsName t = false) :
    beginsName (maskPathsFrom false t) = false := by
  cases t with
  | nil => rfl
  | cons c t =>
    unfold maskPathsFrom
    split
    · rfl
    · exact h

theorem hasNoPath_maskPathsFrom (inside : Bool) (t : Text) : HasNoPath (maskPathsFrom inside t) := by
  induction t generalizing inside with
  | nil => exact fun c _ h => absurd (List.eq_nil_of_infix_nil h) (List.cons_ne_nil _ _)
  | cons c t ih =>
    unfold maskPathsFrom
    split
    · split
      · exact ih true
      · exact hasNoPath_append_pathMask (ih true)
    · next hslash =>
      split
      · exact ih true
      · refine hasNoPath_cons.2 ⟨?_, ih false⟩
        by_cases hc : c = '/'
        · have hbegins : beginsName t = false := by simpa [hc] using hslash
          simp [beginsName_maskPathsFrom hbegins]
        · simp [hc]

theorem maskPaths_of_hasNoPath {t : Text} (h : HasNoPath t) : maskPaths t = t := by
  unfold maskPaths
  induction t with
  | nil => rfl
  | cons c t ih =>
    obtain ⟨hslash, hrest⟩ := hasNoPath_cons.1 h
    rw [maskPathsFrom, if_neg (by simp [hslash]), Bool.false_and, if_neg (by simp), ih hrest]

/-- A key holds no two quotes, no digit, and no slash with a name after it. -/
theorem ofMessage_spec (m : Text) :
    (ofMessage m).countP isQuote ≤ 1 ∧ (∀ c ∈ ofMessage m, Text.isDigit c = false) ∧
      HasNoPath (ofMessage m) := by
  have htrim := trim_isInfix (maskPaths (maskNumbers (maskNames m)))
  refine ⟨?_, fun c hc => ?_, fun c hc hi => ?_⟩
  · have hnames := (countP_maskNamesFrom m).1
    have hnumbers := (masked_maskNumbers (maskNames m)).countP_le (p := isQuote) (by decide)
    have hpaths := (masked_maskPaths (maskNumbers (maskNames m))).countP_le (p := isQuote) (by decide)
    have hkey := htrim.sublist.countP_le (p := isQuote)
    exact Nat.le_trans hkey (Nat.le_trans hpaths (Nat.le_trans hnumbers hnames))
  · have hnone : pathMask.countP Text.isDigit = 0 := by decide
    rcases (masked_maskPaths _).mem_or_mem (htrim.subset hc) with hmem | hmem
    · exact no_digit_maskNumbersFrom false _ c hmem
    · simpa using List.countP_eq_zero.1 hnone c hmem
  · exact hasNoPath_maskPathsFrom false _ c hc (hi.trans htrim)

/-- The form of a key: nothing is left to mask or to trim. -/
structure IsNormal (t : Text) : Prop where
  no_digit : ∀ c ∈ t, Text.isDigit c = false
  one_quote : t.countP isQuote ≤ 1
  no_path : HasNoPath t
  head_solid : ∀ c ∈ t.head?, Text.isBlank c = false
  last_solid : ∀ c ∈ t.getLast?, Text.isBlank c = false

theorem isNormal_ofMessage (m : Text) : IsNormal (ofMessage m) := by
  obtain ⟨hquotes, hdigits, hpaths⟩ := ofMessage_spec m
  obtain ⟨hhead, hlast⟩ := Text.trimBy_ends Text.isBlank (maskPaths (maskNumbers (maskNames m)))
  exact ⟨hdigits, hquotes, hpaths, hhead, hlast⟩

theorem IsNormal.ofMessage_eq {t : Text} (h : IsNormal t) : ofMessage t = t := by
  rw [ofMessage, maskNames_of_countP h.one_quote, maskNumbers_of_no_digit h.no_digit,
    maskPaths_of_hasNoPath h.no_path]
  exact Text.trimBy_of_ends h.head_solid h.last_solid

theorem ofMessage_ofMessage (m : Text) : ofMessage (ofMessage m) = ofMessage m :=
  (isNormal_ofMessage m).ofMessage_eq

/-- Every message has a key in normal form, and the key of a key is the key itself. The texts in normal form
are those that are their own keys, so that no other text is a key. -/
theorem ofMessage_normalizes (m : Text) :
    IsNormal (ofMessage m) ∧ ofMessage (ofMessage m) = ofMessage m ∧ (ofMessage m = m ↔ IsNormal m) :=
  ⟨isNormal_ofMessage m, ofMessage_ofMessage m, fun h => h ▸ isNormal_ofMessage m, IsNormal.ofMessage_eq⟩

end Mend.PatternKey
