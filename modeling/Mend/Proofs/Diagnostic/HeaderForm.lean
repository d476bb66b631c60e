import Mathlib.Data.List.Forall2
import Mend.Diagnostic.CompilerOutput
import Mend.Proofs.Text

/-!
# The forms of a header line

A header line is told by its parts: a file, a position, and a report of a severity word, a code and a
message. The two forms are stated by what stands between the parts, and a line is read as a header
exactly where it has one of them (`parenthesized?_eq_some_iff`, `colonSeparated?_eq_some_iff`).
-/

namespace Mend.CompilerOutput

/-! ### Characters -/

theorem isBlank_eq_false_of_isDigit {c : CodePoint} (h : Text.isDigit c = true) : Text.isBlank c = false := by
  have hall : ∀ z ∈ Text.digitZeros, ∀ i < 10, Text.isBlank (CodePoint.ofNat (z + i)) = false := by
    decide +kernel
  obtain ⟨z, hz, hlow, hhigh⟩ := (Text.isDigit_iff c).1 h
  have hc := hall z hz (c.toNat - z) (by omega)
  rwa [Nat.add_sub_cancel' hlow, CodePoint.ofNat_toNat] at hc

theorem toLower_of_isBlank {c : CodePoint} (h : Text.isBlank c = true) : c.toLower = c := by
  simp only [Text.isBlank, Bool.or_eq_true, Bool.and_eq_true, decide_eq_true_eq, beq_iff_eq] at h
  cases c with
  | lone half => rfl
  | char c =>
    refine congrArg CodePoint.char (dif_neg fun hletter => ?_)
    rw [CodePoint.toNat_char] at h
    have hA : 0x41 ≤ c.toNat := UInt32.le_iff_toNat_le.1 hletter.1
    have hZ : c.toNat ≤ 0x5A := UInt32.le_iff_toNat_le.1 hletter.2
    omega

theorem isBlank_eq_false_of_isLetter {letter c : CodePoint} (hletter : Text.isBlank letter = false)
    (h : isLetter letter c = true) : Text.isBlank c = false := by
  rw [← Bool.not_eq_true]
  intro hc
  simp only [isLetter, Bool.or_eq_true, Bool.and_eq_true, decide_eq_true_eq] at h
  rcases h with (h | ⟨-, rfl⟩) | ⟨-, rfl | rfl⟩
  · rw [← h, toLower_of_isBlank hc, hc] at hletter
    cases hletter
  all_goals exact absurd hc (by decide)

/-- The ASCII letter that a character is in some case. -/
def smallLetter (c : CodePoint) : CodePoint :=
  if c = 'ſ' then 's' else if c = 'ı' ∨ c = 'İ' then 'i' else c.toLower

theorem eq_smallLetter {letter c : CodePoint} (hascii : letter.toNat < 128) (h : isLetter letter c = true) :
    letter = smallLetter c := by
  simp only [isLetter, Bool.or_eq_true, Bool.and_eq_true, decide_eq_true_eq] at h
  rcases h with (rfl | ⟨rfl, rfl⟩) | ⟨rfl, rfl | rfl⟩
  · have hlong : c ≠ 'ſ' ∧ ¬ (c = 'ı' ∨ c = 'İ') := by
      refine ⟨?_, ?_⟩
      · rintro rfl
        exact absurd hascii (by decide)
      · rintro (rfl | rfl) <;> exact absurd hascii (by decide)
    rw [smallLetter, if_neg hlong.1, if_neg hlong.2]
  all_goals decide

/-! ### Pieces of a header -/

/-- White space between two parts. -/
def IsGap (t : Text) : Prop := t ≠ [] ∧ ∀ c ∈ t, Text.isBlank c = true

/-- A run of digits. -/
def IsNumeral (t : Text) : Prop := t ≠ [] ∧ ∀ c ∈ t, Text.isDigit c = true

/-- Whether a text is a word of small letters, written in some letter case. -/
def Spells (word t : Text) : Prop := List.Forall₂ (fun letter c => isLetter letter c = true) word t

/-- Whether a text stands for a file in front of a mark. -/
def IsFile (mark : CodePoint) (t : Text) : Prop :=
  t ≠ [] ∧ mark ∉ t ∧ ∀ c ∈ t.head?, Text.isBlank c = false

theorem dropBlanks?_eq_some_iff {t rest : Text} : dropBlanks? t = some rest ↔
    ∃ gap, IsGap gap ∧ t = gap ++ rest ∧ ∀ c ∈ rest.head?, Text.isBlank c = false := by
  constructor
  · intro h
    unfold dropBlanks? at h
    split at h
    · cases h
    · next c t =>
      split at h
      · next hc =>
        obtain rfl := Option.some.inj h
        refine ⟨c :: t.takeWhile Text.isBlank, ⟨List.cons_ne_nil _ _, List.forall_mem_cons.2
          ⟨hc, List.all_eq_true.1 List.all_takeWhile⟩⟩, ?_, Text.head?_dropWhile _ _⟩
        rw [List.cons_append, List.takeWhile_append_dropWhile]
      · cases h
  · rintro ⟨gap, ⟨hne, hgap⟩, rfl, hrest⟩
    obtain ⟨c, gap, rfl⟩ := List.exists_cons_of_ne_nil hne
    obtain ⟨hc, hgap⟩ := List.forall_mem_cons.1 hgap
    rw [List.cons_append, dropBlanks?, if_pos hc, (Text.span_append hgap hrest).2]

theorem takeDigits?_eq_some_iff {t ds rest : Text} : takeDigits? t = some (ds, rest) ↔
    IsNumeral ds ∧ t = ds ++ rest ∧ ∀ c ∈ rest.head?, Text.isDigit c = false := by
  constructor
  · intro h
    unfold takeDigits? at h
    split at h
    · cases h
    · next hne =>
      obtain ⟨rfl, rfl⟩ := Prod.mk.inj (Option.some.inj h)
      obtain ⟨hsplit, hds⟩ := Text.spanDigits_spec t
      exact ⟨⟨fun hnil => hne (List.isEmpty_iff.2 hnil), hds⟩, hsplit, Text.head?_dropWhile _ _⟩
  · rintro ⟨⟨hne, hds⟩, rfl, hrest⟩
    have hspan := Text.spanDigits_append hds hrest
    simp [takeDigits?, hspan, hne]

theorem takeWord?_eq_some_iff {word t w rest : Text} :
    takeWord? word t = some (w, rest) ↔ Spells word w ∧ t = w ++ rest := by
  induction word generalizing t w with
  | nil =>
    rw [takeWord?, Spells, List.forall₂_nil_left_iff]
    constructor
    · rintro ⟨⟩
      exact ⟨rfl, rfl⟩
    · rintro ⟨rfl, rfl⟩
      rfl
  | cons a word ih =>
    rw [Spells, List.forall₂_cons_left_iff]
    cases t with
    | nil =>
      refine ⟨nofun, ?_⟩
      rintro ⟨⟨c, w, -, -, rfl⟩, ht⟩
      cases ht
    | cons c t =>
      rw [takeWord?]
      constructor
      · intro h
        split at h
        · next hc =>
          obtain ⟨⟨w, r⟩, hw, heq⟩ := Option.map_eq_some_iff.1 h
          obtain ⟨rfl, rfl⟩ := Prod.mk.inj heq
          obtain ⟨hspells, rfl⟩ := ih.1 hw
          exact ⟨⟨c, w, hc, hspells, rfl⟩, rfl⟩
        · cases h
      · rintro ⟨⟨d, w, hd, hspells, rfl⟩, ht⟩
        obtain ⟨rfl, htail⟩ := List.cons.inj ht
        rw [if_pos hd, ih.2 ⟨hspells, htail⟩]
        rfl

theorem takeFile?_eq_some_iff {mark : CodePoint} {t file rest : Text} :
    takeFile? mark t = some (file, rest) ↔ IsFile mark file ∧ t = file ++ mark :: rest := by
  constructor
  · intro h
    unfold takeFile? at h
    split at h
    · cases h
    · next c rest' hdrop =>
      dsimp only at h
      split at h
      · cases h
      · next hhead =>
        obtain ⟨rfl, rfl⟩ := Prod.mk.inj (Option.some.inj h)
        have hmark : mark ∉ t.takeWhile (· != mark) := fun hmem => by
          have hne := List.all_eq_true.1 List.all_takeWhile _ hmem
          simp at hne
        have hc := Text.head?_dropWhile (· != mark) t c (by rw [hdrop]; rfl)
        obtain rfl : c = mark := by simpa using hc
        have hsplit := (List.takeWhile_append_dropWhile (p := (· != c)) (l := t)).symm
        rw [hdrop] at hsplit
        refine ⟨⟨?_, hmark, ?_⟩, hsplit⟩
        · intro hnil
          rw [hnil] at hhead
          exact hhead rfl
        · intro d hd
          simpa [Option.mem_def.1 hd] using hhead
  · rintro ⟨⟨hne, hmark, hhead⟩, rfl⟩
    have hspan : (file ++ mark :: rest).takeWhile (· != mark) = file ∧
        (file ++ mark :: rest).dropWhile (· != mark) = mark :: rest :=
      Text.span_append (fun c hc => bne_iff_ne.2 (ne_of_mem_of_not_mem hc hmark)) (by simp)
    obtain ⟨d, file, rfl⟩ := List.exists_cons_of_ne_nil hne
    have hd := hhead d rfl
    simp only [takeFile?, hspan.1, hspan.2, List.head?_cons, Option.all_some, hd, Bool.false_eq_true, if_false]

/-! ### Reports -/

/-- What both forms end with: a severity word, a code and a message. -/
inductive ReportForm : Text → Text → Text → Prop
  | mk {small word gap letters code : Text} (message : Text) (hsmall : small ∈ severityWords)
      (hword : Spells small word) (hgap : IsGap gap) (hletters : Spells "ts" letters)
      (hcode : IsNumeral code) :
    ReportForm word (Text.trim message) (word ++ (gap ++ (letters ++ (code ++ .char ':' :: message))))

theorem exists_head_of_spells {small word : Text} (hsmall : small ∈ severityWords)
    (hword : Spells small word) : ∃ letter c, small.head? = some letter ∧ word.head? = some c ∧
      letter.toNat < 128 ∧ Text.isBlank letter = false ∧ isLetter letter c = true := by
  have hheads : ∀ s ∈ severityWords, ∃ letter ∈ s.head?, letter.toNat < 128 ∧ Text.isBlank letter = false := by
    simp only [severityWords, List.forall_mem_cons, List.not_mem_nil, false_implies, implies_true, and_true]
    exact ⟨⟨'e', rfl, by decide⟩, ⟨'w', rfl, by decide⟩, ⟨'m', rfl, by decide⟩, ⟨'s', rfl, by decide⟩⟩
  obtain ⟨letter, hhead, hascii, hblank⟩ := hheads small hsmall
  obtain ⟨rest, rfl⟩ := List.head?_eq_some_iff.1 hhead
  obtain ⟨c, word, hc, -, rfl⟩ := List.forall₂_cons_left_iff.1 hword
  exact ⟨letter, c, rfl, rfl, hascii, hblank, hc⟩

/-- At most one of the severity words stands at the beginning of a text, since no two of them begin with
the same letter. -/
theorem findSome?_takeWord?_eq_some_iff {t word rest : Text} :
    severityWords.findSome? (takeWord? · t) = some (word, rest) ↔
      ∃ small ∈ severityWords, Spells small word ∧ t = word ++ rest := by
  constructor
  · intro h
    obtain ⟨small, hsmall, hword⟩ := List.exists_of_findSome?_eq_some h
    exact ⟨small, hsmall, takeWord?_eq_some_iff.1 hword⟩
  · rintro ⟨small, hsmall, hword, ht⟩
    cases hfound : severityWords.findSome? (takeWord? · t) with
    | none =>
      have hnone := List.findSome?_eq_none_iff.1 hfound small hsmall
      rw [takeWord?_eq_some_iff.2 ⟨hword, ht⟩] at hnone
      cases hnone
    | some found =>
      -- The word that is found first begins with the same character, and so is the same word.
      obtain ⟨small', hsmall', hword'⟩ := List.exists_of_findSome?_eq_some hfound
      obtain ⟨hspells', ht'⟩ := takeWord?_eq_some_iff.1 hword'
      obtain ⟨letter, c, hletter, hc, hascii, -, his⟩ := exists_head_of_spells hsmall hword
      obtain ⟨letter', c', hletter', hc', hascii', -, his'⟩ := exists_head_of_spells hsmall' hspells'
      have hcc : c = c' := by
        obtain ⟨w, rfl⟩ := List.head?_eq_some_iff.1 hc
        obtain ⟨w', hw'⟩ := List.head?_eq_some_iff.1 hc'
        rw [hw', ht] at ht'
        exact (List.cons.inj ht').1
      have hheads : ∀ s ∈ severityWords, ∀ s' ∈ severityWords, s.head? = s'.head? → s = s' := by decide
      have hsame : small = small' := hheads small hsmall small' hsmall' (by
        rw [hletter, hletter', eq_smallLetter hascii his, eq_smallLetter hascii' his', hcc])
      rw [← hword', ← hsame]
      exact takeWord?_eq_some_iff.2 ⟨hword, ht⟩

theorem ReportForm.head?_solid {word message t : Text} (h : ReportForm word message t) :
    ∀ c ∈ t.head?, Text.isBlank c = false := by
  cases h with
  | mk message hsmall hword _ _ _ =>
    obtain ⟨letter, c, -, hc, -, hblank, hletter⟩ := exists_head_of_spells hsmall hword
    obtain ⟨w, rfl⟩ := List.head?_eq_some_iff.1 hc
    rintro d ⟨⟩
    exact isBlank_eq_false_of_isLetter hblank hletter

theorem report?_eq_some_iff {file line t : Text} {h : Header} : report? file line t = some h ↔
    ∃ word message, ReportForm word message t ∧ h = ⟨Text.trim file, line, word, message⟩ := by
  simp only [report?, Option.bind_eq_bind, Option.bind_eq_some_iff, Prod.exists,
    findSome?_takeWord?_eq_some_iff, dropBlanks?_eq_some_iff, takeWord?_eq_some_iff,
    takeDigits?_eq_some_iff, Text.after?_eq_some_iff, Option.pure_def, Option.some.injEq]
  constructor
  · rintro ⟨word, -, ⟨small, hsmall, hword, rfl⟩, -, ⟨gap, hgap, rfl, -⟩, letters, -, ⟨hletters, rfl⟩, code, -,
      ⟨hcode, rfl, -⟩, message, rfl, rfl⟩
    exact ⟨word, _, .mk message hsmall hword hgap hletters hcode, rfl⟩
  · rintro ⟨word, -, ⟨message, hsmall, hword, hgap, hletters, hcode⟩, rfl⟩
    refine ⟨word, _, ⟨_, hsmall, hword, rfl⟩, _, ⟨_, hgap, rfl, ?_⟩, _, _, ⟨hletters, rfl⟩, _, _,
      ⟨hcode, rfl, ?_⟩, message, rfl, rfl⟩
    · obtain ⟨c, rest, hc, -, rfl⟩ := List.forall₂_cons_left_iff.1 hletters
      rintro d ⟨⟩
      exact isBlank_eq_false_of_isLetter (by decide) hc
    · rintro d ⟨⟩
      decide

/-! ### Headers -/

/-- A header line with the position in parentheses. -/
inductive ParenthesizedForm : Header → Text → Prop
  | mk {file line column gap word message report : Text} (hfile : IsFile '(' file) (hline : IsNumeral line)
      (hcolumn : IsNumeral column) (hgap : IsGap gap) (hreport : ReportForm word message report) :
    ParenthesizedForm ⟨Text.trim file, line, word, message⟩
      (file ++ .char '(' :: (line ++ .char ',' :: (column ++ .char ')' :: .char ':' :: (gap ++ report))))

theorem ParenthesizedForm.mem {h : Header} {t : Text} (hform : ParenthesizedForm h t) : .char '(' ∈ t := by
  cases hform
  simp

/-- A header line with the position between colons. -/
inductive ColonForm : Header → Text → Prop
  | mk {file line column before after word message report : Text} (hfile : IsFile ':' file)
      (hline : IsNumeral line) (hcolumn : IsNumeral column) (hbefore : IsGap before) (hafter : IsGap after)
      (hreport : ReportForm word message report) :
    ColonForm ⟨Text.trim file, line, word, message⟩
      (file ++ .char ':' :: (line ++ .char ':' :: (column ++ (before ++ .char '-' :: (after ++ report)))))

theorem parenthesized?_eq_some_iff {t : Text} {h : Header} :
    parenthesized? t = some h ↔ ParenthesizedForm h t := by
  simp only [parenthesized?, Option.bind_eq_bind, Option.bind_eq_some_iff, Prod.exists,
    takeFile?_eq_some_iff, dropBlanks?_eq_some_iff, takeDigits?_eq_some_iff, Text.after?_eq_some_iff,
    report?_eq_some_iff]
  constructor
  · rintro ⟨file, -, ⟨hfile, rfl⟩, line, -, ⟨hline, rfl, -⟩, -, rfl, column, -, ⟨hcolumn, rfl, -⟩, -, rfl, report,
      ⟨gap, hgap, rfl, -⟩, word, message, hreport, rfl⟩
    have hform := ParenthesizedForm.mk hfile hline hcolumn hgap hreport
    exact hform
  · rintro ⟨hfile, hline, hcolumn, hgap, hreport⟩
    refine ⟨_, _, ⟨hfile, rfl⟩, _, _, ⟨hline, rfl, ?_⟩, _, rfl, _, _, ⟨hcolumn, rfl, ?_⟩, _, rfl, _,
      ⟨_, hgap, rfl, hreport.head?_solid⟩, _, _, hreport, rfl⟩
    all_goals
      rintro d ⟨⟩
      decide

theorem IsGap.head?_append {gap : Text} (h : IsGap gap) (t : Text) :
    ∀ c ∈ (gap ++ t).head?, Text.isDigit c = false := by
  obtain ⟨c, gap, rfl⟩ := List.exists_cons_of_ne_nil h.1
  rintro d ⟨⟩
  rw [← Bool.not_eq_true]
  intro hdigit
  have hblank := h.2 c (List.mem_cons_self ..)
  rw [isBlank_eq_false_of_isDigit hdigit] at hblank
  cases hblank

theorem colonSeparated?_eq_some_iff {t : Text} {h : Header} :
    colonSeparated? t = some h ↔ ColonForm h t := by
  simp only [colonSeparated?, Option.bind_eq_bind, Option.bind_eq_some_iff, Prod.exists,
    takeFile?_eq_some_iff, dropBlanks?_eq_some_iff, takeDigits?_eq_some_iff, Text.after?_eq_some_iff,
    report?_eq_some_iff]
  constructor
  · rintro ⟨file, -, ⟨hfile, rfl⟩, line, -, ⟨hline, rfl, -⟩, -, rfl, column, -, ⟨hcolumn, rfl, -⟩, -,
      ⟨before, hbefore, rfl, -⟩, -, rfl, report, ⟨after, hafter, rfl, -⟩, word, message, hreport, rfl⟩
    have hform := ColonForm.mk hfile hline hcolumn hbefore hafter hreport
    exact hform
  · rintro ⟨hfile, hline, hcolumn, hbefore, hafter, hreport⟩
    refine ⟨_, _, ⟨hfile, rfl⟩, _, _, ⟨hline, rfl, ?_⟩, _, rfl, _, _, ⟨hcolumn, rfl, hbefore.head?_append _⟩, _,
      ⟨_, hbefore, rfl, ?_⟩, _, rfl, _, ⟨_, hafter, rfl, hreport.head?_solid⟩, _, _, hreport, rfl⟩
    all_goals
      rintro d ⟨⟩
      decide

/-- Whether a line has one of the two forms. -/
def HasHeaderForm (t : Text) : Prop := ∃ h, ParenthesizedForm h t ∨ ColonForm h t

theorem header?_eq_none_iff {t : Text} :
    (parenthesized? t).or (colonSeparated? t) = none ↔ ¬ HasHeaderForm t := by
  constructor
  · rintro hnone ⟨h, hform | hform⟩
    · rw [parenthesized?_eq_some_iff.2 hform] at hnone
      cases hnone
    · rw [colonSeparated?_eq_some_iff.2 hform] at hnone
      exact absurd (Option.or_eq_none_iff.1 hnone).2 (Option.some_ne_none h)
  · intro hno
    refine Option.or_eq_none_iff.2 ⟨?_, ?_⟩
    · exact Option.eq_none_iff_forall_ne_some.2 fun h hh => hno ⟨h, .inl (parenthesized?_eq_some_iff.1 hh)⟩
    · exact Option.eq_none_iff_forall_ne_some.2 fun h hh => hno ⟨h, .inr (colonSeparated?_eq_some_iff.1 hh)⟩

/-- A header line begins with its file. -/
theorem HasHeaderForm.head?_solid {t : Text} (h : HasHeaderForm t) : ∀ c ∈ t.head?, Text.isBlank c = false := by
  have hfile : ∀ {mark : CodePoint} {file more : Text}, IsFile mark file →
      ∀ c ∈ (file ++ more).head?, Text.isBlank c = false := fun hfile c hc => by
    rw [List.head?_append_of_ne_nil _ hfile.1] at hc
    exact hfile.2.2 c hc
  obtain ⟨_, ⟨hstart, _, _, _, _⟩ | ⟨hstart, _, _, _, _, _⟩⟩ := h
  · exact hfile hstart
  · exact hfile hstart

theorem HasHeaderForm.ne_nil {t : Text} (h : HasHeaderForm t) : t ≠ [] := by
  obtain ⟨_, ⟨_, _, _, _, _⟩ | ⟨_, _, _, _, _, _⟩⟩ := h
  all_goals simp

theorem ReportForm.exists_append {word message t : Text} (h : ReportForm word message t) (more : Text) :
    ∃ message', ReportForm word message' (t ++ more) := by
  cases h with
  | mk message hsmall hword hgap hletters hcode =>
    have hreport := ReportForm.mk (message ++ more) hsmall hword hgap hletters hcode
    exact ⟨_, by simpa only [List.append_assoc, List.cons_append] using hreport⟩

/-- What a header line goes on with belongs to its message. -/
theorem HasHeaderForm.append {t : Text} (h : HasHeaderForm t) (more : Text) : HasHeaderForm (t ++ more) := by
  obtain ⟨_, ⟨hfile, hline, hcolumn, hgap, hreport⟩ | ⟨hfile, hline, hcolumn, hbefore, hafter, hreport⟩⟩ := h
  · obtain ⟨message, hreport⟩ := hreport.exists_append more
    have hform := ParenthesizedForm.mk hfile hline hcolumn hgap hreport
    exact ⟨_, .inl (by simpa only [List.append_assoc, List.cons_append] using hform)⟩
  · obtain ⟨message, hreport⟩ := hreport.exists_append more
    have hform := ColonForm.mk hfile hline hcolumn hbefore hafter hreport
    exact ⟨_, .inr (by simpa only [List.append_assoc, List.cons_append] using hform)⟩

end Mend.CompilerOutput
