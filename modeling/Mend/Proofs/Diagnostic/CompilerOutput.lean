import Mathlib.Data.List.TakeWhile
import Mend.Proofs.Diagnostic.HeaderForm
import Mend.Text.Utf8

/-!
# Compiler output is read without loss

Compiler output is a sequence of blocks and noise. A block is a header line of either form with the lines
that continue it; noise is a line that is blank, or one that is neither indented nor a header. Every block
gives one diagnostic, in order, and noise gives none (`read_of_items`): a header line is read as its own
parts, an indented line continues whatever header stands before it, and a block ends at the next header or
at noise.
-/

namespace Mend.CompilerOutput

/-! ### Blocks and noise -/

/-- Whether a text is not empty and has no white space at either end. -/
structure IsTrimmed (t : Text) : Prop where
  ne_nil : t ≠ []
  head : ∀ c ∈ t.head?, Text.isBlank c = false
  last : ∀ c ∈ t.getLast?, Text.isBlank c = false

/-- Whether a text is a run of ASCII digits. -/
def IsAsciiNumeral (t : Text) : Prop := t ≠ [] ∧ ∀ c ∈ t, c.isDigit = true

/-- What a header line says. -/
structure HeaderLine where
  path : Text
  line : Text
  column : Text
  word : Text
  code : Text
  message : Text
  path_trimmed : IsTrimmed path
  path_plain : .char '(' ∉ path
  line_numeral : IsAsciiNumeral line
  line_short : line.length ≤ Number.maxDigits
  column_numeral : IsAsciiNumeral column
  word_known : Text.lowerAscii word ∈ severityWords
  code_numeral : IsAsciiNumeral code
  message_trimmed : IsTrimmed message

namespace HeaderLine

variable (h : HeaderLine)

/-- The report at the end of the line. -/
def report : Text := h.word ++ (" TS" : Text) ++ h.code ++ (": " : Text) ++ h.message

/-- The line with the position in parentheses. -/
def parenthesized : Text :=
  h.path ++ ("(" : Text) ++ h.line ++ ("," : Text) ++ h.column ++ ("): " : Text) ++ h.report

/-- The line with the position between colons. -/
def colonSeparated : Text :=
  h.path ++ (":" : Text) ++ h.line ++ (":" : Text) ++ h.column ++ (" - " : Text) ++ h.report

/-- What is read from the line. -/
def parts : Header := ⟨h.path, h.line, h.word, h.message⟩

/-- The severity that the word means. -/
def severity : Severity :=
  if Text.lowerAscii h.word = ("error" : Text) then .error
  else if Text.lowerAscii h.word = ("warning" : Text) then .warning else .info

end HeaderLine

/-- A header line with the lines that continue it. The form with colons asks for a path without a colon, and
for no parenthesis in the message. -/
structure Block where
  header : HeaderLine
  colons : Bool
  plain : colons = true → .char ':' ∉ header.path ∧ .char '(' ∉ header.message
  continuations : List Text
  indented : ∀ t ∈ continuations, (t.head? = some ' ' ∨ t.head? = some '\t') ∧ ∃ c ∈ t, Text.isBlank c = false

namespace Block

variable (b : Block)

/-- The first line of the block. -/
def firstLine : Text := if b.colons then b.header.colonSeparated else b.header.parenthesized

/-- The lines of the block. -/
def lines : List Text := b.firstLine :: b.continuations

/-- The pieces of the message. -/
def messages : List Text := b.header.message :: b.continuations.map Text.trim

/-- The diagnostic that the block reports. -/
def diagnostic : Diagnostic :=
  ⟨b.header.path, max 1 (Nat.ofDigitChars 10 (Utf8.chars b.header.line) 0), Text.joinOn ' ' b.messages,
    b.header.severity,
    Nat.le_max_left _ _⟩

end Block

/-- Whether a line says nothing. -/
def IsNoise (t : Text) : Prop :=
  (∀ c ∈ t, Text.isBlank c = true) ∨ (t.head? ≠ some ' ' ∧ t.head? ≠ some '\t' ∧ ¬ HasHeaderForm t)

/-- What compiler output consists of. -/
inductive Item
  | block (b : Block)
  | noise (t : Text) (h : IsNoise t)

/-- The lines of an item. -/
def Item.lines : Item → List Text
  | .block b => b.lines
  | .noise t _ => [t]

/-- The block of an item. -/
def Item.block? : Item → Option Block
  | .block b => some b
  | .noise _ _ => none

/-! ### Trimmed texts -/

theorem IsTrimmed.trim_eq {t : Text} (h : IsTrimmed t) {front rest : Text}
    (hfront : ∀ c ∈ front, Text.isBlank c = true) (hrest : ∀ c ∈ rest, Text.isBlank c = true) :
    Text.trim (front ++ (t ++ rest)) = t :=
  Text.trimBy_append hfront hrest h.ne_nil h.head h.last

theorem IsTrimmed.trim_self {t : Text} (h : IsTrimmed t) : Text.trim t = t := by
  have htrim : Text.trim ([] ++ (t ++ [])) = t := h.trim_eq (by simp) (by simp)
  rwa [List.nil_append, List.append_nil] at htrim

theorem exists_isTrimmed {t : Text} (h : ∃ c ∈ t, Text.isBlank c = false) :
    ∃ front core rest, t = front ++ (core ++ rest) ∧ (∀ c ∈ front, Text.isBlank c = true) ∧
      IsTrimmed core ∧ Text.trim t = core ∧ Text.trimEnd t = front ++ core := by
  obtain ⟨front, core, rest, rfl, hfront, hrest, hne, hhead, hlast⟩ := Text.exists_core h
  refine ⟨front, core, rest, rfl, hfront, ⟨hne, hhead, hlast⟩,
    IsTrimmed.trim_eq ⟨hne, hhead, hlast⟩ hfront hrest, ?_⟩
  rw [← List.append_assoc]
  refine Text.dropEndWhile_append hrest ?_
  rwa [List.getLast?_append_of_ne_nil _ hne]

theorem isTrimmed_of_trim {t : Text} (hne : t ≠ []) (h : Text.trim t = t) : IsTrimmed t := by
  obtain ⟨hhead, hlast⟩ := Text.trimBy_ends Text.isBlank t
  exact ⟨hne, h ▸ hhead, h ▸ hlast⟩

theorem IsTrimmed.joinOn {ps : List Text} (hne : ps ≠ []) (hps : ∀ p ∈ ps, IsTrimmed p) :
    IsTrimmed (Text.joinOn ' ' ps) := by
  induction ps with
  | nil => exact absurd rfl hne
  | cons p ps ih =>
    obtain ⟨hp, hps⟩ := List.forall_mem_cons.1 hps
    cases ps with
    | nil => rwa [Text.joinOn_singleton]
    | cons q ps =>
      have hrest := ih (List.cons_ne_nil _ _) hps
      rw [Text.joinOn_cons_cons]
      refine ⟨List.append_ne_nil_of_left_ne_nil hp.ne_nil _, ?_, ?_⟩
      · rw [List.head?_append_of_ne_nil _ hp.ne_nil]
        exact hp.head
      · rw [List.getLast?_append_of_ne_nil _ (List.cons_ne_nil _ _), List.getLast?_cons_of_ne_nil hrest.ne_nil]
        exact hrest.last

/-! ### Header lines -/

theorem IsAsciiNumeral.isNumeral {t : Text} (h : IsAsciiNumeral t) : IsNumeral t :=
  ⟨h.1, fun c hc => by rw [Text.isDigit, Text.digitValue?_of_ascii (h.2 c hc)]; rfl⟩

theorem IsAsciiNumeral.not_mem {t : Text} (h : IsAsciiNumeral t) {c : CodePoint} (hc : c.isDigit = false) :
    c ∉ t :=
  fun hmem => by
    rw [h.2 c hmem] at hc
    cases hc

theorem isGap_space : IsGap (" " : Text) :=
  ⟨by decide, List.forall_mem_singleton.2 (by decide)⟩

theorem spells_of_lowerAscii {word small : Text} (h : Text.lowerAscii word = small) : Spells small word := by
  subst h
  refine List.forall₂_map_left_iff.2 (List.forall₂_same.2 fun c _ => ?_)
  simp [isLetter]

namespace HeaderLine

variable (h : HeaderLine)

theorem reportForm : ReportForm h.word h.message h.report := by
  have hts : Spells ("ts" : Text) ("TS" : Text) := spells_of_lowerAscii (by decide)
  have hform := ReportForm.mk ((" " : Text) ++ h.message) h.word_known (spells_of_lowerAscii rfl) isGap_space hts
    h.code_numeral.isNumeral
  have htrim : Text.trim ((" " : Text) ++ h.message) = h.message := by
    have hwhole : Text.trim ((" " : Text) ++ (h.message ++ [])) = h.message :=
      h.message_trimmed.trim_eq isGap_space.2 (by simp)
    rwa [List.append_nil] at hwhole
  rw [htrim] at hform
  simpa [report] using hform

theorem parenthesizedForm : ParenthesizedForm h.parts h.parenthesized := by
  have hform := ParenthesizedForm.mk ⟨h.path_trimmed.ne_nil, h.path_plain, h.path_trimmed.head⟩
    h.line_numeral.isNumeral h.column_numeral.isNumeral isGap_space h.reportForm
  rw [h.path_trimmed.trim_self] at hform
  simpa [parenthesized, parts] using hform

theorem colonForm (hpath : .char ':' ∉ h.path) : ColonForm h.parts h.colonSeparated := by
  have hform := ColonForm.mk ⟨h.path_trimmed.ne_nil, hpath, h.path_trimmed.head⟩
    h.line_numeral.isNumeral h.column_numeral.isNumeral isGap_space isGap_space h.reportForm
  rw [h.path_trimmed.trim_self] at hform
  simpa [colonSeparated, parts] using hform

theorem not_mem_colonSeparated (hmessage : .char '(' ∉ h.message) : .char '(' ∉ h.colonSeparated := by
  have hword : .char '(' ∉ h.word := fun hmem => by
    have hwords : ∀ small ∈ severityWords, .char '(' ∉ small := by decide
    exact hwords _ h.word_known (List.mem_map.2 ⟨'(', hmem, by decide⟩)
  have hline := h.line_numeral.not_mem (c := '(') (by decide)
  have hcolumn := h.column_numeral.not_mem (c := '(') (by decide)
  have hcode := h.code_numeral.not_mem (c := '(') (by decide)
  simp [colonSeparated, report, h.path_plain, hword, hline, hcolumn, hcode, hmessage]

/-- A header line ends with its message. -/
theorem trimEnd_append (front : Text) : Text.trimEnd (front ++ h.report) = front ++ h.report := by
  have hlast : ∀ c ∈ (front ++ h.report).getLast?, Text.isBlank c = false := by
    rw [report, ← List.append_assoc, List.getLast?_append_of_ne_nil _ h.message_trimmed.ne_nil]
    exact h.message_trimmed.last
  have htrim : Text.dropEndWhile Text.isBlank (front ++ h.report ++ []) = front ++ h.report :=
    Text.dropEndWhile_append (by simp) hlast
  rwa [List.append_nil] at htrim

end HeaderLine

theorem Line.ofText_of_header {t : Text} {h : Header} (htrim : Text.trimEnd t = t)
    (hread : (parenthesized? t).or (colonSeparated? t) = some h) : Line.ofText t = .header h := by
  simp only [Line.ofText, htrim, hread]

theorem Block.ofText_firstLine (b : Block) : Line.ofText b.firstLine = .header b.header.parts := by
  unfold Block.firstLine
  split
  · next hcolons =>
    obtain ⟨hpath, hmessage⟩ := b.plain hcolons
    -- The form in parentheses is tried first, and needs a parenthesis.
    have hnone : parenthesized? b.header.colonSeparated = none :=
      Option.eq_none_iff_forall_ne_some.2 fun h hread =>
        b.header.not_mem_colonSeparated hmessage (parenthesized?_eq_some_iff.1 hread).mem
    refine Line.ofText_of_header (b.header.trimEnd_append _) ?_
    rw [hnone, colonSeparated?_eq_some_iff.2 (b.header.colonForm hpath)]
    rfl
  · refine Line.ofText_of_header (b.header.trimEnd_append _) ?_
    rw [parenthesized?_eq_some_iff.2 b.header.parenthesizedForm]
    rfl

/-! ### Continuations and noise -/

theorem Line.ofText_of_continuation {t : Text} (hstart : t.head? = some ' ' ∨ t.head? = some '\t')
    (hsolid : ∃ c ∈ t, Text.isBlank c = false) : Line.ofText t = .continuation (Text.trim t) := by
  obtain ⟨front, core, rest, rfl, hfront, hcore, htrim, hend⟩ := exists_isTrimmed hsolid
  have hblank : ∃ c, (front ++ (core ++ rest)).head? = some c ∧ Text.isBlank c = true := by
    rcases hstart with hstart | hstart
    · exact ⟨' ', hstart, by decide⟩
    · exact ⟨'\t', hstart, by decide⟩
  obtain ⟨c, hc, hblank⟩ := hblank
  cases front with
  | nil =>
    rw [List.nil_append, List.head?_append_of_ne_nil _ hcore.ne_nil] at hc
    rw [hcore.head c hc] at hblank
    cases hblank
  | cons d front =>
    have hnone : (parenthesized? (d :: front ++ core)).or (colonSeparated? (d :: front ++ core)) = none :=
      header?_eq_none_iff.2 fun hform => by
        have hsolid := hform.head?_solid d rfl
        rw [hfront d (List.mem_cons_self ..)] at hsolid
        cases hsolid
    have hagain : Text.trim (front ++ core) = core := by
      have hwhole : Text.trim (front ++ (core ++ [])) = core :=
        hcore.trim_eq (fun e he => hfront e (List.mem_cons_of_mem _ he)) (by simp)
      rwa [List.append_nil] at hwhole
    have hline : Line.ofText (d :: front ++ (core ++ rest)) = .continuation (Text.trim (front ++ core)) := by
      rw [Line.ofText, hend, hnone]
      rcases hstart with hstart | hstart <;> obtain rfl := Option.some.inj hstart <;> rfl
    rw [hline, hagain, htrim]

theorem Line.ofText_of_noise {t : Text} (h : IsNoise t) : Line.ofText t = .noise := by
  have hread : ∀ s, ¬ HasHeaderForm s → s.head? ≠ some ' ' → s.head? ≠ some '\t' → Text.trimEnd t = s →
      Line.ofText t = .noise := by
    rintro s hform hspace htab rfl
    rw [Line.ofText, header?_eq_none_iff.2 hform]
    dsimp only
    split
    · next heq => exact absurd (congrArg List.head? heq) hspace
    · next heq => exact absurd (congrArg List.head? heq) htab
    · rfl
  by_cases hsolid : ∃ c ∈ t, Text.isBlank c = false
  · obtain ⟨front, core, rest, rfl, hfront, hcore, -, hend⟩ := exists_isTrimmed hsolid
    have hhead : (front ++ (core ++ rest)).head? = (front ++ core).head? := by
      rw [← List.append_assoc, List.head?_append_of_ne_nil _ (List.append_ne_nil_of_right_ne_nil _ hcore.ne_nil)]
    rcases h with hblank | ⟨hspace, htab, hform⟩
    · obtain ⟨c, hc, hno⟩ := hsolid
      rw [hblank c hc] at hno
      cases hno
    · -- White space at the end would only have gone on with a message.
      rw [hhead] at hspace htab
      refine hread _ (fun hshort => hform ?_) hspace htab hend
      rw [← List.append_assoc]
      exact hshort.append rest
  · have hblank : ∀ c ∈ t, Text.isBlank c = true := by simpa using hsolid
    have hend : Text.trimEnd ([] ++ t) = [] := Text.dropEndWhile_append hblank (by simp)
    exact hread [] (fun hform => hform.ne_nil rfl) (by simp) (by simp) hend

/-! ### Blocks -/

theorem Item.map_ofText_lines (item : Item) : item.lines.map Line.ofText =
    match item with
    | .block b => .header b.header.parts :: (b.continuations.map Text.trim).map .continuation
    | .noise _ _ => [.noise] := by
  cases item with
  | block b =>
    simp only [Item.lines, Block.lines, List.map_cons, b.ofText_firstLine, List.map_map, List.cons.injEq, true_and]
    exact List.map_congr_left fun t ht =>
      Line.ofText_of_continuation (b.indented t ht).1 (b.indented t ht).2
  | noise t h => simp only [Item.lines, List.map_cons, List.map_nil, Line.ofText_of_noise h]

theorem continuations_append (ms : List Text) {ls : List Line} (hls : continuations ls = []) :
    continuations (ms.map .continuation ++ ls) = ms := by
  induction ms with
  | nil => exact hls
  | cons m ms ih => rw [List.map_cons, List.cons_append, continuations, ih]

theorem blocks_append (ms : List Text) (ls : List Line) :
    blocks (ms.map .continuation ++ ls) = blocks ls := by
  induction ms with
  | nil => rfl
  | cons m ms ih => exact ih

/-- What an item begins with ends the message before it. -/
theorem continuations_flatMap_lines (items : List Item) :
    continuations ((items.flatMap Item.lines).map Line.ofText) = [] := by
  cases items with
  | nil => rfl
  | cons item items =>
    rw [List.flatMap_cons, List.map_append, item.map_ofText_lines]
    cases item <;> rfl

theorem blocks_flatMap_lines (items : List Item) :
    blocks ((items.flatMap Item.lines).map Line.ofText) =
      (items.filterMap Item.block?).map fun b => (b.header.parts, b.continuations.map Text.trim) := by
  induction items with
  | nil => rfl
  | cons item items ih =>
    rw [List.flatMap_cons, List.map_append, item.map_ofText_lines]
    cases item with
    | block b =>
      rw [List.cons_append, blocks, continuations_append _ (continuations_flatMap_lines items), blocks_append, ih]
      rfl
    | noise t h => exact ih

/-- A line that says nothing at the end adds nothing. -/
theorem blocks_append_noise (ls : List Line) : blocks (ls ++ [.noise]) = blocks ls ∧
    continuations (ls ++ [.noise]) = continuations ls := by
  induction ls with
  | nil => exact ⟨rfl, rfl⟩
  | cons l ls ih =>
    cases l with
    | header h => exact ⟨by rw [List.cons_append, blocks, blocks, ih.1, ih.2], rfl⟩
    | continuation m => exact ⟨ih.1, by rw [List.cons_append, continuations, continuations, ih.2]⟩
    | noise => exact ⟨ih.1, rfl⟩

theorem blocks_proseLines {ls : List Text} (hls : ∀ l ∈ ls, ∀ c ∈ l, Text.isLineEnd c = false) :
    blocks ((Text.proseLines (Text.joinOn '\n' ls)).map Line.ofText) = blocks (ls.map Line.ofText) := by
  rcases Text.exists_proseLines_joinOn hls with heq | heq
  · rw [heq]
  · have hblank : Line.ofText [] = .noise := Line.ofText_of_noise (.inl (by simp))
    conv => rhs; rw [heq, List.map_append, List.map_singleton, hblank, (blocks_append_noise _).1]

/-! ### Diagnostics -/

theorem HeaderLine.ofWord_word (h : HeaderLine) : Severity.ofWord h.word = h.severity := by
  have hwords : ∀ w ∈ severityWords, (Severity.words.lookup w).getD .info =
      if w = ("error" : Text) then .error else if w = ("warning" : Text) then .warning else .info := by
    decide
  exact hwords _ h.word_known

theorem numeralValue_of_ascii {t : Text} (h : ∀ c ∈ t, c.isDigit = true) :
    Text.numeralValue t = Nat.ofDigitChars 10 (Utf8.chars t) 0 := by
  have hchars : ∀ c ∈ t, c.isChar = true := by
    rintro (c | half) hc
    · rfl
    · cases h _ hc
  have hdigits : ∀ c ∈ Utf8.chars t, c.isDigit = true := by
    intro c hc
    rw [← Utf8.ofChars_chars hchars] at h
    exact h _ (List.mem_map_of_mem hc)
  conv => lhs; rw [← Utf8.ofChars_chars hchars]
  exact Text.foldl_digitValue? _ 0 hdigits

theorem Block.diagnosticOf_parts (b : Block) :
    diagnosticOf (b.header.parts, b.continuations.map Text.trim) = .ok b.diagnostic := by
  have hnumber : Number.ofDigits b.header.line = .ok (Nat.ofDigitChars 10 (Utf8.chars b.header.line) 0) :=
    Number.ofDigits_eq_ok.2 ⟨b.header.line_short, numeralValue_of_ascii b.header.line_numeral.2⟩
  have hpieces : ∀ p ∈ b.messages, IsTrimmed p := by
    refine List.forall_mem_cons.2 ⟨b.header.message_trimmed, fun p hp => ?_⟩
    obtain ⟨t, ht, rfl⟩ := List.mem_map.1 hp
    obtain ⟨_, core, _, -, -, hcore, htrim, -⟩ := exists_isTrimmed (b.indented t ht).2
    rwa [htrim]
  have hmessage : Text.trim (Text.joinOn ' ' b.messages) = Text.joinOn ' ' b.messages :=
    (IsTrimmed.joinOn (List.cons_ne_nil _ _) hpieces).trim_self
  have hjoined : (b.header.parts, b.continuations.map Text.trim).1.message ::
      (b.header.parts, b.continuations.map Text.trim).2 = b.messages := rfl
  rw [diagnosticOf, hjoined, hmessage]
  simp only [HeaderLine.parts, hnumber, b.header.ofWord_word]
  rfl

/-- Compiler output gives one diagnostic for each of its blocks, in order. -/
theorem read_of_items {items : List Item}
    (hplain : ∀ l ∈ items.flatMap Item.lines, ∀ c ∈ l, Text.isLineEnd c = false) :
    read (Text.joinOn '\n' (items.flatMap Item.lines)) =
      .ok ((items.filterMap Item.block?).map Block.diagnostic) := by
  rw [read, blocks_proseLines hplain, blocks_flatMap_lines]
  induction items.filterMap Item.block? with
  | nil => rfl
  | cons b bs ih =>
    rw [List.map_cons, List.mapM_cons, b.diagnosticOf_parts, ih]
    rfl

/-- Two blocks, one of each form, between lines that say nothing. -/
theorem read_of_items_of_both_forms :
    read (Text.joinOn '\n' ["Compiling", "a.ts(0,5): Error TS23: No y (yet).", "\t Or z? ", "",
      "b.ts:7:1 - WARNING TS61: x"]) =
      .ok [⟨"a.ts", 1, "No y (yet). Or z?", .error, by decide⟩, ⟨"b.ts", 7, "x", .warning, by decide⟩] := by
  have hnumeral : ∀ {t : Text}, t ≠ [] → t.all CodePoint.isDigit = true → IsAsciiNumeral t :=
    fun hne hall => ⟨hne, List.all_eq_true.1 hall⟩
  let first : HeaderLine := ⟨"a.ts", "0", "5", "Error", "23", "No y (yet).",
    isTrimmed_of_trim (by decide) (by decide), by decide, hnumeral (by decide) (by decide), by decide,
    hnumeral (by decide) (by decide), by decide, hnumeral (by decide) (by decide),
    isTrimmed_of_trim (by decide) (by decide)⟩
  let second : HeaderLine := ⟨"b.ts", "7", "1", "WARNING", "61", "x",
    isTrimmed_of_trim (by decide) (by decide), by decide, hnumeral (by decide) (by decide), by decide,
    hnumeral (by decide) (by decide), by decide, hnumeral (by decide) (by decide),
    isTrimmed_of_trim (by decide) (by decide)⟩
  have hplain : .char ':' ∉ ("b.ts" : Text) ∧ .char '(' ∉ ("x" : Text) := by decide
  have hnoise : IsNoise "Compiling" := .inr ⟨by decide, by decide, header?_eq_none_iff.1 (by decide)⟩
  have hblank : IsNoise [] := .inl (List.forall_mem_nil _)
  let items : List Item := [.noise _ hnoise,
    .block ⟨first, false, nofun, ["\t Or z? "], List.forall_mem_singleton.2 ⟨.inr rfl, 'O', by decide, by decide⟩⟩,
    .noise _ hblank, .block ⟨second, true, fun _ => hplain, [], List.forall_mem_nil _⟩]
  have hlines : items.flatMap Item.lines =
      ["Compiling", "a.ts(0,5): Error TS23: No y (yet).", "\t Or z? ", "", "b.ts:7:1 - WARNING TS61: x"] := rfl
  have hends : ∀ l ∈ items.flatMap Item.lines, l.any Text.isLineEnd = false := by
    rw [hlines]
    decide +kernel
  exact read_of_items fun l hl => Text.forall_mem_of_any (hends l hl)

end Mend.CompilerOutput
