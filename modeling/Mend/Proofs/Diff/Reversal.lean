import Mend.Diff.Reverse
import Mend.Proofs.Diff.Window
import Mend.Proofs.Text

/-!
# Undoing a diff

The hunks of a reversed diff are the hunks of the diff with both sides exchanged
(`hunks_reverse`): a header is written with both counts and read back, a body line gets the other
mark. Where the marks stay readable and the new starts are the old ones shifted by what the hunks
before have added and removed, the reversed windows are the windows that the diff has made, and
refilling them brings back the old text (`refillAll_reversed`).
-/

namespace Mend.Diff

/-! ### Headers -/

/-- A range whose numerals are numerals, with a start. -/
def Range.IsNumeric (r : Range) : Prop :=
  r.start ≠ [] ∧ (∀ c ∈ r.start, Text.isDigit c = true) ∧ ∀ c ∈ r.count, Text.isDigit c = true

/-- The range with its count written out. -/
def Range.full (r : Range) : Range := ⟨r.start, r.countNumeral⟩

@[simp] theorem Range.countNumeral_full (r : Range) : r.full.countNumeral = r.countNumeral := by
  simp only [Range.full, Range.countNumeral]
  by_cases h : r.count.isEmpty = true
  · simp only [if_pos h]
    rfl
  · simp only [if_neg h]

theorem Range.take?_spec {t rest : Text} {r : Range} (h : Range.take? t = some (r, rest)) :
    r.IsNumeric ∧ ∃ front, t = front ++ rest := by
  have hspan := Text.spanDigits_spec t
  unfold Range.take? at h
  split at h
  · simp at h
  · next start t' hs hsp =>
    obtain ⟨rfl, rfl⟩ : _ ∧ _ := by simpa using h
    rw [hsp] at hspan
    have hcount := Text.spanDigits_spec t'
    refine ⟨⟨by simpa using hs, hspan.2, hcount.2⟩, start ++ .char ',' :: (Text.spanDigits t').1, ?_⟩
    rw [hspan.1]
    conv => lhs; rw [hcount.1]
    simp
  · next start t' hs _ hsp =>
    obtain ⟨rfl, rfl⟩ : _ ∧ _ := by simpa using h
    rw [hsp] at hspan
    exact ⟨⟨by simpa using hs, hspan.2, by simp⟩, start, hspan.1⟩

theorem Range.IsNumeric.countNumeral {r : Range} (h : r.IsNumeric) :
    ∀ c ∈ r.countNumeral, Text.isDigit c = true := by
  intro c hc
  unfold Range.countNumeral at hc
  split at hc
  · obtain rfl : c = '1' := by simpa using hc
    decide
  · exact h.2.2 c hc

theorem Range.take?_text {r : Range} (h : r.IsNumeric) {rest : Text}
    (hrest : ∀ c ∈ rest.head?, Text.isDigit c = false) :
    Range.take? (r.text ++ rest) = some (r.full, rest) := by
  have ht : r.text ++ rest = r.start ++ .char ',' :: (r.countNumeral ++ rest) := by
    simp [Range.text]
  have hcomma : ∀ c ∈ (.char ',' :: (r.countNumeral ++ rest)).head?, Text.isDigit c = false := by
    intro c hc
    have hc2 : c = ',' := by simpa using hc.symm
    rw [hc2]
    decide
  rw [ht, Range.take?, Text.spanDigits_append h.2.1 hcomma]
  split
  · next heq => exact absurd (congrArg Prod.fst heq) h.1
  · next start t _ heq =>
    obtain ⟨rfl, rfl⟩ : r.start = start ∧ r.countNumeral ++ rest = t := by simpa using heq
    rw [Text.spanDigits_append h.countNumeral hrest]
    rfl
  · next start t _ hno heq =>
    obtain ⟨rfl, rfl⟩ : r.start = start ∧ .char ',' :: (r.countNumeral ++ rest) = t := by
      simpa using heq
    exact absurd rfl (hno _)

/-- What stands around the two ranges of a header. -/
theorem Header.exists_of_parse? {line : Text} {h : Header} (hp : Header.parse? line = some h) :
    ∃ t u, line = "@@ -" ++ t ∧ Range.take? t = some (h.old, (" +" : Text) ++ u) ∧
      Range.take? u = some (h.new, (" @@" : Text) ++ h.rest) := by
  unfold Header.parse? at hp
  split at hp
  · cases hp
  · next t ht =>
    split at hp
    · cases hp
    · next old t2 hold =>
      split at hp
      · cases hp
      · next u hu =>
        split at hp
        · cases hp
        · next new u2 hnew =>
          split at hp
          · cases hp
          · next rest hrest =>
            obtain rfl := Option.some.inj hp
            rw [Text.eq_append_of_after? hu] at hold
            rw [Text.eq_append_of_after? hrest] at hnew
            exact ⟨t, u, Text.eq_append_of_after? ht, hold, hnew⟩

theorem Header.parse?_spec {line : Text} {h : Header} (hp : Header.parse? line = some h) :
    h.old.IsNumeric ∧ h.new.IsNumeric ∧ ∃ front, line = .char '@' :: front ++ h.rest := by
  obtain ⟨t, u, hline, hold, hnew⟩ := Header.exists_of_parse? hp
  obtain ⟨hold, front, hfront⟩ := Range.take?_spec hold
  obtain ⟨hnew, front2, hfront2⟩ := Range.take?_spec hnew
  refine ⟨hold, hnew, "@ -" ++ front ++ " +" ++ front2 ++ " @@", ?_⟩
  rw [hline, hfront, hfront2]
  simp

theorem Header.text_eq (h : Header) :
    h.text = .char '@' :: (("@ -" : Text) ++ (h.old.text ++ ((" +" : Text) ++ (h.new.text ++
      ((" @@" : Text) ++ h.rest))))) := by
  -- simp takes long to see through the string literals here
  unfold Header.text
  rw [List.append_assoc, List.append_assoc, List.append_assoc, List.append_assoc]
  rfl

/-- A header that is written can be read back, with the counts that were left out. -/
theorem Header.parse?_text {h : Header} (hold : h.old.IsNumeric) (hnew : h.new.IsNumeric) :
    Header.parse? h.text = some ⟨h.old.full, h.new.full, h.rest⟩ := by
  have ht : h.text = "@@ -" ++ (h.old.text ++ (" +" ++ (h.new.text ++ (" @@" ++ h.rest)))) :=
    Header.text_eq h
  have hplus : ∀ c ∈ ((" +" : Text) ++ (h.new.text ++ (" @@" ++ h.rest))).head?,
      Text.isDigit c = false := by
    intro c hc
    have hc2 : c = ' ' := by simpa using hc.symm
    rw [hc2]
    decide
  have hclose : ∀ c ∈ ((" @@" : Text) ++ h.rest).head?, Text.isDigit c = false := by
    intro c hc
    have hc2 : c = ' ' := by simpa using hc.symm
    rw [hc2]
    decide
  rw [ht, Header.parse?, Text.after?_append]
  simp only [Range.take?_text hold hplus, Text.after?_append, Range.take?_text hnew hclose]

theorem Header.parse?_eq_none {line : Text} (h : line.head? ≠ some '@') :
    Header.parse? line = none := by
  cases hp : Header.parse? line with
  | none => rfl
  | some header =>
    obtain ⟨-, -, front, hf⟩ := Header.parse?_spec hp
    rw [hf] at h
    exact absurd rfl h

/-! ### Lines -/

theorem head?_of_startsWith {b : Text} {c : CodePoint} (h : Text.startsWith b [c] = true) :
    b.head? = some c := by
  cases b with
  | nil => simp [Text.startsWith] at h
  | cons d t =>
    have hd : c = d := by simpa [Text.startsWith] using h
    rw [hd]
    rfl

theorem head?_of_isAddition {b : Text} (h : isAddition b = true) : b.head? = some '+' :=
  head?_of_startsWith ((Bool.and_eq_true _ _).mp h).1

theorem head?_of_isRemoval {b : Text} (h : isRemoval b = true) : b.head? = some '-' :=
  head?_of_startsWith ((Bool.and_eq_true _ _).mp h).1

theorem head?_of_isContext {b : Text} (h : isContext b = true) : b.head? = some ' ' :=
  head?_of_startsWith h

/-- A header line changes nothing and shows nothing. -/
theorem kind_of_head {b : Text} (h : b.head? = some '@') : kind b = .other := by
  cases hk : kind b with
  | removal =>
    rw [head?_of_isRemoval ((kind_eq_removal b).1 hk)] at h
    simp at h
  | addition =>
    rw [head?_of_isAddition ((kind_eq_addition b).1 hk)] at h
    simp at h
  | context =>
    rw [head?_of_isContext ((kind_eq_context b).1 hk)] at h
    simp at h
  | other => rfl

theorem reverseLine_of_header {line : Text} {h : Header} (hp : Header.parse? line = some h) :
    reverseLine line = h.swap.text := by
  obtain ⟨-, -, front, hf⟩ := Header.parse?_spec hp
  have hk : kind line = .other := kind_of_head (by rw [hf]; rfl)
  simp only [reverseLine, hk, hp]

theorem parse?_reverseLine_of_none {line : Text} (hp : Header.parse? line = none) :
    Header.parse? (reverseLine line) = none := by
  unfold reverseLine
  split
  · exact Header.parse?_eq_none (by simp)
  · exact Header.parse?_eq_none (by simp)
  · simp only [hp]

def Header.reversed (h : Header) : Header := ⟨h.new.full, h.old.full, h.rest⟩

theorem parse?_reverseLine_of_header {line : Text} {h : Header}
    (hp : Header.parse? line = some h) : Header.parse? (reverseLine line) = some h.reversed := by
  obtain ⟨hold, hnew, -⟩ := Header.parse?_spec hp
  rw [reverseLine_of_header hp]
  exact @Header.parse?_text h.swap hnew hold

theorem Range.IsNumeric.newline_not_mem {r : Range} (h : r.IsNumeric) : .char '\n' ∉ r.text := by
  intro hm
  have hm2 : .char '\n' ∈ r.start ∨ .char '\n' ∈ r.countNumeral := by simpa [Range.text] using hm
  rcases hm2 with hm2 | hm2
  · exact absurd (h.2.1 _ hm2) (by decide)
  · exact absurd (h.countNumeral _ hm2) (by decide)

theorem newline_not_mem_payload {b : Text} (h : .char '\n' ∉ b) : .char '\n' ∉ payload b :=
  fun hm => h (List.mem_of_mem_drop hm)

theorem newline_not_mem_reverseLine {line : Text} (h : .char '\n' ∉ line) : .char '\n' ∉ reverseLine line := by
  unfold reverseLine
  split
  · simpa using newline_not_mem_payload h
  · simpa using newline_not_mem_payload h
  · split
    · next header hp =>
      obtain ⟨hold, hnew, front, hf⟩ := Header.parse?_spec hp
      have hrest : .char '\n' ∉ header.rest := fun hm => h (by rw [hf]; simp [hm])
      have hmarks : .char '\n' ∉ ("@ -" : Text) ∧ .char '\n' ∉ (" +" : Text) ∧ .char '\n' ∉ (" @@" : Text) := by
        decide
      rw [Header.text_eq]
      simp only [List.mem_cons, List.mem_append, not_or]
      exact ⟨by decide, hmarks.1, hnew.newline_not_mem, hmarks.2.1, hold.newline_not_mem,
        hmarks.2.2, hrest⟩
    · exact h

theorem newline_not_mem_of_mem_lines {t l : Text} (h : l ∈ Text.lines t) : .char '\n' ∉ l :=
  Text.not_mem_of_mem_splitOn '\n' t l h

theorem lines_ofLines {ls : List Text} (hne : ls ≠ []) (h : ∀ l ∈ ls, .char '\n' ∉ l) :
    Text.lines (Text.ofLines ls) = ls :=
  Text.splitOn_joinOn '\n' hne h

theorem lines_ne_nil (t : Text) : Text.lines t ≠ [] := Text.splitOn_ne_nil '\n' t

theorem lines_reverse (diff : Text) :
    Text.lines (reverse diff) = (Text.lines diff).map reverseLine := by
  refine lines_ofLines (by simpa using lines_ne_nil diff) fun l hl => ?_
  obtain ⟨line, hline, rfl⟩ := List.mem_map.1 hl
  exact newline_not_mem_reverseLine (newline_not_mem_of_mem_lines hline)

/-! ### Sections and hunks -/

def Section.reversed (s : Section) : Section := ⟨s.header.reversed, s.body.map reverseLine⟩

def Hunk.reversed (h : Hunk) : Hunk :=
  ⟨h.newStart, h.newCount, h.oldStart, h.oldCount, h.body.map reverseLine⟩

theorem cutLines_map_reverseLine (ls : List Text) :
    cutLines (ls.map reverseLine) =
      ((cutLines ls).1.map reverseLine, (cutLines ls).2.map Section.reversed) := by
  induction ls with
  | nil => rfl
  | cons l ls ih =>
    rw [List.map_cons, cutLines_cons, cutLines_cons, ih]
    cases hp : Header.parse? l with
    | none => simp only [consLine, parse?_reverseLine_of_none hp, hp, List.map_cons]
    | some h =>
      simp only [consLine, parse?_reverseLine_of_header hp, hp, List.map_cons, List.map_nil,
        Section.reversed]

theorem sections_reverse (diff : Text) :
    sections (reverse diff) = (sections diff).map Section.reversed := by
  simp only [sections, lines_reverse, cutLines_map_reverseLine]

theorem Section.hunk_spec {s : Section} {h : Hunk} (hs : s.hunk = .ok h) :
    Number.ofDigits s.header.old.start = .ok h.oldStart ∧
    Number.ofDigits s.header.old.countNumeral = .ok h.oldCount ∧
    Number.ofDigits s.header.new.start = .ok h.newStart ∧
    Number.ofDigits s.header.new.countNumeral = .ok h.newCount ∧ h.body = s.body := by
  unfold Section.hunk at hs
  split at hs
  · cases hs
  · next oldStart h1 =>
    split at hs
    · cases hs
    · next oldCount h2 =>
      split at hs
      · cases hs
      · next newStart h3 =>
        split at hs
        · cases hs
        · next newCount h4 =>
          obtain rfl := Except.ok.inj hs
          exact ⟨h1, h2, h3, h4, rfl⟩

theorem Section.hunk_reversed {s : Section} {h : Hunk} (hs : s.hunk = .ok h) :
    s.reversed.hunk = .ok h.reversed := by
  obtain ⟨h1, h2, h3, h4, h5⟩ := Section.hunk_spec hs
  simp only [Section.hunk, Section.reversed, Header.reversed, Range.countNumeral_full, h2, h4]
  simp only [Range.full, h1, h3, Hunk.reversed, h5]

theorem hunksOf_cons {s : Section} {ss : List Section} {hs : List Hunk}
    (h : hunksOf (s :: ss) = .ok hs) :
    ∃ g gs, hs = g :: gs ∧ s.hunk = .ok g ∧ hunksOf ss = .ok gs := by
  unfold hunksOf at h
  split at h
  · cases h
  · next g hg =>
    split at h
    · cases h
    · next gs hgs => exact ⟨g, gs, (Except.ok.inj h).symm, hg, hgs⟩

theorem hunksOf_map_reversed {ss : List Section} {hs : List Hunk} (h : hunksOf ss = .ok hs) :
    hunksOf (ss.map Section.reversed) = .ok (hs.map Hunk.reversed) := by
  induction ss generalizing hs with
  | nil =>
    obtain rfl := Except.ok.inj h
    rfl
  | cons s ss ih =>
    obtain ⟨g, gs, rfl, hg, hgs⟩ := hunksOf_cons h
    simp only [List.map_cons, hunksOf, Section.hunk_reversed hg, ih hgs]

theorem hunks_reverse {diff : Text} {hs : List Hunk} (h : hunks diff = .ok hs) :
    hunks (reverse diff) = .ok (hs.map Hunk.reversed) := by
  rw [hunks, sections_reverse]
  exact hunksOf_map_reversed h

/-! ### Bodies -/

/-- The other side's kind of line. -/
def LineKind.swap : LineKind → LineKind
  | removal => addition
  | addition => removal
  | context => context
  | other => other

/-- Whether the lines of a body can still be told apart when their marks are exchanged: three minus or
three plus signs would name a file. -/
def MarksReadable (body : List Text) : Prop :=
  ∀ b ∈ body, (isAddition b = true → Text.startsWith (payload b) "--" = false) ∧
    (isRemoval b = true → Text.startsWith (payload b) "++" = false)

instance (body : List Text) : Decidable (MarksReadable body) :=
  inferInstanceAs (Decidable (∀ b ∈ body, (isAddition b = true →
    Text.startsWith (payload b) "--" = false) ∧
    (isRemoval b = true → Text.startsWith (payload b) "++" = false)))

theorem kind_reverseLine_of_other {b : Text} (hk : kind b = .other) :
    kind (reverseLine b) = .other := by
  cases hp : Header.parse? b with
  | none =>
    have hr : reverseLine b = b := by simp only [reverseLine, hk, hp]
    rw [hr]
    exact hk
  | some h =>
    rw [reverseLine_of_header hp]
    exact kind_of_head (by rw [Header.text_eq]; rfl)

theorem kind_reverseLine {b : Text}
    (hm : (isAddition b = true → Text.startsWith (payload b) "--" = false) ∧
      (isRemoval b = true → Text.startsWith (payload b) "++" = false)) :
    kind (reverseLine b) = (kind b).swap ∧
      (kind b ≠ .other → payload (reverseLine b) = payload b) := by
  cases hk : kind b with
  | removal =>
    have hr : reverseLine b = .char '+' :: payload b := by simp only [reverseLine, hk]
    have hp := hm.2 ((kind_eq_removal b).1 hk)
    have ha : isAddition (.char '+' :: payload b) = true := by
      simpa [isAddition, Text.startsWith] using hp
    rw [hr]
    exact ⟨(kind_eq_addition _).2 ha, fun _ => rfl⟩
  | addition =>
    have hr : reverseLine b = .char '-' :: payload b := by simp only [reverseLine, hk]
    have hp := hm.1 ((kind_eq_addition b).1 hk)
    have ha : isRemoval (.char '-' :: payload b) = true := by
      simpa [isRemoval, Text.startsWith] using hp
    rw [hr]
    exact ⟨(kind_eq_removal _).2 ha, fun _ => rfl⟩
  | context =>
    have hhead := head?_of_isContext ((kind_eq_context b).1 hk)
    have hnone : Header.parse? b = none := Header.parse?_eq_none (by rw [hhead]; simp)
    have hr : reverseLine b = b := by simp only [reverseLine, hk, hnone]
    rw [hr]
    exact ⟨hk, fun _ => rfl⟩
  | other => exact ⟨kind_reverseLine_of_other hk, fun hne => absurd rfl hne⟩

/-- Whether the lines that a body removes are the ones that stand in its window. -/
def RemovalsFit : List Text → List Text → Prop
  | [], _ => True
  | b :: body, ls =>
    match kind b with
    | .removal => ls.head? = some (payload b) ∧ RemovalsFit body ls.tail
    | .addition => RemovalsFit body ls
    | .context => RemovalsFit body ls.tail
    | .other => RemovalsFit body ls

/-- The check of the removed lines, line by line. -/
def RemovalsFit.decide : (body ls : List Text) → Decidable (RemovalsFit body ls)
  | [], _ => isTrue trivial
  | b :: body, ls =>
    match hk : kind b with
    | .removal =>
      haveI := RemovalsFit.decide body ls.tail
      decidable_of_iff (ls.head? = some (payload b) ∧ RemovalsFit body ls.tail)
        (by simp only [RemovalsFit, hk])
    | .addition =>
      haveI := RemovalsFit.decide body ls
      decidable_of_iff (RemovalsFit body ls) (by simp only [RemovalsFit, hk])
    | .context =>
      haveI := RemovalsFit.decide body ls.tail
      decidable_of_iff (RemovalsFit body ls.tail) (by simp only [RemovalsFit, hk])
    | .other =>
      haveI := RemovalsFit.decide body ls
      decidable_of_iff (RemovalsFit body ls) (by simp only [RemovalsFit, hk])

instance (body ls : List Text) : Decidable (RemovalsFit body ls) := RemovalsFit.decide body ls

/-- The window of a body with the removed lines as the body names them. -/
def restored : List Text → List Text → List Text
  | [], ls => ls
  | b :: body, ls =>
    match kind b with
    | .removal => payload b :: restored body ls.tail
    | .addition => restored body ls
    | .context => ls.head?.toList ++ restored body ls.tail
    | .other => restored body ls

theorem removalsFit_expected (body : List Text) : RemovalsFit body (expected body) := by
  induction body with
  | nil => trivial
  | cons b body ih =>
    rw [expected_cons, isOld_eq]
    cases hk : kind b with
    | removal => simpa [RemovalsFit, hk] using ih
    | addition => simpa [RemovalsFit, hk] using ih
    | context => simpa [RemovalsFit, hk] using ih
    | other => simpa [RemovalsFit, hk] using ih

section Bodies

variable {b : Text} {body : List Text}

theorem MarksReadable.head (hm : MarksReadable (b :: body)) :
    kind (reverseLine b) = (kind b).swap ∧
      (kind b ≠ .other → payload (reverseLine b) = payload b) :=
  kind_reverseLine (hm b List.mem_cons_self)

theorem MarksReadable.tail (hm : MarksReadable (b :: body)) : MarksReadable body :=
  fun c hc => hm c (List.mem_cons_of_mem _ hc)

theorem MarksReadable.head_marks (hm : MarksReadable (b :: body)) :
    isAddition (reverseLine b) = isRemoval b ∧ isRemoval (reverseLine b) = isAddition b := by
  rw [isAddition_eq, isRemoval_eq, isRemoval_eq, isAddition_eq, hm.head.1]
  cases kind b with
  | removal => exact ⟨rfl, rfl⟩
  | addition => exact ⟨rfl, rfl⟩
  | context => exact ⟨rfl, rfl⟩
  | other => exact ⟨rfl, rfl⟩

theorem countP_map_reverseLine (hm : MarksReadable body) :
    (body.map reverseLine).countP isAddition = body.countP isRemoval ∧
    (body.map reverseLine).countP isRemoval = body.countP isAddition := by
  induction body with
  | nil => simp only [List.map_nil, List.countP_nil, and_self]
  | cons b body ih =>
    obtain ⟨hadd, hrem⟩ := ih hm.tail
    obtain ⟨ha, hr⟩ := hm.head_marks
    rw [List.map_cons, List.countP_cons, List.countP_cons, List.countP_cons, List.countP_cons,
      hadd, hrem, ha, hr]
    exact ⟨rfl, rfl⟩

/-- The reversed body expects the lines that the body adds and those that it shows. -/
theorem MarksReadable.expected_reversed (hm : MarksReadable (b :: body)) :
    expected ((b :: body).map reverseLine) =
      match kind b with
      | .removal | .other => expected (body.map reverseLine)
      | .addition | .context => payload b :: expected (body.map reverseLine) := by
  obtain ⟨hkind, hpayload⟩ := hm.head
  rw [List.map_cons, expected_cons, isOld_eq, hkind]
  cases hk : kind b with
  | removal => rfl
  | addition => simp [LineKind.swap, hpayload, hk]
  | context => simp [LineKind.swap, hpayload, hk]
  | other => rfl

/-- Where the window holds what the body expects, the reversed body expects what the body makes. -/
theorem refill_expected (hm : MarksReadable body) :
    refill body (expected body) = expected (body.map reverseLine) := by
  induction body with
  | nil => rfl
  | cons b body ih =>
    rw [hm.expected_reversed, expected_cons, isOld_eq]
    cases hk : kind b with
    | removal => simpa [refill, hk] using ih hm.tail
    | addition => simpa [refill, hk] using ih hm.tail
    | context => simpa [refill, hk] using ih hm.tail
    | other => simpa [refill, hk] using ih hm.tail

theorem length_refill (hm : MarksReadable body) {window : List Text}
    (hw : window.length = (expected body).length) :
    (refill body window).length = (expected (body.map reverseLine)).length := by
  induction body, window, hw using window_induction with
  | nil => rfl
  | removal b body l window hk _ _ ih =>
    rw [hm.expected_reversed]
    simpa [refill, hk] using ih hm.tail
  | addition b body window hk _ _ ih =>
    rw [hm.expected_reversed]
    simpa [refill, hk] using ih hm.tail
  | context b body l window hk _ _ ih =>
    rw [hm.expected_reversed]
    simpa [refill, hk] using ih hm.tail
  | other b body window hk _ _ ih =>
    rw [hm.expected_reversed]
    simpa [refill, hk] using ih hm.tail

/-- The reversed body brings back the window with the removed lines as the body names them. -/
theorem refill_reversed (hm : MarksReadable body) {window : List Text}
    (hw : window.length = (expected body).length) :
    refill (body.map reverseLine) (refill body window) = restored body window := by
  induction body, window, hw using window_induction with
  | nil => rfl
  | removal b body l window hk _ _ ih =>
    obtain ⟨hkind, hpayload⟩ := hm.head
    have hp := hpayload (by simp [hk])
    simp only [List.map_cons, refill, restored, hk, hkind, LineKind.swap, hp, List.tail_cons,
      ih hm.tail]
  | addition b body window hk _ _ ih =>
    simp only [List.map_cons, refill, restored, hk, hm.head.1, LineKind.swap, List.tail_cons,
      ih hm.tail]
  | context b body l window hk _ _ ih =>
    simp only [List.map_cons, refill, restored, hk, hm.head.1, LineKind.swap, List.tail_cons,
      List.head?_cons, Option.toList_some, List.singleton_append, ih hm.tail]
  | other b body window hk _ _ ih =>
    simp only [List.map_cons, refill, restored, hk, hm.head.1, LineKind.swap, ih hm.tail]

theorem length_restored {window : List Text} (hw : window.length = (expected body).length) :
    (restored body window).length = window.length := by
  induction body, window, hw using window_induction with
  | nil => rfl
  | removal b body l window hk _ _ ih => simpa [restored, hk] using ih
  | addition b body window hk _ _ ih => simpa [restored, hk] using ih
  | context b body l window hk _ _ ih => simpa [restored, hk] using ih
  | other b body window hk _ _ ih => simpa [restored, hk] using ih

/-- What is brought back is the window exactly where the removed lines were those that stood there. -/
theorem restored_eq_iff {window : List Text} (hw : window.length = (expected body).length) :
    restored body window = window ↔ RemovalsFit body window := by
  induction body, window, hw using window_induction with
  | nil => simp [restored, RemovalsFit]
  | removal b body l window hk _ _ ih =>
    simp only [restored, RemovalsFit, hk, List.tail_cons, List.head?_cons, List.cons.injEq,
      Option.some.injEq, ih]
    exact and_congr_left fun _ => eq_comm
  | addition b body window hk _ _ ih => simp only [restored, RemovalsFit, hk, ih]
  | context b body l window hk _ _ ih =>
    simp only [restored, RemovalsFit, hk, List.tail_cons, List.head?_cons, Option.toList_some,
      List.singleton_append, List.cons.injEq, true_and, ih]
  | other b body window hk _ _ ih => simp only [restored, RemovalsFit, hk, ih]

/-- A body adds its additions to the window and takes its removals away. -/
theorem length_refill_add_removed {window : List Text}
    (hw : window.length = (expected body).length) :
    (refill body window).length + (body.filter isRemoval).length =
      window.length + (body.filter isAddition).length := by
  induction body, window, hw using window_induction with
  | nil => rfl
  | removal b body l window hk _ _ ih =>
    simp [refill, hk, isAddition_eq, isRemoval_eq]
    omega
  | addition b body window hk _ _ ih =>
    simp [refill, hk, isAddition_eq, isRemoval_eq]
    omega
  | context b body l window hk _ _ ih =>
    simp [refill, hk, isAddition_eq, isRemoval_eq]
    omega
  | other b body window hk _ _ ih => simpa [refill, hk, isAddition_eq, isRemoval_eq] using ih

end Bodies

/-! ### Windows of the reversed hunks -/

/-- How many lines a hunk makes of none: those that it adds less those that it removes. -/
def Hunk.growth (h : Hunk) : Int := (h.added.length : Int) - h.removed.length

/-- How many lines some hunks make of none, taken together. -/
def totalGrowth : List Hunk → Int
  | [] => 0
  | h :: hs => h.growth + totalGrowth hs

theorem growth_reversed {h : Hunk} (hm : MarksReadable h.body) : h.reversed.growth = -h.growth := by
  obtain ⟨hadd, hrem⟩ := countP_map_reverseLine hm
  simp only [Hunk.growth, Hunk.added, Hunk.removed, Hunk.reversed, List.length_map,
    ← List.countP_eq_length_filter, hadd, hrem]
  omega

theorem totalGrowth_reversed {hs : List Hunk} (hmark : ∀ h ∈ hs, MarksReadable h.body) :
    totalGrowth (hs.map Hunk.reversed) = -totalGrowth hs := by
  induction hs with
  | nil => rfl
  | cons h hs ih =>
    obtain ⟨hm, hms⟩ := List.forall_mem_cons.1 hmark
    simp only [List.map_cons, totalGrowth, growth_reversed hm, ih hms]
    omega

/-- The new start of each hunk is its old start moved by `shift` and by what the hunks before it have
added and removed. -/
def Renumbered : Int → List Hunk → Prop
  | _, [] => True
  | shift, h :: hs => (h.newStart : Int) = h.oldStart + shift ∧ Renumbered (shift + h.growth) hs

theorem length_refill_window {h : Hunk} {ls : List Text}
    (hle : h.oldStart - 1 + h.width ≤ ls.length) :
    ((refill h.body (h.window ls)).length : Int) = h.width + h.growth := by
  have hw := length_window hle
  have hlen := length_refill_add_removed (hw.trans (length_expected h).symm)
  simp only [Hunk.growth, Hunk.added, Hunk.removed, List.length_map]
  omega

theorem drop_eq_gap_window {n : Nat} {h : Hunk} (ls : List Text) (hn : n < h.oldStart) :
    ls.drop n = (ls.take (h.oldStart - 1)).drop n ++ h.window ls ++
      ls.drop (h.oldStart - 1 + h.width) := by
  have hall : ls.take n ++ ls.drop n = ls.take n ++ ((ls.take (h.oldStart - 1)).drop n ++
      h.window ls ++ ls.drop (h.oldStart - 1 + h.width)) := by
    rw [← List.append_assoc, ← List.append_assoc, take_append_gap ls hn, take_append_window,
      List.take_append_drop, List.take_append_drop]
  exact List.append_cancel_left hall

section Placed

variable {h : Hunk} {done gap new rest : List Text}

/-- A hunk that starts behind `front` finds there the lines that are as many as its window holds. -/
theorem window_append {front : List Text} (hstart : h.oldStart - 1 = front.length)
    (hwidth : new.length = h.width) : h.window (front ++ new ++ rest) = new := by
  rw [Hunk.window, hstart, List.append_assoc, List.drop_left, ← hwidth, List.take_left]

/-- One step of refilling in a text that is cut at the window of the first hunk. -/
theorem refillAll_append (hstart : h.oldStart - 1 = (done ++ gap).length)
    (hwidth : new.length = h.width) (hs : List Hunk) :
    refillAll (done ++ gap ++ new ++ rest) done.length (h :: hs) = gap ++ refill h.body new ++
      refillAll (done ++ gap ++ new ++ rest) (done ++ gap ++ new).length hs := by
  have hgap : ((done ++ gap ++ new ++ rest).take (h.oldStart - 1)).drop done.length = gap := by
    rw [hstart, List.append_assoc (done ++ gap), List.take_left, List.drop_left]
  have hend : h.oldStart - 1 + h.width = (done ++ gap ++ new).length := by
    rw [hstart, ← hwidth, ← List.length_append]
  rw [refillAll, hgap, window_append hstart hwidth, hend]

theorem oldStart_reversed {n : Nat} (hn : n < h.oldStart)
    (hgap : gap.length = h.oldStart - 1 - n)
    (hnum : (h.newStart : Int) = h.oldStart + ((done.length : Int) - n)) :
    h.reversed.oldStart = (done ++ gap).length + 1 := by
  simp only [Hunk.reversed, List.length_append]
  omega

end Placed

/-- The invariant of undoing: `done` is what the hunks before have made of the first `n` lines, and
the numbers of the hunks that follow are those of the new text. -/
theorem refillAll_reversed {ls done : List Text} {n : Nat} {hs : List Hunk}
    (hw : WindowsFrom ls.length n hs) (hnum : Renumbered ((done.length : Int) - n) hs)
    (hmark : ∀ h ∈ hs, MarksReadable h.body) :
    WindowsFrom (done ++ refillAll ls n hs).length done.length (hs.map Hunk.reversed) ∧
    (∀ h ∈ hs, h.reversed.window (done ++ refillAll ls n hs) = refill h.body (h.window ls)) ∧
    (refillAll (done ++ refillAll ls n hs) done.length (hs.map Hunk.reversed) = ls.drop n ↔
      ∀ h ∈ hs, RemovalsFit h.body (h.window ls)) := by
  induction hs generalizing n done with
  | nil =>
    refine ⟨?_, by simp, by simp [refillAll]⟩
    simp only [List.map_nil, WindowsFrom, List.length_append]
    omega
  | cons h hs ih =>
    obtain ⟨hn, hr⟩ := hw
    obtain ⟨hnumber, hnumbers⟩ := hnum
    have hmarks := hmark h List.mem_cons_self
    have hexp := (length_window hr.le).trans (length_expected h).symm
    have hgrow := length_refill_window hr.le
    have hwidth : (refill h.body (h.window ls)).length = h.reversed.width := by
      rw [← length_expected]
      exact length_refill hmarks hexp
    have hgap : ((ls.take (h.oldStart - 1)).drop n).length = h.oldStart - 1 - n := by
      have hle := hr.le
      simp only [List.length_drop, List.length_take]
      omega
    have hback : refill h.reversed.body (refill h.body (h.window ls)) =
        restored h.body (h.window ls) := refill_reversed hmarks hexp
    rw [drop_eq_gap_window ls hn, refillAll]
    generalize (ls.take (h.oldStart - 1)).drop n = gap at *
    generalize hnew : refill h.body (h.window ls) = new at *
    have hfirst := oldStart_reversed hn hgap hnumber
    have hstart : h.reversed.oldStart - 1 = (done ++ gap).length := by omega
    have hshift : ((done ++ gap ++ new).length : Int) - (h.oldStart - 1 + h.width : Nat) =
        (done.length : Int) - n + h.growth := by
      simp only [List.length_append]
      omega
    -- The hunks that follow are undone behind what this hunk has made.
    obtain ⟨hfrom, hwindows, hundone⟩ := ih hr (hshift ▸ hnumbers)
      fun k hk => hmark k (List.mem_cons_of_mem _ hk)
    simp only [← List.append_assoc]
    generalize refillAll ls (h.oldStart - 1 + h.width) hs = rest at *
    have hwindow : h.reversed.window (done ++ gap ++ new ++ rest) = new :=
      window_append hstart hwidth
    refine ⟨⟨?_, ?_⟩, ?_, ?_⟩
    · rw [hfirst, List.length_append]
      omega
    · rw [hstart, ← hwidth, ← List.length_append]
      exact hfrom
    · intro k hk
      rcases List.mem_cons.1 hk with rfl | hk
      · exact hwindow.trans hnew.symm
      · exact hwindows k hk
    · rw [List.map_cons, refillAll_append hstart hwidth, hback, List.append_assoc gap,
        List.append_assoc gap, List.append_cancel_left_eq, List.forall_mem_cons,
        ← restored_eq_iff hexp, ← hundone]
      constructor
      · exact fun heq => List.append_inj heq (length_restored hexp)
      · rintro ⟨hrestored, hrest⟩
        rw [hrestored, hrest]

end Mend.Diff
