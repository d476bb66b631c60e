import Mend.Proofs.Diff.Joined
import Mend.Proofs.Engine.Context

/-!
# Patches that replace lines

The patch of a rule names lines and the lines that take their place; it shows no context. Its diff has
one hunk (`hunks_replacingLines`), which is checked line by line. In a text that ends in a line feed,
the empty line at the end is never one of those that are removed. So a line is always left, and the
reversed patch brings the text back (`undoable_replacingLines`).
-/

namespace Mend.Diff

/-- Lines and those that take their place: there are some to remove, none of these is empty, all of them can
be written, and no line looks like the name of a file when it has a mark in front. -/
structure Replacement (removed added : List Text) : Prop where
  removes : removed ≠ []
  not_empty : ∀ l ∈ removed, l ≠ []
  no_newline : ∀ l ∈ removed ++ added, .char '\n' ∉ l
  encodable : ∀ l ∈ removed ++ added, Utf8.Encodable l
  no_mark : ∀ l ∈ removed ++ added, Text.startsWith l "--" = false ∧ Text.startsWith l "++" = false
  short : (Text.ofNat removed.length).length ≤ Number.maxDigits ∧
    (Text.ofNat added.length).length ≤ Number.maxDigits

instance (removed added : List Text) : Decidable (Replacement removed added) :=
  decidable_of_iff (removed ≠ [] ∧ (∀ l ∈ removed, l ≠ []) ∧ (∀ l ∈ removed ++ added, .char '\n' ∉ l) ∧
      (∀ l ∈ removed ++ added, Utf8.Encodable l) ∧
      (∀ l ∈ removed ++ added,
        Text.startsWith l "--" = false ∧ Text.startsWith l "++" = false) ∧
      (Text.ofNat removed.length).length ≤ Number.maxDigits ∧
      (Text.ofNat added.length).length ≤ Number.maxDigits)
    ⟨fun ⟨h1, h2, h3, h4, h5, h6⟩ => ⟨h1, h2, h3, h4, h5, h6⟩,
      fun h => ⟨h.removes, h.not_empty, h.no_newline, h.encodable, h.no_mark, h.short⟩⟩

/-- Lines to remove and lines to add that can be told apart in a diff: there are some to remove, no line looks
like the name of a file when it has its own mark in front, and the numbers of both can be read. -/
structure Legible (removed added : List Text) : Prop where
  removes : removed ≠ []
  no_newline : ∀ l ∈ removed ++ added, .char '\n' ∉ l
  removed_mark : ∀ l ∈ removed, Text.startsWith l "--" = false
  added_mark : ∀ l ∈ added, Text.startsWith l "++" = false
  short : (Text.ofNat removed.length).length ≤ Number.maxDigits ∧
    (Text.ofNat added.length).length ≤ Number.maxDigits

instance (removed added : List Text) : Decidable (Legible removed added) :=
  decidable_of_iff (removed ≠ [] ∧ (∀ l ∈ removed ++ added, .char '\n' ∉ l) ∧
      (∀ l ∈ removed, Text.startsWith l "--" = false) ∧
      (∀ l ∈ added, Text.startsWith l "++" = false) ∧
      (Text.ofNat removed.length).length ≤ Number.maxDigits ∧
      (Text.ofNat added.length).length ≤ Number.maxDigits)
    ⟨fun ⟨h1, h2, h3, h4, h5⟩ => ⟨h1, h2, h3, h4, h5⟩,
      fun h => ⟨h.removes, h.no_newline, h.removed_mark, h.added_mark, h.short⟩⟩

/-- Lines of a replacement can be told apart in a diff, and also in the diff that undoes it. -/
theorem Replacement.legible {removed added : List Text} (hx : Replacement removed added) :
    Legible removed added where
  removes := hx.removes
  no_newline := hx.no_newline
  removed_mark l hl := (hx.no_mark l (List.mem_append_left _ hl)).1
  added_mark l hl := (hx.no_mark l (List.mem_append_right _ hl)).2
  short := hx.short

/-- The body of the hunk that replaces lines. The line feed at the end of the diff leaves an empty
line. -/
def replacementBody (removed added : List Text) : List Text :=
  removed.map (.char '-' :: ·) ++ (added.map (.char '+' :: ·) ++ [[]])

/-- The hunk that replaces lines from line `start` on. -/
def replacementHunk (start : Nat) (removed added : List Text) : Hunk :=
  ⟨start, removed.length, start, added.length, replacementBody removed added⟩

theorem kind_minus {l : Text} (h : Text.startsWith l "--" = false) : kind (.char '-' :: l) = .removal := by
  rw [kind_eq_removal]
  simpa [isRemoval, Text.startsWith] using h

theorem kind_plus {l : Text} (h : Text.startsWith l "++" = false) : kind (.char '+' :: l) = .addition := by
  rw [kind_eq_addition]
  simpa [isAddition, Text.startsWith] using h

/-! ### Reading the diff -/

theorem ofLines_append {ls ks : List Text} (hls : ls ≠ []) (hks : ks ≠ []) :
    Text.ofLines (ls ++ ks) = Text.ofLines ls ++ .char '\n' :: Text.ofLines ks := by
  unfold Text.ofLines
  induction ls with
  | nil => exact absurd rfl hls
  | cons l ls ih =>
    cases ls with
    | nil =>
      obtain ⟨k, ks, rfl⟩ := List.exists_cons_of_ne_nil hks
      simp
    | cons m ms =>
      have hi := ih (by simp)
      simp only [List.cons_append, Text.joinOn_cons_cons, List.append_assoc] at hi ⊢
      rw [hi]

theorem ofLines_append_newline {ls : List Text} (hne : ls ≠ []) :
    Text.ofLines ls ++ [.char '\n'] = Text.ofLines (ls ++ [[]]) :=
  (ofLines_append hne (List.cons_ne_nil [] [])).symm

theorem cutLines_of_no_header {ls : List Text} (h : ∀ l ∈ ls, Header.parse? l = none) :
    cutLines ls = (ls, []) := by
  induction ls with
  | nil => rfl
  | cons l ls ih =>
    obtain ⟨hl, hls⟩ := List.forall_mem_cons.1 h
    simp only [cutLines_cons, consLine, hl, ih hls]

def replacementHeader (start : Nat) (removed added : List Text) : Header :=
  ⟨⟨Text.ofNat start, Text.ofNat removed.length⟩, ⟨Text.ofNat start, Text.ofNat added.length⟩, []⟩

theorem isNumeric_ofNat (m n : Nat) : Range.IsNumeric ⟨Text.ofNat m, Text.ofNat n⟩ :=
  ⟨Text.ofNat_ne_nil m, fun _ => Text.isDigit_of_mem_ofNat, fun _ => Text.isDigit_of_mem_ofNat⟩

theorem countNumeral_ofNat (m n : Nat) :
    Range.countNumeral ⟨Text.ofNat m, Text.ofNat n⟩ = Text.ofNat n := by
  have hne : (Text.ofNat n).isEmpty = false := by simpa using Text.ofNat_ne_nil n
  simp only [Range.countNumeral, hne, Bool.false_eq_true, if_false]

theorem headerLine_eq (start : Nat) (removed added : List Text) :
    headerLine start removed.length start added.length =
      (replacementHeader start removed added).text := by
  unfold headerLine Header.text Range.text replacementHeader
  rw [countNumeral_ofNat, countNumeral_ofNat, List.append_nil]
  simp only [List.append_assoc]

theorem parse?_headerLine (start : Nat) (removed added : List Text) :
    Header.parse? (headerLine start removed.length start added.length) =
      some ⟨(replacementHeader start removed added).old.full,
        (replacementHeader start removed added).new.full, []⟩ := by
  rw [headerLine_eq]
  exact Header.parse?_text (isNumeric_ofNat _ _) (isNumeric_ofNat _ _)

theorem newline_not_mem_headerLine (start : Nat) (removed added : List Text) :
    .char '\n' ∉ headerLine start removed.length start added.length := by
  have hmarks : .char '\n' ∉ ("@ -" : Text) ∧ .char '\n' ∉ (" +" : Text) ∧ .char '\n' ∉ (" @@" : Text) := by decide
  have hold := (isNumeric_ofNat start removed.length).newline_not_mem
  have hnew := (isNumeric_ofNat start added.length).newline_not_mem
  rw [headerLine_eq, Header.text_eq]
  simp only [List.mem_cons, List.mem_append, not_or]
  exact ⟨by decide, hmarks.1, hold, hmarks.2.1, hnew, hmarks.2.2, List.not_mem_nil⟩

theorem ofDigits_ofNat {n : Nat} (h : (Text.ofNat n).length ≤ Number.maxDigits) :
    Number.ofDigits (Text.ofNat n) = .ok n :=
  Number.ofDigits_eq_ok.2 ⟨h, Text.numeralValue_ofNat n⟩

/-- The sections of a diff that names a file and has a hunk behind it, with the lines of both sides counted: a
name with line breaks can add some of its own. -/
theorem sections_afterFile (file : Text) (start : Nat) (removed added : List Text) {body : List Text}
    (hbody : ∀ b ∈ body, .char '\n' ∉ b ∧ b.head? ≠ some '@') :
    sections (Text.ofLines (fileLines file ++
        headerLine start removed.length start added.length :: body)) =
      sections (Text.ofLines (fileLines file)) ++
        [⟨⟨(replacementHeader start removed added).old.full,
          (replacementHeader start removed added).new.full, []⟩, body⟩] := by
  have hlines : Text.lines (Text.ofLines (headerLine start removed.length start added.length :: body)) =
      headerLine start removed.length start added.length :: body :=
    lines_ofLines (List.cons_ne_nil _ _) (List.forall_mem_cons.2
      ⟨newline_not_mem_headerLine start removed added, fun b hb => (hbody b hb).1⟩)
  have hcut : cutLines body = (body, []) :=
    cutLines_of_no_header fun b hb => Header.parse?_eq_none (hbody b hb).2
  have hheader := parse?_headerLine start removed added
  have hfile : fileLines file ≠ [] := List.cons_ne_nil _ _
  rw [ofLines_append hfile (List.cons_ne_nil _ _), sections_joined]
  · refine congrArg (_ ++ ·) ?_
    rw [sections, hlines]
    simp only [cutLines_cons, consLine, hheader, hcut]
  · simp only [beginsWithHeader, hlines, List.head?_cons, Option.bind_some, hheader, Option.isSome_some]

theorem sections_fileLines {file : Text} (hfile : .char '\n' ∉ file) :
    sections (Text.ofLines (fileLines file)) = [] := by
  have hlines : Text.lines (Text.ofLines (fileLines file)) = fileLines file :=
    lines_ofLines (List.cons_ne_nil _ _) (by simp [fileLines, hfile])
  rw [sections, hlines, cutLines_of_no_header]
  intro l hl
  simp only [fileLines, List.mem_cons, List.not_mem_nil, or_false] at hl
  rcases hl with rfl | rfl
  · exact Header.parse?_eq_none (by simp)
  · exact Header.parse?_eq_none (by simp)

theorem hunks_oneHunk {file : Text} (hfile : .char '\n' ∉ file) {start : Nat} {removed added body : List Text}
    (hbody : ∀ b ∈ body, .char '\n' ∉ b ∧ b.head? ≠ some '@')
    (hstart : (Text.ofNat start).length ≤ Number.maxDigits)
    (hold : (Text.ofNat removed.length).length ≤ Number.maxDigits)
    (hnew : (Text.ofNat added.length).length ≤ Number.maxDigits) :
    hunks (Text.ofLines (fileLines file ++
        headerLine start removed.length start added.length :: body)) =
      .ok [⟨start, removed.length, start, added.length, body⟩] := by
  rw [hunks, sections_afterFile file start removed added hbody, sections_fileLines hfile, List.nil_append]
  simp only [hunksOf, Section.hunk, Range.countNumeral_full]
  simp only [Range.full, replacementHeader, countNumeral_ofNat, ofDigits_ofNat hstart, ofDigits_ofNat hold,
    ofDigits_ofNat hnew]

section

variable {start : Nat} {removed added : List Text}

theorem Legible.body_regular (hx : Legible removed added) :
    ∀ b ∈ replacementBody removed added, .char '\n' ∉ b ∧ b.head? ≠ some '@' := by
  intro b hb
  simp only [replacementBody, List.mem_append, List.mem_map, List.mem_singleton] at hb
  rcases hb with ⟨l, hl, rfl⟩ | ⟨l, hl, rfl⟩ | rfl
  · have hn := hx.no_newline l (List.mem_append_left _ hl)
    exact ⟨by simpa using hn, by simp⟩
  · have hn := hx.no_newline l (List.mem_append_right _ hl)
    exact ⟨by simpa using hn, by simp⟩
  · exact ⟨List.not_mem_nil, by simp⟩

theorem diff_replacingLines (file : Text) (start : Nat) (removed added : List Text) (description : Text) :
    (Patch.replacingLines file start removed added description).diff =
      Text.ofLines (fileLines file ++ headerLine start removed.length start added.length ::
        replacementBody removed added) := by
  rw [Patch.replacingLines, ofLines_append_newline (by simp)]
  simp only [replacementBody, List.append_assoc, List.cons_append]

theorem hunks_replacingLines (hx : Legible removed added) {file : Text} (hfile : .char '\n' ∉ file)
    (hstart : (Text.ofNat start).length ≤ Number.maxDigits) (description : Text) :
    hunks (Patch.replacingLines file start removed added description).diff =
      .ok [replacementHunk start removed added] := by
  rw [diff_replacingLines]
  exact hunks_oneHunk hfile hx.body_regular hstart hx.short.1 hx.short.2

/-! ### What the body removes and adds -/

theorem filter_map_mark {p : Text → Bool} {keep : LineKind → Bool}
    (hp : ∀ b, p b = keep (kind b)) {ls : List Text} {c : CodePoint} {k : LineKind}
    (hk : ∀ l ∈ ls, kind (c :: l) = k) :
    (ls.map (c :: ·)).filter p = if keep k then ls.map (c :: ·) else [] := by
  have hall : ∀ b ∈ ls.map (c :: ·), p b = keep k := by
    intro b hb
    obtain ⟨l, hl, rfl⟩ := List.mem_map.1 hb
    rw [hp, hk l hl]
  by_cases h : keep k = true
  · rw [if_pos h, List.filter_eq_self]
    exact fun b hb => (hall b hb).trans h
  · rw [if_neg h, List.filter_eq_nil_iff]
    exact fun b hb => by rw [hall b hb]; exact h

theorem Legible.filter_body (hx : Legible removed added) {p : Text → Bool}
    {keep : LineKind → Bool} (hp : ∀ b, p b = keep (kind b)) (hother : keep .other = false) :
    (replacementBody removed added).filter p =
      (if keep .removal then removed.map (.char '-' :: ·) else []) ++
        if keep .addition then added.map (.char '+' :: ·) else [] := by
  have hrem := filter_map_mark hp fun l hl => kind_minus (hx.removed_mark l hl)
  have hadd := filter_map_mark hp fun l hl => kind_plus (hx.added_mark l hl)
  have hend : [([] : Text)].filter p = [] := by
    have hempty : p [] = false := (hp []).trans hother
    simp [hempty]
  rw [replacementBody, List.filter_append, List.filter_append, hrem, hadd, hend, List.append_nil]

theorem map_payload_mark (c : CodePoint) (ls : List Text) : (ls.map (c :: ·)).map payload = ls := by
  rw [List.map_map]
  exact List.map_id'' (fun _ => rfl) ls

theorem Legible.expected_body (hx : Legible removed added) :
    expected (replacementBody removed added) = removed := by
  have hold := @Legible.filter_body removed added hx isOld
    (fun k => decide (k = .context) || decide (k = .removal)) isOld_eq rfl
  rw [expected, hold]
  simpa using map_payload_mark '-' removed

theorem refill_removals {ls : List Text} (h : ∀ l ∈ ls, Text.startsWith l "--" = false)
    (body rest : List Text) : refill (ls.map (.char '-' :: ·) ++ body) (ls ++ rest) = refill body rest := by
  induction ls with
  | nil => rfl
  | cons l ls ih =>
    obtain ⟨hl, hls⟩ := List.forall_mem_cons.1 h
    simp only [List.map_cons, List.cons_append, refill, kind_minus hl, List.tail_cons, ih hls]

theorem refill_additions {ls : List Text} (h : ∀ l ∈ ls, Text.startsWith l "++" = false)
    (body rest : List Text) : refill (ls.map (.char '+' :: ·) ++ body) rest = ls ++ refill body rest := by
  induction ls with
  | nil => rfl
  | cons l ls ih =>
    obtain ⟨hl, hls⟩ := List.forall_mem_cons.1 h
    simp only [List.map_cons, List.cons_append, refill, kind_plus hl, payload, List.drop_succ_cons,
      List.drop_zero, ih hls]

theorem Legible.refill_body (hx : Legible removed added) :
    refill (replacementBody removed added) removed = added := by
  have hrem := refill_removals hx.removed_mark (added.map (.char '+' :: ·) ++ [[]]) []
  have hadd := refill_additions hx.added_mark [[]] []
  rw [List.append_nil] at hrem
  rw [replacementBody, hrem, hadd]
  exact List.append_nil added

theorem Legible.width (hx : Legible removed added) :
    (replacementHunk start removed added).width = removed.length := by
  have hlen := length_expected (replacementHunk start removed added)
  rw [replacementHunk, hx.expected_body] at hlen
  exact hlen.symm

theorem Legible.added_eq (hx : Legible removed added) : (replacementHunk start removed added).added = added := by
  have hadd := @Legible.filter_body removed added hx isAddition
    (fun k => decide (k = .addition)) isAddition_eq rfl
  rw [Hunk.added, replacementHunk, hadd]
  simpa using map_payload_mark '+' added

theorem Legible.removed_eq (hx : Legible removed added) :
    (replacementHunk start removed added).removed = removed := by
  have hrem := @Legible.filter_body removed added hx isRemoval
    (fun k => decide (k = .removal)) isRemoval_eq rfl
  rw [Hunk.removed, replacementHunk, hrem]
  simpa using map_payload_mark '-' removed

theorem Legible.growth (hx : Legible removed added) :
    (replacementHunk start removed added).growth = (added.length : Int) - removed.length := by
  rw [Hunk.growth, hx.added_eq, hx.removed_eq]

theorem Replacement.isEncodable (hx : Replacement removed added) :
    (replacementHunk start removed added).IsEncodable ∧
      (replacementHunk start removed added).reversed.IsEncodable := by
  refine ⟨fun l hl => ?_, isEncodable_reversed fun l hl => ?_⟩
  · rw [hx.legible.added_eq] at hl
    exact hx.encodable l (List.mem_append_right _ hl)
  · rw [hx.legible.removed_eq] at hl
    exact hx.encodable l (List.mem_append_left _ hl)

theorem Replacement.marksReadable (hx : Replacement removed added) :
    MarksReadable (replacementBody removed added) := by
  intro b hb
  simp only [replacementBody, List.mem_append, List.mem_map, List.mem_singleton] at hb
  rcases hb with ⟨l, hl, rfl⟩ | ⟨l, hl, rfl⟩ | rfl
  · obtain ⟨hm, hp⟩ := hx.no_mark l (List.mem_append_left _ hl)
    exact ⟨fun _ => hm, fun _ => hp⟩
  · obtain ⟨hm, hp⟩ := hx.no_mark l (List.mem_append_right _ hl)
    exact ⟨fun _ => hm, fun _ => hp⟩
  · exact ⟨fun _ => rfl, fun _ => rfl⟩

theorem Legible.leadingContext (hx : Legible removed added) :
    (replacementHunk start removed added).leadingContext = [] ∧
    (replacementHunk start removed added).reversed.leadingContext = [] := by
  obtain ⟨l, ls, hl⟩ := List.exists_cons_of_ne_nil hx.removes
  have hm := hx.removed_mark l (by simp [hl])
  have hfirst : isContext (.char '-' :: l) = false := rfl
  have hback : isContext (reverseLine (.char '-' :: l)) = false := by
    have hr : reverseLine (.char '-' :: l) = .char '+' :: l := by
      simp only [reverseLine, kind_minus hm]
      rfl
    rw [hr]
    rfl
  refine ⟨?_, ?_⟩
  · simp [Hunk.leadingContext, replacementHunk, replacementBody, hl, hfirst]
  · simp [Hunk.leadingContext, Hunk.reversed, replacementHunk, replacementBody, hl, hback]

theorem Legible.applyHunk_of_absent (hx : Legible removed added) {ls : List Text} (hpos : 1 ≤ start)
    (habsent : ¬ removed <+: ls.drop (start - 1)) :
    ∃ k < removed.length, removed.take k <+: ls.drop (start - 1) ∧
      applyHunk true (replacementHunk start removed added) ls =
        .error (misfitAt ls (start + k) (.lineMismatch (start + k) start)) := by
  have hexp : expected (replacementHunk start removed added).body = removed := hx.expected_body
  have hone := @Diff.applyHunk_of_absent (replacementHunk start removed added) ls hpos
    (by rw [hexp]; exact habsent)
  rw [hexp] at hone
  exact hone

/-! ### Applying the diff to a text that ends in a line feed -/

/-- Whether a text ends in a line feed: then nothing stands on its last line. The empty text counts as
one that does. -/
def EndsInLineFeed (content : Text) : Prop := (Text.lines content).getLast? = some []

theorem endsInLineFeed_of_getLast? {content : Text} (h : content.getLast? = some '\n') :
    EndsInLineFeed content := by
  obtain ⟨t, rfl⟩ := List.getLast?_eq_some_iff.1 h
  have hlines : Text.lines (t ++ [.char '\n']) = Text.lines t ++ [[]] := by
    conv => lhs; rw [← Text.ofLines_lines t, ofLines_append_newline (lines_ne_nil t)]
    refine lines_ofLines (by simp) fun l hl => ?_
    rcases List.mem_append.1 hl with hl | hl
    · exact newline_not_mem_of_mem_lines hl
    · obtain rfl := List.mem_singleton.1 hl
      exact List.not_mem_nil
  rw [EndsInLineFeed, hlines, List.getLast?_concat]

/-- Lines that are found in a text with an empty last line, none of them empty, stand before it. -/
theorem add_length_lt_of_found {ls found : List Text} {n : Nat} (hlast : ls.getLast? = some [])
    (hfound : found <+: ls.drop n) (hne : ∀ l ∈ found, l ≠ []) (hn : n ≤ ls.length)
    (hsome : found ≠ []) : n + found.length < ls.length := by
  have hle := hfound.length_le
  rw [List.length_drop] at hle
  by_contra hlt
  obtain ⟨rest, hrest⟩ := hfound
  have hrnil : rest = [] := by
    have hlen := congrArg List.length hrest
    simp only [List.length_append, List.length_drop] at hlen
    exact List.eq_nil_of_length_eq_zero (by omega)
  rw [hrnil, List.append_nil] at hrest
  have hend : found.getLast? = some [] := by
    rw [hrest, List.getLast?_drop, if_neg (by
      have hpos := List.length_pos_iff.2 hsome
      omega)]
    exact hlast
  exact hne [] (List.mem_of_getLast? hend) rfl

/-- The diff is applied, and then a line is left behind the removed ones, or it does not fit. -/
theorem Replacement.apply_cases (hx : Replacement removed added) {content diff : Text}
    (hd : hunks diff = .ok [replacementHunk start removed added]) (hpos : 1 ≤ start)
    (hstart : (Text.ofNat start).length ≤ Number.maxDigits) (hend : EndsInLineFeed content) :
    (∃ new, apply true content diff = .ok new ∧
      start - 1 + removed.length < (Text.lines content).length) ∨
    ∃ m, apply true content diff = .error (.misfit m) := by
  have hexp : expected (replacementHunk start removed added).body = removed := hx.legible.expected_body
  have hsome := List.length_pos_iff.2 hx.removes
  rw [apply_of_hunks hd (by simp)]
  unfold EndsInLineFeed at hend
  generalize Text.lines content = ls at *
  by_cases hp : removed <+: ls.drop (start - 1)
  · have hle := hp.length_le
    rw [List.length_drop] at hle
    have hin : start - 1 ≤ ls.length := by omega
    have hcut : (replacementHunk start removed added).oldStart = (ls.take (start - 1)).length + 1 :=
      oldStart_eq hpos hin
    have hlt := add_length_lt_of_found hend hp hx.not_empty hin hx.removes
    have hone := @applyHunk_of_found _ _ (ls.drop (start - 1)) hcut true
      (by rw [hexp]; exact hp.length_le) (fun _ => by rw [hexp]; exact hp)
    rw [List.take_append_drop] at hone
    exact .inl ⟨_, by simp only [applyHunks, hone]; rfl, hlt⟩
  · obtain ⟨k, hk, htake, he⟩ := hx.legible.applyHunk_of_absent hpos hp
    refine .inr ⟨.lineMismatch (start + k) start, ?_⟩
    simp only [applyHunks, he]
    -- the first line can be printed, and a line after it is a line of the text
    cases k with
    | zero => rw [misfitAt_of_print (by simpa using hstart)]; rfl
    | succ k =>
      have hlen : (removed.take (k + 1)).length = k + 1 := by
        rw [List.length_take]
        omega
      have hle := htake.length_le
      rw [hlen, List.length_drop] at hle
      have hlt := add_length_lt_of_found hend htake
        (fun l hl => hx.not_empty l (List.mem_of_mem_take hl)) (by omega)
        (fun hnil => by rw [hnil] at hlen; simp at hlen)
      rw [hlen] at hlt
      rw [misfitAt, if_pos (by omega)]
      rfl

/-- Where lines stand behind the removed ones, the diff can be undone. -/
theorem Replacement.reversible (hx : Replacement removed added) (hpos : 1 ≤ start) {size : Nat}
    (hlt : start - 1 + removed.length < size) :
    Reversible [replacementHunk start removed added] size where
  within := {
    start_pos := by simpa [replacementHunk] using hpos
    apart := List.isChain_singleton _
    last_le := by
      intro h hh
      obtain rfl : replacementHunk start removed added = h := by simpa using hh
      rw [hx.legible.width]
      exact hlt.le }
  renumbered := ⟨by simp [replacementHunk], trivial⟩
  marks := by
    intro h hh
    obtain rfl : h = replacementHunk start removed added := by simpa using hh
    exact hx.marksReadable
  keeps := by
    simp only [totalGrowth, hx.legible.growth]
    omega

theorem Replacement.endsInLineFeed (hx : Replacement removed added) {content diff new : Text}
    (hd : hunks diff = .ok [replacementHunk start removed added]) (hpos : 1 ≤ start)
    (hlt : start - 1 + removed.length < (Text.lines content).length)
    (happ : apply true content diff = .ok new) (hend : EndsInLineFeed content) :
    EndsInLineFeed new := by
  have hlines := (lines_of_apply hd (by simp) (hx.reversible hpos hlt) happ).1
  have hrest : (Text.lines content).drop (start - 1 + removed.length) ≠ [] := by
    intro hnil
    have hlen := List.drop_eq_nil_iff.1 hnil
    omega
  have hlast : ((Text.lines content).drop (start - 1 + removed.length)).getLast? = some [] := by
    rw [List.getLast?_drop, if_neg (by omega)]
    exact hend
  have hstart : (replacementHunk start removed added).oldStart = start := rfl
  rw [EndsInLineFeed, hlines]
  simp only [refillAll, hx.legible.width, hstart]
  rw [List.getLast?_append, hlast]
  rfl

end

end Mend.Diff

namespace Mend.Engine

open Diff (Hunk Legible Replacement EndsInLineFeed replacementHunk)

theorem checkContext_of_no_context {hs : List Hunk} (h : ∀ k ∈ hs, k.leadingContext = [])
    (file : Text) (ls : List Text) : (checkContext file ls hs).2 = true :=
  checkContext_eq_true.2 fun k hk => by rw [h k hk, firstMismatch?]

/-- A patch without context is not stale in any text. -/
theorem revise_of_no_context {strict : Bool} {p : Patch} {hs : List Hunk}
    (hd : Diff.hunks p.diff = .ok hs) (h : ∀ k ∈ hs, k.leadingContext = []) (content : Text) :
    (revise strict content p).2 = verdictOf (Diff.apply (isStrict strict p) content p.diff) := by
  have hok := checkContext_of_no_context h p.file (Text.lines content)
  unfold revise validate
  rw [hd]
  cases hc : checkContext p.file (Text.lines content) hs with
  | mk ns ok =>
    obtain rfl : ok = true := by simpa [hc] using hok
    simp only [hc]
    split <;> simp_all [verdictOf]

theorem verdictOf_of_encodable {t : Text} (h : Utf8.Encodable t) : verdictOf (.ok t) = .ok t :=
  writable_eq_ok.2 ⟨rfl, h⟩

section

variable {strict : Bool} {p : Patch} {start : Nat} {removed added : List Text}

/-- In a text that ends in a line feed the patch is applied before the last line, or it does not fit. -/
theorem revise_replacement_cases (hx : Replacement removed added)
    (hd : Diff.hunks p.diff = .ok [replacementHunk start removed added])
    (hstrict : isStrict strict p = true) (hpos : 1 ≤ start)
    (hstart : (Text.ofNat start).length ≤ Number.maxDigits) {content : Text}
    (hcontent : Utf8.Encodable content) (hend : EndsInLineFeed content) :
    (∃ new, Diff.apply true content p.diff = .ok new ∧ (revise strict content p).2 = .ok new ∧
      start - 1 + removed.length < (Text.lines content).length) ∨
    ∃ r, (revise strict content p).2 = .error (.inl r) := by
  have hctx := (@Legible.leadingContext start removed added hx.legible).1
  rw [revise_of_no_context hd (by simpa using hctx), hstrict]
  rcases hx.apply_cases hd hpos hstart hend with ⟨new, happ, hlt⟩ | ⟨m, happ⟩
  · have hnew := Diff.encodable_of_apply hd hcontent (by simpa using hx.isEncodable.1) happ
    exact .inl ⟨new, happ, by rw [happ, verdictOf_of_encodable hnew], hlt⟩
  · exact .inr ⟨.misfit m, by rw [happ]; rfl⟩

theorem revise_reversed_replacement (hx : Replacement removed added)
    (hd : Diff.hunks p.diff = .ok [replacementHunk start removed added])
    (hstrict : isStrict strict p = true) (hpos : 1 ≤ start) {content new : Text}
    (hcontent : Utf8.Encodable content) (hlt : start - 1 + removed.length < (Text.lines content).length)
    (happ : Diff.apply true content p.diff = .ok new) :
    (revise strict new (reversed p)).2 = .ok content := by
  have hctx := (@Legible.leadingContext start removed added hx.legible).2
  have hback : isStrict strict (reversed p) = true := hstrict
  have hdiff : (reversed p).diff = Diff.reverse p.diff := rfl
  have hrev := @Replacement.reversible start removed added hx hpos _ hlt
  obtain ⟨back, hb, hiff⟩ := Diff.apply_reverse_iff hd hrev happ
  have hsame : back = content := hiff.2 (Diff.removalsFit_of_apply hd hrev happ)
  rw [@revise_of_no_context strict (reversed p) _ (Diff.hunks_reverse hd) (by simpa using hctx),
    hback, hdiff, hb, hsame, verdictOf_of_encodable hcontent]

theorem undoable_of_replacement (hx : Replacement removed added)
    (hd : Diff.hunks p.diff = .ok [replacementHunk start removed added])
    (hstrict : isStrict strict p = true) (hpos : 1 ≤ start)
    (hstart : (Text.ofNat start).length ≤ Number.maxDigits) :
    Undoable strict EndsInLineFeed p := by
  have hcases := fun content => @revise_replacement_cases strict p start removed added hx hd hstrict
    hpos hstart content
  refine ⟨?_, ?_, ?_⟩
  · intro content hcontent hend f hf
    rcases hcases content hcontent hend with ⟨new, -, hr, -⟩ | ⟨r, hr⟩
    · rw [hr] at hf
      cases hf
    · rw [hr] at hf
      cases hf
  · intro content new hcontent hend hr
    rcases hcases content hcontent hend with ⟨t, happ, ht, hlt⟩ | ⟨r, he⟩
    · obtain rfl : t = new := by simpa [ht] using hr
      exact hx.endsInLineFeed hd hpos hlt happ hend
    · rw [he] at hr
      cases hr
  · intro content new hcontent hend hr
    rcases hcases content hcontent hend with ⟨t, happ, ht, hlt⟩ | ⟨r, he⟩
    · obtain rfl : t = new := by simpa [ht] using hr
      exact revise_reversed_replacement hx hd hstrict hpos hcontent hlt happ
    · rw [he] at hr
      cases hr

/-- A patch that replaces lines is checked line by line, and it can be undone. -/
theorem undoable_replacingLines (strict : Bool) (hx : Replacement removed added) {file : Text}
    (hfile : .char '\n' ∉ file) (hpos : 1 ≤ start)
    (hstart : (Text.ofNat start).length ≤ Number.maxDigits) (description : Text) :
    Undoable strict EndsInLineFeed
      (Patch.replacingLines file start removed added description) :=
  undoable_of_replacement hx (Diff.hunks_replacingLines hx.legible hfile hstart description)
    (Bool.or_true strict) hpos hstart

end

end Mend.Engine
