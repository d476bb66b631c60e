import Mend.CodeContext
import Mend.Proofs.FileTree
import Mend.Proofs.Prose
import Mend.Proofs.Utf8

/-!
# The numbers in a code context

A code context shows some lines of a file and says which ones. Patches count the lines of a file between
its line feeds; a context counts its lines as they are shown. The heading is always right about how many
lines stand below it. The two ways to count agree for a file just if each of its lines is plain
(`numbersAlike_iff_plain`): behind a line that is shown as several, all numbers are too high.
-/

namespace Mend.CodeContext

/-! ### What a context reports -/

/-- The heading over lines `start` to `stop`. -/
def heading (d : Diagnostic) (start stop : Nat) : Text :=
  "// " ++ d.file ++ " lines " ++ Text.ofNat start ++ "-" ++ Text.ofNat stop ++
    ", error at line " ++ Text.ofNat d.line

/-- Whether a context shows these lines under a heading that calls them `start` to `stop`. -/
structure Reports (d : Diagnostic) (context : Text) (start stop : Nat) (shown : List Text) : Prop where
  text : context = heading d start stop ++ .char '\n' :: Text.ofLines shown
  whole : ∀ l ∈ shown, .char '\n' ∉ l
  count : shown.length + start = stop + 1
  pos : 1 ≤ start

/-- Whether the lines are those that patches to the file call `start` to `stop`, up to carriage returns at
their ends. -/
def Agrees (content : Text) (start stop : Nat) (shown : List Text) : Prop :=
  shown.map Text.withoutReturn =
    (((Text.lines content).take stop).drop (start - 1)).map Text.withoutReturn

instance (content : Text) (start stop : Nat) (shown : List Text) : Decidable (Agrees content start stop shown) :=
  inferInstanceAs (Decidable (_ = _))

theorem ofNat_append_inj {m n : Nat} {s t : Text} (hs : ∀ c ∈ s.head?, Text.isDigit c = false)
    (ht : ∀ c ∈ t.head?, Text.isDigit c = false) (h : Text.ofNat m ++ s = Text.ofNat n ++ t) :
    m = n ∧ s = t := by
  have hspan := congrArg Text.spanDigits h
  rw [Text.spanDigits_append (fun c hc => Text.isDigit_of_mem_ofNat hc) hs,
    Text.spanDigits_append (fun c hc => Text.isDigit_of_mem_ofNat hc) ht] at hspan
  obtain ⟨hnumeral, hrest⟩ := Prod.mk.inj hspan
  have hvalue := congrArg Text.numeralValue hnumeral
  rw [Text.numeralValue_ofNat, Text.numeralValue_ofNat] at hvalue
  exact ⟨hvalue, hrest⟩

theorem numerals_inj {p m q s t : Text} {x y : CodePoint} {a b c d : Nat} (hx : Text.isDigit x = false)
    (hy : Text.isDigit y = false) (h : p ++ Text.ofNat a ++ x :: m ++ Text.ofNat b ++ y :: q ++ s =
      p ++ Text.ofNat c ++ x :: m ++ Text.ofNat d ++ y :: q ++ t) :
    a = c ∧ b = d ∧ s = t := by
  simp only [List.append_assoc, List.cons_append] at h
  obtain ⟨hfirst, h⟩ := ofNat_append_inj (Text.forall_head?_cons hx _) (Text.forall_head?_cons hx _)
    (List.append_cancel_left h)
  obtain ⟨hsecond, h⟩ := ofNat_append_inj (Text.forall_head?_cons hy _) (Text.forall_head?_cons hy _)
    (List.append_cancel_left (List.tail_eq_of_cons_eq h))
  exact ⟨hfirst, hsecond, List.append_cancel_left (List.tail_eq_of_cons_eq h)⟩

theorem heading_append_inj {d : Diagnostic} {start stop start' stop' : Nat} {s t : Text}
    (h : heading d start stop ++ s = heading d start' stop' ++ t) : start = start' ∧ stop = stop' ∧ s = t := by
  unfold heading at h
  rw [List.append_assoc, List.append_assoc _ _ t] at h
  obtain ⟨hstart, hstop, hrest⟩ := numerals_inj (x := '-') (y := ',') (by decide) (by decide) h
  exact ⟨hstart, hstop, List.append_cancel_left hrest⟩

/-- A context reports one thing only. -/
theorem Reports.unique {d : Diagnostic} {context : Text} {start stop start' stop' : Nat} {shown shown' : List Text}
    (h : Reports d context start stop shown) (h' : Reports d context start' stop' shown') :
    start = start' ∧ stop = stop' ∧ shown = shown' := by
  obtain ⟨rfl, rfl, htext⟩ := heading_append_inj (h.text.symm.trans h'.text)
  have hlines : Text.ofLines shown = Text.ofLines shown' := List.tail_eq_of_cons_eq htext
  have hlength : shown.length = shown'.length := Nat.add_right_cancel (h.count.trans h'.count.symm)
  refine ⟨rfl, rfl, ?_⟩
  by_cases hnil : shown = []
  · rw [hnil, List.length_nil] at hlength
    rw [hnil, List.length_eq_zero_iff.1 hlength.symm]
  · have hnil' : shown' ≠ [] := by
      rintro rfl
      exact hnil (List.length_eq_zero_iff.1 hlength)
    have hsplit := congrArg (Text.splitOn '\n') hlines
    rwa [Text.ofLines, Text.ofLines, Text.splitOn_joinOn _ hnil h.whole,
      Text.splitOn_joinOn _ hnil' h'.whole] at hsplit

/-! ### The window around a diagnostic -/

section Window

variable (content : Text) (radius : Nat) (d : Diagnostic)

/-- The number of the first line that is shown. -/
def first : Nat := max 1 (d.line - radius)

/-- The number of the last line that is shown. -/
def last : Nat := min (Text.shownLines content).length (d.line + radius)

/-- The lines that are shown. -/
def window : List Text := ((Text.shownLines content).take (last content radius d)).drop (first radius d - 1)

variable {content d}

theorem first_le_succ_last (hline : d.line ≤ (Text.lines content).length) :
    first radius d ≤ last content radius d + 1 := by
  have hpos := d.line_pos
  have hshown := Text.length_le_length_shownLines (Text.lines content)
  rw [Text.ofLines_lines] at hshown
  unfold first last
  omega

/-- The heading is right about how many lines are shown. -/
theorem reports_around (hline : d.line ≤ (Text.lines content).length) :
    Reports d (around (Text.shownLines content) radius d) (first radius d) (last content radius d)
      (window content radius d) where
  text := List.append_assoc (heading d _ _) [.char '\n'] _
  whole := fun l hl hfeed => by
    have hl := List.mem_of_mem_take (List.mem_of_mem_drop hl)
    exact absurd (Text.shownLines_ends content l hl '\n' hfeed) (by decide)
  count := by
    have hle := first_le_succ_last radius hline
    have hlast : last content radius d ≤ (Text.shownLines content).length := Nat.min_le_left _ _
    have hfirst : 1 ≤ first radius d := Nat.le_max_left _ _
    rw [window, List.length_drop, List.length_take_of_le hlast]
    omega
  pos := Nat.le_max_left _ _

variable {radius}

theorem agrees_of_plain (hplain : ∀ l ∈ (Text.lines content).take (d.line + radius), Text.IsPlain l) :
    Agrees content (first radius d) (last content radius d) (window content radius d) := by
  have hlast : last content radius d ≤ (Text.shownLines content).length := Nat.min_le_left _ _
  have hplain : ∀ l ∈ (Text.lines content).take (last content radius d), Text.IsPlain l := by
    intro l hl
    exact hplain l (List.take_subset_take_left _ (Nat.min_le_right _ _) hl)
  have hshown := Text.take_shownLines (Text.lines content) (by rwa [Text.ofLines_lines]) hplain
  rw [Text.ofLines_lines] at hshown
  rw [Agrees, window, hshown, ← List.map_drop, List.map_map]
  refine List.map_congr_left fun l hl => ?_
  exact Text.withoutReturn_of_ends (hplain l (List.mem_of_mem_drop hl))

theorem window_ends : ∀ l ∈ window content radius d, ∀ c ∈ l, Text.isLineEnd c = false := by
  intro l hl
  exact Text.shownLines_ends content l (List.mem_of_mem_take (List.mem_of_mem_drop hl))

/-- The line of a diagnostic is shown, unless it is the empty one at the end of the file. -/
theorem line_le_last {l : Text} (hl : (Text.lines content)[d.line - 1]? = some l)
    (hk : d.line < (Text.lines content).length ∨ l ≠ []) : d.line ≤ last content radius d := by
  have hpos := d.line_pos
  have hshown := Text.lt_length_shownLines hl (hk.imp_left fun hlt => by omega)
  rw [Text.ofLines_lines] at hshown
  unfold last
  omega

theorem le_last (hline : d.line < (Text.lines content).length) : d.line ≤ last content radius d := by
  have hget := List.getElem?_eq_getElem (Nat.lt_of_le_of_lt (Nat.sub_le d.line 1) hline)
  exact line_le_last hget (.inl hline)

theorem mem_window_lines {l : Text} (hl : (Text.lines content)[d.line - 1]? = some l) (hne : l ≠ []) :
    l ∈ ((Text.lines content).take (last content radius d)).drop (first radius d - 1) := by
  have hpos := d.line_pos
  have hle : d.line ≤ last content radius d := line_le_last hl (.inr hne)
  have hfirst : first radius d - 1 ≤ d.line - 1 := by
    unfold first
    omega
  have hlast : d.line - 1 < last content radius d := by omega
  refine List.mem_iff_getElem?.2 ⟨d.line - 1 - (first radius d - 1), ?_⟩
  rw [List.getElem?_drop, Nat.add_sub_cancel' hfirst, List.getElem?_take_of_lt hlast, hl]

end Window

/-! ### Both ways to count -/

theorem plain_of_agrees {content : Text} {start stop : Nat} {shown : List Text}
    (h : Agrees content start stop shown)
    (hshown : ∀ l ∈ shown, ∀ c ∈ l, Text.isLineEnd c = false) :
    ∀ l ∈ ((Text.lines content).take stop).drop (start - 1), Text.IsPlain l := by
  intro l hl
  have hmem := List.mem_map_of_mem (f := Text.withoutReturn) hl
  rw [← h] at hmem
  obtain ⟨s, hs, heq⟩ := List.mem_map.1 hmem
  rw [Text.IsPlain, ← heq, Text.withoutReturn_of_ends (hshown s hs)]
  exact hshown s hs

theorem ofDiagnostic_of_textAt? {settings : Settings.Run} {files : FileTree} {d : Diagnostic} {names : List Text}
    {content : Text} (h : files.textAt? (resolve settings d.file) = some (names, content)) :
    ofDiagnostic settings files d =
      ([], .ok (around (Text.shownLines content) settings.contextLines.toNat d)) := by
  obtain ⟨hopens, htext⟩ := FileTree.textAt?_eq_some.1 h
  have hread : files.read (resolve settings d.file) = .ok (Utf8.encode content) := by
    simp only [FileTree.read, FileTree.lookup, hopens.located, hopens.unsealed, FileTree.nodeAt,
      FileTree.text?_eq_some.1 htext, Bool.false_eq_true, if_false]
  simp only [ofDiagnostic, hread, contextLines, Utf8.decodeLossy_encode (FileTree.encodable_of_text? htext)]
  rfl

/-- Whether the context of a diagnostic numbers the lines it shows as patches to the file number them. -/
def NumbersAlike (settings : Settings.Run) (files : FileTree) (content : Text) (d : Diagnostic) : Prop :=
  ∃ context start stop shown, ofDiagnostic settings files d = ([], .ok context) ∧
    Reports d context start stop shown ∧ Agrees content start stop shown

section File

variable {settings : Settings.Run} {files : FileTree} {d : Diagnostic} {names : List Text} {content : Text}
  (h : files.textAt? (resolve settings d.file) = some (names, content))
  (hline : d.line ≤ (Text.lines content).length)

include h hline

theorem numbersAlike_iff : NumbersAlike settings files content d ↔
    Agrees content (first settings.contextLines.toNat d) (last content settings.contextLines.toNat d)
      (window content settings.contextLines.toNat d) := by
  have hreports := reports_around settings.contextLines.toNat hline
  constructor
  · rintro ⟨context, start, stop, shown, hrun, hother, hagrees⟩
    rw [ofDiagnostic_of_textAt? h] at hrun
    cases hrun
    obtain ⟨rfl, rfl, rfl⟩ := hreports.unique hother
    exact hagrees
  · intro hagrees
    exact ⟨_, _, _, _, ofDiagnostic_of_textAt? h, hreports, hagrees⟩

end File

/-- For every diagnostic on a line of a file, the context gives as many lines as its heading says, the line of
the diagnostic among them. Its numbers are those that patches go by if no line up to the end of the window ends
within; all contexts of the file have the right numbers just if none of its lines does. -/
theorem numbersAlike_iff_plain (settings : Settings.Run) {files : FileTree} {file : Text} {names : List Text}
    {content : Text} (h : files.textAt? (resolve settings file) = some (names, content)) :
    (∀ d : Diagnostic, d.file = file → d.line ≤ (Text.lines content).length →
      (∃ context stop shown, ofDiagnostic settings files d = ([], .ok context) ∧
        Reports d context (max 1 (d.line - settings.contextLines.toNat)) stop shown ∧
        stop ≤ d.line + settings.contextLines.toNat ∧
        (d.line < (Text.lines content).length → d.line ≤ stop)) ∧
      ((∀ l ∈ (Text.lines content).take (d.line + settings.contextLines.toNat), Text.IsPlain l) →
        NumbersAlike settings files content d)) ∧
    ((∀ d : Diagnostic, d.file = file → d.line ≤ (Text.lines content).length →
      NumbersAlike settings files content d) ↔ ∀ l ∈ Text.lines content, Text.IsPlain l) := by
  have hplain : ∀ d : Diagnostic, d.file = file → d.line ≤ (Text.lines content).length →
      (∀ l ∈ (Text.lines content).take (d.line + settings.contextLines.toNat), Text.IsPlain l) →
      NumbersAlike settings files content d := by
    rintro d rfl hline hplain
    exact (numbersAlike_iff h hline).2 (agrees_of_plain hplain)
  refine ⟨fun d hfile hline => ⟨?_, hplain d hfile hline⟩, ?_, ?_⟩
  · subst hfile
    exact ⟨_, _, _, ofDiagnostic_of_textAt? h, reports_around _ hline, Nat.min_le_right _ _, le_last⟩
  · intro hall l hl
    by_cases hne : l = []
    · rw [hne]
      exact List.forall_mem_nil _
    · obtain ⟨k, hk, hget⟩ := List.mem_iff_getElem.1 hl
      -- a diagnostic on the line itself shows it
      let d : Diagnostic := ⟨file, k + 1, [], .error, Nat.le_add_left 1 k⟩
      have hagrees := (numbersAlike_iff (d := d) h hk).1 (hall d rfl hk)
      have hline : (Text.lines content)[d.line - 1]? = some l := List.getElem?_eq_some_iff.2 ⟨hk, hget⟩
      exact plain_of_agrees hagrees window_ends l (mem_window_lines hline hne)
  · intro hall d hfile hline
    exact hplain d hfile hline fun l hl => hall l (List.mem_of_mem_take hl)

/-- Carriage returns at the ends of lines do not matter. -/
theorem numbersAlike_of_mixed_line_ends :
    let content : Text := "one\r\ntwo\nthree\r\n"
    let names : List Text := ["a.ts"]
    let files : FileTree := { files := [(names, Utf8.encode content)] }
    files.textAt? (resolve Settings.Run.default "a.ts") = some (names, content) ∧
      ∀ d : Diagnostic, d.file = "a.ts" → d.line ≤ 4 → NumbersAlike Settings.Run.default files content d := by
  intro content names files
  have hfound : files.textAt? (resolve Settings.Run.default "a.ts") = some (names, content) := by decide
  refine ⟨hfound, ?_⟩
  exact (numbersAlike_iff_plain Settings.Run.default hfound).2.2 (by decide)

/-- A form feed makes two lines of the first one, and the end of it is shown in the place of the second. -/
theorem form_feed_shifts_numbers :
    let content : Text := "one\x0cstill one\ntwo\nthree\n"
    let names : List Text := ["a.ts"]
    let files : FileTree := { files := [(names, Utf8.encode content)] }
    let settings := { Settings.Run.default with contextLines := 0 }
    let d : Diagnostic := ⟨"a.ts", 2, "m", .error, by decide⟩
    files.textAt? (resolve settings d.file) = some (names, content) ∧
      d.line ≤ (Text.lines content).length ∧
      ofDiagnostic settings files d = ([], .ok "// a.ts lines 2-2, error at line 2\nstill one") ∧
      ¬ NumbersAlike settings files content d := by
  intro content names files settings d
  have hfound : files.textAt? (resolve settings d.file) = some (names, content) := by decide
  have hline : d.line ≤ (Text.lines content).length := by decide
  refine ⟨hfound, hline, ?_, ?_⟩
  · rw [ofDiagnostic_of_textAt? hfound]
    decide
  · rw [numbersAlike_iff hfound hline]
    decide

end Mend.CodeContext
