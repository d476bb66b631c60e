import Mend.Proofs.Engine.Ranges
import Mend.Proofs.LinePatch

/-!
# Patches of whole files

The patch from one text of a file to another goes through both texts line by line, so that the context in
front of its changes always stands in the old text. Where no line looks like the name of a file with its mark
in front (`Diff.Markable`), the patch turns the old text into the new one, and where no line does so with the
mark of the other side either, its reverse turns the new text back into the old one. A strict application
comes to the new text in no other case (`Patch.wholeFile_turns_old_into_new`): a mark that is not read leaves a
line behind at the end, and this would have to look like the names of two files at once.
-/

namespace Mend.Diff

/-! ### Lines of the body -/

theorem mem_wholeBody {os ns : List Text} {b : Text} (h : b ∈ wholeBody os ns) :
    (∃ l ∈ os, b = .char ' ' :: l ∨ b = .char '-' :: l) ∨ ∃ l ∈ ns, b = .char '+' :: l := by
  fun_induction wholeBody os ns with
  | case1 => cases h
  | case2 o os ih => grind
  | case3 n ns ih => grind
  | case4 os l ns ih => grind
  | case5 o os n ns hne ih => grind

theorem leadingContext_wholeBody (os ns : List Text) :
    ((wholeBody os ns ++ [[]]).takeWhile isContext).map payload <+: os := by
  fun_induction wholeBody os ns with
  | case1 => exact List.nil_prefix
  | case2 o os _ => exact List.nil_prefix
  | case3 n ns _ => exact List.nil_prefix
  | case4 os l ns ih => exact (List.prefix_cons_inj l).2 ih
  | case5 o os n ns _ _ => exact List.nil_prefix

/-! ### Lines that can be marked -/

/-- Whether the diff from some lines to others can mark the lines in which they differ: no old line looks like
the name of a file with a minus sign in front, and no new one with a plus sign. -/
def Markable (os ns : List Text) : Prop :=
  ∀ i : Nat, os[i]? ≠ ns[i]? →
    (∀ l ∈ os[i]?, Text.startsWith l "--" = false) ∧ ∀ l ∈ ns[i]?, Text.startsWith l "++" = false

instance (os ns : List Text) : Decidable (Markable os ns) :=
  decidable_of_iff (∀ i : Nat, i < max os.length ns.length → os[i]? ≠ ns[i]? →
      (∀ l ∈ os[i]?, Text.startsWith l "--" = false) ∧ ∀ l ∈ ns[i]?, Text.startsWith l "++" = false) <| by
    refine ⟨fun h i hne => h i ?_ hne, fun h i _ => h i⟩
    by_contra hlong
    obtain ⟨hos, hns⟩ : os.length ≤ i ∧ ns.length ≤ i := by omega
    exact hne (by rw [List.getElem?_eq_none hos, List.getElem?_eq_none hns])

theorem markable_iff (os ns : List Text) : Markable os ns ↔
    (os.head? ≠ ns.head? → (∀ l ∈ os.head?, Text.startsWith l "--" = false) ∧
      ∀ l ∈ ns.head?, Text.startsWith l "++" = false) ∧ Markable os.tail ns.tail := by
  unfold Markable
  rw [← Nat.and_forall_add_one]
  simp only [List.head?_eq_getElem?, List.getElem?_tail]

theorem markable_nil : Markable [] [] := fun _ hne => absurd rfl hne

theorem markable_cons_nil {o : Text} {os : List Text} :
    Markable (o :: os) [] ↔ Text.startsWith o "--" = false ∧ Markable os [] := by
  rw [markable_iff]
  simp

theorem markable_nil_cons {n : Text} {ns : List Text} :
    Markable [] (n :: ns) ↔ Text.startsWith n "++" = false ∧ Markable [] ns := by
  rw [markable_iff]
  simp

theorem markable_cons_self {l : Text} {os ns : List Text} :
    Markable (l :: os) (l :: ns) ↔ Markable os ns := by
  rw [markable_iff]
  simp

theorem markable_cons_cons {o n : Text} (hne : o ≠ n) {os ns : List Text} :
    Markable (o :: os) (n :: ns) ↔
      (Text.startsWith o "--" = false ∧ Text.startsWith n "++" = false) ∧ Markable os ns := by
  rw [markable_iff]
  simp [hne]

/-! ### Bodies -/

theorem kind_space (l : Text) : kind (.char ' ' :: l) = .context := (kind_eq_context _).2 rfl

theorem kind_minus_of_mark {l : Text} (h : Text.startsWith l "--" = true) : kind (.char '-' :: l) = .other := by
  have hr : isRemoval (.char '-' :: l) = false := by simpa [isRemoval, Text.startsWith] using h
  simp [kind, hr, isAddition, isContext, Text.startsWith]

theorem kind_plus_of_mark {l : Text} (h : Text.startsWith l "++" = true) : kind (.char '+' :: l) = .other := by
  have ha : isAddition (.char '+' :: l) = false := by simpa [isAddition, Text.startsWith] using h
  simp [kind, ha, isRemoval, isContext, Text.startsWith]

/-- The lines that a body makes of those that it expects. -/
def made (body : List Text) : List Text := refill body (expected body)

variable {l : Text} {os ns body : List Text}

theorem expected_made_space : expected ((.char ' ' :: l) :: body) = l :: expected body ∧
    made ((.char ' ' :: l) :: body) = l :: made body := by
  simp [made, expected_cons, isOld_eq, refill, kind_space, payload]

theorem expected_made_minus :
    expected ((.char '-' :: l) :: body) = (if Text.startsWith l "--" then expected body else l :: expected body) ∧
    made ((.char '-' :: l) :: body) = made body := by
  by_cases h : Text.startsWith l "--" = true
  · simp only [made, expected_cons, isOld_eq, refill, kind_minus_of_mark h, if_pos h]
    exact ⟨rfl, rfl⟩
  · simp only [made, expected_cons, isOld_eq, refill, kind_minus (Bool.eq_false_iff.2 h), if_neg h]
    exact ⟨rfl, rfl⟩

theorem expected_made_plus :
    expected ((.char '+' :: l) :: body) = expected body ∧
    made ((.char '+' :: l) :: body) = if Text.startsWith l "++" then made body else l :: made body := by
  by_cases h : Text.startsWith l "++" = true
  · simp only [made, expected_cons, isOld_eq, refill, kind_plus_of_mark h, if_pos h]
    exact ⟨rfl, rfl⟩
  · simp only [made, expected_cons, isOld_eq, refill, kind_plus (Bool.eq_false_iff.2 h), if_neg h]
    exact ⟨rfl, rfl⟩

-- What is kept of some lines when the first of them is left out if it looks like the name of a file.
theorem sublist_of_kept {kept : List Text} (h : kept.Sublist os) (c : Bool) :
    (if c then kept else l :: kept).Sublist (l :: os) := by
  cases c with
  | true => exact h.cons l
  | false => exact h.cons_cons l

theorem kept_eq_cons_iff {kept : List Text} (h : kept.Sublist os) (c : Bool) :
    (if c then kept else l :: kept) = l :: os ↔ c = false ∧ kept = os := by
  cases c with
  | true =>
    have hlen := h.length_le
    simp only [if_true, Bool.true_eq_false, false_and, iff_false]
    intro he
    rw [he, List.length_cons] at hlen
    omega
  | false => simp

theorem countP_of_kept {kept : List Text} (p : Text → Bool)
    (h : kept.countP (fun k => !p k) = os.countP fun k => !p k) :
    (if p l then kept else l :: kept).countP (fun k => !p k) = (l :: os).countP fun k => !p k := by
  cases hp : p l with
  | true => simpa [hp] using h
  | false => simpa [hp] using h

/-! ### The body of a whole file -/

theorem sublist_wholeBody (os ns : List Text) :
    (expected (wholeBody os ns)).Sublist os ∧ (made (wholeBody os ns)).Sublist ns := by
  fun_induction wholeBody os ns with
  | case1 => exact ⟨.slnil, .slnil⟩
  | case2 o os ih =>
    rw [expected_made_minus.1, expected_made_minus.2]
    exact ⟨sublist_of_kept ih.1 _, ih.2⟩
  | case3 n ns ih =>
    rw [expected_made_plus.1, expected_made_plus.2]
    exact ⟨ih.1, sublist_of_kept ih.2 _⟩
  | case4 os l ns ih =>
    rw [expected_made_space.1, expected_made_space.2]
    exact ⟨ih.1.cons_cons _, ih.2.cons_cons _⟩
  | case5 o os n ns hne ih =>
    rw [expected_made_minus.1, expected_made_minus.2, expected_made_plus.1, expected_made_plus.2]
    exact ⟨sublist_of_kept ih.1 _, sublist_of_kept ih.2 _⟩

/-- No line is lost but those that look like the name of a file with their mark in front. -/
theorem countP_wholeBody (os ns : List Text) :
    (expected (wholeBody os ns)).countP (fun l => !Text.startsWith l "--") =
        os.countP (fun l => !Text.startsWith l "--") ∧
      (made (wholeBody os ns)).countP (fun l => !Text.startsWith l "++") =
        ns.countP fun l => !Text.startsWith l "++" := by
  fun_induction wholeBody os ns with
  | case1 => exact ⟨rfl, rfl⟩
  | case2 o os ih =>
    rw [expected_made_minus.1, expected_made_minus.2]
    exact ⟨countP_of_kept (Text.startsWith · "--") ih.1, ih.2⟩
  | case3 n ns ih =>
    rw [expected_made_plus.1, expected_made_plus.2]
    exact ⟨ih.1, countP_of_kept (Text.startsWith · "++") ih.2⟩
  | case4 os l ns ih =>
    rw [expected_made_space.1, expected_made_space.2]
    simp only [List.countP_cons, ih.1, ih.2, and_self]
  | case5 o os n ns hne ih =>
    rw [expected_made_minus.1, expected_made_minus.2, expected_made_plus.1, expected_made_plus.2]
    exact ⟨countP_of_kept (Text.startsWith · "--") ih.1, countP_of_kept (Text.startsWith · "++") ih.2⟩

/-- The body from some lines to others reads as both exactly where it can mark the lines that differ. -/
theorem markable_iff_wholeBody (os ns : List Text) :
    Markable os ns ↔ expected (wholeBody os ns) = os ∧ made (wholeBody os ns) = ns := by
  fun_induction wholeBody os ns with
  | case1 => exact ⟨fun _ => ⟨rfl, rfl⟩, fun _ => markable_nil⟩
  | case2 o os ih =>
    rw [markable_cons_nil, expected_made_minus.1, expected_made_minus.2,
      kept_eq_cons_iff (sublist_wholeBody os []).1, ih, and_assoc]
  | case3 n ns ih =>
    rw [markable_nil_cons, expected_made_plus.1, expected_made_plus.2,
      kept_eq_cons_iff (sublist_wholeBody [] ns).2, ih, and_left_comm]
  | case4 os l ns ih =>
    rw [markable_cons_self, expected_made_space.1, expected_made_space.2, ih, List.cons_inj_right,
      List.cons_inj_right]
  | case5 o os n ns hne ih =>
    rw [markable_cons_cons hne, expected_made_minus.1, expected_made_minus.2, expected_made_plus.1,
      expected_made_plus.2, kept_eq_cons_iff (sublist_wholeBody os ns).1,
      kept_eq_cons_iff (sublist_wholeBody os ns).2, ih, and_and_and_comm]

theorem marksReadable_cons {b : Text} :
    MarksReadable (b :: body) ↔ ((isAddition b = true → Text.startsWith (payload b) "--" = false) ∧
      (isRemoval b = true → Text.startsWith (payload b) "++" = false)) ∧ MarksReadable body :=
  List.forall_mem_cons

/-- Where the lines that differ can be marked the other way round, so can the lines of the body. -/
theorem marksReadable_wholeBody (h : Markable ns os) : MarksReadable (wholeBody os ns ++ [[]]) := by
  fun_induction wholeBody os ns with
  | case1 => decide
  | case2 o os ih =>
    obtain ⟨ho, h⟩ := markable_nil_cons.1 h
    exact marksReadable_cons.2 ⟨⟨nofun, fun _ => ho⟩, ih h⟩
  | case3 n ns ih =>
    obtain ⟨hn, h⟩ := markable_cons_nil.1 h
    exact marksReadable_cons.2 ⟨⟨fun _ => hn, nofun⟩, ih h⟩
  | case4 os l ns ih => exact marksReadable_cons.2 ⟨⟨nofun, nofun⟩, ih (markable_cons_self.1 h)⟩
  | case5 o os n ns hne ih =>
    obtain ⟨⟨hn, ho⟩, h⟩ := (markable_cons_cons (Ne.symm hne)).1 h
    exact marksReadable_cons.2 ⟨⟨nofun, fun _ => ho⟩, marksReadable_cons.2 ⟨⟨fun _ => hn, nofun⟩, ih h⟩⟩

/-! ### The hunk of a whole file -/

/-- The hunk from some lines to others. The line feed at the end of its diff leaves an empty line. -/
def wholeHunk (os ns : List Text) : Hunk := ⟨1, os.length, 1, ns.length, wholeBody os ns ++ [[]]⟩

theorem expected_concat_nil (body : List Text) : expected (body ++ [[]]) = expected body := by
  simp [expected, isOld, isContext, isRemoval, Text.startsWith]

theorem refill_concat_nil (body window : List Text) :
    refill (body ++ [[]]) window = refill body window := by
  induction body generalizing window with
  | nil => rfl
  | cons b body ih => simp only [List.cons_append, refill, ih]

theorem edit_wholeHunk (os ns : List Text) :
    (wholeHunk os ns).edit = ⟨1, expected (wholeBody os ns), made (wholeBody os ns)⟩ := by
  simp only [Hunk.edit, wholeHunk, made, expected_concat_nil, refill_concat_nil]

theorem hunks_wholeFile {file old new : Text} (hfile : .char '\n' ∉ file)
    (hold : (Number.print (Text.lines old).length).isOk = true)
    (hnew : (Number.print (Text.lines new).length).isOk = true) :
    hunks (wholeFile file old new) = .ok [wholeHunk (Text.lines old) (Text.lines new)] := by
  have hbody : ∀ b ∈ wholeBody (Text.lines old) (Text.lines new) ++ [[]],
      .char '\n' ∉ b ∧ b.head? ≠ some (.char '@') := by
    intro b hb
    rcases List.mem_append.1 hb with hb | hb
    · rcases mem_wholeBody hb with ⟨l, hl, rfl | rfl⟩ | ⟨l, hl, rfl⟩
      all_goals exact ⟨by simpa using newline_not_mem_of_mem_lines hl, by simp⟩
    · obtain rfl := List.mem_singleton.1 hb
      exact ⟨List.not_mem_nil, by simp⟩
  rw [wholeFile, ofLines_append_newline (by simp), List.append_assoc, List.cons_append]
  exact hunks_oneHunk hfile hbody (by decide) (length_of_print hold) (length_of_print hnew)

theorem apply_of_edit?_lines {diff content result : Text}
    (h : edit? diff = some ⟨1, Text.lines content, Text.lines result⟩) (strict : Bool) :
    apply strict content diff = .ok result := by
  have hfound : Edit.Matches ⟨1, Text.lines content, Text.lines result⟩ (Text.lines content) :=
    ⟨Nat.le_refl 1, lines_ne_nil content, List.prefix_rfl⟩
  rw [apply_of_edit? h hfound]
  simp [Edit.applied]

theorem not_startsWith_both (l : Text) :
    ¬ (Text.startsWith l "--" = true ∧ Text.startsWith l "++" = true) := by
  rintro ⟨hminus, hplus⟩
  obtain ⟨_, rfl⟩ := List.isPrefixOf_iff_prefix.1 hminus
  cases hplus

theorem forall_of_countP_append {p : Text → Bool} {kept rest all : List Text} (hall : kept ++ rest = all)
    (h : kept.countP (fun l => !p l) = all.countP fun l => !p l) : ∀ l ∈ rest, p l = true := by
  have hnone : rest.countP (fun l => !p l) = 0 := by
    rw [← hall, List.countP_append] at h
    omega
  simpa [List.countP_eq_zero] using hnone

/-- Lines behind those that the body of a whole file reads, in both texts, would look like the names of two
files. -/
theorem eq_nil_of_append_wholeBody {rest : List Text} (hos : expected (wholeBody os ns) ++ rest = os)
    (hns : made (wholeBody os ns) ++ rest = ns) : rest = [] := by
  obtain ⟨hold, hnew⟩ := countP_wholeBody os ns
  refine List.eq_nil_iff_forall_not_mem.2 fun l hl => not_startsWith_both l ⟨?_, ?_⟩
  · exact forall_of_countP_append (p := (Text.startsWith · "--")) hos hold l hl
  · exact forall_of_countP_append (p := (Text.startsWith · "++")) hns hnew l hl

theorem made_wholeBody_ne_nil {old new : Text} (hnil : made (wholeBody (Text.lines old) (Text.lines new)) = []) :
    new ≠ [] := by
  -- the empty text has one line, which is empty and so not left out
  rintro rfl
  have hnew := (countP_wholeBody (Text.lines old) (Text.lines [])).2
  rw [hnil] at hnew
  cases hnew

/-- A strict application of the hunk has found what its body reads at the beginning, and keeps the rest. -/
theorem exists_rest_of_applyHunk {ls : List Text} (happ : applyHunk true (wholeHunk os ns) os = .ok ls) :
    ∃ rest, expected (wholeBody os ns) ++ rest = os ∧ made (wholeBody os ns) ++ rest = ls := by
  have hexp : expected (wholeHunk os ns).body = expected (wholeBody os ns) := expected_concat_nil _
  by_cases hfound : expected (wholeBody os ns) <+: os
  · have hone := @applyHunk_of_found (wholeHunk os ns) [] os rfl true
      (by rw [hexp]; exact hfound.length_le) fun _ => hexp ▸ hfound
    obtain ⟨rest, hrest⟩ := hfound
    have hrefill := refill_append (wholeBody os ns) _ rest rfl
    rw [hrest] at hrefill
    rw [List.nil_append, List.nil_append, happ, wholeHunk, refill_concat_nil, hrefill] at hone
    exact ⟨rest, hrest, (Except.ok.inj hone).symm⟩
  · obtain ⟨k, -, -, he⟩ := @applyHunk_of_absent (wholeHunk os ns) os (Nat.le_refl 1)
      (by rw [hexp]; exact hfound)
    rw [happ] at he
    cases he

/-- A strict application that comes to the new text has read all of the old one, and nothing is left behind. -/
theorem markable_of_apply {diff old new : Text}
    (hd : hunks diff = .ok [wholeHunk (Text.lines old) (Text.lines new)])
    (happ : apply true old diff = .ok new) : Markable (Text.lines old) (Text.lines new) := by
  obtain ⟨ls, hls, hnew⟩ := applyHunks_of_apply hd (List.cons_ne_nil _ _) happ
  obtain ⟨mid, hmid, hone⟩ := applyHunks_cons_eq_ok hls
  obtain rfl : Text.lines old = mid := Except.ok.inj hmid
  obtain ⟨rest, hold, rfl⟩ := exists_rest_of_applyHunk hone
  -- no lines at all would be joined to the empty text, which is read as one line
  have hsome : made (wholeBody (Text.lines old) (Text.lines new)) ++ rest ≠ [] := by
    intro hnil
    obtain ⟨hmade, rfl⟩ := List.append_eq_nil_iff.1 hnil
    exact made_wholeBody_ne_nil hmade (by rw [hnew, hmade]; rfl)
  have hlines : Text.lines new = made (wholeBody (Text.lines old) (Text.lines new)) ++ rest := by
    conv => lhs; rw [hnew]
    refine lines_ofLines hsome fun l hl => ?_
    rcases List.mem_append.1 hl with hl | hl
    · exact newline_not_mem_of_mem_lines ((sublist_wholeBody _ _).2.subset hl)
    · exact newline_not_mem_of_mem_lines (hold ▸ List.mem_append_right _ hl)
  obtain rfl := eq_nil_of_append_wholeBody hold hlines.symm
  rw [List.append_nil] at hold hlines
  exact (markable_iff_wholeBody _ _).2 ⟨hold, hlines.symm⟩

end Mend.Diff

namespace Mend.Patch

open Diff (Markable)

/-- A patch from one text to another fits the old text. In a strict application it turns the old text into the
new one exactly where no changed line looks like the name of a file with its mark in front, and there a lenient
one does so too. Where that is so with the marks exchanged as well, the reversed diff brings the old text back. -/
theorem wholeFile_turns_old_into_new {file old new : Text} (hfile : .char '\n' ∉ file)
    (hold : (Number.print (Text.lines old).length).isOk = true)
    (hnew : (Number.print (Text.lines new).length).isOk = true) (description : Text) (source : PatchSource) :
    let p := wholeFile file old new description source
    let os := Text.lines old
    let ns := Text.lines new
    Engine.Fits old p ∧ (Diff.apply true old p.diff = .ok new ↔ Markable os ns) ∧
      (Markable os ns → Diff.apply false old p.diff = .ok new) ∧
      (Markable os ns → Markable ns os →
        ∀ strict, Diff.apply strict new (Diff.reverse p.diff) = .ok old) := by
  intro p os ns
  have hd : Diff.hunks p.diff = .ok [Diff.wholeHunk os ns] := Diff.hunks_wholeFile hfile hold hnew
  have hedit : Markable os ns → (Diff.wholeHunk os ns).edit = ⟨1, os, ns⟩ := fun hm => by
    obtain ⟨hos, hns⟩ := (Diff.markable_iff_wholeBody os ns).1 hm
    rw [Diff.edit_wholeHunk, hos, hns]
  have hforth : Markable os ns → ∀ strict, Diff.apply strict old p.diff = .ok new := fun hm =>
    Diff.apply_of_edit?_lines (by simp only [Diff.edit?, hd, hedit hm]; rfl)
  refine ⟨?_, ⟨Diff.markable_of_apply hd, fun hm => hforth hm true⟩, fun hm => hforth hm false,
    fun hm hback => ?_⟩
  · -- the context in front of the first change is read in any case
    obtain ⟨rest, hrest⟩ := Diff.leadingContext_wholeBody os ns
    exact (Engine.fits_iff hd).2 (List.forall_mem_singleton.2 (Engine.firstMismatch?_eq_none.2 ⟨rest, hrest⟩))
  · have hreversed : (Diff.wholeHunk os ns).reversed.edit = ⟨1, ns, os⟩ := by
      rw [Diff.edit_reversed (Diff.marksReadable_wholeBody hback), hedit hm]
      rfl
    refine Diff.apply_of_edit?_lines ?_
    simp only [Diff.edit?, Diff.hunks_reverse hd, List.map_cons, List.map_nil, hreversed]
    rfl

/-- A changed line, a line with a minus sign in both texts, and a last line that only the old text has. -/
theorem wholeFile_turns_old_into_new_of_three_lines :
    let old : Text := "one\n--two\nthree\n"
    let new : Text := "+one\n--two\nfour"
    let p := wholeFile "a.ts" old new "" .manual
    Engine.Fits old p ∧ Diff.apply true old p.diff = .ok new ∧ Diff.apply false old p.diff = .ok new ∧
      ∀ strict, Diff.apply strict new (Diff.reverse p.diff) = .ok old := by
  intro old new p
  have hforth : Markable (Text.lines old) (Text.lines new) := by decide
  have hback : Markable (Text.lines new) (Text.lines old) := by decide
  obtain ⟨hfits, hstrict, hlenient, hreverse⟩ := @wholeFile_turns_old_into_new "a.ts" old new (by decide)
    (by decide) (by decide) "" .manual
  exact ⟨hfits, hstrict.2 hforth, hlenient hforth, hreverse hforth hback⟩

/-- An old line that begins with two minus signs is not removed. It stays behind the new text, and a strict
application does not find the context that should follow. -/
theorem wholeFile_leaves_dashed_line :
    let p := wholeFile "a.ts" "--a\n" "b\n" "" .manual
    p.diff = "--- a/a.ts\n+++ b/a.ts\n@@ -1,2 +1,2 @@\n---a\n+b\n \n" ∧
      (∀ strict, Diff.apply strict "--a\n" p.diff ≠ .ok "b\n") ∧
      Diff.apply false "--a\n" p.diff = .ok "b\n--a\n" ∧
      Diff.apply true "--a\n" p.diff = .error (.misfit (.lineMismatch 1 1)) := by
  have hold : Text.lines "--a\n" = ("--a" :: [""] : List Text) := by decide
  have hnew : Text.lines "b\n" = ("b" :: [""] : List Text) := by decide
  have hbody : Diff.wholeBody ("--a" :: [""]) ("b" :: [""]) = ("---a" :: "+b" :: [" "] : List Text) := by
    simp [Diff.wholeBody]
  simp only [wholeFile, Diff.wholeFile, hold, hnew, hbody]
  decide +kernel

end Mend.Patch
