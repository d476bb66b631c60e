import Mend.Proofs.Engine.Ranges
import Mend.Proofs.Engine.Retract
import Mend.Proofs.RuleFix

/-!
# Applying the patch of a rule

The patch that a rule makes shows no context, so the engine checks it line by line in both of its modes. It is
applied exactly where the lines that it removes stand at the line of the diagnostic and those that it adds can be
written (`Engine.apply_replaceLines`). Behind the end of the file no line stands, and the patch is refused there as
anywhere else.
-/

namespace Mend.Diff

variable {start : Nat} {removed added : List Text} {content diff : Text}

theorem Legible.edit?_eq (hx : Legible removed added)
    (hd : hunks diff = .ok [replacementHunk start removed added]) :
    edit? diff = some ⟨start, removed, added⟩ := by
  simp only [edit?, hd, Hunk.edit, replacementHunk, hx.expected_body, hx.refill_body]

/-- The only edit of a diff that replaces lines is that of its own hunk, whatever the name of the file is. -/
theorem Legible.edit?_replacingLines (hx : Legible removed added) {file description : Text} {e : Edit}
    (he : edit? (Patch.replacingLines file start removed added description).diff = some e) :
    e = ⟨start, removed, added⟩ := by
  obtain ⟨k, hk, rfl⟩ := exists_hunk_of_edit? he
  rw [diff_replacingLines, hunks, sections_afterFile file start removed added hx.body_regular] at hk
  cases hfile : sections (Text.ofLines (fileLines file)) with
  | nil =>
    rw [hfile] at hk
    obtain ⟨g, gs, hgs, hg, -⟩ := hunksOf_cons hk
    obtain ⟨rfl, -⟩ := List.cons.inj hgs
    obtain ⟨hstart, -, -, -, hbody⟩ := Section.hunk_spec hg
    have hstart : start = k.oldStart :=
      (Text.numeralValue_ofNat start).symm.trans (Number.ofDigits_eq_ok.1 hstart).2
    simp only [Hunk.edit, hbody, hx.expected_body, hx.refill_body, ← hstart]
  | cons s ss =>
    -- a hunk in the name of the file would be one more
    rw [hfile] at hk
    obtain ⟨g, gs, hgs, -, hrest⟩ := hunksOf_cons hk
    obtain ⟨-, rfl⟩ := List.cons.inj hgs
    obtain ⟨u, us, hmore⟩ := List.exists_cons_of_ne_nil
      (List.append_ne_nil_of_right_ne_nil ss (List.cons_ne_nil _ []))
    rw [List.append_eq, hmore] at hrest
    obtain ⟨b, bs, hnone, -⟩ := hunksOf_cons hrest
    cases hnone

/-- Lines that are not there are missed at the first one that differs. It is one of the text or comes right
behind its end, unless it is the line at which the removed lines should begin. -/
theorem Legible.apply_of_absent (hx : Legible removed added)
    (hd : hunks diff = .ok [replacementHunk start removed added]) (hpos : 1 ≤ start)
    (hstart : (Text.ofNat start).length ≤ Number.maxDigits)
    (habsent : ¬ removed <+: (Text.lines content).drop (start - 1)) :
    ∃ e, apply true content diff = .error e ∧
      ((Text.ofNat ((Text.lines content).length + 1)).length ≤ Number.maxDigits →
        ∃ m, e = .misfit m) := by
  rw [apply_of_hunks hd (List.cons_ne_nil _ _)]
  generalize Text.lines content = ls at *
  obtain ⟨k, hk, htake, he⟩ := hx.applyHunk_of_absent hpos habsent
  have hlen := htake.length_le
  rw [List.length_take, List.length_drop] at hlen
  refine ⟨_, by simp only [applyHunks, he]; rfl, fun hsize => ⟨.lineMismatch (start + k) start, ?_⟩⟩
  cases k with
  | zero => exact misfitAt_of_print hstart _
  | succ k =>
    by_cases hin : start + (k + 1) ≤ ls.length
    · exact if_pos hin
    · have hend : start + (k + 1) = ls.length + 1 := by omega
      rw [hend]
      exact misfitAt_of_print hsize _

end Mend.Diff

namespace Mend.Engine

open Diff (Legible)

/-- A patch that makes a text which cannot be encoded ends with that fault, and its file is empty. -/
theorem apply_of_unencodable {strict : Bool} {w : Workspace} {path : Text} {p : Patch} {names : List Text}
    {content new : Text} (ht : w.files.textAt? (Path.ofText path) = some (names, content))
    (hfits : Fits content p) (hmade : Diff.apply (isStrict strict p) content p.diff = .ok new)
    {e : Utf8.EncodeError} (he : Utf8.problem? new = some e) :
    ∃ w', apply strict w path p = (w', .error (.encoding e)) ∧ w'.files = w.files.put names .empty := by
  have hfault : (revise strict content p).2 = .error (.inr (.encoding e)) :=
    revise_eq_fault.2 ⟨hfits, new, hmade, he⟩
  have happ := apply_spec strict w path p
  rw [patchFile_of_text ht, hfault] at happ
  exact happ

/-- A diff that cannot be applied to the text of a file leaves all files as they are. -/
theorem apply_of_not_made {strict : Bool} {w : Workspace} {path : Text} {p : Patch} {names : List Text}
    {content : Text} (ht : w.files.textAt? (Path.ofText path) = some (names, content))
    (hnot : ∀ new, Diff.apply (isStrict strict p) content p.diff ≠ .ok new) :
    (apply strict w path p).2 ≠ .ok true ∧ (apply strict w path p).1.files = w.files := by
  rcases apply_cases strict w path p with
    ⟨w', found, there, made, happ, hacc, -⟩ | ⟨w', happ, hfiles⟩ |
    ⟨w', f, happ, hraises, ⟨-, hfiles⟩ | ⟨e, -, -, rfl, -⟩⟩
  · obtain ⟨rfl, rfl⟩ : names = found ∧ content = there := by simpa [ht] using hacc.found
    exact absurd hacc.made (hnot made)
  · exact ⟨by simp [happ], by simp only [happ, hfiles]⟩
  · exact ⟨by simp [happ], by simp only [happ, hfiles]⟩
  · -- only a text that was made cannot be encoded
    cases hraises with
    | text hthere hun =>
      obtain ⟨rfl, rfl⟩ : names = _ ∧ content = _ := by simpa [ht] using hthere
      obtain ⟨-, made, hmade, -⟩ := hun
      exact absurd hmade (hnot made)

/-- The patch of a rule for a diagnostic, on a file with a text, in a strict or a lenient engine: it is applied if
and only if the lines from that of the diagnostic on are those that it removes and the added ones can be written.
Then the added lines stand in the place of the others. If only the lines to remove are there, the file is empty and
the fault names what cannot be encoded; otherwise no file changes. There is an answer in every text whose lines,
and the one behind them, have numbers that can be printed. -/
theorem apply_replaceLines {removed added : List Text} (hx : Legible removed added) {d : Diagnostic}
    (hfile : .char '\n' ∉ d.file) (hline : (Number.print d.line).isOk = true) {w : Workspace} {path : Text}
    {names : List Text} {content : Text} (ht : w.files.textAt? (Path.ofText path) = some (names, content))
    (description : Text) (strict : Bool) :
    ∃ p, Rule.replaceLines d removed added description = .ok (some p) ∧
      let ls := Text.lines content
      let run := apply strict w path p
      let new := Text.ofLines (ls.take (d.line - 1) ++ added ++ ls.drop (d.line - 1 + removed.length))
      let found := (ls.drop (d.line - 1)).take removed.length = removed
      let written := ∀ l ∈ added, Utf8.Encodable l
      (run.2 = .ok true ↔ found ∧ written) ∧
        (run.1.files =
          if found then w.files.put names (if written then Utf8.encode new else .empty) else w.files) ∧
        (found → ¬ written → ∃ e, Utf8.problem? new = some e ∧ run.2 = .error (.encoding e)) ∧
        ((Number.print (ls.length + 1 : ℕ)).isOk = true → (found → written) → run.2 = .ok (decide found)) := by
  let p : Patch := .replacingLines d.file d.line removed added description
  refine ⟨p, Rule.replaceLines_of_printable hline _ _ _, ?_⟩
  intro ls run new found written
  have hstart := Diff.length_of_print hline
  have hd : Diff.hunks p.diff = .ok [Diff.replacementHunk d.line removed added] :=
    Diff.hunks_replacingLines hx hfile hstart description
  have hchecked : isStrict strict p = true := Bool.or_true _
  have hread := FileTree.encodable_of_text? (FileTree.textAt?_eq_some.1 ht).2
  by_cases hfound : found
  · have hedit := hx.edit?_eq hd
    have hmatches : Diff.Edit.Matches ⟨d.line, removed, added⟩ ls :=
      ⟨d.line_pos, hx.removes, List.prefix_iff_eq_take.2 hfound.symm⟩
    rw [if_pos hfound, decide_eq_true hfound]
    by_cases hwritten : written
    · obtain ⟨w', happ, hfiles⟩ := apply_of_text ht (revise_of_edit? hedit hmatches hread hwritten strict)
      have hrun : run = (w', .ok true) := happ
      rw [hrun, if_pos hwritten]
      exact ⟨iff_of_true rfl ⟨hfound, hwritten⟩, hfiles, fun _ hnot => absurd hwritten hnot, fun _ _ => rfl⟩
    · have hlost : ¬ Utf8.Encodable new := fun h => hwritten fun l hl =>
        Utf8.encodable_ofLines_iff.1 h l (List.mem_append_left _ (List.mem_append_right _ hl))
      obtain ⟨e, he⟩ := Option.ne_none_iff_exists'.1 fun h => hlost (Utf8.problem?_eq_none_iff.1 h)
      obtain ⟨w', happ, hfiles⟩ := apply_of_unencodable ht (fits_of_edit? hedit hmatches)
        (Diff.apply_of_edit? hedit hmatches (isStrict strict p)) he
      have hrun : run = (w', .error (.encoding e)) := happ
      rw [hrun, if_neg hwritten]
      exact ⟨iff_of_false (fun h => nomatch h) fun h => hwritten h.2, hfiles, fun _ _ => ⟨e, he, rfl⟩,
        fun _ hall => absurd (hall hfound) hwritten⟩
  · have habsent : ¬ removed <+: ls.drop (d.line - 1) := fun hp =>
      hfound (List.prefix_iff_eq_take.1 hp).symm
    obtain ⟨e, he, hmisfit⟩ := hx.apply_of_absent hd d.line_pos hstart habsent
    rw [if_neg hfound, decide_eq_false hfound]
    obtain ⟨hno, hkept⟩ := apply_of_not_made ht fun new hnew => by
      rw [hchecked, he] at hnew
      cases hnew
    refine ⟨iff_of_false hno fun h => hfound h.1, hkept, fun h => absurd h hfound, fun hsize _ => ?_⟩
    obtain ⟨m, rfl⟩ := hmisfit (Diff.length_of_print hsize)
    have hrefused : (revise strict content p).2 = .error (.inl (.misfit m)) := by
      rw [revise_of_no_context hd (by simpa using hx.leadingContext.1), hchecked, he]
      rfl
    obtain ⟨w', happ, -⟩ := apply_of_refusal ht hrefused
    simp only [run, happ]

/-- The last two lines of a file are replaced by one. One line further down, the second of the lines would stand
behind the end of the file. -/
theorem apply_replaceLines_of_last_lines :
    let names : List Text := ["a.ts"]
    let old : Text := "one\ntwo\ntwo"
    let new : Text := "one\n--two"
    let w := Workspace.start { files := [(names, Utf8.encode old)] }
    let patchAt (line : Nat) : Patch := .replacingLines "a.ts" line ["two", "two"] ["--two"] ""
    ∀ strict,
      ((apply strict w "a.ts" (patchAt 2)).2 = .ok true ∧
        (apply strict w "a.ts" (patchAt 2)).1.files.text? names = some new) ∧
      (apply strict w "a.ts" (patchAt 3)).2 = .ok false ∧
        (apply strict w "a.ts" (patchAt 3)).1.files = w.files := by
  intro names old new w patchAt strict
  have hfile : .char '\n' ∉ ("a.ts" : Text) := by decide
  have hx : Legible ["two", "two"] ["--two"] := by decide
  have ht : w.files.textAt? (Path.ofText "a.ts") = some (names, old) := by decide
  have hrun := fun (line : Nat) (h : 1 ≤ line) (hprint : (Number.print line).isOk = true) =>
    apply_replaceLines hx (d := ⟨"a.ts", line, "", .error, h⟩) hfile hprint ht "" strict
  obtain ⟨p, hp, hiff, hchanged, -, -⟩ := hrun 2 (by decide) (by decide)
  obtain ⟨q, hq, -, hkept, -, hanswer⟩ := hrun 3 (by decide) (by decide)
  obtain rfl : p = patchAt 2 := Rule.patch_of_replaceLines hp
  obtain rfl : q = patchAt 3 := Rule.patch_of_replaceLines hq
  refine ⟨⟨hiff.2 (by decide), ?_⟩, hanswer (by decide) (by decide), hkept.trans (if_neg (by decide))⟩
  rw [hchanged, if_pos (by decide), if_pos (by decide)]
  decide

/-- The line to replace is there, and the line in its place is half of a surrogate pair. The patch is not applied,
and the file is empty. -/
theorem apply_replaceLines_empties_file :
    let names : List Text := ["a.ts"]
    let w := Workspace.start { files := [(names, Utf8.encode "one\n")] }
    let half : Text := [.ofNat 0xD800]
    let p : Patch := .replacingLines "a.ts" 1 ["one"] [half] ""
    Legible ["one"] [half] ∧ w.files.text? names = some "one\n" ∧
      ((Text.lines "one\n").drop (1 - 1)).take 1 = ["one"] ∧
      ∀ strict, (apply strict w "a.ts" p).2 = .error (.encoding ⟨0, 1, 0xD800⟩) ∧
        (apply strict w "a.ts" p).2 ≠ .ok true ∧ (apply strict w "a.ts" p).1.files.text? names = some [] := by
  intro names w half p
  have hrun : ∀ strict, (apply strict w "a.ts" p).2 = .error (.encoding ⟨0, 1, 0xD800⟩) := by decide
  refine ⟨by decide, by decide, by decide, fun strict => ⟨hrun strict, ?_, ?_⟩⟩
  · rw [hrun strict]
    nofun
  · revert strict
    decide

end Mend.Engine
