import Mend.Proofs.Diff.Undo
import Mend.Proofs.Engine.Answer

/-!
# What a rollback restores

A rollback applies reversed patches, it does not put back what a file held. So a rollback in which no
revert is refused may still leave something of the failed batch behind. What it makes of a file
depends on the patches for this file alone (`Applied.text`), and it restores the file exactly where
these patches and their reverses, the last one first, bring its text back (`RoundTrips`). For
well-formed patches that are checked line by line they do. Of a file with one well-formed patch that is
not checked, the lines come back that the patch names, whatever lines it has dropped.
-/

namespace Mend.Engine

open Diff (Hunk)

/-! ### Texts under patches -/

/-- The text that some patches make of a text one after the other, if all of them are accepted. -/
def reviseAll (strict : Bool) : Text → List Patch → Option Text
  | content, [] => some content
  | content, p :: ps =>
    match (revise strict content p).2 with
    | .ok new => reviseAll strict new ps
    | .error _ => none

theorem reviseAll_append (strict : Bool) (content : Text) (ps qs : List Patch) :
    reviseAll strict content (ps ++ qs) =
      (reviseAll strict content ps).bind fun new => reviseAll strict new qs := by
  induction ps generalizing content with
  | nil => rfl
  | cons p ps ih =>
    simp only [List.cons_append, reviseAll]
    cases (revise strict content p).2 with
    | ok new => exact ih new
    | error e => rfl

theorem reviseAll_singleton {strict : Bool} {content new : Text} {p : Patch} :
    reviseAll strict content [p] = some new ↔ (revise strict content p).2 = .ok new := by
  unfold reviseAll
  cases (revise strict content p).2 with
  | ok t => simp [reviseAll]
  | error e => simp

theorem reviseAll_cons_eq_some {strict : Bool} {content result : Text} {p : Patch}
    {ps : List Patch} (h : reviseAll strict content (p :: ps) = some result) :
    ∃ new, (revise strict content p).2 = .ok new ∧ reviseAll strict new ps = some result := by
  unfold reviseAll at h
  split at h
  · next new hnew => exact ⟨new, hnew, h⟩
  · cases h

/-- Whether patches and their reverses, the last one first, bring a text back. -/
def RoundTrips (strict : Bool) (content : Text) (ps : List Patch) : Prop :=
  reviseAll strict content (ps ++ ps.reverse.map reversed) = some content

/-- The patches for the file with these names. -/
def patchesOn (t : FileTree) (names : List Text) (items : List Item) : List Patch :=
  (items.filter fun item => t.locate (Path.ofText item.path) = .ok names).map Item.patch

theorem patchesOn_append (t : FileTree) (names : List Text) (items more : List Item) :
    patchesOn t names (items ++ more) = patchesOn t names items ++ patchesOn t names more := by
  simp only [patchesOn, List.filter_append, List.map_append]

theorem patchesOn_reversed (t : FileTree) (names : List Text) (items : List Item) :
    patchesOn t names (items.reverse.map Item.reversed) =
      (patchesOn t names items).reverse.map reversed := by
  simp only [patchesOn, List.filter_map, List.filter_reverse, List.map_map, List.map_reverse]
  rfl

theorem patchesOn_of_sameNames {t u : FileTree} (h : t.SameNames u) (names : List Text)
    (items : List Item) : patchesOn t names items = patchesOn u names items := by
  simp only [patchesOn, h.locate]

/-- A run makes of the text of each file what the patches for this file make of it. A file without a
text stays as it is. -/
theorem Applied.text {strict : Bool} {t u : FileTree} {items : List Item}
    (h : Applied strict t items u) (names : List Text) :
    (t.text? names = none → u.content? names = t.content? names) ∧
    ∀ content, t.text? names = some content → ∃ new, u.text? names = some new ∧
      reviseAll strict content (patchesOn t names items) = some new := by
  induction h with
  | nil t => exact ⟨fun _ => rfl, fun content hc => ⟨content, hc, rfl⟩⟩
  | @cons t u item items found content new hfound revised rest ih =>
    obtain ⟨ho, htext⟩ := FileTree.textAt?_eq_some.1 hfound
    have hsame := FileTree.sameNames_put_text htext (Utf8.encode new)
    obtain ⟨hnone, hsome⟩ := ih
    have hnew := encodable_of_revise revised
    rw [FileTree.text?_put hnew, ← patchesOn_of_sameNames hsame] at hsome
    rw [FileTree.text?_put hnew, FileTree.content?_put] at hnone
    have hpatches : patchesOn t names (item :: items) =
        if names = found then item.patch :: patchesOn t names items else patchesOn t names items := by
      by_cases he : found = names
      · simp [patchesOn, ho.located, he]
      · have he2 : names ≠ found := fun e => he e.symm
        simp [patchesOn, ho.located, he, he2]
    rw [hpatches]
    by_cases he : names = found
    · subst he
      simp only [if_true] at hsome ⊢
      refine ⟨fun hn => ?_, fun c hc => ?_⟩
      · rw [htext] at hn
        cases hn
      · obtain rfl : content = c := by simpa [htext] using hc
        obtain ⟨last, hlast, hrun⟩ := hsome new rfl
        exact ⟨last, hlast, by simp only [reviseAll, revised, hrun]⟩
    · simp only [if_neg he] at hnone hsome ⊢
      exact ⟨hnone, hsome⟩

/-! ### Patches that are well formed where they are applied -/

theorem revise_reversed_iff {strict : Bool} {content new back : Text} {p : Patch} {hs : List Hunk}
    (hd : Diff.hunks p.diff = .ok hs) (hrev : Diff.Reversible hs (Text.lines content).length)
    (hforth : (revise strict content p).2 = .ok new)
    (hback : (revise strict new (reversed p)).2 = .ok back) :
    back = content ↔ ∀ h ∈ hs, Diff.RemovalsFit h.body (h.window (Text.lines content)) := by
  obtain ⟨t, ht, hiff⟩ := Diff.apply_reverse_iff hd hrev (revise_eq_ok.1 hforth).2.1
  have hb : Diff.apply (isStrict strict p) new (Diff.reverse p.diff) = .ok back :=
    (revise_eq_ok.1 hback).2.1
  rw [ht] at hb
  obtain rfl := Except.ok.inj hb
  exact hiff

/-- Whether each patch is checked line by line and well formed in the text that it meets. -/
def ReversibleAlong (strict : Bool) : Text → List Patch → Prop
  | _, [] => True
  | content, p :: ps =>
    isStrict strict p = true ∧
    (∃ hs, Diff.hunks p.diff = .ok hs ∧ Diff.Reversible hs (Text.lines content).length) ∧
    ∀ new, (revise strict content p).2 = .ok new → ReversibleAlong strict new ps

theorem eq_of_reviseAll {strict : Bool} {content back : Text} {ps : List Patch}
    (hrev : ReversibleAlong strict content ps)
    (h : reviseAll strict content (ps ++ ps.reverse.map reversed) = some back) :
    back = content := by
  induction ps generalizing content back with
  | nil => exact (Option.some.inj h).symm
  | cons p ps ih =>
    obtain ⟨hstrict, ⟨hs, hd, hwell⟩, hrest⟩ := hrev
    rw [List.cons_append] at h
    obtain ⟨new, hforth, h⟩ := reviseAll_cons_eq_some h
    rw [List.reverse_cons, List.map_append, ← List.append_assoc, reviseAll_append] at h
    obtain ⟨mid, hmid, hlast⟩ := Option.bind_eq_some_iff.1 h
    obtain rfl := ih (hrest new hforth) hmid
    have happ := (revise_eq_ok.1 hforth).2.1
    rw [hstrict] at happ
    exact (revise_reversed_iff hd hwell hforth (reviseAll_singleton.1 hlast)).2
      (Diff.removalsFit_of_apply hd hwell happ)

theorem roundTrips_singleton_iff {strict : Bool} {content back : Text} {p : Patch}
    {hs : List Hunk} (hd : Diff.hunks p.diff = .ok hs)
    (hrev : Diff.Reversible hs (Text.lines content).length)
    (h : reviseAll strict content [p, reversed p] = some back) :
    RoundTrips strict content [p] ↔
      ∀ h ∈ hs, Diff.RemovalsFit h.body (h.window (Text.lines content)) := by
  obtain ⟨new, hforth, hback⟩ := reviseAll_cons_eq_some h
  rw [← revise_reversed_iff hd hrev hforth (reviseAll_singleton.1 hback)]
  simp only [RoundTrips, List.reverse_singleton, List.map_singleton, List.singleton_append, h,
    Option.some.injEq]

/-! ### Rollbacks -/

/-- When a batch fails and no revert is refused, a file is as it was exactly where the accepted patches
for it and their reverses bring its text back. For one patch that is well formed there, this is
where the lines that it dropped are the lines that it names; for any number of them, if each one is
checked line by line. -/
theorem rollback_restores_iff {strict : Bool} {w w' : Workspace} {items : List Item}
    {b : BatchResult} (h : applyBatch strict w items = (w', .ok b)) (hfail : b.success = false)
    (hclean : b.rollbackClean = true) (names : List Text) :
    let ps := patchesOn w.files names (accepted strict w.files items)
    let Restored := w'.files.content? names = w.files.content? names
    (Restored ↔ ∀ content, w.files.text? names = some content → RoundTrips strict content ps) ∧
    (∀ content p hs, w.files.text? names = some content → ps = [p] → Diff.hunks p.diff = .ok hs →
      Diff.Reversible hs (Text.lines content).length →
      (Restored ↔ ∀ h ∈ hs, Diff.RemovalsFit h.body (h.window (Text.lines content)))) ∧
    (∀ content, w.files.text? names = some content → ReversibleAlong strict content ps →
      Restored) := by
  intro ps Restored
  obtain ⟨hnone, hsome⟩ := (applied_of_rollback h hfail hclean).text names
  rw [patchesOn_append, patchesOn_reversed] at hsome
  -- Two files with texts hold the same bytes where the texts are the same, so that it is enough to follow
  -- the text through the run.
  have hone : ∀ content, w.files.text? names = some content →
      (Restored ↔ RoundTrips strict content ps) := by
    intro content hc
    obtain ⟨back, hb, hrun⟩ := hsome content hc
    have hbytes : Restored ↔ w'.files.text? names = some content := by
      rw [FileTree.text?_eq_some, ← FileTree.content?_of_text? hc]
      exact (and_iff_left (FileTree.encodable_of_text? hc)).symm
    rw [hbytes, hb, RoundTrips, hrun]
  refine ⟨?_, ?_, ?_⟩
  · constructor
    · intro hr content hc
      exact (hone content hc).1 hr
    · intro hr
      cases hc : w.files.text? names with
      | none => exact hnone hc
      | some content => exact (hone content hc).2 (hr content hc)
  · intro content p hs hc hp hd hrev
    obtain ⟨back, -, hrun⟩ := hsome content hc
    have hrun2 : reviseAll strict content (ps ++ ps.reverse.map reversed) = some back := hrun
    rw [hp] at hrun2
    rw [hone content hc, hp]
    exact roundTrips_singleton_iff hd hrev hrun2
  · intro content hc hrev
    obtain ⟨back, -, hrun⟩ := hsome content hc
    rw [hone content hc, RoundTrips, hrun, eq_of_reviseAll hrev hrun]

/-- The line `two` that the first patch removes is the line of the file, so that it comes back. -/
theorem rollback_restores_iff_of_named_line :
    let w := Workspace.start { files := [(["ws", "a.ts"], Utf8.encode "one\ntwo\n")], home := ["ws"] }
    let p : Patch := ⟨"@@ -1,2 +1,2 @@\n one\n-two\n+zwei", "", "a.ts", .manual⟩
    let run := applyBatch false w [⟨"/ws/a.ts", p⟩, ⟨"b.ts", p⟩]
    (∃ b, run.2 = .ok b ∧ b.success = false ∧ b.rollbackClean = true) ∧
      run.1.files.content? ["ws", "a.ts"] = w.files.content? ["ws", "a.ts"] := by
  intro w p run
  have hrun : run.2 = .ok ⟨0, true, some "Failed to apply patch to b.ts", some ⟨"b.ts", p⟩, []⟩ := by
    decide
  have hbatch := rollback_restores_iff (Prod.ext rfl hrun) rfl rfl ["ws", "a.ts"]
  have hd : Diff.hunks p.diff = .ok [⟨1, 2, 1, 2, [" one", "-two", "+zwei"]⟩] := by decide
  have hrev : Diff.Reversible [⟨1, 2, 1, 2, [" one", "-two", "+zwei"]⟩]
      (Text.lines "one\ntwo\n").length :=
    ⟨⟨by decide, by decide, by decide⟩, ⟨by decide, trivial⟩, by decide, by decide⟩
  refine ⟨⟨_, hrun, rfl, rfl⟩, ?_⟩
  exact (hbatch.2.1 "one\ntwo\n" p _ (by decide) (by decide) hd hrev).2 (by decide)

/-- The line `uno` that the first patch removes is not the line of the file: the rollback is clean, and
yet it leaves the line `uno` where the line `one` was. -/
theorem clean_rollback_leaves_line :
    let w := Workspace.start { files := [(["a.ts"], Utf8.encode "one\ntwo\n")] }
    let p : Patch := ⟨"@@ -1,1 +1,1 @@\n-uno\n+eins\n", "", "a.ts", .manual⟩
    let run := applyBatch false w [⟨"a.ts", p⟩, ⟨"b.ts", p⟩]
    (∃ b, run.2 = .ok b ∧ b.success = false ∧ b.rollbackClean = true) ∧
      w.files.text? ["a.ts"] = some "one\ntwo\n" ∧
      run.1.files.text? ["a.ts"] = some "uno\ntwo\n" := by
  intro w p run
  have hrun : run.2 = .ok ⟨0, true, some "Failed to apply patch to b.ts", some ⟨"b.ts", p⟩, []⟩ := by
    decide
  exact ⟨⟨_, hrun, rfl, rfl⟩, by decide, by decide⟩

end Mend.Engine
