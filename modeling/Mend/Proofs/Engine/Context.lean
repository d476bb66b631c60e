import Mend.Proofs.Diff.Undo
import Mend.Proofs.Engine.Answer

/-!
# Leading context and strict applications

Before a patch is applied, the leading context of its hunks is compared with the text, the first hunk first. A
strict application compares every line that is shown or removed, but the last hunk first, and each hunk with what
the hunks below it have left. A hunk leaves the lines above it as they are (`getElem?_of_applyHunks`), so that for
hunks in order both look at the same lines, as far as the old text goes. Behind its end they do not: lines that are
added there become the last ones of the text, and a hunk above may take them for its context
(`strict_takes_added_line_for_context`).
-/

namespace Mend.Diff

/-! ### Hunks that are checked line by line -/

theorem applyHunk_lenient {h : Hunk} {ls result : List Text} (happ : applyHunk true h ls = .ok result) :
    applyHunk false h ls = .ok result := by
  have hpos := oldStart_pos_of_applyHunk happ
  have hrun := replay_of_applyHunk happ
  obtain ⟨position, hstart⟩ : ∃ position, h.oldStart = position + 1 := ⟨h.oldStart - 1, by omega⟩
  rw [hstart, Nat.add_sub_cancel] at hrun
  simp only [applyHunk, hstart, Bool.false_eq_true, if_false, hrun]

theorem applyHunks_lenient {hs : List Hunk} {ls result : List Text}
    (happ : applyHunks true hs ls = .ok result) : applyHunks false hs ls = .ok result := by
  induction hs generalizing result with
  | nil => exact happ
  | cons h hs ih =>
    obtain ⟨mid, hmid, hone⟩ := applyHunks_cons_eq_ok happ
    simp only [applyHunks, ih hmid, applyHunk_lenient hone]

theorem apply_lenient {content diff new : Text} (happ : apply true content diff = .ok new) :
    apply false content diff = .ok new := by
  cases hd : hunks diff with
  | error e =>
    simp only [apply, hd] at happ
    cases happ
  | ok hs =>
    cases hs with
    | nil =>
      simp only [apply, hd] at happ ⊢
      exact happ
    | cons h hs =>
      obtain ⟨ls, hls, rfl⟩ := applyHunks_of_apply hd (List.cons_ne_nil _ _) happ
      rw [apply_of_hunks hd (List.cons_ne_nil _ _), applyHunks_lenient hls]
      rfl

theorem pairwise_of_ordered {hs : List Hunk}
    (hord : hs.IsChain fun h k => h.oldStart + h.width ≤ k.oldStart) :
    hs.Pairwise fun h k => h.oldStart + h.width ≤ k.oldStart := by
  have : Trans (fun h k : Hunk => h.oldStart + h.width ≤ k.oldStart)
      (fun h k : Hunk => h.oldStart + h.width ≤ k.oldStart)
      (fun h k : Hunk => h.oldStart + h.width ≤ k.oldStart) := ⟨fun hab hbc => by omega⟩
  exact List.isChain_iff_pairwise.1 hord

theorem leadingContext_isPrefix (h : Hunk) : h.leadingContext <+: expected h.body := by
  unfold Hunk.leadingContext expected
  refine List.IsPrefix.map payload ?_
  induction h.body with
  | nil => exact List.nil_prefix
  | cons b body ih =>
    by_cases hb : isContext b = true
    · have hold : isOld b = true := by simp [isOld, hb]
      rw [List.takeWhile_cons, if_pos hb, List.filter_cons, if_pos hold]
      exact (List.prefix_cons_inj b).2 ih
    · rw [List.takeWhile_cons, if_neg hb]
      exact List.nil_prefix

theorem isPrefix_of_applyHunk {h : Hunk} {ls result : List Text} (happ : applyHunk true h ls = .ok result) :
    expected h.body <+: ls.drop (h.oldStart - 1) := by
  by_contra habsent
  obtain ⟨k, -, -, he⟩ := applyHunk_of_absent (oldStart_pos_of_applyHunk happ) habsent
  rw [happ] at he
  cases he

theorem oldStart_pos_of_applyHunks {strict : Bool} {hs : List Hunk} {ls result : List Text}
    (happ : applyHunks strict hs ls = .ok result) : ∀ h ∈ hs, 1 ≤ h.oldStart := by
  induction hs generalizing result with
  | nil => exact List.forall_mem_nil _
  | cons h hs ih =>
    obtain ⟨mid, hmid, hone⟩ := applyHunks_cons_eq_ok happ
    exact List.forall_mem_cons.2 ⟨oldStart_pos_of_applyHunk hone, ih hmid⟩

/-- The context that a strict application has found is the one of the old text, as far as the old text goes. -/
theorem leadingContext_found_iff {hs : List Hunk} {ls result : List Text}
    (happ : applyHunks true hs ls = .ok result)
    (hord : hs.Pairwise fun h k => h.oldStart + h.width ≤ k.oldStart) :
    ∀ h ∈ hs, h.leadingContext <+: ls.drop (h.oldStart - 1) ↔
      (h.leadingContext ≠ [] → h.oldStart - 1 + h.leadingContext.length ≤ ls.length) := by
  induction hs generalizing result with
  | nil => exact List.forall_mem_nil _
  | cons h hs ih =>
    obtain ⟨mid, hmid, hone⟩ := applyHunks_cons_eq_ok happ
    obtain ⟨hbelow, hrest⟩ := List.pairwise_cons.1 hord
    refine List.forall_mem_cons.2 ⟨⟨fun hp hne => ?_, fun hin => ?_⟩, ih hmid hrest⟩
    · have hle := hp.length_le
      have hsome := List.length_pos_iff.2 hne
      rw [List.length_drop] at hle
      omega
    · have hfound := (leadingContext_isPrefix h).trans (isPrefix_of_applyHunk hone)
      have hwidth := (leadingContext_isPrefix h).length_le
      rw [length_expected] at hwidth
      refine List.prefix_iff_getElem?.2 fun k hk => ?_
      have hend := hin (List.ne_nil_of_length_pos (by omega))
      have habove : ∀ g ∈ hs, h.oldStart - 1 + k < g.oldStart - 1 := fun g hg => by
        have hg := hbelow g hg
        have hpos := oldStart_pos_of_applyHunk hone
        omega
      have hsame := getElem?_of_applyHunks hmid habove (by omega)
      have hline := List.prefix_iff_getElem?.1 hfound k hk
      rw [List.getElem?_drop] at hline ⊢
      rw [← hsame, hline]

end Mend.Diff

namespace Mend.Engine

open Diff (Hunk)

/-! ### Comparing the leading context -/

theorem firstMismatch?_eq_none {ls es : List Text} {n : Nat} :
    firstMismatch? ls (n + 1) es = none ↔ es <+: ls.drop n := by
  induction es generalizing n with
  | nil => simp [firstMismatch?]
  | cons e es ih =>
    unfold firstMismatch?
    rw [Diff.lineAt?]
    by_cases hn : n < ls.length
    · rw [List.getElem?_eq_getElem hn, List.drop_eq_getElem_cons hn]
      by_cases he : ls[n] = e
      · rw [if_pos (congrArg some he), ih, he, List.prefix_cons_inj]
      · rw [if_neg fun h => he (Option.some.inj h)]
        exact iff_of_false (by simp) fun hp => he (List.cons_prefix_cons.1 hp).1.symm
    · rw [List.getElem?_eq_none (by omega), List.drop_eq_nil_iff.2 (by omega)]
      simp

theorem checkContext_eq_true {file : Text} {ls : List Text} {hs : List Hunk} :
    (checkContext file ls hs).2 = true ↔ ∀ h ∈ hs, firstMismatch? ls h.oldStart h.leadingContext = none := by
  induction hs with
  | nil => simp [checkContext]
  | cons h hs ih =>
    unfold checkContext
    cases hf : firstMismatch? ls h.oldStart h.leadingContext with
    | some line => simp [hf]
    | none => simp [hf, ih]

theorem fits_iff {content : Text} {p : Patch} {hs : List Hunk} (hd : Diff.hunks p.diff = .ok hs) :
    Fits content p ↔ ∀ h ∈ hs, firstMismatch? (Text.lines content) h.oldStart h.leadingContext = none := by
  rw [← @checkContext_eq_true p.file, Fits, validate, hd]
  constructor
  · rintro ⟨ns, hns⟩
    rw [Except.ok.inj hns]
  · intro h
    exact ⟨_, congrArg Except.ok (Prod.ext rfl h)⟩

/-- A patch whose hunks find all the lines that they name passes the check. -/
theorem fits_of_found {content : Text} {p : Patch} {hs : List Hunk} (hd : Diff.hunks p.diff = .ok hs)
    (hpos : ∀ h ∈ hs, 1 ≤ h.oldStart)
    (hfound : ∀ h ∈ hs, Diff.expected h.body <+: (Text.lines content).drop (h.oldStart - 1)) :
    Fits content p := by
  refine (fits_iff hd).2 fun h hh => ?_
  have hcontext := (Diff.leadingContext_isPrefix h).trans (hfound h hh)
  rwa [← firstMismatch?_eq_none, Nat.sub_add_cancel (hpos h hh)] at hcontext

theorem apply_eq_true_iff {strict : Bool} {w : Workspace} {path : Text} {names : List Text} {content : Text}
    (ht : w.files.textAt? (Path.ofText path) = some (names, content)) (p : Patch) :
    (apply strict w path p).2 = .ok true ↔
      Fits content p ∧ ∃ new, Diff.apply (isStrict strict p) content p.diff = .ok new ∧ Utf8.Encodable new := by
  constructor
  · intro h
    rcases apply_cases strict w path p with ⟨w', found, there, new, -, hacc, -⟩ | ⟨w', hw, -⟩ | ⟨w', f, hw, -⟩
    · obtain ⟨rfl, rfl⟩ : names = found ∧ content = there := by simpa [ht] using hacc.found
      exact ⟨hacc.fits, new, hacc.made, hacc.encodable⟩
    · simp [hw] at h
    · simp [hw] at h
  · rintro ⟨hfits, new, hmade, hnew⟩
    obtain ⟨w', hw, -⟩ := apply_of_accepts ⟨ht, hfits, hmade, hnew⟩
    rw [hw]

/-! ### Strict applications -/

/-- A strict application of hunks in order that gives a text gives it in lenient mode, too. The patch then passes
the check of its leading context exactly if no hunk shows context behind the end of the old text, and this is
sure if no hunk begins there. So a strict engine accepts the patch for a file if and only if the strict
application gives a text that can be written and no context is shown behind the end. -/
theorem strict_apply_passes_context {p : Patch} {hs : List Hunk} (hd : Diff.hunks p.diff = .ok hs)
    (hord : hs.IsChain fun h k => h.oldStart + h.width ≤ k.oldStart) (content : Text) :
    let size := (Text.lines content).length
    let ContextWithin : Prop :=
      ∀ h ∈ hs, h.leadingContext ≠ [] → h.oldStart - 1 + h.leadingContext.length ≤ size
    (∀ new, Diff.apply true content p.diff = .ok new →
      Diff.apply false content p.diff = .ok new ∧
        ((∃ ns, validate content p = .ok (ns, true)) ↔ ContextWithin)) ∧
    ((∀ h ∈ hs, h.oldStart - 1 ≤ size) → (∃ new, Diff.apply true content p.diff = .ok new) →
      ContextWithin) ∧
    ∀ w path names, w.files.textAt? (Path.ofText path) = some (names, content) →
      ((apply true w path p).2 = .ok true ↔
        (∃ new, Diff.apply true content p.diff = .ok new ∧ Utf8.Encodable new) ∧ ContextWithin) := by
  intro size ContextWithin
  have hfits : ∀ new, Diff.apply true content p.diff = .ok new → (Fits content p ↔ ContextWithin) := by
    intro new happ
    by_cases hne : hs = []
    · subst hne
      exact iff_of_true ((fits_iff hd).2 (List.forall_mem_nil _)) (List.forall_mem_nil _)
    · obtain ⟨ls, hls, -⟩ := Diff.applyHunks_of_apply hd hne happ
      rw [fits_iff hd]
      refine forall₂_congr fun h hh => ?_
      rw [← Diff.leadingContext_found_iff hls (Diff.pairwise_of_ordered hord) h hh, ← firstMismatch?_eq_none,
        Nat.sub_add_cancel (Diff.oldStart_pos_of_applyHunks hls h hh)]
  refine ⟨fun new happ => ⟨Diff.apply_lenient happ, hfits new happ⟩, ?_, fun w path names ht => ?_⟩
  · rintro hin ⟨new, happ⟩ h hh -
    obtain ⟨ls, hls, -⟩ := Diff.applyHunks_of_apply hd (List.ne_nil_of_mem hh) happ
    have hwindow := (Diff.windowsWithin_of_applyHunks hls hord hin).windowsFrom_zero.end_le h hh
    have hwidth := (Diff.leadingContext_isPrefix h).length_le
    rw [Diff.length_expected] at hwidth
    omega
  · rw [apply_eq_true_iff ht, and_comm]
    refine and_congr_right fun ⟨new, happ, _⟩ => hfits new happ

/-- Two hunks, each with a line of context in front of its change. -/
theorem strict_apply_passes_context_of_two_hunks :
    let p : Patch := ⟨"@@ -1,2 +1,1 @@\n a\n-b\n@@ -4,1 +3,2 @@\n d\n+e", "", "a.ts", .generated⟩
    let content : Text := "a\nb\nc\nd"
    (∃ ns, validate content p = .ok (ns, true)) ∧ Diff.apply false content p.diff = .ok "a\nc\nd\ne" ∧
      (apply true (.start { files := [(["a.ts"], Utf8.encode content)] }) "a.ts" p).2 = .ok true := by
  intro p content
  have hd : Diff.hunks p.diff = .ok [⟨1, 2, 1, 1, [" a", "-b"]⟩, ⟨4, 1, 3, 2, [" d", "+e"]⟩] := by decide
  have happ : Diff.apply true content p.diff = .ok "a\nc\nd\ne" := by decide
  obtain ⟨hboth, hwithin, hengine⟩ := strict_apply_passes_context hd (by decide) content
  have hcontext := hwithin (by decide) ⟨_, happ⟩
  obtain ⟨hlenient, hiff⟩ := hboth _ happ
  exact ⟨hiff.2 hcontext, hlenient, (hengine _ _ ["a.ts"] (by decide)).2 ⟨⟨_, happ, by decide⟩, hcontext⟩⟩

/-- The second hunk adds the line `x` four lines behind the only one of the text. It becomes the second line, and
there the first hunk finds it as its context, which the old text does not have. -/
theorem strict_takes_added_line_for_context :
    let p : Patch := ⟨"@@ -2,1 +2,1 @@\n x\n@@ -5,0 +5,1 @@\n+x", "", "a.ts", .generated⟩
    let content : Text := "a"
    (∃ hs, Diff.hunks p.diff = .ok hs ∧ hs.IsChain fun h k => h.oldStart + h.width ≤ k.oldStart) ∧
      Diff.apply true content p.diff = .ok "a\nx" ∧ validate content p = .ok ([.contextMismatch "a.ts" 2], false) ∧
      (apply true (.start { files := [(["a.ts"], Utf8.encode content)] }) "a.ts" p).2 = .ok false := by
  intro p content
  exact ⟨⟨[⟨2, 1, 2, 1, [" x"]⟩, ⟨5, 0, 5, 1, ["+x"]⟩], by decide, by decide⟩, by decide, by decide, by decide⟩

end Mend.Engine
