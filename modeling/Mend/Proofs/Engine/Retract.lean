import Mend.Proofs.Engine.Answer
import Mend.Proofs.LinePatch

/-!
# Rollbacks that come to an end

A rollback meets texts that need not be those that the patches have left, because a revert before it may
have brought back other lines or may have been refused. It comes to an end all the same where each patch
can be retracted from every text that stands over the one that it has left (`Retractable`). For a
patch whose hunks are in bounds on both sides, every text will do. A patch that replaces lines has no such
bounds, but it needs none: a text stands over another one if it has at least as many lines, and then the
lines come back at a position that it has.
-/

namespace Mend.Diff

/-! ### A single hunk that is checked line by line -/

theorem numeralValue_foldl_lt (t : Text) (k : Nat) :
    t.foldl (fun n c => 10 * n + (Text.digitValue? c).getD 0) k < (k + 1) * 10 ^ t.length := by
  induction t generalizing k with
  | nil => simp
  | cons c t ih =>
    have hdigit : (Text.digitValue? c).getD 0 < 10 := by
      cases hc : Text.digitValue? c with
      | none => decide
      | some n => exact Text.digitValue?_lt hc
    have hstep : 10 * k + (Text.digitValue? c).getD 0 + 1 ≤ (k + 1) * 10 := by omega
    calc _ < (10 * k + (Text.digitValue? c).getD 0 + 1) * 10 ^ t.length := ih _
      _ ≤ (k + 1) * 10 * 10 ^ t.length := Nat.mul_le_mul_right _ hstep
      _ = (k + 1) * 10 ^ (c :: t).length := by
        rw [List.length_cons, pow_succ', Nat.mul_assoc]

theorem length_ofNat_mono {m n : Nat} (h : m ≤ n) :
    (Text.ofNat m).length ≤ (Text.ofNat n).length := by
  have hpos : 0 < (Text.ofNat n).length := List.length_pos_iff.2 (Text.ofNat_ne_nil n)
  have hlt : n < 10 ^ (Text.ofNat n).length := by
    have hvalue := numeralValue_foldl_lt (Text.ofNat n) 0
    rw [← Text.numeralValue, Text.numeralValue_ofNat] at hvalue
    omega
  rw [Text.length_ofNat m]
  exact Nat.toDigits_length 10 m _ hpos (Nat.lt_of_le_of_lt h hlt)

section

variable {h : Hunk} {ls : List Text}

theorem width_reversed (hm : MarksReadable h.body) : (h.reversed.width : Int) = h.width + h.growth := by
  have hlen := length_expected h
  have hback := length_expected h.reversed
  have hmake := congrArg List.length (refill_expected hm)
  have hgrow := @length_refill_add_removed h.body (expected h.body) rfl
  simp only [Hunk.growth, Hunk.added, Hunk.removed, List.length_map]
  simp only [Hunk.reversed] at hback ⊢
  omega

/-- A hunk whose window does not lie in the text is refused, if the numbers of its lines can be
printed. -/
theorem applyHunk_of_window_past_end (hpos : 1 ≤ h.oldStart) (hwidth : 0 < h.width)
    (hpast : ls.length < h.oldStart - 1 + h.width)
    (hprint : ∀ k < h.width, (Text.ofNat (h.oldStart + k)).length ≤ Number.maxDigits) :
    ∃ m, applyHunk true h ls = .error (.misfit m) := by
  have hlen := length_expected h
  have habsent : ¬ expected h.body <+: ls.drop (h.oldStart - 1) := fun hp => by
    have hle := hp.length_le
    rw [List.length_drop] at hle
    omega
  obtain ⟨k, hk, -, he⟩ := applyHunk_of_absent hpos habsent
  rw [misfitAt_of_print (hprint k (by omega))] at he
  exact ⟨_, he⟩

/-- A diff of one hunk that is checked line by line is applied in the text, which then grows by what
the hunk adds, or it is refused; this cannot be where the hunk expects no line. -/
theorem apply_hunk_cases {content diff : Text} (hd : hunks diff = .ok [h]) (hpos : 1 ≤ h.oldStart)
    (hin : h.width = 0 → h.oldStart - 1 ≤ (Text.lines content).length)
    (hprint : ∀ k < h.width, (Text.ofNat (h.oldStart + k)).length ≤ Number.maxDigits) :
    (∃ new, apply true content diff = .ok new ∧
      h.oldStart - 1 + h.width ≤ (Text.lines content).length ∧
      ((Text.lines content).length : Int) + h.growth ≤ (Text.lines new).length) ∨
    (0 < h.width ∧ ∃ m, apply true content diff = .error (.misfit m)) := by
  rw [apply_of_hunks hd (by simp)]
  by_cases hle : h.oldStart - 1 + h.width ≤ (Text.lines content).length
  · have hw : WindowsFrom (Text.lines content).length 0 [h] := ⟨by omega, hle⟩
    by_cases hfit : h.Fits (Text.lines content)
    · have hlen := length_refillAll hw
      have hdone := @applyHunks_eq_refillAll true _ 0 [h] hw fun _ k hk => by
        obtain rfl := List.mem_singleton.1 hk
        exact hfit
      rw [List.take_zero, List.nil_append] at hdone
      refine .inl ⟨_, by rw [hdone]; rfl, hle, ?_⟩
      by_cases hnil : refillAll (Text.lines content) 0 [h] = []
      · rw [hnil] at hlen ⊢
        simp only [totalGrowth, List.length_nil] at hlen
        omega
      · rw [lines_ofLines hnil (newline_not_mem_refillAll hw
          (fun l hl => newline_not_mem_of_mem_lines hl) (newline_not_mem_body hd)), hlen]
        simp [totalGrowth]
    · obtain ⟨k, hk, n, hn, -, he⟩ := applyHunks_of_not_fits hw (by simpa using hfit)
      obtain rfl := List.mem_singleton.1 hk
      exact .inr ⟨by omega, _, by rw [he]; rfl⟩
  · have hwidth : 0 < h.width := by
      by_contra hzero
      have hzero : h.width = 0 := by omega
      have hstart := hin hzero
      omega
    have hpast : (Text.lines content).length < h.oldStart - 1 + h.width := by omega
    obtain ⟨m, hm⟩ := applyHunk_of_window_past_end hpos hwidth hpast hprint
    exact .inr ⟨hwidth, m, by simp only [applyHunks, hm]; rfl⟩

end

end Mend.Diff

namespace Mend.Engine

open Diff (Hunk Legible Replacement replacementHunk)

/-! ### Patches that can be retracted -/

/-- A patch that has an answer in every text of a file, and that can be retracted from every text of a file
which stands over the one that it has left: then a text stands over the one before the patch, whether the
revert is accepted or refused. -/
structure Retractable (strict : Bool) (Over : Text → Text → Prop) (p : Patch) : Prop where
  answers : ∀ content, Utf8.Encodable content → ∀ f, (revise strict content p).2 ≠ .error (.inr f)
  retracts : ∀ content new current, Utf8.Encodable current → (revise strict content p).2 = .ok new →
    Over new current → (∃ back, (revise strict current (reversed p)).2 = .ok back ∧ Over content back) ∨
      (∃ r, (revise strict current (reversed p)).2 = .error (.inl r)) ∧ Over content current

/-- A patch whose hunks are manageable on both sides can be retracted from every text. -/
theorem retractable_of_manageable (strict : Bool) {p : Patch} (h : Diff.Manageable p.diff) :
    Retractable strict (fun _ _ => True) p := by
  obtain ⟨hs, hd, hb⟩ := h
  obtain ⟨ks, hk, hbk⟩ := Diff.Manageable.reverse ⟨hs, hd, hb⟩
  refine ⟨fun content hcontent f => revise_ne_fault strict hd (fun k hk => (hb k hk).1) hcontent f, ?_⟩
  intro content new current hcurrent _ _
  have hback := @revise_ne_fault strict (reversed p) ks hk hbk current hcurrent
  cases hr : (revise strict current (reversed p)).2 with
  | ok back => exact .inl ⟨back, rfl, trivial⟩
  | error e =>
    cases e with
    | inl r => exact .inr ⟨⟨r, rfl⟩, trivial⟩
    | inr f => exact absurd hr (hback f)

/-- Whether a text has at least as many lines as another one. -/
def NoShorter (content current : Text) : Prop :=
  (Text.lines content).length ≤ (Text.lines current).length

/-- A patch that replaces lines, by as many or by none, can be retracted from every text that is no shorter
than the one it has left. -/
theorem retractable_of_replacement {strict : Bool} {p : Patch} {start : Nat}
    {removed added : List Text} (hx : Replacement removed added)
    (hd : Diff.hunks p.diff = .ok [replacementHunk start removed added])
    (hstrict : isStrict strict p = true) (hpos : 1 ≤ start)
    (hsize : added.length = removed.length ∨ added = [])
    (hprint : ∀ k < removed.length, (Text.ofNat (start + k)).length ≤ Number.maxDigits) :
    Retractable strict NoShorter p := by
  have hmarks : Diff.MarksReadable (replacementHunk start removed added).body := hx.marksReadable
  have hwidth := @Legible.width start removed added hx.legible
  have hgrowth := @Legible.growth start removed added hx.legible
  have hremoves := List.length_pos_iff.2 hx.removes
  have hadds : added.length ≤ removed.length := by
    rcases hsize with hsize | rfl
    · exact hsize.le
    · exact Nat.zero_le _
  obtain ⟨hlead, hback⟩ := @Legible.leadingContext start removed added hx.legible
  have hstart : (replacementHunk start removed added).oldStart = start := rfl
  have hstart2 : (replacementHunk start removed added).reversed.oldStart = start := rfl
  have hwidth2 := Diff.width_reversed hmarks
  have hgrowth2 := Diff.growth_reversed hmarks
  have hforth : ∀ content, _ := fun content =>
    @Diff.apply_hunk_cases (replacementHunk start removed added) content p.diff hd hpos
      (by rw [hwidth]; omega) (fun k hk => hprint k (by rw [← hwidth]; exact hk))
  refine ⟨fun content hcontent f => ?_, fun content new current hcurrent hr hover => ?_⟩
  · rw [revise_of_no_context hd (by simpa using hlead), hstrict]
    rcases hforth content with ⟨new, happ, -⟩ | ⟨-, m, happ⟩
    · have hnew := Diff.encodable_of_apply hd hcontent (by simpa using hx.isEncodable.1) happ
      simp [happ, verdictOf_of_encodable hnew]
    · simp [happ, verdictOf]
  · rw [revise_of_no_context hd (by simpa using hlead), hstrict] at hr
    rcases hforth content with ⟨made, happ, hin, hgrow⟩ | ⟨-, m, happ⟩
    · obtain ⟨rfl, -⟩ : made = new ∧ _ := writable_eq_ok.1 (by simpa only [happ, verdictOf] using hr)
      rw [hstart] at hin
      unfold NoShorter at hover ⊢
      -- The lines come back where the removed ones stood, and a text that is no shorter has this place.
      have hlast := @Diff.apply_hunk_cases (replacementHunk start removed added).reversed current _
        (Diff.hunks_reverse hd) hpos (fun hzero => by rw [hstart2]; omega)
        (fun k hk => hprint k (by omega))
      have hstrict2 : isStrict strict (reversed p) = true := hstrict
      rw [@revise_of_no_context strict (reversed p) _ (Diff.hunks_reverse hd) (by simpa using hback),
        hstrict2]
      rcases hlast with ⟨back, hb, -, hlen⟩ | ⟨hsome, m, hb⟩
      · have hwritten := Diff.encodable_of_apply (Diff.hunks_reverse hd) hcurrent
          (by simpa using hx.isEncodable.2) hb
        exact .inl ⟨back, by simp only [reversed, hb, verdictOf_of_encodable hwritten], by omega⟩
      · refine .inr ⟨⟨.misfit m, by simp only [reversed, hb, verdictOf]⟩, ?_⟩
        rcases hsize with hsize | rfl
        · omega
        · simp only [List.length_nil] at *
          omega
    · simp [happ, verdictOf] at hr

/-! ### Rollbacks -/

section

variable {strict : Bool} {Over : Text → Text → Prop}

/-- A tree in which a text stands over each text of another tree with the same names. -/
structure TreeOver (Over : Text → Text → Prop) (t u : FileTree) : Prop where
  sameNames : t.SameNames u
  texts : ∀ names content, t.text? names = some content →
    ∃ current, u.text? names = some current ∧ Over content current

theorem TreeOver.refl (hrefl : ∀ content, Over content content) (t : FileTree) :
    TreeOver Over t t :=
  ⟨.refl t, fun _ content hc => ⟨content, hc, hrefl content⟩⟩

/-- A tree over the one in which a file was written is a tree over the one before, if that file has a text
over the one it had. -/
theorem TreeOver.of_put {t u v : FileTree} {names : List Text} {content new last : Text}
    (ht : t.text? names = some content) (hnew : Utf8.Encodable new)
    (h : TreeOver Over (t.put names (Utf8.encode new)) u)
    (hsame : u.SameNames v) (hothers : ∀ other ≠ names, v.content? other = u.content? other)
    (hv : v.text? names = some last) (hover : Over content last) : TreeOver Over t v := by
  refine ⟨(FileTree.sameNames_put_text ht _).trans (h.sameNames.trans hsame), ?_⟩
  intro other c hc
  by_cases he : other = names
  · obtain rfl : content = c := by simpa [he, ht] using hc
    exact ⟨last, by rw [he, hv], hover⟩
  · obtain ⟨current, hcur, ho⟩ := h.texts other c (by rw [FileTree.text?_put hnew, if_neg he, hc])
    refine ⟨current, ?_, ho⟩
    rw [FileTree.text?_eq_some, hothers other he, ← FileTree.text?_eq_some]
    exact hcur

theorem revertItems_append_failures {w w1 w2 : Workspace} {items more failures rest : List Item}
    (h : revertItems strict items w = (w1, .ok failures))
    (k : revertItems strict more w1 = (w2, .ok rest)) :
    revertItems strict (items ++ more) w = (w2, .ok (failures ++ rest)) := by
  induction items generalizing w failures with
  | nil =>
    obtain ⟨rfl, rfl⟩ : w = w1 ∧ [] = failures := by simpa [revertItems] using h
    exact k
  | cons item items ih =>
    rw [List.cons_append]
    unfold revertItems at h ⊢
    cases hr : revert strict w item.path item.patch with
    | mk v result =>
      rw [hr] at h
      rcases result with f | _ | _
      · simp at h
      · simp only at h ⊢
        cases hi : revertItems strict items (v.note (.rollbackFailed item.path)) with
        | mk v1 result =>
          rw [hi] at h
          cases result with
          | error f => simp at h
          | ok fs =>
            obtain ⟨rfl, rfl⟩ : v1 = w1 ∧ item :: fs = failures := by simpa using h
            rw [ih hi]
            rfl
      · exact ih h

theorem apply_of_refusal {w : Workspace} {path : Text} {p : Patch} {names : List Text}
    {content : Text} {r : Refusal}
    (ht : w.files.textAt? (Path.ofText path) = some (names, content))
    (hr : (revise strict content p).2 = .error (.inl r)) :
    ∃ w', apply strict w path p = (w', .ok false) ∧ w'.files = w.files := by
  have happ := apply_spec strict w path p
  rw [patchFile_of_text ht, hr] at happ
  exact happ

/-- The invariant of a rollback: when the items of a run are reverted in a tree that stands over the one at
its end, the tree at its beginning is stood over again. Each item is reverted, or it is not and is
listed. -/
theorem exists_revertItems_of_retractable {t u : FileTree} {items : List Item}
    (h : Applied strict t items u) (hret : ∀ item ∈ items, Retractable strict Over item.patch)
    {w : Workspace} (hover : TreeOver Over u w.files) :
    ∃ w' failures, revertItems strict items.reverse w = (w', .ok failures) ∧
      TreeOver Over t w'.files := by
  induction h with
  | nil t => exact ⟨w, [], rfl, hover⟩
  | @cons t u item items names content new found revised rest ih =>
    obtain ⟨hopens, htext⟩ := FileTree.textAt?_eq_some.1 found
    obtain ⟨w1, failures, hw1, hover1⟩ := ih (fun k hk => hret k (List.mem_cons_of_mem _ hk)) hover
    have hwritten := encodable_of_revise revised
    obtain ⟨current, hcur, ho⟩ := hover1.texts names new (by rw [FileTree.text?_put hwritten, if_pos rfl])
    have hsame := (FileTree.sameNames_put_text htext (Utf8.encode new)).trans hover1.sameNames
    have hfound : w1.files.textAt? (Path.ofText item.path) = some (names, current) :=
      FileTree.textAt?_eq_some.2 ⟨hsame.opens hopens, hcur⟩
    rw [List.reverse_cons]
    have hcurrent := FileTree.encodable_of_text? hcur
    rcases (hret item List.mem_cons_self).retracts content new current hcurrent revised ho with
      ⟨back, hback, hb⟩ | ⟨⟨r, href⟩, hb⟩
    · obtain ⟨w2, hw2, hfiles⟩ := @apply_of_text strict (w1.note (.reverting item.path)) item.path
        (reversed item.patch) names current back hfound hback
      rw [Workspace.files_note] at hfiles
      have hone : revertItems strict [item] w1 = (w2, .ok []) := by
        simp only [revertItems, revert, hw2]
      refine ⟨w2, _, revertItems_append_failures hw1 hone, ?_⟩
      rw [hfiles]
      refine TreeOver.of_put htext hwritten hover1 (FileTree.sameNames_put_text hcur _) (fun other he => ?_)
        (by rw [FileTree.text?_put (encodable_of_revise hback), if_pos rfl]) hb
      rw [FileTree.content?_put, if_neg he]
    · obtain ⟨w2, hw2, hfiles⟩ := @apply_of_refusal strict (w1.note (.reverting item.path)) item.path
        (reversed item.patch) names current r hfound href
      rw [Workspace.files_note] at hfiles
      have hone : revertItems strict [item] w1 =
          (w2.note (.rollbackFailed item.path), .ok [item]) := by
        simp only [revertItems, revert, hw2]
      refine ⟨_, _, revertItems_append_failures hw1 hone, ?_⟩
      rw [Workspace.files_note, hfiles]
      exact TreeOver.of_put htext hwritten hover1 (.refl _) (fun _ _ => rfl) hcur hb

/-! ### Batches -/

/-- A batch of patches that can be retracted has an answer, whatever the texts hold and whichever revert
is refused. -/
theorem exists_applyBatch {w : Workspace} {items : List Item}
    (hrefl : ∀ content, Over content content)
    (hpath : ∀ item ∈ items, ∃ node, w.files.probe (Path.ofText item.path) = .ok node)
    (hret : ∀ item ∈ items, Retractable strict Over item.patch) :
    ∃ w' b, applyBatch strict w items = (w', .ok b) := by
  obtain ⟨w1, done, failed, hrun, -⟩ := @exists_applyItems strict (fun _ => True) items
    (w.note (.applyingBatch items.length)) [] hpath (fun _ _ _ => trivial)
    (fun k hk content hcontent _ => (hret k hk).answers content hcontent) fun _ _ _ _ _ _ _ => trivial
  unfold applyBatch
  rw [hrun]
  cases failed with
  | none => exact ⟨_, _, rfl⟩
  | some failed =>
    obtain ⟨hdone, hforth⟩ := applied_of_applyItems hrun
    rw [List.append_nil] at hdone
    obtain ⟨w2, failures, hw2, -⟩ := exists_revertItems_of_retractable hforth
      (fun k hk => hret k (mem_of_mem_accepted hk))
      (w := w1.note (.batchFailed (failureReason failed) done.length)) (.refl hrefl _)
    rw [← hdone] at hw2
    exact ⟨_, _, by simp only [rollBack, hw2]; rfl⟩

end

end Mend.Engine
