import Mend.Proofs.Diff.Replay

/-!
# Reversed diffs undo diffs

When the reversed diff brings back the text that a diff was applied to. A strict application leaves
nothing to chance: the windows held what the bodies say. A lenient one is undone exactly where the
lines that it dropped were the lines that the diff names (`apply_reverse_iff`).
-/

namespace Mend.Diff

/-! ### What a strict application tells about its hunks -/

/-- A window that was verified lies within the text. -/
theorem window_le_of_applyHunk {h : Hunk} {ls result : List Text}
    (happ : applyHunk true h ls = .ok result) (hin : h.oldStart - 1 ≤ ls.length) :
    h.oldStart - 1 + h.width ≤ ls.length := by
  have hpos := oldStart_pos_of_applyHunk happ
  have hlen := oldStart_eq hpos hin
  by_cases hp : expected h.body <+: ls.drop (h.oldStart - 1)
  · have hle := hp.length_le
    rw [length_expected, List.length_drop] at hle
    omega
  · obtain ⟨k, -, -, -, he⟩ := applyHunk_of_not_found hlen hp
    rw [List.take_append_drop, happ] at he
    cases he

theorem windowsWithin_of_applyHunks {hs : List Hunk} {ls result : List Text}
    (happ : applyHunks true hs ls = .ok result)
    (hord : hs.IsChain fun h k => h.oldStart + h.width ≤ k.oldStart)
    (hin : ∀ h ∈ hs, h.oldStart - 1 ≤ ls.length) : WindowsWithin hs ls.length := by
  induction hs generalizing result with
  | nil => exact ⟨by simp, hord, by simp⟩
  | cons h hs ih =>
    obtain ⟨mid, hmid, hone⟩ := applyHunks_cons_eq_ok happ
    have hrest := ih hmid hord.tail fun k hk => hin k (List.mem_cons_of_mem _ hk)
    have hpos := oldStart_pos_of_applyHunk hone
    refine ⟨List.forall_mem_cons.2 ⟨hpos, hrest.start_pos⟩, hord, ?_⟩
    cases hs with
    | nil =>
      obtain rfl := Except.ok.inj hmid
      simpa using window_le_of_applyHunk hone (hin h List.mem_cons_self)
    | cons g gs => exact hrest.last_le

theorem fits_of_applyHunks {hs : List Hunk} {ls result : List Text}
    (happ : applyHunks true hs ls = .ok result) (hw : WindowsWithin hs ls.length) :
    ∀ h ∈ hs, h.Fits ls := by
  by_contra hfit
  obtain ⟨h, -, k, -, -, he⟩ := applyHunks_of_not_fits hw.windowsFrom_zero hfit
  rw [happ] at he
  cases he

/-! ### The lines of the result -/

/-- Without a check, refilled windows are what an application leaves. -/
theorem applyHunks_of_windowsFrom {ls : List Text} {n : Nat} {hs : List Hunk} (hw : WindowsFrom ls.length n hs) :
    applyHunks false hs ls = .ok (ls.take n ++ refillAll ls n hs) :=
  applyHunks_eq_refillAll hw nofun

theorem length_refillAll {ls : List Text} {n : Nat} {hs : List Hunk}
    (hw : WindowsFrom ls.length n hs) :
    ((refillAll ls n hs).length : Int) = ls.length - n + totalGrowth hs := by
  have hle := hw.le
  have hlen := length_of_applyHunks (applyHunks_of_windowsFrom hw)
  rw [List.length_append, List.length_take] at hlen
  omega

theorem newline_not_mem_refillAll {ls : List Text} {n : Nat} {hs : List Hunk}
    (hw : WindowsFrom ls.length n hs) (hls : ∀ l ∈ ls, .char '\n' ∉ l)
    (hbody : ∀ h ∈ hs, ∀ b ∈ h.body, .char '\n' ∉ b) : ∀ l ∈ refillAll ls n hs, .char '\n' ∉ l :=
  fun l hl => newline_not_mem_applyHunks (applyHunks_of_windowsFrom hw) hls hbody l (List.mem_append_right _ hl)

/-! ### Blank diffs -/

theorem mem_of_mem_lines {t l : Text} {c : CodePoint} (hl : l ∈ Text.lines t) (hc : c ∈ l) : c ∈ t := by
  have hmem : ∀ {ls : List Text}, l ∈ ls → c ∈ Text.ofLines ls := by
    intro ls hl
    induction ls with
    | nil => cases hl
    | cons p ls ih =>
      cases ls with
      | nil =>
        obtain rfl := List.mem_singleton.1 hl
        simpa [Text.ofLines] using hc
      | cons q ls =>
        rw [Text.ofLines, Text.joinOn_cons_cons]
        rcases List.mem_cons.1 hl with rfl | hl
        · exact List.mem_append_left _ hc
        · exact List.mem_append_right _ (List.mem_cons_of_mem _ (ih hl))
  simpa using hmem hl

theorem reverseLine_of_blank {l : Text} (h : ∀ c ∈ l, Text.isBlank c = true) :
    reverseLine l = l := by
  have hhead : ∀ c, Text.isBlank c = false → l.head? ≠ some c := fun c hc he =>
    absurd (h c (List.mem_of_mem_head? he)) (by simp [hc])
  have hnone : Header.parse? l = none := Header.parse?_eq_none (hhead '@' (by decide))
  cases hk : kind l with
  | removal => exact absurd (head?_of_isRemoval ((kind_eq_removal l).1 hk)) (hhead '-' (by decide))
  | addition =>
    exact absurd (head?_of_isAddition ((kind_eq_addition l).1 hk)) (hhead '+' (by decide))
  | context => simp only [reverseLine, hk, hnone]
  | other => simp only [reverseLine, hk, hnone]

theorem reverse_of_blank {diff : Text} (h : diff.all Text.isBlank = true) :
    reverse diff = diff := by
  have hmap : (Text.lines diff).map reverseLine = (Text.lines diff).map id :=
    List.map_congr_left fun l hl =>
      reverseLine_of_blank fun c hc => List.all_eq_true.1 h c (mem_of_mem_lines hl hc)
  rw [reverse, hmap, List.map_id, Text.ofLines_lines]

/-! ### Undoing -/

/-- What makes a diff one that can be undone: its windows come one after the other, its new starts are
the old ones moved by what the hunks before have added and removed, exchanging the marks names no
file, and a line is left. -/
structure Reversible (hs : List Hunk) (size : Nat) : Prop where
  within : WindowsWithin hs size
  renumbered : Renumbered 0 hs
  marks : ∀ h ∈ hs, MarksReadable h.body
  keeps : 1 ≤ (size : Int) + totalGrowth hs

section Undoing

variable {strict : Bool} {content diff result : Text} {hs : List Hunk}

theorem lines_of_apply (hd : hunks diff = .ok hs) (hne : hs ≠ [])
    (hrev : Reversible hs (Text.lines content).length)
    (happ : apply strict content diff = .ok result) :
    Text.lines result = refillAll (Text.lines content) 0 hs ∧
      (strict = true → ∀ h ∈ hs, h.Fits (Text.lines content)) := by
  have hls := applyHunks_eq_lines hd hne happ hrev.keeps
  have hfit : strict = true → ∀ h ∈ hs, h.Fits (Text.lines content) := by
    intro hst
    subst hst
    exact fits_of_applyHunks hls hrev.within
  refine ⟨?_, hfit⟩
  rw [applyHunks_eq_refillAll hrev.within.windowsFrom_zero hfit] at hls
  exact (Except.ok.inj hls).symm

theorem removalsFit_of_apply (hd : hunks diff = .ok hs)
    (hrev : Reversible hs (Text.lines content).length)
    (happ : apply true content diff = .ok result) :
    ∀ h ∈ hs, RemovalsFit h.body (h.window (Text.lines content)) := by
  intro h hh
  have hf : h.window (Text.lines content) = expected h.body :=
    (lines_of_apply hd (List.ne_nil_of_mem hh) hrev happ).2 rfl h hh
  rw [hf]
  exact removalsFit_expected h.body

/-- The reversed diff can be applied to what the diff has left, and it brings the old text back
exactly where the lines that the diff dropped were the lines that it names. -/
theorem apply_reverse_iff (hd : hunks diff = .ok hs)
    (hrev : Reversible hs (Text.lines content).length)
    (happ : apply strict content diff = .ok result) :
    ∃ back, apply strict result (reverse diff) = .ok back ∧
      (back = content ↔ ∀ h ∈ hs, RemovalsFit h.body (h.window (Text.lines content))) := by
  by_cases hne : hs = []
  · subst hne
    unfold apply at happ
    simp only [hd] at happ
    split at happ
    · next hblank =>
      obtain rfl := Except.ok.inj happ
      refine ⟨content, ?_, by simp⟩
      simp only [reverse_of_blank hblank, apply, hd, if_pos hblank]
    · cases happ
  obtain ⟨hlines, hfit⟩ := lines_of_apply hd hne hrev happ
  have hfrom := hrev.within.windowsFrom_zero
  obtain ⟨hback, hwindow, hiff⟩ := @refillAll_reversed (Text.lines content) [] 0 hs hfrom
    (by simpa using hrev.renumbered) hrev.marks
  simp only [List.nil_append, List.length_nil, List.drop_zero, ← hlines] at hback hwindow hiff
  have hfits : strict = true → ∀ h ∈ hs.map Hunk.reversed, h.Fits (Text.lines result) := by
    intro hst k hk
    obtain ⟨h, hh, rfl⟩ := List.mem_map.1 hk
    have hf : h.window (Text.lines content) = expected h.body := hfit hst h hh
    rw [Hunk.Fits, hwindow h hh, hf]
    exact refill_expected (hrev.marks h hh)
  have hrun := applyHunks_eq_refillAll hback hfits
  refine ⟨_, by rw [apply_of_hunks (hunks_reverse hd) (by simpa using hne), hrun]; rfl, ?_⟩
  rw [List.take_zero, List.nil_append, ← hiff]
  constructor
  · intro hsame
    rw [← hsame]
    refine (lines_ofLines (fun hnil => ?_) (newline_not_mem_refillAll hback
      (fun l hl => newline_not_mem_of_mem_lines hl) (newline_not_mem_body (hunks_reverse hd)))).symm
    -- nothing is left of no text: the old text has at least one line
    have hlen := length_refillAll hback
    have hgrow := length_refillAll hfrom
    rw [← hlines] at hgrow
    have hneg := totalGrowth_reversed hrev.marks
    have hpos := List.length_pos_iff.2 (lines_ne_nil content)
    rw [hnil, List.length_nil, hneg] at hlen
    omega
  · intro hsame
    rw [hsame, Text.ofLines_lines]

/-- A strict application is undone by the strict application of the reversed diff. -/
theorem apply_reverse_of_apply (hd : hunks diff = .ok hs)
    (happ : apply true content diff = .ok result)
    (hord : hs.IsChain fun h k => h.oldStart + h.width ≤ k.oldStart)
    (hin : ∀ h ∈ hs, h.oldStart - 1 ≤ (Text.lines content).length)
    (hnum : Renumbered 0 hs) (hmark : ∀ h ∈ hs, MarksReadable h.body)
    (hkeeps : 1 ≤ ((Text.lines content).length : Int) + totalGrowth hs) :
    apply true result (reverse diff) = .ok content := by
  have hwithin : WindowsWithin hs (Text.lines content).length := by
    by_cases hne : hs = []
    · subst hne
      exact ⟨by simp, hord, by simp⟩
    · obtain ⟨ls, hls, -⟩ := applyHunks_of_apply hd hne happ
      exact windowsWithin_of_applyHunks hls hord hin
  have hrev : Reversible hs (Text.lines content).length := ⟨hwithin, hnum, hmark, hkeeps⟩
  obtain ⟨back, hback, hiff⟩ := apply_reverse_iff hd hrev happ
  rw [hback, hiff.2 (removalsFit_of_apply hd hrev happ)]

end Undoing

/-- Two hunks, the second of which stands two lines later in the new text. -/
theorem apply_reverse_of_apply_of_two_hunks :
    let diff : Text := "@@ -1,2 +1,4 @@\n a\n+b\n-x\n+c\n+d\n@@ -4 +6,0 @@ f\n-z"
    apply true "a\nx\ny\nz\n" diff = .ok "a\nb\nc\nd\ny\n" ∧
      apply true "a\nb\nc\nd\ny\n" (reverse diff) = .ok "a\nx\ny\nz\n" := by
  intro diff
  have hd : hunks diff = .ok [⟨1, 2, 1, 4, [" a", "+b", "-x", "+c", "+d"]⟩,
      ⟨4, 1, 6, 0, ["-z"]⟩] := by decide
  have happ : apply true "a\nx\ny\nz\n" diff = .ok "a\nb\nc\nd\ny\n" := by decide
  exact ⟨happ, apply_reverse_of_apply hd happ (by decide) (by decide)
    ⟨by decide, by decide, trivial⟩ (by decide) (by decide)⟩

end Mend.Diff
