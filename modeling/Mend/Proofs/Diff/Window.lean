import Mathlib.Data.List.Chain
import Mend.Diff.Apply

/-!
# Windows of a text

A hunk speaks of a window of the old text: as many lines as its body has context lines and
removals, from its old start on. Hunks are replayed one after the other, the last one first, on a
list of lines that changes under them. As long as the windows come one after the other within the
text, the outcome is the one that a reader of the diff expects (`refillAll`): all windows are refilled
at once, each in its place, and nothing else changes. Being strict does not change the outcome, it
only asks that the windows hold what the bodies say.
-/

namespace Mend.Diff

/-! ### Bodies -/

/-- Whether a body line speaks of a line of the old text. -/
def isOld (b : Text) : Bool := isContext b || isRemoval b

/-- The lines that a body expects to find in its window. -/
def expected (body : List Text) : List Text := (body.filter isOld).map payload

/-- What the replay of a body makes of the lines from its window on. A context line keeps the line
that it meets and a removal drops the line that it meets, whatever these lines are. -/
def refill : List Text → List Text → List Text
  | [], ls => ls
  | b :: body, ls =>
    match kind b with
    | .removal => refill body ls.tail
    | .addition => payload b :: refill body ls
    | .context => ls.head?.toList ++ refill body ls.tail
    | .other => refill body ls

theorem isContext_eq (b : Text) : isContext b = decide (kind b = .context) := by
  rw [Bool.eq_iff_iff, ← kind_eq_context b, decide_eq_true_iff]

theorem isRemoval_eq (b : Text) : isRemoval b = decide (kind b = .removal) := by
  rw [Bool.eq_iff_iff, ← kind_eq_removal b, decide_eq_true_iff]

theorem isAddition_eq (b : Text) : isAddition b = decide (kind b = .addition) := by
  rw [Bool.eq_iff_iff, ← kind_eq_addition b, decide_eq_true_iff]

theorem isOld_eq (b : Text) :
    isOld b = (decide (kind b = .context) || decide (kind b = .removal)) := by
  rw [isOld, isContext_eq, isRemoval_eq]

theorem expected_cons (b : Text) (body : List Text) :
    expected (b :: body) = if isOld b then payload b :: expected body else expected body := by
  by_cases h : isOld b = true
  · simp [expected, h]
  · simp [expected, h]

theorem length_expected (h : Hunk) : (expected h.body).length = h.width := by
  simp only [expected, Hunk.width, List.length_map, ← List.countP_eq_length_filter]
  rfl

/-- Going through a body together with its window: a context line and a removal each meet the next
line of the window, other lines meet none. -/
@[elab_as_elim]
theorem window_induction {motive : (body window : List Text) →
      window.length = (expected body).length → Prop}
    (nil : motive [] [] rfl)
    (removal : ∀ b body l window (_ : kind b = .removal) hw hw', motive body window hw →
      motive (b :: body) (l :: window) hw')
    (addition : ∀ b body window (_ : kind b = .addition) hw hw', motive body window hw →
      motive (b :: body) window hw')
    (context : ∀ b body l window (_ : kind b = .context) hw hw', motive body window hw →
      motive (b :: body) (l :: window) hw')
    (other : ∀ b body window (_ : kind b = .other) hw hw', motive body window hw →
      motive (b :: body) window hw')
    (body window : List Text) (hw : window.length = (expected body).length) :
    motive body window hw := by
  induction body generalizing window with
  | nil =>
    obtain rfl : window = [] := List.eq_nil_of_length_eq_zero hw
    exact nil
  | cons b body ih =>
    have hlen := hw
    rw [expected_cons, isOld_eq] at hlen
    cases hk : kind b with
    | removal =>
      cases window with
      | nil => simp [hk] at hlen
      | cons l window =>
        have hrest : window.length = (expected body).length := by simpa [hk] using hlen
        exact removal b body l window hk hrest hw (ih window hrest)
    | addition =>
      have hrest : window.length = (expected body).length := by simpa [hk] using hlen
      exact addition b body window hk hrest hw (ih window hrest)
    | context =>
      cases window with
      | nil => simp [hk] at hlen
      | cons l window =>
        have hrest : window.length = (expected body).length := by simpa [hk] using hlen
        exact context b body l window hk hrest hw (ih window hrest)
    | other =>
      have hrest : window.length = (expected body).length := by simpa [hk] using hlen
      exact other b body window hk hrest hw (ih window hrest)

theorem refill_append (body window ls : List Text) (hw : window.length = (expected body).length) :
    refill body (window ++ ls) = refill body window ++ ls := by
  induction body, window, hw using window_induction with
  | nil => rfl
  | removal b body l window hk _ _ ih =>
    simp only [refill, hk, List.cons_append, List.tail_cons, ih]
  | addition b body window hk _ _ ih => simp only [refill, hk, ih, List.cons_append]
  | context b body l window hk _ _ ih =>
    simp only [refill, hk, List.cons_append, List.head?_cons, List.tail_cons, ih,
      List.append_assoc]
  | other b body window hk _ _ ih => simp only [refill, hk, ih]

/-! ### One hunk -/

/-- The cursor invariant: in front of the cursor stands what the body lines so far have made, behind
it the old lines that are still to be met. -/
theorem replay_eq_refill (body done ls : List Text) (h : (expected body).length ≤ ls.length) :
    replay done.length body (done ++ ls) = .ok (done ++ refill body ls) := by
  induction body generalizing done ls with
  | nil => rfl
  | cons b body ih =>
    rw [expected_cons, isOld_eq] at h
    cases hk : kind b with
    | removal =>
      cases ls with
      | nil => simp [hk] at h
      | cons l ls =>
        have hlt : done.length < (done ++ l :: ls).length := by simp
        have he : (done ++ l :: ls).eraseIdx done.length = done ++ ls := by
          rw [List.eraseIdx_append_of_length_le (Nat.le_refl _)]
          simp
        simp only [replay, hk, refill, if_pos hlt, he, List.tail_cons]
        exact ih done ls (by simpa [hk] using h)
    | addition =>
      have hle : (decide (done.length < positionBound) ||
          decide (done.length ≤ (done ++ ls).length)) = true := by simp
      have hi : insertAt done.length (payload b) (done ++ ls) = (done ++ [payload b]) ++ ls := by
        simp [insertAt]
      have hr := ih (done ++ [payload b]) ls (by simpa [hk] using h)
      simp only [List.length_append, List.length_singleton] at hr
      simp only [replay, hk, refill, if_pos hle, hi, hr]
      simp
    | context =>
      cases ls with
      | nil => simp [hk] at h
      | cons l ls =>
        have hr := ih (done ++ [l]) ls (by simpa [hk] using h)
        simp only [List.length_append, List.length_singleton, List.append_assoc,
          List.singleton_append] at hr
        simp only [replay, hk, refill, hr]
        simp
    | other =>
      simp only [replay, hk, refill]
      exact ih done ls (by simpa [hk] using h)

theorem lineAt?_append (done ls : List Text) (k : Nat) :
    lineAt? (done ++ ls) (done.length + 1 + k) = ls[k]? := by
  have hk : done.length + 1 + k = (done.length + k) + 1 := by omega
  rw [hk, lineAt?, List.getElem?_append_right (by omega), Nat.add_sub_cancel_left]

/-- The lines that a body expects are there, or the first one that differs is reported. -/
theorem verify_cases (start : Nat) (body done ls : List Text) :
    (expected body <+: ls ∧ verify start (done ++ ls) (done.length + 1) body = .ok ()) ∨
    ∃ k < (expected body).length, (expected body).take k <+: ls ∧ ls[k]? ≠ (expected body)[k]? ∧
      verify start (done ++ ls) (done.length + 1) body =
        .error (misfitAt (done ++ ls) (done.length + 1 + k)
          (.lineMismatch (done.length + 1 + k) start)) := by
  induction body generalizing done ls with
  | nil => exact .inl ⟨List.nil_prefix, rfl⟩
  | cons b body ih =>
    by_cases hb : isOld b = true
    · have hat := lineAt?_append done ls 0
      rw [Nat.add_zero] at hat
      have hv : verify start (done ++ ls) (done.length + 1) (b :: body) =
          if ls[0]? = some (payload b) then verify start (done ++ ls) (done.length + 2) body
          else .error (misfitAt (done ++ ls) (done.length + 1)
            (.lineMismatch (done.length + 1) start)) := by
        have hb2 : (isContext b || isRemoval b) = true := hb
        simp only [verify, hb2, hat, if_true]
      rw [expected_cons, if_pos hb, hv]
      by_cases hl : ls[0]? = some (payload b)
      · rw [if_pos hl]
        cases ls with
        | nil => simp at hl
        | cons l ls =>
          have hlb : l = payload b := by simpa using hl
          have hr := ih (done ++ [l]) ls
          simp only [List.length_append, List.length_singleton, List.append_assoc,
            List.singleton_append] at hr
          rcases hr with ⟨hp, hr⟩ | ⟨k, hk, hp, hne, hr⟩
          · exact .inl ⟨by rw [hlb]; exact (List.prefix_cons_inj _).2 hp, hr⟩
          · refine .inr ⟨k + 1, by simpa using hk, ?_, by simpa using hne, ?_⟩
            · rw [List.take_succ_cons, hlb]
              exact (List.prefix_cons_inj _).2 hp
            · have hkk : done.length + 1 + 1 + k = done.length + 1 + (k + 1) := by omega
              rw [hkk] at hr
              exact hr
      · rw [if_neg hl]
        exact .inr ⟨0, by simp, by simp, by simpa using hl, rfl⟩
    · have hv : verify start (done ++ ls) (done.length + 1) (b :: body) =
          verify start (done ++ ls) (done.length + 1) body := by
        have hb2 : (isContext b || isRemoval b) = false := by simpa [isOld] using hb
        simp only [verify, hb2, Bool.false_eq_true, if_false]
      rw [expected_cons, if_neg hb, hv]
      exact ih done ls

section

variable {h : Hunk} {done ls : List Text} (hs : h.oldStart = done.length + 1)

include hs

theorem applyHunk_of_verify {strict : Bool} (hv : strict = true →
    verify h.oldStart (done ++ ls) (done.length + 1) h.body = .ok ()) :
    applyHunk strict h (done ++ ls) = replay done.length h.body (done ++ ls) := by
  rw [hs] at hv
  cases strict with
  | false => simp only [applyHunk, hs, Bool.false_eq_true, if_false]
  | true => simp only [applyHunk, hs, if_true, hv rfl]

theorem applyHunk_of_not_verify {e : ApplyError}
    (hv : verify h.oldStart (done ++ ls) (done.length + 1) h.body = .error e) :
    applyHunk true h (done ++ ls) = .error e := by
  rw [hs] at hv
  simp only [applyHunk, hs, if_true, hv]

theorem applyHunk_of_found {strict : Bool} (hle : (expected h.body).length ≤ ls.length)
    (hfit : strict = true → expected h.body <+: ls) :
    applyHunk strict h (done ++ ls) = .ok (done ++ refill h.body ls) := by
  rw [applyHunk_of_verify hs fun hst => ?_]
  · exact replay_eq_refill h.body done ls hle
  · rcases verify_cases h.oldStart h.body done ls with ⟨-, hv⟩ | ⟨k, hk, -, hne, -⟩
    · exact hv
    · obtain ⟨rest, rfl⟩ := hfit hst
      exact absurd (List.getElem?_append_left hk) hne

/-- A strict hunk whose window begins behind the lines `done` and does not hold what it should. -/
theorem applyHunk_of_not_found (hfit : ¬ expected h.body <+: ls) :
    ∃ k < (expected h.body).length, (expected h.body).take k <+: ls ∧
      ls[k]? ≠ (expected h.body)[k]? ∧
      applyHunk true h (done ++ ls) =
        .error (misfitAt (done ++ ls) (h.oldStart + k) (.lineMismatch (h.oldStart + k) h.oldStart)) := by
  rcases verify_cases h.oldStart h.body done ls with ⟨hp, -⟩ | ⟨k, hk, hp, hne, hv⟩
  · exact absurd hp hfit
  · refine ⟨k, hk, hp, hne, ?_⟩
    rw [applyHunk_of_not_verify hs hv, hs]

end

/-! ### All hunks -/

/-- The lines of a text that a hunk speaks of. -/
def Hunk.window (h : Hunk) (ls : List Text) : List Text := (ls.drop (h.oldStart - 1)).take h.width

/-- Whether the window of a hunk holds the lines that its body expects. -/
def Hunk.Fits (h : Hunk) (ls : List Text) : Prop := h.window ls = expected h.body

instance (h : Hunk) (ls : List Text) : Decidable (h.Fits ls) :=
  inferInstanceAs (Decidable (h.window ls = expected h.body))

/-- The lines from position `n` on with the window of each hunk refilled in its place. Positions and
windows are those of the old text throughout. -/
def refillAll (ls : List Text) : Nat → List Hunk → List Text
  | n, [] => ls.drop n
  | n, h :: hs =>
    (ls.take (h.oldStart - 1)).drop n ++ refill h.body (h.window ls) ++
      refillAll ls (h.oldStart - 1 + h.width) hs

/-- The windows of hunks come one after the other within a text of `size` lines. -/
structure WindowsWithin (hs : List Hunk) (size : Nat) : Prop where
  start_pos : ∀ h ∈ hs, 1 ≤ h.oldStart
  apart : hs.IsChain fun h k => h.oldStart + h.width ≤ k.oldStart
  last_le : ∀ h ∈ hs.getLast?, h.oldStart - 1 + h.width ≤ size

/-- The same, told hunk by hunk: the windows begin at position `n` or later. -/
def WindowsFrom (size : Nat) : Nat → List Hunk → Prop
  | n, [] => n ≤ size
  | n, h :: hs => n < h.oldStart ∧ WindowsFrom size (h.oldStart - 1 + h.width) hs

theorem WindowsFrom.le {size n : Nat} {hs : List Hunk} (hw : WindowsFrom size n hs) :
    n ≤ size := by
  induction hs generalizing n with
  | nil => exact hw
  | cons h hs ih =>
    obtain ⟨hn, hr⟩ := hw
    have hle := ih hr
    omega

theorem WindowsFrom.end_le {size n : Nat} {hs : List Hunk} (hw : WindowsFrom size n hs) :
    ∀ h ∈ hs, h.oldStart - 1 + h.width ≤ size := by
  induction hs generalizing n with
  | nil => exact List.forall_mem_nil _
  | cons h hs ih =>
    obtain ⟨-, hrest⟩ := hw
    exact List.forall_mem_cons.2 ⟨hrest.le, ih hrest⟩

theorem WindowsWithin.tail {size : Nat} {h : Hunk} {hs : List Hunk}
    (hw : WindowsWithin (h :: hs) size) : WindowsWithin hs size where
  start_pos k hk := hw.start_pos k (List.mem_cons_of_mem _ hk)
  apart := hw.apart.tail
  last_le k hk := by
    cases hs with
    | nil => simp at hk
    | cons g gs => exact hw.last_le k (by simpa [List.getLast?_cons_cons] using hk)

theorem WindowsWithin.windowsFrom {size n : Nat} {h : Hunk} {hs : List Hunk}
    (hw : WindowsWithin (h :: hs) size) (hn : n < h.oldStart) : WindowsFrom size n (h :: hs) := by
  induction hs generalizing n h with
  | nil => exact ⟨hn, hw.last_le h (by simp)⟩
  | cons g gs ih =>
    have hg : h.oldStart + h.width ≤ g.oldStart := (List.isChain_cons_cons.1 hw.apart).1
    have hpos := hw.start_pos h List.mem_cons_self
    exact ⟨hn, ih hw.tail (by omega)⟩

theorem WindowsWithin.windowsFrom_zero {size : Nat} {hs : List Hunk}
    (hw : WindowsWithin hs size) : WindowsFrom size 0 hs := by
  cases hs with
  | nil => exact Nat.zero_le size
  | cons h hs => exact hw.windowsFrom (hw.start_pos h List.mem_cons_self)

theorem length_window {h : Hunk} {ls : List Text} (hle : h.oldStart - 1 + h.width ≤ ls.length) :
    (h.window ls).length = h.width := by
  simp only [Hunk.window, List.length_take, List.length_drop]
  omega

theorem oldStart_eq {h : Hunk} {ls : List Text} (hpos : 1 ≤ h.oldStart)
    (hin : h.oldStart - 1 ≤ ls.length) : h.oldStart = (ls.take (h.oldStart - 1)).length + 1 := by
  rw [List.length_take, Nat.min_eq_left hin]
  omega

theorem take_append_window (h : Hunk) (ls : List Text) :
    ls.take (h.oldStart - 1) ++ h.window ls = ls.take (h.oldStart - 1 + h.width) :=
  List.take_add.symm

theorem take_append_gap {n : Nat} {h : Hunk} (ls : List Text) (hn : n < h.oldStart) :
    ls.take n ++ (ls.take (h.oldStart - 1)).drop n = ls.take (h.oldStart - 1) := by
  have ht : ls.take n = (ls.take (h.oldStart - 1)).take n := by
    rw [List.take_take, Nat.min_eq_left (by omega)]
  rw [ht, List.take_append_drop]

/-- A hunk that comes to its window in a text of which only later lines were changed. -/
theorem applyHunk_window {strict : Bool} {h : Hunk} {ls : List Text} (hpos : 1 ≤ h.oldStart)
    (hle : h.oldStart - 1 + h.width ≤ ls.length) (hfit : strict = true → h.Fits ls)
    (rest : List Text) :
    applyHunk strict h (ls.take (h.oldStart - 1 + h.width) ++ rest) =
      .ok (ls.take (h.oldStart - 1) ++ refill h.body (h.window ls) ++ rest) := by
  have hlen := oldStart_eq hpos (by omega : h.oldStart - 1 ≤ ls.length)
  have hexp : (h.window ls).length = (expected h.body).length := by
    rw [length_window hle, length_expected]
  rw [← take_append_window, List.append_assoc, List.append_assoc,
    ← refill_append h.body (h.window ls) rest hexp]
  refine applyHunk_of_found hlen (by simp only [List.length_append]; omega) fun hst => ?_
  have hf : h.window ls = expected h.body := hfit hst
  rw [hf]
  exact List.prefix_append _ _

/-- The suffix invariant: when the last hunks are applied, the lines in front of their windows are
still the old ones. -/
theorem applyHunks_eq_refillAll {strict : Bool} {ls : List Text} {n : Nat} {hs : List Hunk}
    (hw : WindowsFrom ls.length n hs) (hfit : strict = true → ∀ h ∈ hs, h.Fits ls) :
    applyHunks strict hs ls = .ok (ls.take n ++ refillAll ls n hs) := by
  induction hs generalizing n with
  | nil => simp [applyHunks, refillAll]
  | cons h hs ih =>
    obtain ⟨hn, hr⟩ := hw
    have hrest := ih hr fun hst k hk => hfit hst k (List.mem_cons_of_mem _ hk)
    have hone := applyHunk_window (by omega) hr.le (fun hst => hfit hst h List.mem_cons_self)
      (refillAll ls (h.oldStart - 1 + h.width) hs)
    simp only [applyHunks, hrest, hone, refillAll]
    conv => lhs; rw [← take_append_gap ls hn]
    simp only [List.append_assoc]

/-- A strict application stops at the last hunk that does not fit, at the first line that differs. -/
theorem applyHunks_of_not_fits {ls : List Text} {n : Nat} {hs : List Hunk}
    (hw : WindowsFrom ls.length n hs) (hfit : ¬ ∀ h ∈ hs, h.Fits ls) :
    ∃ h ∈ hs, ∃ k < h.width, (h.window ls)[k]? ≠ (expected h.body)[k]? ∧
      applyHunks true hs ls =
        .error (.misfit (.lineMismatch (h.oldStart + k) h.oldStart)) := by
  induction hs generalizing n with
  | nil => exact absurd (by simp) hfit
  | cons h hs ih =>
    obtain ⟨hn, hr⟩ := hw
    by_cases hrest : ∀ k ∈ hs, k.Fits ls
    · have hh : ¬ h.Fits ls := fun hf => hfit (by simpa using ⟨hf, hrest⟩)
      have hdone := @applyHunks_eq_refillAll true ls _ hs hr fun _ => hrest
      have hle := hr.le
      have hlen := oldStart_eq (by omega) (by omega : h.oldStart - 1 ≤ ls.length)
      have hwin : (h.window ls).length = (expected h.body).length := by
        rw [length_window hle, length_expected]
      have hpre : ¬ expected h.body <+: h.window ls ++
          refillAll ls (h.oldStart - 1 + h.width) hs := fun hp => hh (by
        rw [List.prefix_iff_eq_take, List.take_left' hwin] at hp
        exact hp.symm)
      obtain ⟨k, hk, -, hne, happ⟩ := applyHunk_of_not_found hlen hpre
      rw [List.getElem?_append_left (by omega)] at hne
      refine ⟨h, List.mem_cons_self, k, by rw [← length_expected]; exact hk, hne, ?_⟩
      rw [← List.append_assoc, take_append_window] at happ
      simp only [applyHunks, hdone, happ, misfitAt]
      rw [length_expected] at hk
      rw [if_pos]
      simp only [List.length_append, List.length_take]
      omega
    · obtain ⟨g, hg, k, hk, hne, he⟩ := ih hr hrest
      exact ⟨g, List.mem_cons_of_mem _ hg, k, hk, hne, by simp only [applyHunks, he]⟩

theorem apply_of_hunks {strict : Bool} {content diff : Text} {hs : List Hunk}
    (hd : hunks diff = .ok hs) (hne : hs ≠ []) :
    apply strict content diff = (applyHunks strict hs (Text.lines content)).map Text.ofLines := by
  cases hs with
  | nil => exact absurd rfl hne
  | cons h hs =>
    simp only [apply, hd]
    cases applyHunks strict (h :: hs) (Text.lines content) with
    | error e => rfl
    | ok ls => rfl

/-- Applying a diff replaces all windows at once: each one, in its place in the old text, by what its
body makes of it. A lenient application always comes to this text. A strict one does where every
window holds the lines that its body names, and otherwise reports a line of a window that differs. -/
theorem apply_replaces_windows {content diff : Text} {hs : List Hunk} (hd : hunks diff = .ok hs)
    (hne : hs ≠ []) (hw : WindowsWithin hs (Text.lines content).length) :
    apply false content diff = .ok (Text.ofLines (refillAll (Text.lines content) 0 hs)) ∧
    ((∀ h ∈ hs, h.Fits (Text.lines content)) →
      apply true content diff = .ok (Text.ofLines (refillAll (Text.lines content) 0 hs))) ∧
    ((¬ ∀ h ∈ hs, h.Fits (Text.lines content)) →
      ∃ h ∈ hs, ∃ k < h.width, (h.window (Text.lines content))[k]? ≠ (expected h.body)[k]? ∧
        apply true content diff =
          .error (.misfit (.lineMismatch (h.oldStart + k) h.oldStart))) := by
  have hfrom := hw.windowsFrom_zero
  refine ⟨?_, ?_, ?_⟩
  · have hrun := @applyHunks_eq_refillAll false _ _ _ hfrom (by simp)
    rw [apply_of_hunks hd hne, hrun]
    rfl
  · intro hfit
    have hrun := @applyHunks_eq_refillAll true _ _ _ hfrom fun _ => hfit
    rw [apply_of_hunks hd hne, hrun]
    rfl
  · intro hfit
    obtain ⟨h, hh, k, hk, hdiff, he⟩ := applyHunks_of_not_fits hfrom hfit
    exact ⟨h, hh, k, hk, hdiff, by rw [apply_of_hunks hd hne, he]; rfl⟩

/-- Two hunks on a text that does not hold the line `b`, which the first one removes. -/
theorem apply_replaces_windows_of_two_hunks :
    let diff : Text := "@@ -1,2 +1,2 @@\n a\n-b\n+B\n@@ -4 +4,2 @@\n d\n+e"
    apply false "a\nx\nc\nd" diff = .ok "a\nB\nc\nd\ne" ∧
      ∃ line start, apply true "a\nx\nc\nd" diff = .error (.misfit (.lineMismatch line start)) := by
  intro diff
  have hd : hunks diff =
      .ok [⟨1, 2, 1, 2, [" a", "-b", "+B"]⟩, ⟨4, 1, 4, 2, [" d", "+e"]⟩] := by decide
  obtain ⟨hlenient, -, hstrict⟩ := @apply_replaces_windows "a\nx\nc\nd" diff _ hd (by decide)
    ⟨by decide, by decide, by decide⟩
  obtain ⟨h, -, k, -, -, he⟩ := hstrict (by decide)
  exact ⟨hlenient.trans (by decide), h.oldStart + k, h.oldStart, he⟩

end Mend.Diff
