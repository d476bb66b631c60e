import Mathlib.Data.Nat.Digits.Defs
import Mend.Proofs.Diff.Encodable

/-!
# Hunks within bounds

Applying a diff gives a text or tells what does not fit, as long as its numbers can be handled: the
number of a line that does not fit has to be printed, and a line cannot be put at a position that no
list can have. Hunks that end before the bound of positions meet neither limit, in whatever text
(`apply_answers`), and neither do their reverses if they end before it on both sides.
-/

namespace Mend.Diff

/-- Whether a result is an answer: a value, or what does not fit. -/
def Answers {α : Type} (r : Except ApplyError α) : Prop := ∀ e, r = .error e → ∃ m, e = .misfit m

theorem answers_ok {α : Type} (a : α) : Answers (.ok a : Except ApplyError α) :=
  fun _ he => nomatch he

theorem answers_misfit {α : Type} (m : Misfit) :
    Answers (.error (.misfit m) : Except ApplyError α) :=
  fun _ he => ⟨m, (Except.error.inj he).symm⟩

/-! ### Numbers that can be printed -/

theorem misfitAt_of_print {ls : List Text} {line : Nat}
    (h : (Text.ofNat line).length ≤ Number.maxDigits) (m : Misfit) :
    misfitAt ls line m = .misfit m := by
  have hprint : Number.print line = .ok (Text.ofInt line) := by
    simp only [Number.print, Int.natAbs_natCast, if_pos h]
  unfold misfitAt
  split
  · rfl
  · rw [hprint]

theorem length_of_print {n : Nat} (h : (Number.print n).isOk = true) :
    (Text.ofNat n).length ≤ Number.maxDigits := by
  by_contra hlong
  simp [Number.print, hlong, Except.isOk, Except.toBool] at h

theorem print_of_length {n : Nat} (h : (Text.ofNat n).length ≤ Number.maxDigits) :
    (Number.print n).isOk = true := by
  simp [Number.print, h, Except.isOk, Except.toBool]

theorem length_ofNat_of_le {n : Nat} (h : n ≤ positionBound) :
    (Text.ofNat n).length ≤ Number.maxDigits := by
  have hbound : positionBound < 10 ^ 20 := by decide
  have hlen : (Text.ofNat n).length ≤ 20 := by
    rw [Text.length_ofNat]
    exact Nat.toDigits_length 10 n 20 (by omega) (Nat.lt_of_le_of_lt h hbound)
  have hmax : 20 ≤ Number.maxDigits := by decide
  omega

theorem answers_misfitAt {α : Type} (ls : List Text) {line : Nat} (h : line ≤ positionBound)
    (m : Misfit) : Answers (.error (misfitAt ls line m) : Except ApplyError α) := by
  rw [misfitAt_of_print (length_ofNat_of_le h)]
  exact answers_misfit m

/-! ### Hunks that are not found -/

theorem verify_past_end (start : Nat) {ls : List Text} {line : Nat} (hline : ls.length < line)
    {body : List Text} (hold : expected body ≠ []) :
    verify start ls line body = .error (misfitAt ls line (.lineMismatch line start)) := by
  induction body with
  | nil => exact absurd rfl hold
  | cons b body ih =>
    rw [expected_cons] at hold
    unfold verify
    by_cases hb : isOld b = true
    · have hnone : lineAt? ls line = none := by
        obtain ⟨n, rfl⟩ : ∃ n, line = n + 1 := ⟨line - 1, by omega⟩
        rw [lineAt?, List.getElem?_eq_none_iff]
        omega
      have hb2 : (isContext b || isRemoval b) = true := hb
      simp [hb2, hnone]
    · have hb2 : (isContext b || isRemoval b) = false := by simpa [isOld] using hb
      rw [if_neg hb] at hold
      simp only [hb2, Bool.false_eq_true, if_false]
      exact ih hold

/-- A hunk that is checked line by line, where other lines stand than those it expects, is refused at the first
line that differs. The expected lines before that one stand in the text. -/
theorem applyHunk_of_absent {h : Hunk} {ls : List Text} (hpos : 1 ≤ h.oldStart)
    (habsent : ¬ expected h.body <+: ls.drop (h.oldStart - 1)) :
    ∃ k < (expected h.body).length, (expected h.body).take k <+: ls.drop (h.oldStart - 1) ∧
      applyHunk true h ls =
        .error (misfitAt ls (h.oldStart + k) (.lineMismatch (h.oldStart + k) h.oldStart)) := by
  by_cases hin : h.oldStart - 1 ≤ ls.length
  · obtain ⟨k, hk, htake, -, he⟩ := applyHunk_of_not_found (oldStart_eq hpos hin) habsent
    rw [List.take_append_drop] at he
    exact ⟨k, hk, htake, he⟩
  · have hold : expected h.body ≠ [] := fun hnil => habsent (hnil ▸ List.nil_prefix)
    have hv := verify_past_end h.oldStart (by omega : ls.length < h.oldStart) hold
    refine ⟨0, List.length_pos_iff.2 hold, List.nil_prefix, ?_⟩
    simp only [applyHunk, if_true, hv]
    rfl

/-! ### Hunks -/

theorem verify_answers (start : Nat) (ls : List Text) {line : Nat} {body : List Text}
    (h : line + body.length ≤ positionBound) : Answers (verify start ls line body) := by
  induction body generalizing line with
  | nil => exact answers_ok ()
  | cons b body ih =>
    rw [List.length_cons] at h
    unfold verify
    split
    · split
      · exact ih (by omega)
      · exact answers_misfitAt ls (by omega) _
    · exact ih (by omega)

theorem replay_answers {position : Nat} {body : List Text} (ls : List Text)
    (h : position + body.length ≤ positionBound) : Answers (replay position body ls) := by
  induction body generalizing position ls with
  | nil => exact answers_ok ls
  | cons b body ih =>
    rw [List.length_cons] at h
    unfold replay
    split
    · split
      · exact ih _ (by omega)
      · exact answers_misfitAt ls (by omega) _
    · have hpos : position < positionBound := by omega
      simp only [hpos, decide_true, Bool.true_or, if_true]
      exact ih _ (by omega)
    · exact ih ls (by omega)
    · exact ih ls (by omega)

/-- Whether a hunk ends before the bound of positions, even if each line of its body took a line. -/
def Hunk.InBounds (h : Hunk) : Prop := h.oldStart + h.body.length ≤ positionBound

instance (h : Hunk) : Decidable h.InBounds :=
  inferInstanceAs (Decidable (h.oldStart + h.body.length ≤ positionBound))

theorem applyHunk_answers (strict : Bool) {h : Hunk} (hb : h.InBounds) (ls : List Text) :
    Answers (applyHunk strict h ls) := by
  have hverify : Answers (if strict then verify h.oldStart ls h.oldStart h.body else .ok ()) := by
    split
    · exact verify_answers _ ls hb
    · exact answers_ok ()
  unfold applyHunk
  split
  · next e he =>
    obtain ⟨m, rfl⟩ := hverify e he
    exact answers_misfit m
  · unfold Hunk.InBounds at hb
    split
    · exact answers_misfit _
    · next position hstart => exact replay_answers ls (by omega)

theorem applyHunks_answers (strict : Bool) {hs : List Hunk} (hb : ∀ h ∈ hs, h.InBounds)
    (ls : List Text) : Answers (applyHunks strict hs ls) := by
  induction hs with
  | nil => exact answers_ok ls
  | cons h hs ih =>
    obtain ⟨hh, hrest⟩ := List.forall_mem_cons.1 hb
    unfold applyHunks
    split
    · next e he =>
      obtain ⟨m, rfl⟩ := ih hrest e he
      exact answers_misfit m
    · exact applyHunk_answers strict hh _

/-- A diff whose hunks are in bounds is applied to any text, or something does not fit. -/
theorem apply_answers (strict : Bool) {diff : Text} {hs : List Hunk} (hd : hunks diff = .ok hs)
    (hb : ∀ h ∈ hs, h.InBounds) (content : Text) : Answers (apply strict content diff) := by
  unfold apply
  rw [hd]
  cases hs with
  | nil =>
    by_cases hblank : diff.all Text.isBlank = true
    · simp only [if_pos hblank]
      exact answers_ok content
    · simp only [if_neg hblank]
      exact answers_misfit _
  | cons h hs =>
    simp only
    split
    · next e he =>
      obtain ⟨m, rfl⟩ := applyHunks_answers strict hb _ e he
      exact answers_misfit m
    · exact answers_ok _

/-! ### Both directions -/

/-- Whether a hunk is in bounds and adds only what can be written. -/
def Hunk.IsManageable (h : Hunk) : Prop := h.InBounds ∧ h.IsEncodable

instance (h : Hunk) : Decidable h.IsManageable := inferInstanceAs (Decidable (h.InBounds ∧ h.IsEncodable))

/-- Whether a diff can be read, and its hunks are manageable in the old text and in the new one. -/
def Manageable (diff : Text) : Prop :=
  ∃ hs, hunks diff = .ok hs ∧ ∀ h ∈ hs, h.IsManageable ∧ h.reversed.IsManageable

theorem Manageable.reverse {diff : Text} (h : Manageable diff) :
    ∃ hs, hunks (reverse diff) = .ok hs ∧ ∀ k ∈ hs, k.IsManageable := by
  obtain ⟨hs, hd, hb⟩ := h
  refine ⟨_, hunks_reverse hd, fun k hk => ?_⟩
  obtain ⟨g, hg, rfl⟩ := List.mem_map.1 hk
  exact (hb g hg).2

end Mend.Diff
