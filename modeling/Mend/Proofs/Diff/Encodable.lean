import Mend.Proofs.Diff.Exchange
import Mend.Proofs.Diff.Replay
import Mend.Text.Utf8

/-!
# Texts that can be written

The text of a file has only characters, and what a diff makes of it has others only if a hunk adds them
(`encodable_of_apply`).
-/

namespace Mend.Utf8

theorem encodable_joinOn_iff {sep : CodePoint} (hsep : sep.isChar = true) {ls : List Text} :
    Encodable (Text.joinOn sep ls) ↔ ∀ l ∈ ls, Encodable l := by
  induction ls with
  | nil => simp [Encodable]
  | cons l ls ih =>
    cases ls with
    | nil => simp [Encodable]
    | cons k ls =>
      rw [Text.joinOn_cons_cons, List.forall_mem_cons, ← ih]
      simp only [Encodable, List.forall_mem_append, List.forall_mem_cons, hsep, true_and]

theorem encodable_ofLines_iff {ls : List Text} : Encodable (Text.ofLines ls) ↔ ∀ l ∈ ls, Encodable l :=
  encodable_joinOn_iff rfl

theorem encodable_of_mem_lines {t l : Text} (h : Encodable t) (hl : l ∈ Text.lines t) : Encodable l := by
  rw [← Text.ofLines_lines t, encodable_ofLines_iff] at h
  exact h l hl

end Mend.Utf8

namespace Mend.Diff

/-- Whether the lines that a hunk adds have only characters. -/
def Hunk.IsEncodable (h : Hunk) : Prop := ∀ l ∈ h.added, Utf8.Encodable l

instance (h : Hunk) : Decidable h.IsEncodable := inferInstanceAs (Decidable (∀ l ∈ h.added, Utf8.Encodable l))

theorem isEncodable_reversed {h : Hunk} (hremoved : ∀ l ∈ h.removed, Utf8.Encodable l) :
    h.reversed.IsEncodable := fun l hl => by
  rw [h.turned_reversed.added] at hl
  exact hremoved l (List.mem_of_mem_filter hl)

theorem encodable_of_applyHunks {strict : Bool} {hs : List Hunk} {ls result : List Text}
    (happ : applyHunks strict hs ls = .ok result) (hls : ∀ l ∈ ls, Utf8.Encodable l)
    (hadded : ∀ h ∈ hs, h.IsEncodable) : Utf8.Encodable (Text.ofLines result) :=
  Utf8.encodable_ofLines_iff.2 (forall_mem_applyHunks happ hls hadded)

theorem encodable_of_apply {strict : Bool} {content diff new : Text} {hs : List Hunk} (hd : hunks diff = .ok hs)
    (hcontent : Utf8.Encodable content) (hadded : ∀ h ∈ hs, h.IsEncodable)
    (happ : apply strict content diff = .ok new) : Utf8.Encodable new := by
  by_cases hne : hs = []
  · subst hne
    obtain rfl : content = new := by
      unfold apply at happ
      rw [hd] at happ
      simp only at happ
      split at happ
      · exact Except.ok.inj happ
      · cases happ
    exact hcontent
  · obtain ⟨ls, hls, rfl⟩ := applyHunks_of_apply hd hne happ
    exact encodable_of_applyHunks hls (fun l hl => Utf8.encodable_of_mem_lines hcontent hl) hadded

end Mend.Diff
