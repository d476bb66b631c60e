import Mathlib.Data.List.Forall2
import Mend.Proofs.Diff.Reversal

/-!
# What reversing a diff exchanges

Whatever the lines of a hunk are, reversing exchanges its ranges and keeps the context in front of it. The
lines that the reversed hunk removes are the added ones, but for those that look like the name of a file when
a minus sign stands in front of them; the same holds for the other side (`Hunk.turned_reversed`). So the
sides of all hunks are exchanged exactly where no added line begins with two minus signs and no removed line
with two plus signs (`hunks_reverse_exchanged`).
-/

namespace Mend.Diff

/-! ### Lines -/

theorem reverseLine_of_isContext {b : Text} (h : isContext b = true) : reverseLine b = b := by
  have hnone : Header.parse? b = none := Header.parse?_eq_none (by rw [head?_of_isContext h]; simp)
  simp only [reverseLine, (kind_eq_context b).2 h, hnone]

theorem isRemoval_reverseLine (b : Text) :
    isRemoval (reverseLine b) = (isAddition b && !Text.startsWith (payload b) "--") := by
  cases hk : kind b with
  | removal => simp [reverseLine, hk, isRemoval, Text.startsWith, isAddition_eq]
  | addition => simp [reverseLine, hk, isRemoval, Text.startsWith, isAddition_eq]
  | context => simp [reverseLine_of_isContext ((kind_eq_context b).1 hk), isRemoval_eq, isAddition_eq, hk]
  | other => simp [isRemoval_eq, isAddition_eq, kind_reverseLine_of_other hk, hk]

theorem isAddition_reverseLine (b : Text) :
    isAddition (reverseLine b) = (isRemoval b && !Text.startsWith (payload b) "++") := by
  cases hk : kind b with
  | removal => simp [reverseLine, hk, isAddition, Text.startsWith, isRemoval_eq]
  | addition => simp [reverseLine, hk, isAddition, Text.startsWith, isRemoval_eq]
  | context => simp [reverseLine_of_isContext ((kind_eq_context b).1 hk), isRemoval_eq, isAddition_eq, hk]
  | other => simp [isRemoval_eq, isAddition_eq, kind_reverseLine_of_other hk, hk]

theorem isContext_reverseLine (b : Text) : isContext (reverseLine b) = isContext b := by
  cases hk : kind b with
  | removal =>
    rw [isContext_eq_false_of_isRemoval ((kind_eq_removal b).1 hk)]
    simp only [reverseLine, hk]
    rfl
  | addition =>
    rw [isContext_eq_false_of_isAddition ((kind_eq_addition b).1 hk)]
    simp only [reverseLine, hk]
    rfl
  | context => rw [reverseLine_of_isContext ((kind_eq_context b).1 hk)]
  | other => rw [isContext_eq, isContext_eq, kind_reverseLine_of_other hk, hk]

theorem payload_reverseLine {b : Text} (h : kind b ≠ .other) : payload (reverseLine b) = payload b := by
  cases hk : kind b with
  | removal => simp [reverseLine, hk, payload]
  | addition => simp [reverseLine, hk, payload]
  | context => rw [reverseLine_of_isContext ((kind_eq_context b).1 hk)]
  | other => exact absurd hk h

/-! ### Hunks -/

/-- The lines with one mark in a reversed body: those with the other mark that do not look like the name of a
file in their new place. -/
theorem filter_map_reverseLine {p q : Text → Bool} {mark : Text}
    (hp : ∀ b, p (reverseLine b) = (q b && !Text.startsWith (payload b) mark))
    (hq : ∀ b, q b = true → payload (reverseLine b) = payload b) (body : List Text) :
    ((body.map reverseLine).filter p).map payload =
      ((body.filter q).map payload).filter fun l => !Text.startsWith l mark := by
  induction body with
  | nil => rfl
  | cons b body ih =>
    rw [List.map_cons, List.filter_cons, List.filter_cons, hp]
    by_cases hb : q b = true
    · by_cases hm : Text.startsWith (payload b) mark = true
      · simpa [hb, hm] using ih
      · simpa [hb, hm, hq b hb] using ih
    · simpa [hb] using ih

namespace Hunk

/-- Whether a hunk is another one read from its other side, as far as that is so for all lines: a line
changes sides unless it looks like the name of a file there. -/
structure Turned (h k : Hunk) : Prop where
  oldStart : k.oldStart = h.newStart
  oldCount : k.oldCount = h.newCount
  newStart : k.newStart = h.oldStart
  newCount : k.newCount = h.oldCount
  leadingContext : k.leadingContext = h.leadingContext
  removed : k.removed = h.added.filter fun l => !Text.startsWith l "--"
  added : k.added = h.removed.filter fun l => !Text.startsWith l "++"

/-- Whether a hunk is another one with its sides exchanged. -/
structure Exchanged (h k : Hunk) : Prop where
  oldStart : k.oldStart = h.newStart
  oldCount : k.oldCount = h.newCount
  newStart : k.newStart = h.oldStart
  newCount : k.newCount = h.oldCount
  removed : k.removed = h.added
  added : k.added = h.removed
  leadingContext : k.leadingContext = h.leadingContext
  hasTrailingContext : k.hasTrailingContext = h.hasTrailingContext

/-- Whether no line of a hunk looks like the name of a file with the mark of the other side. -/
def Turnable (h : Hunk) : Prop :=
  (∀ l ∈ h.added, Text.startsWith l "--" = false) ∧ ∀ l ∈ h.removed, Text.startsWith l "++" = false

theorem turned_reversed (h : Hunk) : h.Turned h.reversed where
  oldStart := rfl
  oldCount := rfl
  newStart := rfl
  newCount := rfl
  leadingContext := by
    have hsame : isContext ∘ reverseLine = isContext := funext isContext_reverseLine
    unfold Hunk.leadingContext Hunk.reversed
    rw [List.takeWhile_map, hsame, List.map_map]
    refine List.map_congr_left fun b hb => congrArg payload (reverseLine_of_isContext ?_)
    exact List.all_eq_true.1 List.all_takeWhile b hb
  removed := filter_map_reverseLine isRemoval_reverseLine
    (fun b hb => payload_reverseLine (by simp [(kind_eq_addition b).2 hb])) h.body
  added := filter_map_reverseLine isAddition_reverseLine
    (fun b hb => payload_reverseLine (by simp [(kind_eq_removal b).2 hb])) h.body

theorem marksReadable_iff (h : Hunk) : MarksReadable h.body ↔ h.Turnable := by
  unfold MarksReadable Turnable Hunk.added Hunk.removed
  simp only [List.forall_mem_map, List.mem_filter, and_imp]
  exact forall₂_and

theorem hasTrailingContext_reversed {h : Hunk} (hm : MarksReadable h.body) :
    h.reversed.hasTrailingContext = h.hasTrailingContext := by
  unfold Hunk.hasTrailingContext Hunk.reversed
  generalize h.body = body at hm
  induction body with
  | nil => rfl
  | cons b body ih =>
    have hchange : isChange (reverseLine b) = isChange b := by
      rw [isChange, isChange, hm.head_marks.1, hm.head_marks.2, Bool.or_comm]
    have hcontext : (body.map reverseLine).any isContext = body.any isContext := by
      rw [List.any_map]
      exact congrArg body.any (funext isContext_reverseLine)
    rw [List.map_cons, List.dropWhile_cons, List.dropWhile_cons, hchange]
    split
    · exact ih hm.tail
    · rw [List.any_cons, List.any_cons, isContext_reverseLine, hcontext]

/-- Reversing exchanges the sides of a hunk exactly where each of its lines can be told with the other mark. -/
theorem exchanged_reversed_iff (h : Hunk) : h.Exchanged h.reversed ↔ h.Turnable := by
  have ht := h.turned_reversed
  constructor
  · intro he
    have hadded := ht.removed.symm.trans he.removed
    have hremoved := ht.added.symm.trans he.added
    rw [List.filter_eq_self] at hadded hremoved
    exact ⟨fun l hl => by simpa using hadded l hl, fun l hl => by simpa using hremoved l hl⟩
  · rintro ⟨hadded, hremoved⟩
    refine ⟨rfl, rfl, rfl, rfl, ht.removed.trans ?_, ht.added.trans ?_, ht.leadingContext,
      hasTrailingContext_reversed (h.marksReadable_iff.2 ⟨hadded, hremoved⟩)⟩
    · exact List.filter_eq_self.2 fun l hl => by rw [hadded l hl]; rfl
    · exact List.filter_eq_self.2 fun l hl => by rw [hremoved l hl]; rfl

end Hunk

/-! ### Diffs -/

/-- A diff that can be read has a reverse that can be read, hunk by hunk. The ranges of every hunk are
exchanged, the context in front stays, and each line changes sides unless it then looks like the name of a
file; the hunks are those of the diff with their sides exchanged exactly where no line does. -/
theorem hunks_reverse_exchanged {diff : Text} {hs : List Hunk} (hd : hunks diff = .ok hs) :
    ∃ ks, hunks (reverse diff) = .ok ks ∧ List.Forall₂ Hunk.Turned hs ks ∧
      (List.Forall₂ Hunk.Exchanged hs ks ↔ ∀ h ∈ hs, h.Turnable) := by
  refine ⟨_, hunks_reverse hd, ?_, ?_⟩
  · rw [List.forall₂_map_right_iff, List.forall₂_same]
    exact fun h _ => h.turned_reversed
  · rw [List.forall₂_map_right_iff, List.forall₂_same]
    exact forall₂_congr fun h _ => h.exchanged_reversed_iff

/-- Counts that are left out, a line that is neither context nor a change, context behind the changes, and a
removed line that begins with a minus sign. -/
theorem hunks_reverse_exchanged_of_two_hunks :
    let diff : Text := "--- a/x\n@@ -1,2 +1,3 @@ f\n a\n-x\n+y\n+z\n b\n\\\n@@ -7 +8,0 @@\n--w"
    ∃ hs ks, hunks diff = .ok hs ∧ hs.length = 2 ∧ hunks (reverse diff) = .ok ks ∧
      List.Forall₂ Hunk.Exchanged hs ks := by
  intro diff
  have hd : hunks diff = .ok [⟨1, 2, 1, 3, [" a", "-x", "+y", "+z", " b", "\\"]⟩,
      ⟨7, 1, 8, 0, ["--w"]⟩] := by decide
  obtain ⟨ks, hk, -, hiff⟩ := hunks_reverse_exchanged hd
  refine ⟨_, ks, hd, rfl, hk, hiff.2 ?_⟩
  unfold Hunk.Turnable
  decide

/-- An added line that begins with two minus signs looks like the name of a file in the reversed diff, and is
not removed there. -/
theorem hunks_reverse_of_dashed_line :
    let diff : Text := "@@ -1 +1,2 @@\n a\n+--x"
    ∃ h k, hunks diff = .ok [h] ∧ hunks (reverse diff) = .ok [k] ∧ h.added = ["--x"] ∧ k.removed = [] ∧
      ¬ List.Forall₂ Hunk.Exchanged [h] [k] := by
  intro diff
  refine ⟨⟨1, 1, 1, 2, [" a", "+--x"]⟩, ⟨1, 2, 1, 1, [" a", "---x"]⟩, by decide, by decide, by decide,
    by decide, fun he => ?_⟩
  have hremoved := (List.forall₂_cons.1 he).1.removed
  revert hremoved
  decide

end Mend.Diff
