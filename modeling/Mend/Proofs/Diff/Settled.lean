import Mend.Proofs.Diff.Exchange

/-!
# Reversing more than once

Reversing a diff twice does not always bring it back. A count that was left out is written from then on, and
a line that looks like the name of a file with the other mark stays what it then is. Once a diff has been
reversed it has no such lines: it is settled, and reversing only exchanges its sides
(`reverse_reverse_reverse`). The settled diffs are those that reversing can make.
-/

namespace Mend.Diff

/-! ### Headers as they are written -/

theorem Range.countNumeral_ne_nil (r : Range) : r.countNumeral ≠ [] := by
  unfold Range.countNumeral
  split
  · exact List.cons_ne_nil _ _
  · next h => simpa using h

theorem Range.text_full (r : Range) : r.full.text = r.text := by
  rw [Range.text, Range.countNumeral_full]
  rfl

theorem Header.text_swap_reversed (h : Header) : h.reversed.swap.text = h.text := by
  have hold : h.reversed.swap.old.text = h.old.text := h.old.text_full
  have hnew : h.reversed.swap.new.text = h.new.text := h.new.text_full
  -- unfolded, as a rewrite takes long to see through the string literals
  unfold Header.text
  rw [hold, hnew]
  rfl

theorem Range.length_text {r : Range} (h : r.count = []) : r.text.length = r.start.length + 2 := by
  rw [Range.text, Range.countNumeral, h, List.length_append, List.length_append]
  rfl

/-- A range with a count is written as it is read; one without is written longer. -/
theorem Range.text_cases {t rest : Text} {r : Range} (h : Range.take? t = some (r, rest)) :
    r.count ≠ [] ∧ t = r.text ++ rest ∨
      r.count = [] ∧ t.length < r.text.length + rest.length := by
  have hspan := (Text.spanDigits_spec t).1
  unfold Range.take? at h
  split at h
  · cases h
  · next start t' _ hstart =>
    obtain ⟨rfl, rfl⟩ : _ ∧ _ := by simpa using h
    have hcount := (Text.spanDigits_spec t').1
    rw [hstart] at hspan
    generalize Text.spanDigits t' = cut at hcount ⊢
    rw [hspan, hcount]
    by_cases hne : cut.1 = []
    · refine .inr ⟨hne, ?_⟩
      rw [Range.length_text hne]
      simp only [List.length_append, List.length_cons, hne, List.length_nil]
      omega
    · refine .inl ⟨hne, ?_⟩
      simp [Range.text, Range.countNumeral, hne]
  · next start t' _ _ hstart =>
    obtain ⟨rfl, rfl⟩ : _ ∧ _ := by simpa using h
    rw [hstart] at hspan
    refine .inr ⟨rfl, ?_⟩
    rw [hspan, List.length_append, Range.length_text rfl]
    show start.length + t'.length < start.length + 2 + t'.length
    omega

/-- A header is written as it was read exactly if both counts were there. -/
theorem Header.text_eq_iff {line : Text} {h : Header} (hp : Header.parse? line = some h) :
    h.text = line ↔ h.old.count ≠ [] ∧ h.new.count ≠ [] := by
  obtain ⟨t, u, rfl, hold, hnew⟩ := Header.exists_of_parse? hp
  have htext : h.text = ("@@ -" : Text) ++ (h.old.text ++ ((" +" : Text) ++ (h.new.text ++
      ((" @@" : Text) ++ h.rest)))) := Header.text_eq h
  rw [htext, List.append_cancel_left_eq]
  constructor
  · intro heq
    have hlen := congrArg List.length heq
    simp only [List.length_append] at hlen
    rcases Range.text_cases hold with ⟨hoc, rfl⟩ | ⟨-, hol⟩
    · rcases Range.text_cases hnew with ⟨hnc, -⟩ | ⟨-, hnl⟩
      · exact ⟨hoc, hnc⟩
      · simp only [List.length_append] at hlen hnl
        omega
    · have hnl : u.length ≤ h.new.text.length + ((" @@" : Text) ++ h.rest).length := by
        rcases Range.text_cases hnew with ⟨-, rfl⟩ | ⟨-, hnl⟩
        · exact (List.length_append ..).le
        · exact hnl.le
      simp only [List.length_append] at hol hnl
      omega
  · rintro ⟨hoc, hnc⟩
    obtain ⟨-, rfl⟩ := (Range.text_cases hold).resolve_right fun hlong => hoc hlong.1
    obtain ⟨-, rfl⟩ := (Range.text_cases hnew).resolve_right fun hlong => hnc hlong.1
    rfl

/-! ### Lines -/

/-- Whether reversing a line twice brings it back: what is added or removed does not look like the name of a
file with the other mark, and a header tells both counts. -/
structure Settled (line : Text) : Prop where
  addition : isAddition line = true → Text.startsWith (payload line) "--" = false
  removal : isRemoval line = true → Text.startsWith (payload line) "++" = false
  counts : ∀ h, Header.parse? line = some h → h.old.count ≠ [] ∧ h.new.count ≠ []

theorem eq_plus_of_isAddition {line : Text} (h : isAddition line = true) :
    line = .char '+' :: payload line ∧ Text.startsWith (payload line) "++" = false := by
  cases line with
  | nil => cases h
  | cons c text =>
    obtain rfl : c = '+' := Option.some.inj (head?_of_isAddition h)
    exact ⟨rfl, by simpa [isAddition, Text.startsWith, payload] using h⟩

theorem eq_minus_of_isRemoval {line : Text} (h : isRemoval line = true) :
    line = .char '-' :: payload line ∧ Text.startsWith (payload line) "--" = false := by
  cases line with
  | nil => cases h
  | cons c text =>
    obtain rfl : c = '-' := Option.some.inj (head?_of_isRemoval h)
    exact ⟨rfl, by simpa [isRemoval, Text.startsWith, payload] using h⟩

theorem settled_reverseLine (line : Text) : Settled (reverseLine line) := by
  refine ⟨fun h => ?_, fun h => ?_, fun header hp => ?_⟩
  · rw [isAddition_reverseLine, Bool.and_eq_true] at h
    rw [payload_reverseLine (by simp [(kind_eq_removal line).2 h.1])]
    exact (eq_minus_of_isRemoval h.1).2
  · rw [isRemoval_reverseLine, Bool.and_eq_true] at h
    rw [payload_reverseLine (by simp [(kind_eq_addition line).2 h.1])]
    exact (eq_plus_of_isAddition h.1).2
  · cases hline : Header.parse? line with
    | none =>
      rw [parse?_reverseLine_of_none hline] at hp
      cases hp
    | some origin =>
      rw [parse?_reverseLine_of_header hline] at hp
      obtain rfl := Option.some.inj hp
      exact ⟨origin.new.countNumeral_ne_nil, origin.old.countNumeral_ne_nil⟩

theorem Settled.reverseLine_reverseLine {line : Text} (h : Settled line) :
    reverseLine (reverseLine line) = line := by
  cases hk : kind line with
  | removal =>
    have hr := (kind_eq_removal line).1 hk
    have hother : kind (reverseLine line) = .addition := by
      rw [kind_eq_addition, isAddition_reverseLine, hr, h.removal hr]
      rfl
    have hback : reverseLine (reverseLine line) = .char '-' :: payload (reverseLine line) := by
      rw [reverseLine, hother]
    rw [hback, payload_reverseLine (by simp [hk])]
    exact (eq_minus_of_isRemoval hr).1.symm
  | addition =>
    have ha := (kind_eq_addition line).1 hk
    have hother : kind (reverseLine line) = .removal := by
      rw [kind_eq_removal, isRemoval_reverseLine, ha, h.addition ha]
      rfl
    have hback : reverseLine (reverseLine line) = .char '+' :: payload (reverseLine line) := by
      rw [reverseLine, hother]
    rw [hback, payload_reverseLine (by simp [hk])]
    exact (eq_plus_of_isAddition ha).1.symm
  | context =>
    have hsame := reverseLine_of_isContext ((kind_eq_context line).1 hk)
    rw [hsame, hsame]
  | other =>
    cases hp : Header.parse? line with
    | none =>
      have hsame : reverseLine line = line := by simp only [reverseLine, hk, hp]
      rw [hsame, hsame]
    | some header =>
      rw [reverseLine_of_header (parse?_reverseLine_of_header hp)]
      rw [Header.text_swap_reversed]
      exact (Header.text_eq_iff hp).2 (h.counts header hp)

theorem reverseLine_reverseLine_eq_iff (line : Text) : reverseLine (reverseLine line) = line ↔ Settled line :=
  ⟨fun h => h ▸ settled_reverseLine (reverseLine line), Settled.reverseLine_reverseLine⟩

/-! ### Diffs -/

theorem reverse_reverse_eq_iff (diff : Text) :
    reverse (reverse diff) = diff ↔ ∀ line ∈ Text.lines diff, Settled line := by
  have htwice : reverse (reverse diff) = diff ↔
      (Text.lines diff).map (reverseLine ∘ reverseLine) = (Text.lines diff).map id := by
    rw [← List.map_map, ← lines_reverse, ← lines_reverse, List.map_id]
    constructor
    · exact fun h => congrArg Text.lines h
    · intro h
      rw [← Text.ofLines_lines (reverse (reverse diff)), h, Text.ofLines_lines]
  rw [htwice, List.map_inj_left]
  exact forall₂_congr fun line _ => reverseLine_reverseLine_eq_iff line

/-- After the first time, reversing twice brings a diff back. The diffs for which it does are those in which
each change can be told with the other mark and each header tells its counts, and these are the diffs that
reversing makes. -/
theorem reverse_reverse_reverse (diff : Text) :
    reverse (reverse (reverse diff)) = reverse diff ∧
    (reverse (reverse diff) = diff ↔ ∀ line ∈ Text.lines diff, Settled line) ∧
    ((∃ origin, reverse origin = diff) ↔ ∀ line ∈ Text.lines diff, Settled line) := by
  have hsettled : ∀ origin, ∀ line ∈ Text.lines (reverse origin), Settled line := by
    intro origin line hline
    rw [lines_reverse] at hline
    obtain ⟨before, -, rfl⟩ := List.mem_map.1 hline
    exact settled_reverseLine before
  refine ⟨(reverse_reverse_eq_iff _).2 (hsettled diff), reverse_reverse_eq_iff diff, ?_, fun h => ?_⟩
  · rintro ⟨origin, rfl⟩
    exact hsettled origin
  · exact ⟨reverse diff, (reverse_reverse_eq_iff diff).2 h⟩

example : reverse (reverse "@@ -1 +2 @@ f\n+--x\n-y") = "@@ -1,1 +2,1 @@ f\n---x\n-y" := by decide

end Mend.Diff
