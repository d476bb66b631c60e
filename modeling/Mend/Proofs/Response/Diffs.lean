import Mathlib.Data.List.TakeWhile
import Mend.Proofs.Response.Fence
import Mend.Response

/-!
# Fenced diffs are recovered

A response that fences diffs between prose gives these diffs, unchanged and in order, each for the file
that its target header names (`ofDiffs_of_blocks`). The white space that a diff begins with stays, because
the opening gives back what follows its last line feed, and so do the blank lines at its end, because a
closing line has no white space in front of the backquotes.
-/

namespace Mend.Response

/-- A fenced diff with the prose behind it. -/
structure DiffBlock where
  diff : Text
  file : Text
  prose : Text
  begins : ∃ c ∈ diff.takeWhile (· != .char '\n'), Text.isBlank c = false
  unfenced : ∀ line ∈ Text.lines diff, ¬ ("```" : Text) <+: line
  header : (Text.lines diff).find? (Text.startsWith · "+++ ") = some (("+++ b/" : Text) ++ file)
  named : file ≠ []
  solid : ∀ c ∈ file, Text.isBlank c = false
  kept : file ≠ ("/dev/null" : Text)
  plain : ¬ ("```diff" : Text) <:+: prose

/-- The text of the block. -/
def DiffBlock.text (b : DiffBlock) : Text :=
  ("```diff\n" : Text) ++ b.diff ++ ("\n```" : Text) ++ b.prose

/-! ### The target of a diff -/

theorem targetAt?_eq_none {line : Text} (h : Text.startsWith line "+++ " = false) : targetAt? line = none := by
  cases hafter : Text.after? "+++ " line with
  | none => simp only [targetAt?, hafter]
  | some rest =>
    have hcut := List.prefix_append ("+++ " : Text) rest
    rw [← Text.eq_append_of_after? hafter] at hcut
    rw [Text.startsWith, List.isPrefixOf_iff_prefix.2 hcut] at h
    cases h

theorem nameAt?_of_solid {file : Text} (hne : file ≠ []) (hsolid : ∀ c ∈ file, Text.isBlank c = false) :
    nameAt? file = some file := by
  have htake : (file.takeWhile fun c => !Text.isBlank c) = file :=
    List.takeWhile_eq_self_iff.2 fun c hc => by simp [hsolid c hc]
  have hempty : file.isEmpty = false := by simpa using hne
  simp only [nameAt?, htake, hempty, Bool.false_eq_true, if_false]

theorem DiffBlock.target_diff (b : DiffBlock) : target b.diff = b.file := by
  obtain ⟨hstart, before, after, hlines, hbefore⟩ := List.find?_eq_some_iff_append.1 b.header
  have hline : targetAt? (("+++ b/" : Text) ++ b.file) = some b.file := by
    have hafter : Text.after? "+++ " (("+++ b/" : Text) ++ b.file) = some (("b/" : Text) ++ b.file) := rfl
    simp only [targetAt?, hafter, Text.after?_append, Option.bind_some,
      nameAt?_of_solid b.named b.solid, Option.some_or]
  have hnone : before.findSome? targetAt? = none := List.findSome?_eq_none_iff.2 fun line hmem =>
    targetAt?_eq_none (by simpa using hbefore line hmem)
  have hfound : (Text.lines b.diff).findSome? targetAt? = some b.file := by
    rw [hlines, List.findSome?_append, hnone, List.findSome?_cons, hline]
    rfl
  rw [target, hfound]
  exact if_neg b.kept

/-! ### The block of a diff -/

/-- The white space at the beginning of a diff ends in its first line. -/
theorem DiffBlock.exists_indent (b : DiffBlock) :
    ∃ indent rest, b.diff = indent ++ rest ∧ .char '\n' ∉ indent ∧ rest ≠ [] ∧
      ∀ c ∈ rest.head?, Text.isBlank c = false := by
  obtain ⟨c, hc, hsolid⟩ := b.begins
  set line := b.diff.takeWhile (· != .char '\n') with hline
  have hplain : .char '\n' ∉ line := fun hmem => by
    have hpos := List.all_eq_true.1 List.all_takeWhile _ (hline ▸ hmem)
    simp at hpos
  have hne : line.dropWhile Text.isBlank ≠ [] := fun hnil => by
    have hblank := List.dropWhile_eq_nil_iff.1 hnil c hc
    rw [hsolid] at hblank
    cases hblank
  refine ⟨line.takeWhile Text.isBlank, line.dropWhile Text.isBlank ++ b.diff.dropWhile (· != .char '\n'),
    ?_, ?_, ?_, ?_⟩
  · rw [← List.append_assoc, List.takeWhile_append_dropWhile, hline, List.takeWhile_append_dropWhile]
  · exact fun hmem => hplain ((List.takeWhile_sublist _).subset hmem)
  · exact List.append_ne_nil_of_left_ne_nil hne _
  · rw [List.head?_append_of_ne_nil _ hne]
    exact Text.head?_dropWhile Text.isBlank line

/-- No closing line begins in a diff, nor where one of its lines ends in front of another one. -/
theorem DiffBlock.closing?_eq_none (b : DiffBlock) (t : Text) {s : Text} (hs : s <:+ b.diff) (hne : s ≠ []) :
    closing? false (s ++ .char '\n' :: t) = none := by
  obtain ⟨front, hfront⟩ := hs
  cases s with
  | nil => exact absurd rfl hne
  | cons c s =>
    by_cases hc : c = '\n'
    · subst hc
      cases hclose : closing? false (.char '\n' :: s ++ .char '\n' :: t) with
      | none => rfl
      | some rest =>
        have htext : s ++ .char '\n' :: t = fence ++ rest := Text.eq_append_of_after? hclose
        -- The line behind this line feed would begin with the backquotes.
        have hfence : .char '\n' ∉ fence := by decide
        obtain ⟨u, rfl, -⟩ := Text.append_eq_append_cons hfence htext
        obtain ⟨piece, pieces, hsplit⟩ := Text.exists_splitOn_append hfence u
        refine absurd (List.prefix_append fence piece) (b.unfenced _ ?_)
        rw [← hfront, Text.lines, Text.splitOn_append, hsplit]
        simp
    · exact closing?_of_ne hc

theorem DiffBlock.text_append (b : DiffBlock) (rest : Text) : b.text ++ rest =
    fence ++ ("diff" : Text) ++ .char '\n' :: (b.diff ++ .char '\n' :: (fence ++ (b.prose ++ rest))) := by
  unfold DiffBlock.text
  simp [fence]

theorem DiffBlock.blockAt?_text (b : DiffBlock) (rest : Text) :
    blockAt? "diff" false (b.text ++ rest) = some (b.diff, b.prose ++ rest) := by
  obtain ⟨indent, core, hdiff, hindent, hne, hhead⟩ := b.exists_indent
  have hclose : closing? false (.char '\n' :: (fence ++ (b.prose ++ rest))) = some (b.prose ++ rest) :=
    Text.after?_append _ _
  have hblock : untilClosing? false (b.diff ++ .char '\n' :: (fence ++ (b.prose ++ rest))) =
      some (b.diff, b.prose ++ rest) := by
    rw [untilClosing?_append fun s hs hne => b.closing?_eq_none _ hs hne, untilClosing?_of_closing? hclose]
    simp
  have hsplit : b.diff ++ .char '\n' :: (fence ++ (b.prose ++ rest)) =
      indent ++ (core ++ .char '\n' :: (fence ++ (b.prose ++ rest))) := by
    rw [hdiff, List.append_assoc]
  rw [b.text_append, hsplit, ← List.nil_append (CodePoint.char '\n' :: _)]
  refine blockAt?_opening (by simp) hindent ?_ (hsplit ▸ hblock)
  rwa [List.head?_append_of_ne_nil _ hne]

/-! ### The diffs of a response -/

theorem blocks_flatMap_text (bs : List DiffBlock) {front : Text} (hfront : ¬ ("```diff" : Text) <:+: front) :
    blocks "diff" false (front ++ bs.flatMap DiffBlock.text) = bs.map DiffBlock.diff := by
  have hborder : Borderless (fence ++ ("diff" : Text)) := borderless_of_drop (by decide)
  induction bs generalizing front with
  | nil =>
    rw [List.flatMap_nil, List.append_nil]
    exact blocks_eq_nil hfront
  | cons b bs ih =>
    have hbefore : ∀ s, s <:+ front → s ≠ [] →
        blockAt? "diff" false (s ++ (b :: bs).flatMap DiffBlock.text) = none := fun s hs hne => by
      rw [List.flatMap_cons, b.text_append]
      exact blockAt?_before_opening hborder hfront hs hne
    rw [blocks_append hbefore, List.flatMap_cons, blocks_of_blockAt? (b.blockAt?_text _), ih b.plain,
      List.map_cons]

theorem patchesOf_map_diff (bs : List DiffBlock) : patchesOf (bs.map DiffBlock.diff) =
    bs.zipIdx.map fun (b, i) =>
      ⟨b.diff, defaultDescription ++ " " ++ Text.ofNat (i + 1), b.file, .generated⟩ := by
  rw [patchesOf, List.zipIdx_map, List.map_map]
  refine List.map_congr_left fun ⟨b, i⟩ _ => ?_
  simp only [Function.comp_apply, Prod.map, b.target_diff, id]

/-- The diffs that a response fences are recovered, unchanged and in order. -/
theorem ofDiffs_of_blocks {front : Text} (hfront : ¬ ("```diff" : Text) <:+: front) {bs : List DiffBlock}
    (hne : bs ≠ []) : ofDiffs (front ++ bs.flatMap DiffBlock.text) =
      .diffs (bs.zipIdx.map fun (b, i) =>
        ⟨b.diff, defaultDescription ++ " " ++ Text.ofNat (i + 1), b.file, .generated⟩) := by
  cases bs with
  | nil => exact absurd rfl hne
  | cons b bs =>
    have hblocks := blocks_flatMap_text (b :: bs) hfront
    rw [List.map_cons] at hblocks
    simp only [ofDiffs, hblocks]
    rw [← List.map_cons, patchesOf_map_diff]

/-- The first diff begins with spaces, holds a fence behind the space of a context line and ends with blank
lines. -/
theorem ofDiffs_of_two_blocks :
    let first : Text := "  --- a/x.ts\n+++ b/x.ts\n@@ -1,1 +1,1 @@\n ```\n\n"
    let second : Text := "+++ b/y.ts\n-one"
    ofDiffs (("Two files:\n" : Text) ++ (("```diff\n" : Text) ++ first ++ ("\n```" : Text) ++ (" and " : Text) ++
        (("```diff\n" : Text) ++ second ++ ("\n```" : Text) ++ ("." : Text)))) =
      .diffs [⟨first, "Generated patch 1", "x.ts", .generated⟩,
        ⟨second, "Generated patch 2", "y.ts", .generated⟩] := by
  intro first second
  let a : DiffBlock := ⟨first, "x.ts", " and ", ⟨'-', by decide, by decide⟩, by decide +kernel, by decide +kernel,
    by decide, Text.forall_mem_of_any (by decide), by decide, by decide⟩
  let b : DiffBlock := ⟨second, "y.ts", ".", ⟨'+', by decide, by decide⟩, by decide +kernel, by decide +kernel,
    by decide, Text.forall_mem_of_any (by decide), by decide, by decide⟩
  have hfront : ¬ ("```diff" : Text) <:+: ("Two files:\n" : Text) := by decide +kernel
  have hblocks : [a, b] ≠ [] := List.cons_ne_nil _ _
  exact ofDiffs_of_blocks hfront hblocks

end Mend.Response
