import Mend.Proofs.Text
import Mend.Response.Fence

/-!
# Where fenced blocks begin and end

A text in which no block can begin is passed over by the search (`firstBlock?_append`, `blocks_append`),
and a text in which no closing line begins belongs to its block (`untilClosing?_append`). Of the line
feeds behind the opening word the last one counts from which a closing line can be reached
(`blockAt?_opening`). An opening cannot begin in a text that does not hold it, whatever stands behind
this text, because no end of it is also a beginning of it (`Borderless`).
-/

namespace Mend.Response

section Search

variable {word a b : Text} {indented : Bool}

/-! ### Openings -/

theorem firstBlock?_append (h : ∀ s, s <:+ a → s ≠ [] → blockAt? word indented (s ++ b) = none) :
    firstBlock? word indented (a ++ b) = firstBlock? word indented b := by
  induction a with
  | nil => rfl
  | cons c a ih =>
    have hc := h (c :: a) (List.suffix_refl _) (List.cons_ne_nil _ _)
    rw [List.cons_append] at hc ⊢
    rw [firstBlock?, hc]
    exact ih fun s hs => h s (hs.trans (List.suffix_cons _ _))

theorem firstBlock?_of_blockAt? {t block rest : Text} (h : blockAt? word indented t = some (block, rest)) :
    firstBlock? word indented t = some block := by
  cases t with
  | nil => simp [blockAt?, fence, Text.after?] at h
  | cons c t => rw [firstBlock?, h]

theorem blocks_of_blockAt? {t block rest : Text} (h : blockAt? word indented t = some (block, rest)) :
    blocks word indented t = block :: blocks word indented rest := by
  cases t with
  | nil => simp [blockAt?, fence, Text.after?] at h
  | cons c t =>
    rw [blocks]
    split
    · next heq =>
      obtain ⟨rfl, rfl⟩ := Prod.mk.inj (Option.some.inj (heq.symm.trans h))
      rfl
    · next heq => exact absurd (heq.symm.trans h).symm (Option.some_ne_none _)

theorem blocks_append (h : ∀ s, s <:+ a → s ≠ [] → blockAt? word indented (s ++ b) = none) :
    blocks word indented (a ++ b) = blocks word indented b := by
  induction a with
  | nil => rfl
  | cons c a ih =>
    have hc := h (c :: a) (List.suffix_refl _) (List.cons_ne_nil _ _)
    rw [List.cons_append] at hc ⊢
    rw [blocks]
    split
    · next heq => exact absurd (heq.symm.trans hc) (Option.some_ne_none _)
    · exact ih fun s hs => h s (hs.trans (List.suffix_cons _ _))

theorem blockAt?_eq_none {t : Text} (h : Text.after? (fence ++ word) t = none) :
    blockAt? word indented t = none := by
  simp only [blockAt?, h]

/-- Whether no end of a text is also a beginning of it, the whole text apart. -/
def Borderless (p : Text) : Prop :=
  ∀ u k, u ++ k = p → u ≠ [] → k ≠ [] → ¬ k <+: p

theorem borderless_of_drop {p : Text} (h : ∀ i < p.length, 0 < i → ¬ p.drop i <+: p) : Borderless p := by
  rintro u k rfl hu hk
  have hdrop := h u.length (by simp [List.length_pos_iff.2 hk]) (List.length_pos_iff.2 hu)
  rwa [List.drop_left] at hdrop

theorem after?_eq_none_of_not_held {p s : Text} (hp : ¬ p <:+: a) (hs : s <:+ a) (hne : s ≠ [])
    (hb : ∀ u k, u ++ k = p → u ≠ [] → k ≠ [] → ¬ k <+: b) : Text.after? p (s ++ b) = none := by
  cases h : Text.after? p (s ++ b) with
  | none => rfl
  | some rest =>
    rcases List.append_eq_append_iff.1 (Text.eq_append_of_after? h) with ⟨k, rfl, rfl⟩ | ⟨more, rfl, -⟩
    · by_cases hk : k = []
      · rw [hk, List.append_nil] at hp
        exact absurd hs.isInfix hp
      · exact absurd (List.prefix_append k rest) (hb s k rfl hne hk)
    · exact absurd ((List.prefix_append p more).isInfix.trans hs.isInfix) hp

/-- No block begins in a text without the opening in front of the opening. -/
theorem blockAt?_before_opening (hword : Borderless (fence ++ word)) (ha : ¬ fence ++ word <:+: a)
    {s : Text} (hs : s <:+ a) (hne : s ≠ []) :
    blockAt? word indented (s ++ (fence ++ word ++ b)) = none :=
  blockAt?_eq_none (after?_eq_none_of_not_held ha hs hne fun u k huk hu hk hpre =>
    hword u k huk hu hk (List.prefix_of_prefix_length_le hpre (List.prefix_append _ _)
      (by rw [← huk, List.length_append]; omega)))

/-- No block begins in a text without the opening in front of a character that the opening does not
hold. -/
theorem blockAt?_before_char {c : CodePoint} (hc : c ∉ fence ++ word) (ha : ¬ fence ++ word <:+: a)
    {s : Text} (hs : s <:+ a) (hne : s ≠ []) : blockAt? word indented (s ++ c :: b) = none := by
  refine blockAt?_eq_none (after?_eq_none_of_not_held ha hs hne fun u k huk hu hk hpre => ?_)
  cases k with
  | nil => exact hk rfl
  | cons d k =>
    obtain ⟨rfl, -⟩ := List.cons_prefix_cons.1 hpre
    exact hc (huk ▸ List.mem_append_right u (List.mem_cons_self ..))

/-- A text without the opening has no block. -/
theorem firstBlock?_eq_none (ha : ¬ fence ++ word <:+: a) : firstBlock? word indented a = none := by
  rw [← List.append_nil a]
  exact firstBlock?_append fun s hs hne => blockAt?_eq_none
    (after?_eq_none_of_not_held ha hs hne fun _ _ _ _ hk hpre => hk (List.prefix_nil.1 hpre))

/-- A text without the opening has no blocks. -/
theorem blocks_eq_nil (ha : ¬ fence ++ word <:+: a) : blocks word indented a = [] := by
  rw [← List.append_nil a]
  refine (blocks_append fun s hs hne => blockAt?_eq_none
    (after?_eq_none_of_not_held ha hs hne fun _ _ _ _ hk hpre => hk (List.prefix_nil.1 hpre))).trans ?_
  rw [blocks]

end Search

/-! ### Line feeds behind an opening -/

theorem afterLineFeeds_eq_nil {s t : Text} (hs : .char '\n' ∉ s) (ht : ∀ c ∈ t.head?, Text.isBlank c = false) :
    afterLineFeeds (s ++ t) = [] := by
  induction s with
  | nil =>
    cases t with
    | nil => rfl
    | cons c t =>
      rw [List.nil_append, afterLineFeeds, ht c rfl]
      rfl
  | cons c s ih =>
    obtain ⟨hc, hs⟩ := not_or.1 (mt List.mem_cons.2 hs)
    rw [List.cons_append, afterLineFeeds, ih hs, if_neg (Ne.symm hc)]
    exact ite_self _

theorem head?_afterLineFeeds {front back t : Text} (hfront : ∀ c ∈ front, Text.isBlank c = true)
    (hback : .char '\n' ∉ back) (ht : ∀ c ∈ t.head?, Text.isBlank c = false) :
    (afterLineFeeds (front ++ .char '\n' :: (back ++ t))).head? = some (back ++ t) := by
  induction front with
  | nil => rw [List.nil_append, afterLineFeeds, afterLineFeeds_eq_nil hback ht]; rfl
  | cons c front ih =>
    obtain ⟨hc, hfront⟩ := List.forall_mem_cons.1 hfront
    rw [List.cons_append, afterLineFeeds, if_pos hc, List.head?_append, ih hfront]
    rfl

/-- The block behind an opening begins after the last line feed of the white space there, if it can
be closed. -/
theorem blockAt?_opening {word front back t block rest : Text} {indented : Bool}
    (hfront : ∀ c ∈ front, Text.isBlank c = true) (hback : .char '\n' ∉ back)
    (ht : ∀ c ∈ t.head?, Text.isBlank c = false)
    (hblock : untilClosing? indented (back ++ t) = some (block, rest)) :
    blockAt? word indented (fence ++ word ++ (front ++ .char '\n' :: (back ++ t))) = some (block, rest) := by
  obtain ⟨others, hothers⟩ := List.head?_eq_some_iff.1 (head?_afterLineFeeds hfront hback ht)
  simp only [blockAt?, Text.after?_append, hothers, List.findSome?_cons, hblock]

/-! ### Closing lines -/

section Closing

variable {indented : Bool} {body t : Text}

theorem closing?_of_ne {c : CodePoint} (hc : c ≠ '\n') : closing? indented (c :: t) = none := by
  unfold closing?
  split
  · next heq => exact absurd (List.cons.inj heq).1 hc
  · rfl

/-- A text in which no closing line begins belongs to the block. -/
theorem untilClosing?_append
    (hbody : ∀ s, s <:+ body → s ≠ [] → closing? indented (s ++ t) = none) :
    untilClosing? indented (body ++ t) =
      (untilClosing? indented t).map fun (block, rest) => (body ++ block, rest) := by
  induction body with
  | nil => simp
  | cons c body ih =>
    have hc := hbody (c :: body) (List.suffix_refl _) (List.cons_ne_nil _ _)
    rw [List.cons_append] at hc ⊢
    rw [untilClosing?, hc, ih fun s hs => hbody s (hs.trans (List.suffix_cons _ _)), Option.map_map]
    rfl

theorem untilClosing?_append_of_not_mem (hbody : .char '\n' ∉ body) :
    untilClosing? indented (body ++ t) =
      (untilClosing? indented t).map fun (block, rest) => (body ++ block, rest) := by
  refine untilClosing?_append fun s hs hne => ?_
  cases s with
  | nil => exact absurd rfl hne
  | cons c s =>
    refine closing?_of_ne fun hc => hbody ?_
    rw [← hc]
    exact hs.subset (List.mem_cons_self ..)

theorem untilClosing?_of_closing? {rest : Text} (h : closing? indented t = some rest) :
    untilClosing? indented t = some ([], rest) := by
  cases t with
  | nil => cases h
  | cons c t => rw [untilClosing?, h]

end Closing

end Mend.Response
