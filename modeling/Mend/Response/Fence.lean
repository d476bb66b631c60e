import Mend.Text.Blank

/-!
# Fenced blocks

A block stands between a line that opens it with three backquotes and a word, and a later line that
begins with three backquotes. White space after the word belongs to the opening: the block begins
after the last line feed of it from which a closing line can be reached.
-/

namespace Mend.Response

/-- The three backquotes of a fence. -/
def fence : Text := "```"

/-- What follows a closing line, where a text begins with one; the argument tells whether white space
may stand before the backquotes. -/
def closing? (indented : Bool) : Text → Option Text
  | '\n' :: t => Text.after? fence (if indented then t.dropWhile Text.isBlank else t)
  | _ => none

/-- The text up to the first closing line, and what follows that line. -/
def untilClosing? (indented : Bool) : Text → Option (Text × Text)
  | [] => none
  | c :: t =>
    match closing? indented (c :: t) with
    | some rest => some ([], rest)
    | none => (untilClosing? indented t).map fun (block, rest) => (c :: block, rest)

/-- What follows each line feed among the white space at the beginning, the last one first. -/
def afterLineFeeds : Text → List Text
  | [] => []
  | c :: t =>
    if Text.isBlank c then afterLineFeeds t ++ (if c = '\n' then [t] else []) else []

/-- The block that a text begins with, and what follows it. -/
def blockAt? (word : Text) (indented : Bool) (t : Text) : Option (Text × Text) :=
  match Text.after? (fence ++ word) t with
  | some t => (afterLineFeeds t).findSome? (untilClosing? indented)
  | none => none

/-- The first block of a text. -/
def firstBlock? (word : Text) (indented : Bool) : Text → Option Text
  | [] => none
  | c :: t =>
    match blockAt? word indented (c :: t) with
    | some (block, _) => some block
    | none => firstBlock? word indented t

theorem length_after? {p t r : Text} (h : Text.after? p t = some r) : r.length ≤ t.length := by
  fun_induction Text.after? p t with
  | case1 => simp_all
  | case2 => simp at h
  | case3 p b t ih => have := ih h; simp only [List.length_cons]; omega
  | case4 => simp at h

theorem length_dropWhile_le (p : CodePoint → Bool) (t : Text) : (t.dropWhile p).length ≤ t.length :=
  (List.dropWhile_sublist p).length_le

theorem length_closing? {indented : Bool} {t r : Text} (h : closing? indented t = some r) :
    r.length < t.length := by
  unfold closing? at h
  split at h
  · next t =>
    have hr := length_after? h
    have ht := length_dropWhile_le Text.isBlank t
    simp only [List.length_cons]
    split at hr <;> omega
  · cases h

theorem length_untilClosing? {indented : Bool} {t block rest : Text}
    (h : untilClosing? indented t = some (block, rest)) : rest.length < t.length := by
  fun_induction untilClosing? indented t generalizing block with
  | case1 => simp at h
  | case2 c t r hc =>
    injection h with h
    injection h with _ h
    subst h
    exact length_closing? hc
  | case3 c t hc ih =>
    obtain ⟨⟨b, r⟩, hb, he⟩ := Option.map_eq_some_iff.1 h
    injection he with _ he
    subst he
    have := ih hb
    simp only [List.length_cons]
    omega

theorem length_afterLineFeeds {t r : Text} (h : r ∈ afterLineFeeds t) : r.length < t.length := by
  induction t with
  | nil => simp [afterLineFeeds] at h
  | cons c t ih =>
    unfold afterLineFeeds at h
    split at h
    · rcases List.mem_append.1 h with h | h
      · have := ih h
        simp only [List.length_cons]
        omega
      · split at h
        · rw [List.mem_singleton.1 h]
          simp
        · simp at h
    · simp at h

theorem length_blockAt? {word : Text} {indented : Bool} {t block rest : Text}
    (h : blockAt? word indented t = some (block, rest)) : rest.length < t.length := by
  unfold blockAt? at h
  split at h
  · next t' ht =>
    obtain ⟨s, hs, hb⟩ := List.exists_of_findSome?_eq_some h
    have h1 := length_untilClosing? hb
    have h2 := length_afterLineFeeds hs
    have h3 := length_after? ht
    omega
  · cases h

/-- All blocks of a text; each one is searched for after the one before it. -/
def blocks (word : Text) (indented : Bool) (t : Text) : List Text :=
  match t with
  | [] => []
  | c :: t =>
    match h : blockAt? word indented (c :: t) with
    | some (block, rest) =>
      have := length_blockAt? h
      block :: blocks word indented rest
    | none => blocks word indented t
termination_by t.length
decreasing_by
  · assumption
  · exact Nat.lt_succ_self _

end Mend.Response
