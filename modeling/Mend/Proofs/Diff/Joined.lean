import Mend.Proofs.Diff.Replay

/-!
# Diffs joined together

Two diffs that are joined by a line feed have the hunks of both, where the second one begins with a header: the
lines of the first one end there. As hunks are applied last first, applying the joined diff is applying the second
one and then the first one (`apply_joined`). Between the two the lines are joined to a text and cut again, which
leaves them as they are unless there are none: a text has at least one line.
-/

namespace Mend.Diff

/-- Whether the first line of a diff is a hunk header. -/
def beginsWithHeader (diff : Text) : Bool :=
  ((Text.lines diff).head?.bind Header.parse?).isSome

/-! ### Hunks -/

theorem cutLines_append {ks : List Text} (hk : (cutLines ks).1 = []) (ls : List Text) :
    cutLines (ls ++ ks) = ((cutLines ls).1, (cutLines ls).2 ++ (cutLines ks).2) := by
  induction ls with
  | nil => exact Prod.ext hk rfl
  | cons l ls ih =>
    rw [List.cons_append, cutLines_cons, ih, cutLines_cons]
    unfold consLine
    cases Header.parse? l with
    | none => rfl
    | some h => rfl

theorem cutLines_of_beginsWithHeader {diff : Text} (hb : beginsWithHeader diff = true) :
    ∃ s ss, cutLines (Text.lines diff) = ([], s :: ss) := by
  unfold beginsWithHeader at hb
  cases hls : Text.lines diff with
  | nil => exact absurd hls (lines_ne_nil diff)
  | cons l ls =>
    rw [hls] at hb
    obtain ⟨h, hp⟩ := Option.isSome_iff_exists.1 hb
    have hp : Header.parse? l = some h := hp
    exact ⟨⟨h, (cutLines ls).1⟩, (cutLines ls).2, by rw [cutLines_cons, consLine, hp]⟩

theorem sections_joined {d₁ d₂ : Text} (hb : beginsWithHeader d₂ = true) :
    sections (d₁ ++ .char '\n' :: d₂) = sections d₁ ++ sections d₂ := by
  have hlines : Text.lines (d₁ ++ .char '\n' :: d₂) = Text.lines d₁ ++ Text.lines d₂ :=
    Text.splitOn_append '\n' d₁ d₂
  obtain ⟨s, ss, hcut⟩ := cutLines_of_beginsWithHeader hb
  rw [sections, hlines, cutLines_append (congrArg Prod.fst hcut), sections, sections]

theorem ne_nil_of_beginsWithHeader {diff : Text} {hs : List Hunk} (hd : hunks diff = .ok hs)
    (hb : beginsWithHeader diff = true) : hs ≠ [] := by
  obtain ⟨s, ss, hcut⟩ := cutLines_of_beginsWithHeader hb
  rw [hunks, sections, hcut] at hd
  obtain ⟨g, gs, rfl, -, -⟩ := hunksOf_cons hd
  exact List.cons_ne_nil g gs

theorem hunksOf_append {ss ts : List Section} {hs ks : List Hunk} (hss : hunksOf ss = .ok hs)
    (hts : hunksOf ts = .ok ks) : hunksOf (ss ++ ts) = .ok (hs ++ ks) := by
  induction ss generalizing hs with
  | nil =>
    obtain rfl := Except.ok.inj hss
    exact hts
  | cons s ss ih =>
    obtain ⟨g, gs, rfl, hg, hgs⟩ := hunksOf_cons hss
    simp only [List.cons_append, hunksOf, hg, ih hgs]

theorem hunks_joined {d₁ d₂ : Text} {hs ks : List Hunk} (h₁ : hunks d₁ = .ok hs) (h₂ : hunks d₂ = .ok ks)
    (hb : beginsWithHeader d₂ = true) : hunks (d₁ ++ .char '\n' :: d₂) = .ok (hs ++ ks) := by
  rw [hunks, sections_joined hb]
  exact hunksOf_append h₁ h₂

/-! ### Applications -/

theorem applyHunks_append (strict : Bool) (hs ks : List Hunk) (ls : List Text) :
    applyHunks strict (hs ++ ks) ls = (applyHunks strict ks ls).bind (applyHunks strict hs) := by
  induction hs with
  | nil =>
    cases h : applyHunks strict ks ls with
    | error e => exact h
    | ok mid => exact h
  | cons h hs ih =>
    rw [List.cons_append, applyHunks, ih]
    cases applyHunks strict ks ls with
    | error e => rfl
    | ok mid => rfl

/-- A diff that is joined to another one in front of it, and begins with a header, adds its hunks to those of the
other one. If it cannot be applied to a text, the joined diff cannot, for the same reason; if it makes a text of it
and a line is left, the joined diff makes what the other one makes of that text, or fails as it does. -/
theorem apply_joined {d₁ d₂ : Text} {hs ks : List Hunk} (h₁ : hunks d₁ = .ok hs)
    (h₂ : hunks d₂ = .ok ks) (hne : hs ≠ []) (hb : beginsWithHeader d₂ = true) :
    hunks (d₁ ++ .char '\n' :: d₂) = .ok (hs ++ ks) ∧
    ∀ (strict : Bool) (content : Text),
      (∀ e, apply strict content d₂ = .error e → apply strict content (d₁ ++ .char '\n' :: d₂) = .error e) ∧
      (∀ x, apply strict content d₂ = .ok x →
        1 ≤ ((Text.lines content).length : Int) + totalGrowth ks →
        apply strict content (d₁ ++ .char '\n' :: d₂) = apply strict x d₁) := by
  have hjoined := hunks_joined h₁ h₂ hb
  have hne₂ := ne_nil_of_beginsWithHeader h₂ hb
  refine ⟨hjoined, fun strict content => ?_⟩
  have happ : apply strict content (d₁ ++ .char '\n' :: d₂) =
      ((applyHunks strict ks (Text.lines content)).bind (applyHunks strict hs)).map Text.ofLines := by
    rw [apply_of_hunks hjoined (List.append_ne_nil_of_left_ne_nil hne ks), applyHunks_append]
  constructor
  · intro e he
    rw [apply_of_hunks h₂ hne₂] at he
    rw [happ]
    cases hls : applyHunks strict ks (Text.lines content) with
    | error f =>
      rw [hls] at he
      exact he
    | ok ls =>
      rw [hls] at he
      cases he
  · intro x hx hkeeps
    rw [happ, applyHunks_eq_lines h₂ hne₂ hx hkeeps, apply_of_hunks h₁ hne]
    rfl

/-- A diff with the name of a file in front, and one that ends in a line feed: the first text has the line that
the second diff removes, the second text does not. -/
theorem apply_joined_of_two_hunks :
    let d₁ : Text := "--- a/x\n@@ -1,2 +1,3 @@\n a\n-b\n+B\n+C"
    let d₂ : Text := "@@ -4 +5 @@\n-d\n+D\n"
    hunks (d₁ ++ .char '\n' :: d₂) = .ok [⟨1, 2, 1, 3, [" a", "-b", "+B", "+C"]⟩, ⟨4, 1, 5, 1, ["-d", "+D", []]⟩] ∧
      apply true "a\nb\nc\nd" (d₁ ++ .char '\n' :: d₂) = apply true "a\nb\nc\nD" d₁ ∧
      apply true "a\nb\nc\ne" (d₁ ++ .char '\n' :: d₂) = .error (.misfit (.lineMismatch 4 4)) := by
  intro d₁ d₂
  have h₁ : hunks d₁ = .ok [⟨1, 2, 1, 3, [" a", "-b", "+B", "+C"]⟩] := by decide
  have h₂ : hunks d₂ = .ok [⟨4, 1, 5, 1, ["-d", "+D", []]⟩] := by decide
  obtain ⟨hjoined, happ⟩ := apply_joined h₁ h₂ (by decide) (by decide)
  exact ⟨hjoined, (happ true "a\nb\nc\nd").2 _ (by decide) (by decide), (happ true "a\nb\nc\ne").1 _ (by decide)⟩

/-- Where no line is left, the joined diff finds none, and the first diff alone finds the empty one. -/
example :
    let d₁ : Text := "@@ -1 +1 @@\n-\n+b"
    let d₂ : Text := "@@ -1 +0,0 @@\n-a"
    apply false "a" d₂ = .ok [] ∧ apply false [] d₁ = .ok "b" ∧
      apply false "a" (d₁ ++ .char '\n' :: d₂) = .error (.misfit (.removalPastEnd 1)) := by decide

end Mend.Diff
