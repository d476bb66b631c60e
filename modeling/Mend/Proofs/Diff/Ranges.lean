import Mend.Proofs.Diff.Undo

/-!
# Ranges of lines replaced at once

An edit puts lines in the place of a range of lines. Edits whose ranges do not overlap can be made all at
once (`replaceRanges`), and then their order does not matter. They can also be made one after the other, but
an edit that changes the number of lines shifts those below it. As long as each edit comes before the ones
above it, or keeps the number of lines, the outcome is the same (`Edit.Matches.replaceRanges`).
-/

namespace Mend.Diff

/-- Lines that take the place of others, from line `start` on. -/
structure Edit where
  start : Nat
  old : List Text
  new : List Text
  deriving DecidableEq, Repr

namespace Edit

def covers (e : Edit) (n : Nat) : Bool := decide (e.start ≤ n) && decide (n < e.start + e.old.length)

def Apart (e f : Edit) : Prop :=
  e.start + e.old.length ≤ f.start ∨ f.start + f.old.length ≤ e.start

instance (e f : Edit) : Decidable (e.Apart f) :=
  inferInstanceAs (Decidable (_ ∨ _))

def KeepsCount (e : Edit) : Prop := e.new.length = e.old.length

/-- Whether the lines that an edit replaces are those that stand in its range. -/
structure Matches (e : Edit) (ls : List Text) : Prop where
  start_pos : 1 ≤ e.start
  some_line : e.old ≠ []
  found : e.old <+: ls.drop (e.start - 1)

instance (e : Edit) (ls : List Text) : Decidable (e.Matches ls) :=
  decidable_of_iff (1 ≤ e.start ∧ e.old ≠ [] ∧ e.old <+: ls.drop (e.start - 1))
    ⟨fun ⟨hpos, hsome, hfound⟩ => ⟨hpos, hsome, hfound⟩, fun h => ⟨h.start_pos, h.some_line, h.found⟩⟩

def applied (e : Edit) (ls : List Text) : List Text :=
  ls.take (e.start - 1) ++ e.new ++ ls.drop (e.start - 1 + e.old.length)

theorem Apart.symm {e f : Edit} (h : e.Apart f) : f.Apart e := Or.symm h

theorem covers_iff {e : Edit} {n : Nat} :
    e.covers n = true ↔ e.start ≤ n ∧ n < e.start + e.old.length := by
  simp [covers]

theorem covers_eq_false_iff {e : Edit} {n : Nat} :
    e.covers n = false ↔ n < e.start ∨ e.start + e.old.length ≤ n := by
  rw [← Bool.not_eq_true, covers_iff]
  omega

theorem Apart.not_covers {e f : Edit} (h : e.Apart f) {n : Nat} (hn : e.covers n = true) :
    f.covers n = false := by
  rw [covers_iff] at hn
  rw [covers_eq_false_iff]
  unfold Apart at h
  omega

theorem Matches.exists_split {e : Edit} {ls : List Text} (h : e.Matches ls) :
    ∃ above below, ls = above ++ e.old ++ below ∧ e.start = 1 + above.length := by
  obtain ⟨below, hbelow⟩ := h.found
  have hpos := h.start_pos
  have hlen : e.start - 1 ≤ ls.length := by
    by_contra hlong
    rw [List.drop_eq_nil_iff.2 (by omega)] at hbelow
    exact h.some_line (List.append_eq_nil_iff.1 hbelow).1
  refine ⟨ls.take (e.start - 1), below, ?_, ?_⟩
  · rw [List.append_assoc, hbelow, List.take_append_drop]
  · rw [List.length_take]
    omega

section

variable {e : Edit} {above below : List Text} (hstart : e.start = 1 + above.length)

include hstart

theorem matches_split (hsome : e.old ≠ []) : e.Matches (above ++ e.old ++ below) := by
  refine ⟨by omega, hsome, ?_⟩
  rw [hstart, Nat.add_sub_cancel_left, List.append_assoc, List.drop_left]
  exact List.prefix_append _ _

theorem applied_split : e.applied (above ++ e.old ++ below) = above ++ e.new ++ below := by
  unfold applied
  rw [hstart, Nat.add_sub_cancel_left, ← List.length_append, List.drop_left,
    List.append_assoc above e.old below, List.take_left]

end

end Edit

/-! ### All edits at once -/

/-- What edits make of the line with a number: the new lines stand in the place of the first line of their
range. -/
def imageOf (es : List Edit) (n : Nat) (l : Text) : List Text :=
  match es.find? fun e => e.covers n with
  | some e => if e.start = n then e.new else []
  | none => [l]

def replaceFrom (es : List Edit) : Nat → List Text → List Text
  | _, [] => []
  | n, l :: ls => imageOf es n l ++ replaceFrom es (n + 1) ls

/-- What edits make of the lines of a text when they are all made at once. -/
def replaceRanges (es : List Edit) (ls : List Text) : List Text := replaceFrom es 1 ls

variable {e : Edit} {es fs : List Edit} {ls : List Text} {n : Nat}

theorem replaceFrom_append (es : List Edit) (n : Nat) (ls ks : List Text) :
    replaceFrom es n (ls ++ ks) = replaceFrom es n ls ++ replaceFrom es (n + ls.length) ks := by
  induction ls generalizing n with
  | nil => rfl
  | cons l ls ih =>
    have hnext : n + 1 + ls.length = n + (ls.length + 1) := by omega
    simp only [List.cons_append, replaceFrom, ih, List.append_assoc, List.length_cons, hnext]

theorem replaceFrom_congr
    (h : ∀ i l, n ≤ i → i < n + ls.length → imageOf es i l = imageOf fs i l) :
    replaceFrom es n ls = replaceFrom fs n ls := by
  induction ls generalizing n with
  | nil => rfl
  | cons l ls ih =>
    have hrest := @ih (n + 1) fun i k hi hlt => h i k (by omega) (by simp only [List.length_cons]; omega)
    rw [replaceFrom, replaceFrom, hrest, h n l (Nat.le_refl n) (by simp)]

theorem imageOf_cons_of_covers (es : List Edit) (h : e.covers n = true) (l : Text) :
    imageOf (e :: es) n l = if e.start = n then e.new else [] := by
  simp only [imageOf, List.find?_cons, h]

theorem imageOf_cons_of_not_covers (es : List Edit) (h : e.covers n = false) (l : Text) :
    imageOf (e :: es) n l = imageOf es n l := by
  simp only [imageOf, List.find?_cons, h]

theorem replaceFrom_cons_of_outside (es : List Edit)
    (h : n + ls.length ≤ e.start ∨ e.start + e.old.length ≤ n) :
    replaceFrom (e :: es) n ls = replaceFrom es n ls :=
  replaceFrom_congr fun i l hi hlt =>
    imageOf_cons_of_not_covers es (Edit.covers_eq_false_iff.2 (by omega)) l

theorem replaceFrom_of_outside
    (h : ∀ e ∈ es, n + ls.length ≤ e.start ∨ e.start + e.old.length ≤ n) :
    replaceFrom es n ls = ls := by
  induction es with
  | nil =>
    induction ls generalizing n with
    | nil => rfl
    | cons l ls ih => rw [replaceFrom, ih (List.forall_mem_nil _)]; rfl
  | cons e es ih =>
    obtain ⟨he, hes⟩ := List.forall_mem_cons.1 h
    rw [replaceFrom_cons_of_outside es he, ih hes]

theorem replaceRanges_nil (ls : List Text) : replaceRanges [] ls = ls :=
  replaceFrom_of_outside (List.forall_mem_nil _)

/-- Behind the first line of its range, an edit leaves nothing of the range. -/
theorem replaceFrom_cons_of_within (es : List Edit) (hlow : e.start < n)
    (hin : n + ls.length ≤ e.start + e.old.length) : replaceFrom (e :: es) n ls = [] := by
  induction ls generalizing n with
  | nil => rfl
  | cons l ls ih =>
    simp only [List.length_cons] at hin
    have hcovers : e.covers n = true := Edit.covers_iff.2 (by omega)
    rw [replaceFrom, imageOf_cons_of_covers es hcovers, if_neg (by omega), ih (by omega) (by omega),
      List.append_nil]

theorem replaceFrom_cons_range (es : List Edit) (hlen : ls.length = e.old.length)
    (hsome : e.old ≠ []) : replaceFrom (e :: es) e.start ls = e.new := by
  cases ls with
  | nil => exact absurd (List.eq_nil_of_length_eq_zero hlen.symm) hsome
  | cons l ls =>
    simp only [List.length_cons] at hlen
    have hcovers : e.covers e.start = true := Edit.covers_iff.2 (by omega)
    rw [replaceFrom, imageOf_cons_of_covers es hcovers, if_pos rfl,
      replaceFrom_cons_of_within es (by omega) (by omega), List.append_nil]

/-- The lines above the range of an edit, those in it and those below it, with and without the edit. The other
edits do not meet the lines in it. -/
theorem replaceFrom_split {above range below : List Text} (hstart : e.start = n + above.length)
    (hlen : range.length = e.old.length) (hsome : e.old ≠ []) (hapart : ∀ f ∈ es, e.Apart f) :
    replaceFrom es n (above ++ range ++ below) =
      replaceFrom es n above ++ range ++ replaceFrom es (e.start + e.old.length) below ∧
    replaceFrom (e :: es) n (above ++ range ++ below) =
      replaceFrom es n above ++ e.new ++ replaceFrom es (e.start + e.old.length) below := by
  have hnext : n + (above ++ range).length = e.start + e.old.length := by
    rw [List.length_append]
    omega
  have hrange : replaceFrom es e.start range = range := replaceFrom_of_outside fun f hf => by
    have hef := hapart f hf
    unfold Edit.Apart at hef
    omega
  rw [replaceFrom_append, replaceFrom_append, replaceFrom_append, replaceFrom_append, ← hstart, hnext,
    hrange, replaceFrom_cons_range es hlen hsome, replaceFrom_cons_of_outside es (.inl hstart.ge),
    replaceFrom_cons_of_outside es (.inr (Nat.le_refl _))]
  exact ⟨rfl, rfl⟩

/-- Edits keep the number of the lines above a line if those that begin there do, and end there. -/
theorem length_replaceFrom (hsome : ∀ f ∈ es, n ≤ f.start ∧ f.old ≠ [])
    (hapart : es.Pairwise Edit.Apart)
    (h : ∀ f ∈ es, n + ls.length ≤ f.start ∨
      f.start + f.old.length ≤ n + ls.length ∧ f.KeepsCount) :
    (replaceFrom es n ls).length = ls.length := by
  induction es with
  | nil => rw [replaceFrom_of_outside (List.forall_mem_nil _)]
  | cons f es ih =>
    obtain ⟨⟨hlow, hf⟩, hsome⟩ := List.forall_mem_cons.1 hsome
    obtain ⟨hfirst, h⟩ := List.forall_mem_cons.1 h
    obtain ⟨hfapart, hapart⟩ := List.pairwise_cons.1 hapart
    have hrest := ih hsome hapart h
    rcases hfirst with hbelow | ⟨hin, hkeeps⟩
    · rw [replaceFrom_cons_of_outside es (.inl hbelow), hrest]
    · -- the range of `f` is cut out of the lines: it has as many lines with the edit as without it
      have hcut : ls.take (f.start - n) ++ (ls.drop (f.start - n)).take f.old.length ++
          ls.drop (f.start - n + f.old.length) = ls := by
        rw [← List.take_add, List.take_append_drop]
      have habove : f.start = n + (ls.take (f.start - n)).length := by
        rw [List.length_take]
        omega
      have hrange : ((ls.drop (f.start - n)).take f.old.length).length = f.old.length := by
        rw [List.length_take, List.length_drop]
        omega
      obtain ⟨hwithout, hwith⟩ := @replaceFrom_split f es n _ _ (ls.drop (f.start - n + f.old.length))
        habove hrange hf hfapart
      rw [hcut] at hwithout hwith
      unfold Edit.KeepsCount at hkeeps
      rw [hwithout] at hrest
      simp only [List.length_append] at hrest
      rw [hwith]
      simp only [List.length_append]
      omega

/-- After other edits have been made at once, an edit still finds its lines where it looks for them, and makes
of them what it makes together with the others. It does so if those that come above it keep the number of
lines. -/
theorem Edit.Matches.replaceRanges (he : e.Matches ls) (hes : ∀ f ∈ es, f.Matches ls)
    (hapart : (e :: es).Pairwise Edit.Apart)
    (hkeeps : ∀ f ∈ es, f.start < e.start → f.KeepsCount) :
    e.Matches (replaceRanges es ls) ∧ e.applied (replaceRanges es ls) = replaceRanges (e :: es) ls := by
  obtain ⟨hfirst, hrest⟩ := List.pairwise_cons.1 hapart
  obtain ⟨above, below, rfl, hstart⟩ := he.exists_split
  obtain ⟨hwithout, hwith⟩ := @replaceFrom_split e es 1 above e.old below hstart rfl he.some_line hfirst
  have hlen : (replaceFrom es 1 above).length = above.length := by
    refine length_replaceFrom (fun f hf => ⟨(hes f hf).start_pos, (hes f hf).some_line⟩) hrest
      fun f hf => ?_
    have hef := hfirst f hf
    unfold Edit.Apart at hef
    by_cases hlt : f.start < e.start
    · exact .inr ⟨by omega, hkeeps f hf hlt⟩
    · exact .inl (by omega)
  rw [← hlen] at hstart
  unfold Diff.replaceRanges
  rw [hwithout, hwith]
  exact ⟨matches_split hstart he.some_line, applied_split hstart⟩

/-! ### The order of edits -/

theorem find?_covers_perm (h : es.Perm fs) (hapart : es.Pairwise Edit.Apart) (n : Nat) :
    es.find? (fun e => e.covers n) = fs.find? fun e => e.covers n := by
  induction h with
  | nil => rfl
  | cons e _ ih => rw [List.find?_cons, List.find?_cons, ih (List.pairwise_cons.1 hapart).2]
  | swap e f es =>
    have hfe : f.Apart e := (List.pairwise_cons.1 hapart).1 e List.mem_cons_self
    simp only [List.find?_cons]
    cases hf : f.covers n with
    | true => rw [hfe.not_covers hf]
    | false => rfl
  | trans h _ ih ih' =>
    exact (ih hapart).trans (ih' ((h.pairwise_iff fun hab => hab.symm).1 hapart))

theorem replaceRanges_perm (h : es.Perm fs) (hapart : es.Pairwise Edit.Apart) (ls : List Text) :
    replaceRanges es ls = replaceRanges fs ls :=
  replaceFrom_congr fun i l _ _ => by rw [imageOf, imageOf, find?_covers_perm h hapart]

theorem mem_of_mem_replaceFrom {l : Text} (h : l ∈ replaceFrom es n ls) :
    l ∈ ls ∨ ∃ e ∈ es, l ∈ e.new := by
  induction ls generalizing n with
  | nil => cases h
  | cons k ls ih =>
    rw [replaceFrom, List.mem_append] at h
    rcases h with h | h
    · unfold imageOf at h
      split at h
      · next e he =>
        split at h
        · exact .inr ⟨e, List.mem_of_find?_eq_some he, h⟩
        · cases h
      · obtain rfl := List.mem_singleton.1 h
        exact .inl List.mem_cons_self
    · exact (ih h).imp_left (List.mem_cons_of_mem k)

/-! ### The edit of a diff -/

/-- The edit that a hunk makes where its window holds the lines that its body expects. -/
def Hunk.edit (h : Hunk) : Edit := ⟨h.oldStart, expected h.body, refill h.body (expected h.body)⟩

/-- The edit of a hunk that is read from its other side puts the old lines back. -/
theorem edit_reversed {h : Hunk} (hm : MarksReadable h.body) :
    h.reversed.edit = ⟨h.newStart, h.edit.new, h.edit.old⟩ := by
  have hback : refill (h.body.map reverseLine) (refill h.body (expected h.body)) = expected h.body := by
    rw [refill_reversed hm rfl, (restored_eq_iff rfl).2 (removalsFit_expected h.body)]
  simp only [Hunk.edit, Hunk.reversed, ← refill_expected hm, hback]

/-- The edit of a diff with a single hunk. -/
def edit? (diff : Text) : Option Edit :=
  match hunks diff with
  | .ok [h] => some h.edit
  | _ => none

theorem exists_hunk_of_edit? {diff : Text} (h : edit? diff = some e) :
    ∃ k, hunks diff = .ok [k] ∧ k.edit = e := by
  unfold edit? at h
  split at h
  · next k hk => exact ⟨k, hk, Option.some.inj h⟩
  · cases h

theorem mem_of_mem_refill {body window : List Text} {l : Text} (h : l ∈ refill body window) :
    l ∈ window ∨ ∃ b ∈ body, l = payload b := by
  induction body generalizing window with
  | nil => exact .inl h
  | cons b body ih =>
    -- only an addition brings a line that is neither in the window nor made by the rest of the body
    have hrest : ∀ w : List Text, (∀ x ∈ w, x ∈ window) → l ∈ refill body w →
        l ∈ window ∨ ∃ b' ∈ b :: body, l = payload b' := by
      intro w hw hl
      rcases ih hl with hl | ⟨c, hc, hl⟩
      · exact .inl (hw l hl)
      · exact .inr ⟨c, List.mem_cons_of_mem _ hc, hl⟩
    cases hk : kind b with
    | removal => exact hrest _ (fun _ => List.mem_of_mem_tail) (by simpa [refill, hk] using h)
    | addition =>
      have hc : l = payload b ∨ l ∈ refill body window := by simpa [refill, hk] using h
      rcases hc with hl | hl
      · exact .inr ⟨b, List.mem_cons_self, hl⟩
      · exact hrest _ (fun _ hx => hx) hl
    | context =>
      have hc : window.head? = some l ∨ l ∈ refill body window.tail := by
        simpa [refill, hk] using h
      rcases hc with hl | hl
      · exact .inl (List.mem_of_mem_head? hl)
      · exact hrest _ (fun _ => List.mem_of_mem_tail) hl
    | other => exact hrest _ (fun _ hx => hx) (by simpa [refill, hk] using h)

theorem newline_not_mem_of_edit? {diff : Text} (h : edit? diff = some e) {l : Text} (hl : l ∈ e.new) :
    .char '\n' ∉ l := by
  obtain ⟨k, hk, rfl⟩ := exists_hunk_of_edit? h
  have hbody := newline_not_mem_body hk k List.mem_cons_self
  rcases mem_of_mem_refill hl with hl | ⟨b, hb, rfl⟩
  · obtain ⟨b, hb, rfl⟩ := List.mem_map.1 hl
    exact newline_not_mem_payload (hbody b (List.mem_of_mem_filter hb))
  · exact newline_not_mem_payload (hbody b hb)

theorem apply_of_edit? {diff content : Text} (h : edit? diff = some e)
    (he : e.Matches (Text.lines content)) (strict : Bool) :
    apply strict content diff = .ok (Text.ofLines (e.applied (Text.lines content))) := by
  obtain ⟨k, hk, rfl⟩ := exists_hunk_of_edit? h
  obtain ⟨above, below, hlines, hstart⟩ := he.exists_split
  have hcut : k.oldStart = above.length + 1 := hstart.trans (Nat.add_comm _ _)
  have hone := @applyHunk_of_found k above (expected k.body ++ below) hcut strict
    (by simp only [List.length_append]; omega) fun _ => List.prefix_append _ _
  rw [refill_append _ _ _ rfl, ← List.append_assoc, ← List.append_assoc] at hone
  rw [apply_of_hunks hk (List.cons_ne_nil _ _), hlines, Edit.applied_split hstart, applyHunks, applyHunks]
  simp only [Hunk.edit, hone]
  rfl

end Mend.Diff
