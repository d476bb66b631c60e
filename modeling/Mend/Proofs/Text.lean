import Mathlib.Data.List.Basic
import Mathlib.Data.List.TakeWhile
import Mend.Text.Blank
import Mend.Text.Digit

/-!
# Searching in texts

What the searches in a text find stands in the text, and what stands there is found. A run of characters
of a class is exact in front of a text that does not begin with one of them. Texts are in a total order.
-/

namespace Mend.Text

/-! ### What a text begins with and what it holds -/

theorem after?_append (p t : Text) : after? p (p ++ t) = some t := by
  induction p with
  | nil => rfl
  | cons a p ih => simpa [after?] using ih

theorem eq_append_of_after? {p t rest : Text} (h : after? p t = some rest) :
    t = p ++ rest := by
  induction p generalizing t with
  | nil => simpa [after?] using h
  | cons a p ih =>
    cases t with
    | nil => simp [after?] at h
    | cons b t =>
      by_cases hab : a = b
      · have hr : after? p t = some rest := by simpa [after?, hab] using h
        rw [hab, List.cons_append, ih hr]
      · simp [after?, hab] at h

theorem after?_eq_some_iff {p t rest : Text} : after? p t = some rest ↔ t = p ++ rest :=
  ⟨eq_append_of_after?, fun h => h ▸ after?_append p rest⟩

theorem contains_iff {t words : Text} : contains t words = true ↔ words <:+: t := by
  induction t with
  | nil =>
    rw [contains, List.isEmpty_iff]
    exact List.infix_nil.symm
  | cons c t ih => rw [contains, Bool.or_eq_true, List.isPrefixOf_iff_prefix, ih, List.infix_cons_iff]

theorem suffix_append_cases {s a b : Text} (h : s <:+ a ++ b) :
    s <:+ b ∨ ∃ u, u ≠ [] ∧ u <:+ a ∧ s = u ++ b := by
  obtain ⟨front, hfront⟩ := h
  rcases List.append_eq_append_iff.1 hfront with ⟨u, rfl, rfl⟩ | ⟨v, -, rfl⟩
  · by_cases hu : u = []
    · exact .inl (hu ▸ List.suffix_refl b)
    · exact .inr ⟨u, hu, List.suffix_append front u, rfl⟩
  · exact .inl (List.suffix_append v s)

/-- A text that stands in front of `c` and does not hold it stands before the first `c`. -/
theorem append_eq_append_cons {c : CodePoint} {p r s t : Text} (hc : c ∉ p) (h : s ++ c :: t = p ++ r) :
    ∃ u, s = p ++ u ∧ r = u ++ c :: t := by
  rcases List.append_eq_append_iff.1 h with ⟨k, rfl, hk⟩ | ⟨u, rfl, rfl⟩
  · cases k with
    | nil => exact ⟨[], by simp, hk.symm⟩
    | cons d k =>
      obtain ⟨rfl, -⟩ := List.cons.inj hk
      exact absurd (List.mem_append_right s (List.mem_cons_self ..)) hc
  · exact ⟨u, rfl, rfl⟩

theorem append_cons_inj {c : CodePoint} {p q s t : Text} (hp : c ∉ p) (hq : c ∉ q)
    (h : p ++ c :: s = q ++ c :: t) :
    p = q ∧ s = t := by
  obtain ⟨u, rfl, hu⟩ := append_eq_append_cons hq h
  cases u with
  | nil => exact ⟨List.append_nil q, (List.cons.inj hu).2.symm⟩
  | cons d u =>
    obtain ⟨rfl, -⟩ := List.cons.inj hu
    exact absurd (List.mem_append_right q (List.mem_cons_self ..)) hp

theorem forall_head?_cons {p : CodePoint → Bool} {c : CodePoint} (hc : p c = false) (t : Text) :
    ∀ d ∈ (c :: t).head?, p d = false := by
  intro d hd
  obtain rfl : c = d := Option.some.inj hd
  exact hc

/-- A pass that keeps every character of a class where it stands in front keeps a text of this class there. -/
theorem append_of_keeps {f : Text → Text} {p : CodePoint → Prop} (hkeep : ∀ c, p c → ∀ t, f (c :: t) = c :: f t)
    {s : Text} (hs : ∀ c ∈ s, p c) (t : Text) : f (s ++ t) = s ++ f t := by
  induction s with
  | nil => rfl
  | cons c s ih =>
    obtain ⟨hc, hs⟩ := List.forall_mem_cons.1 hs
    rw [List.cons_append, hkeep c hc, ih hs, List.cons_append]

/-! ### Order -/

theorem atMost_total (s t : Text) : (atMost s t || atMost t s) = true := by
  induction s generalizing t with
  | nil => rfl
  | cons a s ih =>
    cases t with
    | nil => rfl
    | cons b t =>
      have h := ih t
      simp only [atMost, Bool.or_eq_true, Bool.and_eq_true, decide_eq_true_eq, beq_iff_eq] at h ⊢
      rcases Nat.lt_trichotomy a.toNat b.toNat with hlt | heq | hgt
      · exact .inl (.inl hlt)
      · exact h.imp (fun h => .inr ⟨heq, h⟩) fun h => .inr ⟨heq.symm, h⟩
      · exact .inr (.inl hgt)

theorem atMost_trans {s t u : Text} (h : atMost s t = true) (k : atMost t u = true) : atMost s u = true := by
  induction s generalizing t u with
  | nil => rfl
  | cons a s ih =>
    cases t with
    | nil => cases h
    | cons b t =>
      cases u with
      | nil => cases k
      | cons c u =>
        simp only [atMost, Bool.or_eq_true, Bool.and_eq_true, decide_eq_true_eq, beq_iff_eq] at h k ⊢
        rcases h with h | ⟨hab, h⟩
        · exact .inl (by omega)
        · rcases k with k | ⟨hbc, k⟩
          · exact .inl (by omega)
          · exact .inr ⟨hab.trans hbc, ih h k⟩

theorem atMost_antisymm {s t : Text} (h : atMost s t = true) (k : atMost t s = true) : s = t := by
  induction s generalizing t with
  | nil =>
    cases t with
    | nil => rfl
    | cons b t => cases k
  | cons a s ih =>
    cases t with
    | nil => cases h
    | cons b t =>
      simp only [atMost, Bool.or_eq_true, Bool.and_eq_true, decide_eq_true_eq, beq_iff_eq] at h k
      have hcode : a.toNat = b.toNat := by omega
      have htail : s = t := ih (h.resolve_left (by omega)).2 (k.resolve_left (by omega)).2
      rw [CodePoint.toNat_inj.1 hcode, htail]

/-! ### Runs of characters -/

theorem span_append {p : CodePoint → Bool} {front rest : Text} (hfront : ∀ c ∈ front, p c = true)
    (hrest : ∀ c ∈ rest.head?, p c = false) :
    (front ++ rest).takeWhile p = front ∧ (front ++ rest).dropWhile p = rest := by
  have hstop : rest.takeWhile p = [] ∧ rest.dropWhile p = rest := by
    cases rest with
    | nil => exact ⟨rfl, rfl⟩
    | cons c rest => simp [hrest c (by simp)]
  rw [List.takeWhile_append_of_pos hfront, List.dropWhile_append_of_pos hfront, hstop.1, hstop.2,
    List.append_nil]
  exact ⟨rfl, rfl⟩

theorem dropWhile_append_solid {p : CodePoint → Bool} (front : Text) {t : Text}
    (hhead : ∀ c ∈ t.head?, p c = false) :
    (front ++ t).dropWhile p = front.dropWhile p ++ t := by
  have hself : t.dropWhile p = t := (span_append (List.forall_mem_nil _) hhead).2
  rw [List.dropWhile_append]
  split
  · next hnil => rw [List.isEmpty_iff.1 hnil, hself, List.nil_append]
  · rfl

theorem dropEndWhile_solid_append {p : CodePoint → Bool} {t : Text} (rest : Text)
    (hlast : ∀ c ∈ t.getLast?, p c = false) : dropEndWhile p (t ++ rest) = t ++ dropEndWhile p rest := by
  rw [dropEndWhile, List.reverse_append, dropWhile_append_solid _ (by rwa [List.head?_reverse]),
    List.reverse_append, List.reverse_reverse]
  rfl

theorem dropEndWhile_eq_nil {p : CodePoint → Bool} {t : Text} (ht : ∀ c ∈ t, p c = true) :
    dropEndWhile p t = [] := by
  rw [dropEndWhile, List.dropWhile_eq_nil_iff.2 (by simpa using ht), List.reverse_nil]

theorem dropEndWhile_append {p : CodePoint → Bool} {front rest : Text} (hrest : ∀ c ∈ rest, p c = true)
    (hfront : ∀ c ∈ front.getLast?, p c = false) : dropEndWhile p (front ++ rest) = front := by
  rw [dropEndWhile_solid_append rest hfront, dropEndWhile_eq_nil hrest, List.append_nil]

/-- What is trimmed off a text with a solid core is trimmed off the parts on the two sides of the core. -/
theorem trimBy_around {p : CodePoint → Bool} (front rest : Text) {core : Text} (hne : core ≠ [])
    (hhead : ∀ c ∈ core.head?, p c = false) (hlast : ∀ c ∈ core.getLast?, p c = false) :
    trimBy p (front ++ (core ++ rest)) = front.dropWhile p ++ (core ++ dropEndWhile p rest) := by
  rw [trimBy, dropWhile_append_solid front (by rwa [List.head?_append_of_ne_nil _ hne]), ← List.append_assoc,
    dropEndWhile_solid_append rest (by rwa [List.getLast?_append_of_ne_nil _ hne]), List.append_assoc]

theorem trimBy_append {p : CodePoint → Bool} {front core rest : Text} (hfront : ∀ c ∈ front, p c = true)
    (hrest : ∀ c ∈ rest, p c = true) (hne : core ≠ []) (hhead : ∀ c ∈ core.head?, p c = false)
    (hlast : ∀ c ∈ core.getLast?, p c = false) : trimBy p (front ++ (core ++ rest)) = core := by
  rw [trimBy_around front rest hne hhead hlast, List.dropWhile_eq_nil_iff.2 hfront, dropEndWhile_eq_nil hrest,
    List.nil_append, List.append_nil]

theorem trimBy_of_ends {p : CodePoint → Bool} {t : Text} (hhead : ∀ c ∈ t.head?, p c = false)
    (hlast : ∀ c ∈ t.getLast?, p c = false) : trimBy p t = t := by
  by_cases hne : t = []
  · rw [hne]
    rfl
  · simpa using trimBy_append (List.forall_mem_nil _) (List.forall_mem_nil _) hne hhead hlast

theorem forall_mem_of_any {p : CodePoint → Bool} {t : Text} (h : t.any p = false) : ∀ c ∈ t, p c = false := by
  simpa using h

theorem head?_dropWhile (p : CodePoint → Bool) (t : Text) : ∀ c ∈ (t.dropWhile p).head?, p c = false := by
  intro c hc
  have hnot := List.head?_dropWhile_not p t
  rw [Option.mem_def.1 hc] at hnot
  simpa using hnot

/-- A text with a character outside of the class has a core between two runs of the class. -/
theorem exists_core {p : CodePoint → Bool} {t : Text} (h : ∃ c ∈ t, p c = false) :
    ∃ front core rest, t = front ++ (core ++ rest) ∧ (∀ c ∈ front, p c = true) ∧ (∀ c ∈ rest, p c = true) ∧
      core ≠ [] ∧ (∀ c ∈ core.head?, p c = false) ∧ ∀ c ∈ core.getLast?, p c = false := by
  have htake : ∀ s : Text, ∀ c ∈ s.takeWhile p, p c = true := fun s => List.all_eq_true.1 List.all_takeWhile
  have hsplit : t.dropWhile p =
      dropEndWhile p (t.dropWhile p) ++ ((t.dropWhile p).reverse.takeWhile p).reverse := by
    rw [dropEndWhile, ← List.reverse_append, List.takeWhile_append_dropWhile, List.reverse_reverse]
  have hrest : ∀ c ∈ ((t.dropWhile p).reverse.takeWhile p).reverse, p c = true := fun c hc =>
    htake _ c (List.mem_reverse.1 hc)
  have hne : dropEndWhile p (t.dropWhile p) ≠ [] := fun hnil => by
    rw [hnil, List.nil_append] at hsplit
    obtain ⟨c, hc, hno⟩ := h
    rw [← List.takeWhile_append_dropWhile (p := p) (l := t), hsplit] at hc
    rw [(List.mem_append.1 hc).elim (htake t c) (hrest c)] at hno
    cases hno
  refine ⟨t.takeWhile p, dropEndWhile p (t.dropWhile p), _, ?_, htake t, hrest, hne, ?_, ?_⟩
  · rw [← hsplit, List.takeWhile_append_dropWhile]
  · have hhead := head?_dropWhile p t
    rwa [hsplit, List.head?_append_of_ne_nil _ hne] at hhead
  · rw [dropEndWhile, List.getLast?_reverse]
    exact head?_dropWhile p _

/-- What is left after trimming has nothing to trim at its ends. -/
theorem trimBy_ends (p : CodePoint → Bool) (t : Text) :
    (∀ c ∈ (trimBy p t).head?, p c = false) ∧ ∀ c ∈ (trimBy p t).getLast?, p c = false := by
  by_cases hsolid : ∃ c ∈ t, p c = false
  · obtain ⟨front, core, rest, rfl, hfront, hrest, hne, hhead, hlast⟩ := exists_core hsolid
    rw [trimBy_append hfront hrest hne hhead hlast]
    exact ⟨hhead, hlast⟩
  · have hall : ∀ c ∈ t, p c = true := by simpa using hsolid
    rw [trimBy, List.dropWhile_eq_nil_iff.2 hall]
    exact ⟨nofun, nofun⟩

theorem spanDigits_append {ds rest : Text} (hds : ∀ c ∈ ds, isDigit c = true)
    (hrest : ∀ c ∈ rest.head?, isDigit c = false) :
    spanDigits (ds ++ rest) = (ds, rest) := by
  obtain ⟨htake, hdrop⟩ := span_append hds hrest
  rw [spanDigits, htake, hdrop]

theorem spanDigits_spec (t : Text) :
    t = (spanDigits t).1 ++ (spanDigits t).2 ∧
      ∀ c ∈ (spanDigits t).1, isDigit c = true :=
  ⟨List.takeWhile_append_dropWhile.symm, List.all_eq_true.1 List.all_takeWhile⟩

/-! ### Lines -/

theorem splitOn_append (sep : CodePoint) (s t : Text) :
    splitOn sep (s ++ sep :: t) = splitOn sep s ++ splitOn sep t := by
  induction s with
  | nil => rw [List.nil_append, splitOn_cons, if_pos rfl]; rfl
  | cons c s ih =>
    rw [List.cons_append, splitOn_cons, splitOn_cons, ih]
    split
    · rfl
    · cases hs : splitOn sep s with
      | nil => exact absurd hs (splitOn_ne_nil sep s)
      | cons p ps => rfl

/-- What a text begins with, its first piece begins with. -/
theorem exists_splitOn_append {sep : CodePoint} {s : Text} (hs : sep ∉ s) (t : Text) :
    ∃ piece pieces, splitOn sep (s ++ t) = (s ++ piece) :: pieces := by
  induction s with
  | nil => exact List.exists_cons_of_ne_nil (splitOn_ne_nil sep t)
  | cons c s ih =>
    obtain ⟨hc, hs⟩ := not_or.1 (mt List.mem_cons.2 hs)
    obtain ⟨piece, pieces, hsplit⟩ := ih hs
    exact ⟨piece, pieces, by rw [List.cons_append, splitOn_cons, if_neg (Ne.symm hc), hsplit]; rfl⟩

theorem proseLines_go_append {p : Text} (hp : ∀ c ∈ p, isLineEnd c = false) (done : List Text) (line t : Text) :
    proseLines.go done line (p ++ t) = proseLines.go done (p.reverse ++ line) t := by
  induction p generalizing line with
  | nil => rfl
  | cons c p ih =>
    obtain ⟨hc, hp⟩ := List.forall_mem_cons.1 hp
    rw [List.cons_append, proseLines.go, hc, List.reverse_cons, List.append_assoc]
    · exact ih hp (c :: line)
    · rintro _ rfl
      exact absurd hc (by decide)

theorem proseLines_go_append_done (done old : List Text) (line t : Text) :
    proseLines.go (done ++ old) line t = old.reverse ++ proseLines.go done line t := by
  fun_induction proseLines.go done line t with
  | case1 done line =>
    rw [proseLines.go]
    split
    · exact List.reverse_append
    · rw [← List.cons_append]
      exact List.reverse_append
  | case2 done line t ih => exact ih
  | case3 done line c t hpair hc ih =>
    rw [proseLines.go.eq_3 _ _ _ _ hpair, if_pos hc]
    exact ih
  | case4 done line c t hpair hc ih =>
    rw [proseLines.go.eq_3 _ _ _ _ hpair, if_neg hc]
    exact ih

theorem proseLines_go_close (line t : Text) :
    proseLines.go [] line (.char '\n' :: t) = line.reverse :: proseLines t :=
  proseLines_go_append_done [] [line.reverse] [] t

theorem proseLines_append_feed {p : Text} (hp : ∀ c ∈ p, isLineEnd c = false) (t : Text) :
    proseLines (p ++ .char '\n' :: t) = p :: proseLines t := by
  rw [proseLines, proseLines_go_append hp, List.append_nil, proseLines_go_close, List.reverse_reverse]

theorem proseLines_of_no_end {p : Text} (hp : ∀ c ∈ p, isLineEnd c = false) (hne : p ≠ []) :
    proseLines p = [p] := by
  have hread := proseLines_go_append hp [] [] []
  rw [List.append_nil, List.append_nil] at hread
  rw [proseLines, hread, proseLines.go]
  simp [hne]

/-- Pieces that are joined by line feeds are lines of prose. An empty piece at the end is none. -/
theorem exists_proseLines_joinOn {ps : List Text} (hps : ∀ p ∈ ps, ∀ c ∈ p, isLineEnd c = false) :
    proseLines (joinOn '\n' ps) = ps ∨ ps = proseLines (joinOn '\n' ps) ++ [[]] := by
  induction ps with
  | nil => exact .inl rfl
  | cons p ps ih =>
    obtain ⟨hp, hps⟩ := List.forall_mem_cons.1 hps
    cases ps with
    | nil =>
      rw [joinOn_singleton]
      by_cases hne : p = []
      · exact .inr (by rw [hne]; rfl)
      · exact .inl (proseLines_of_no_end hp hne)
    | cons q ps =>
      rw [joinOn_cons_cons, proseLines_append_feed hp]
      rcases ih hps with hall | hshort
      · exact .inl (by rw [hall])
      · exact .inr (congrArg (p :: ·) hshort)

end Mend.Text
