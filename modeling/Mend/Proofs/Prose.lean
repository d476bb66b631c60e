import Mend.Proofs.Text

/-!
# Lines as they are shown

A file is shown line by line after its line ends were reduced to line feeds, and then every character that
ends a line of prose closes a line. The lines between its line feeds are counted otherwise: each of them is
shown as one or more lines, all but an empty last one (`exists_shownLines`), and as itself without a
carriage return at its end if it is plain (`shownLines_plain`).
-/

namespace Mend.Text

/-- The lines of a text as they are shown. -/
def shownLines (t : Text) : List Text := proseLines (universalNewlines t)

/-- A line without the carriage return that belongs to its end. -/
def withoutReturn (l : Text) : Text := if l.getLast? = some '\r' then l.dropLast else l

/-- Whether nothing in a line, a carriage return at its end excepted, ends a line of prose. -/
def IsPlain (l : Text) : Prop := ∀ c ∈ withoutReturn l, isLineEnd c = false

instance (l : Text) : Decidable (IsPlain l) :=
  List.decidableBAll _ (withoutReturn l)

theorem not_isReturn {c : CodePoint} (hc : isLineEnd c = false) : c ≠ '\r' := by
  rintro rfl
  exact absurd hc (by decide)

theorem eq_or_eq_append_return (l : Text) : l = withoutReturn l ∨ l = withoutReturn l ++ [.char '\r'] := by
  unfold withoutReturn
  split
  · next hlast =>
    obtain ⟨init, rfl⟩ := List.getLast?_eq_some_iff.1 hlast
    exact .inr (by rw [List.dropLast_concat])
  · exact .inl rfl

theorem IsPlain.exists_core {l : Text} (hl : IsPlain l) :
    ∃ p, withoutReturn l = p ∧ (∀ c ∈ p, isLineEnd c = false) ∧ (l = p ∨ l = p ++ [.char '\r']) :=
  ⟨withoutReturn l, rfl, hl, eq_or_eq_append_return l⟩

theorem withoutReturn_of_ends {l : Text} (hl : ∀ c ∈ l, isLineEnd c = false) : withoutReturn l = l := by
  refine if_neg fun hlast => ?_
  exact not_isReturn (hl _ (List.mem_of_getLast? hlast)) rfl

/-! ### Line ends reduced to line feeds -/

theorem universalNewlines_go_append (done old t : Text) :
    universalNewlines.go (done ++ old) t = old.reverse ++ universalNewlines.go done t := by
  fun_induction universalNewlines.go done t with
  | case1 done => exact List.reverse_append
  | case2 done t ih => exact ih
  | case3 done t halone ih =>
    rw [universalNewlines.go.eq_3 _ _ halone]
    exact ih
  | case4 done c t hpair halone ih =>
    rw [universalNewlines.go.eq_4 _ _ _ hpair halone]
    exact ih

theorem universalNewlines_go (done t : Text) :
    universalNewlines.go done t = done.reverse ++ universalNewlines t :=
  universalNewlines_go_append [] done t

@[simp] theorem universalNewlines_nil : universalNewlines [] = [] := rfl

theorem universalNewlines_cons {c : CodePoint} (hc : c ≠ '\r') (t : Text) :
    universalNewlines (c :: t) = c :: universalNewlines t := by
  have hstep := universalNewlines.go.eq_4 [] c t (fun _ h => absurd h hc) hc
  exact hstep.trans (universalNewlines_go [c] t)

theorem universalNewlines_append {p : Text} (hp : ∀ c ∈ p, c ≠ '\r') (t : Text) :
    universalNewlines (p ++ t) = p ++ universalNewlines t :=
  append_of_keeps (fun _ => universalNewlines_cons) hp t

theorem universalNewlines_ne_nil {t : Text} (ht : t ≠ []) : universalNewlines t ≠ [] := by
  unfold universalNewlines
  fun_cases universalNewlines.go [] t with
  | case1 => exact absurd rfl ht
  | case2 t | case3 t | case4 c t =>
    rw [universalNewlines_go]
    exact List.cons_ne_nil _ _

/-- What stands before a line feed is reduced on its own. -/
theorem exists_universalNewlines (p : Text) :
    ∃ q, ∀ t, universalNewlines (p ++ .char '\n' :: t) = q ++ .char '\n' :: universalNewlines t := by
  induction p with
  | nil => exact ⟨[], universalNewlines_cons (by decide)⟩
  | cons c p ih =>
    obtain ⟨q, hq⟩ := ih
    by_cases hc : c = '\r'
    · subst hc
      match p with
      | [] => exact ⟨[], universalNewlines_go [.char '\n']⟩
      | d :: p =>
        by_cases hd : d = '\n'
        · subst hd
          -- the two characters are one line end, as the line feed alone is
          refine ⟨q, fun t => Eq.trans ?_ (hq t)⟩
          exact (universalNewlines_go [.char '\n'] _).trans (universalNewlines_cons (by decide) _).symm
        · refine ⟨.char '\n' :: q, fun t => ?_⟩
          have hstep := universalNewlines.go.eq_3 [] (d :: p ++ .char '\n' :: t) fun _ h => hd (List.cons.inj h).1
          rw [List.cons_append, universalNewlines, hstep, universalNewlines_go, hq]
          rfl
    · exact ⟨c :: q, fun t => by rw [List.cons_append, universalNewlines_cons hc, hq, List.cons_append]⟩

/-! ### Lines of prose -/

theorem proseLines_go_of_end {c : CodePoint} {t : Text} (hc : isLineEnd c = true)
    (hpair : ∀ u, c = '\r' → t = .char '\n' :: u → False) (l : Text) :
    proseLines.go [] l (c :: t) = l.reverse :: proseLines t := by
  rw [proseLines.go.eq_3 _ _ _ _ hpair, if_pos hc]
  exact proseLines_go_append_done [] [l.reverse] [] t

theorem exists_proseLines_go (p l : Text) :
    ∃ ls, ls ≠ [] ∧ ∀ t, proseLines.go [] l (p ++ .char '\n' :: t) = ls ++ proseLines t := by
  induction p generalizing l with
  | nil => exact ⟨[l.reverse], List.cons_ne_nil _ _, proseLines_go_close l⟩
  | cons c p ih =>
    by_cases hpair : c = '\r' ∧ ∀ d ∈ p.head?, d = '\n'
    · obtain ⟨rfl, hp⟩ := hpair
      match p with
      | [] => exact ⟨[l.reverse], List.cons_ne_nil _ _, proseLines_go_close l⟩
      | d :: p =>
        obtain rfl : d = '\n' := hp d rfl
        obtain ⟨ls, hne, hls⟩ := ih l
        refine ⟨ls, hne, fun t => Eq.trans ?_ (hls t)⟩
        exact (proseLines_go_close l _).trans (proseLines_go_close l _).symm
    · have hpair : ∀ t u, c = '\r' → p ++ .char '\n' :: t = .char '\n' :: u → False := by
        intro t u hc hp
        refine hpair ⟨hc, fun d hd => ?_⟩
        obtain ⟨p, rfl⟩ := List.head?_eq_some_iff.1 hd
        exact (List.cons.inj hp).1
      cases hc : isLineEnd c with
      | true =>
        obtain ⟨ls, -, hls⟩ := ih []
        refine ⟨l.reverse :: ls, List.cons_ne_nil _ _, fun t => ?_⟩
        rw [List.cons_append, proseLines_go_of_end hc (hpair t), proseLines, hls, List.cons_append]
      | false =>
        obtain ⟨ls, hne, hls⟩ := ih (c :: l)
        refine ⟨ls, hne, fun t => ?_⟩
        rw [List.cons_append, proseLines.go.eq_3 _ _ _ _ (hpair t), hc]
        exact hls t

theorem proseLines_go_ne_nil {done : List Text} {l t : Text} (h : done ≠ [] ∨ l ≠ [] ∨ t ≠ []) :
    proseLines.go done l t ≠ [] := by
  fun_induction proseLines.go done l t with
  | case1 done l =>
    cases l with
    | nil => simpa using h
    | cons c l => simp
  | case2 done l t ih => exact ih (.inl (List.cons_ne_nil _ _))
  | case3 done l c t hpair hc ih => exact ih (.inl (List.cons_ne_nil _ _))
  | case4 done l c t hpair hc ih => exact ih (.inr (.inl (List.cons_ne_nil _ _)))

theorem mem_proseLines_go {done : List Text} {l t : Text} (hdone : ∀ p ∈ done, ∀ c ∈ p, isLineEnd c = false)
    (hl : ∀ c ∈ l, isLineEnd c = false) : ∀ p ∈ proseLines.go done l t, ∀ c ∈ p, isLineEnd c = false := by
  have hclose : ∀ {done : List Text} {l : Text}, (∀ p ∈ done, ∀ c ∈ p, isLineEnd c = false) →
      (∀ c ∈ l, isLineEnd c = false) → ∀ p ∈ l.reverse :: done, ∀ c ∈ p, isLineEnd c = false := by
    intro done l hdone hl
    exact List.forall_mem_cons.2 ⟨fun c hc => hl c (List.mem_reverse.1 hc), hdone⟩
  fun_induction proseLines.go done l t with
  | case1 done l =>
    intro p hp
    rw [List.mem_reverse] at hp
    split at hp
    · exact hdone p hp
    · exact hclose hdone hl p hp
  | case2 done l t ih => exact ih (hclose hdone hl) (List.forall_mem_nil _)
  | case3 done l c t hpair hc ih => exact ih (hclose hdone hl) (List.forall_mem_nil _)
  | case4 done l c t hpair hc ih => exact ih hdone (List.forall_mem_cons.2 ⟨Bool.eq_false_iff.2 hc, hl⟩)

/-! ### The lines of a file as they are shown -/

@[simp] theorem shownLines_nil : shownLines [] = [] := rfl

theorem shownLines_ends (t : Text) : ∀ l ∈ shownLines t, ∀ c ∈ l, isLineEnd c = false :=
  mem_proseLines_go (List.forall_mem_nil _) (List.forall_mem_nil _)

theorem shownLines_ne_nil {t : Text} (ht : t ≠ []) : shownLines t ≠ [] :=
  proseLines_go_ne_nil (.inr (.inr (universalNewlines_ne_nil ht)))

/-- What stands before a line feed is shown as one or more lines, whatever follows. -/
theorem exists_shownLines (p : Text) :
    ∃ ls, ls ≠ [] ∧ ∀ t, shownLines (p ++ .char '\n' :: t) = ls ++ shownLines t := by
  obtain ⟨q, hq⟩ := exists_universalNewlines p
  obtain ⟨ls, hne, hls⟩ := exists_proseLines_go q []
  refine ⟨ls, hne, fun t => ?_⟩
  rw [shownLines, hq]
  exact hls _

/-- A plain line is shown as itself. -/
theorem shownLines_plain {l : Text} (hl : IsPlain l) (t : Text) :
    shownLines (l ++ .char '\n' :: t) = withoutReturn l :: shownLines t := by
  obtain ⟨p, hp, hends, rfl | rfl⟩ := hl.exists_core
  · rw [hp, shownLines, universalNewlines_append fun c hc => not_isReturn (hends c hc),
      universalNewlines_cons (by decide), proseLines_append_feed hends]
    rfl
  · rw [hp, shownLines, List.append_assoc, universalNewlines_append fun c hc => not_isReturn (hends c hc)]
    have hpair : universalNewlines ([.char '\r'] ++ .char '\n' :: t) = .char '\n' :: universalNewlines t :=
      universalNewlines_go [.char '\n'] t
    rw [hpair, proseLines_append_feed hends]
    rfl

theorem shownLines_plain_last {l : Text} (hl : IsPlain l) (hne : l ≠ []) :
    shownLines l = [withoutReturn l] := by
  obtain ⟨p, hp, hends, rfl | rfl⟩ := hl.exists_core
  · have hread := universalNewlines_append (fun c hc => not_isReturn (hends c hc)) []
    rw [universalNewlines_nil, List.append_nil] at hread
    rw [hp, shownLines, hread, proseLines_of_no_end hends hne]
  · rw [hp, shownLines, universalNewlines_append fun c hc => not_isReturn (hends c hc)]
    exact proseLines_append_feed hends []

/-- A line that is not the last one, or not empty, is shown. -/
theorem lt_length_shownLines {ls : List Text} {k : Nat} {l : Text} (hl : ls[k]? = some l)
    (hk : k + 1 < ls.length ∨ l ≠ []) : k < (shownLines (ofLines ls)).length := by
  induction ls generalizing k with
  | nil => cases hl
  | cons p ls ih =>
    cases ls with
    | nil =>
      cases k with
      | zero =>
        obtain rfl : p = l := Option.some.inj hl
        rw [ofLines, joinOn_singleton]
        exact List.length_pos_iff.2 (shownLines_ne_nil (hk.resolve_left (by simp)))
      | succ k => cases hl
    | cons q ls =>
      obtain ⟨ps, hne, hps⟩ := exists_shownLines p
      have hpos := List.length_pos_iff.2 hne
      rw [ofLines, joinOn_cons_cons, hps, List.length_append]
      cases k with
      | zero => omega
      | succ k =>
        have hrest := ih hl (hk.imp_left Nat.lt_of_succ_lt_succ)
        rw [ofLines] at hrest
        omega

theorem length_le_length_shownLines (ls : List Text) : ls.length ≤ (shownLines (ofLines ls)).length + 1 := by
  by_cases hlen : ls.length ≤ 1
  · omega
  · have hline := List.getElem?_eq_getElem (show ls.length - 2 < ls.length by omega)
    have hshown := lt_length_shownLines hline (.inl (by omega))
    omega

/-- Plain lines are shown as themselves, under their own numbers, up to the first one that is not. -/
theorem take_shownLines (ls : List Text) {k : Nat} (hk : k ≤ (shownLines (ofLines ls)).length)
    (hplain : ∀ l ∈ ls.take k, IsPlain l) :
    (shownLines (ofLines ls)).take k = (ls.take k).map withoutReturn := by
  induction ls generalizing k with
  | nil => simp [ofLines]
  | cons p ls ih =>
    cases k with
    | zero => rfl
    | succ k =>
      rw [List.take_succ_cons] at hplain
      obtain ⟨hp, hplain⟩ := List.forall_mem_cons.1 hplain
      cases ls with
      | nil =>
        rw [ofLines, joinOn_singleton] at hk ⊢
        have hne : p ≠ [] := by
          rintro rfl
          exact absurd hk (by simp)
        rw [shownLines_plain_last hp hne]
        simp
      | cons q ls =>
        rw [ofLines, joinOn_cons_cons, shownLines_plain hp] at hk ⊢
        have hrest := ih (Nat.le_of_succ_le_succ hk) hplain
        rw [ofLines] at hrest
        rw [List.take_succ_cons, hrest, List.take_succ_cons, List.map_cons]

end Mend.Text
