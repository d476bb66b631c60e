import Mend.Json.Reader
import Mend.Proofs.Text

/-!
# The texts of strings and numbers

What a leaf of a JSON text is read from stands at the front of the text, and the same leaf is read
from it when what follows is cut short: after a string comes its closing quote, and after a number
nothing that it could go on with. A string holds no control character, a number or a name no
backquote and no blank.
-/

namespace Mend.Json

/-! ### Strings -/

theorem lt_toNat_of_hexValue? {c : CodePoint} {n : Nat} (h : Text.hexValue? c = some n) :
    0x1F < c.toNat := by
  simp only [Text.hexValue?, Bool.and_eq_true, decide_eq_true_eq] at h
  split at h
  · omega
  · split at h
    · omega
    · split at h
      · omega
      · cases h

theorem hexValue?_of_hexQuad? {a b c d : CodePoint} {n : Nat} (h : hexQuad? a b c d = some n) :
    ∀ x ∈ [a, b, c, d], ∃ v, Text.hexValue? x = some v := by
  obtain ⟨i, ha, j, hb, k, hc, l, hd, -⟩ : ∃ i, Text.hexValue? a = some i ∧
      ∃ j, Text.hexValue? b = some j ∧ ∃ k, Text.hexValue? c = some k ∧
      ∃ l, Text.hexValue? d = some l ∧ _ := by
    simpa [hexQuad?, Option.bind_eq_some_iff] using h
  simp only [List.forall_mem_cons, List.not_mem_nil, false_implies, implies_true, and_true]
  exact ⟨⟨i, ha⟩, ⟨j, hb⟩, ⟨k, hc⟩, ⟨l, hd⟩⟩

theorem lt_toNat_of_hexQuad? {a b c d : CodePoint} {n : Nat} (h : hexQuad? a b c d = some n) :
    ∀ x ∈ [.char '\\', .char 'u', a, b, c, d], 0x1F < x.toNat := by
  have hdigits : ∀ x ∈ [a, b, c, d], 0x1F < x.toNat := fun x hx =>
    (hexValue?_of_hexQuad? h x hx).elim fun _ hv => lt_toNat_of_hexValue? hv
  exact List.forall_mem_cons.2 ⟨by decide, List.forall_mem_cons.2 ⟨by decide, hdigits⟩⟩

theorem lt_toNat_of_simpleEscape? {c e : CodePoint} (h : simpleEscape? c = some e) :
    0x1F < c.toNat := by
  unfold simpleEscape? at h
  split at h <;> first | decide | cases h

/-- Whether an escape with the number `n` in front of `t` does not begin a surrogate pair: no escape follows
it, or one that is no second half. -/
def PairFree (n : Nat) (t : Text) : Prop :=
  isHighSurrogate n = true → ∀ a b c d e t', t = .char '\\' :: .char 'u' :: a :: b :: c :: d :: e :: t' →
    ∃ m, hexQuad? a b c d = some m ∧ isLowSurrogate m = false

theorem PairFree.of_isPrefix {n : Nat} {s t : Text} (h : PairFree n t) (hs : s <+: t) :
    PairFree n s := by
  rintro hhigh a b c d e s' rfl
  obtain ⟨more, rfl⟩ := hs
  exact h hhigh a b c d e (s' ++ more) rfl

section Escapes

variable (start done : Text) {a b c d : CodePoint} {n : Nat} {t : Text}

/-- An escape by code point that does not begin a surrogate pair. -/
theorem readString_escape (hq : hexQuad? a b c d = some n) (hfree : PairFree n t) (hne : t ≠ []) :
    readString start done (.char '\\' :: .char 'u' :: a :: b :: c :: d :: t) =
      readString start (.ofNat n :: done) t := by
  by_cases hpair : ∃ a' b' c' d' e t', t = .char '\\' :: .char 'u' :: a' :: b' :: c' :: d' :: e :: t'
  · obtain ⟨a', b', c', d', e, t', rfl⟩ := hpair
    rw [readString, hq]
    by_cases hhigh : isHighSurrogate n = true
    · obtain ⟨m, hm, hlow⟩ := hfree hhigh a' b' c' d' e t' rfl
      simp only [hhigh, if_true, hm, hlow, Bool.false_eq_true, if_false]
    · simp only [hhigh, Bool.false_eq_true, if_false]
  · cases t with
    | nil => exact absurd rfl hne
    | cons e t =>
      rw [readString, hq]
      intro a' b' c' d' e' t' he ht
      exact hpair ⟨a', b', c', d', e', t', by rw [he, ht]⟩

theorem readString_pair {a' b' c' d' : CodePoint} {m : Nat} (hq : hexQuad? a b c d = some n)
    (hhigh : isHighSurrogate n = true) (hq' : hexQuad? a' b' c' d' = some m)
    (hlow : isLowSurrogate m = true) (hne : t ≠ []) :
    readString start done
        (.char '\\' :: .char 'u' :: a :: b :: c :: d :: .char '\\' :: .char 'u' :: a' :: b' :: c' :: d' :: t) =
      readString start (.ofNat (0x10000 + (n - 0xD800) * 0x400 + (m - 0xDC00)) :: done) t := by
  cases t with
  | nil => exact absurd rfl hne
  | cons e t =>
    rw [readString, hq]
    simp only [hhigh, if_true, hq', hlow]

theorem readString_simple {e : CodePoint} (he : simpleEscape? c = some e) :
    readString start done (.char '\\' :: c :: t) = readString start (e :: done) t := by
  have hu : c ≠ 'u' := by
    rintro rfl
    simp [simpleEscape?] at he
  rw [readString, he]
  · exact fun _ _ _ _ _ _ _ _ _ _ h => absurd h hu
  · exact fun _ _ _ _ _ _ h => absurd h hu
  · exact hu

theorem readString_plain (hquote : c ≠ '"') (hback : c ≠ '\\') (hc : 0x1F < c.toNat) :
    readString start done (c :: t) = readString start (c :: done) t := by
  rw [readString, if_neg (Nat.not_le.2 hc)]
  · exact hquote
  · exact fun h => absurd h hback
  · exact fun _ _ _ _ _ _ _ _ _ _ h => absurd h hback
  · exact fun _ _ _ _ _ _ h => absurd h hback
  · exact fun _ h => absurd h hback
  · exact fun _ _ h => absurd h hback

end Escapes

/-- A character that begins no escape, neither at the end of a text nor in front of another one. -/
theorem ne_backslash {c : CodePoint} {t : Text} (hlast : c = '\\' → t = [] → False)
    (hback : ∀ e t', c = '\\' → t = e :: t' → False) : c ≠ '\\' := by
  rintro rfl
  cases t with
  | nil => exact hlast rfl rfl
  | cons e t => exact hback e t rfl rfl

theorem append_quote_ne_nil (body r : Text) : body ++ .char '"' :: r ≠ [] := by simp

theorem prefix_of_quote {e : CodePoint} {t body rest r : Text} (h : e :: t = body ++ .char '"' :: rest)
    (hr : r <+: rest) : body ++ .char '"' :: r <+: e :: t := by
  rw [h]
  exact (List.prefix_append_right_inj _).2 ((List.prefix_cons_inj _).2 hr)

/-- A string ends at its closing quote and holds no control character. What stands before it is carried along
in the induction, which follows the cases of the reader; two escapes may be read at once. -/
theorem readString_spec {start done t read rest : Text}
    (h : readString start done t = .ok (read, rest)) :
    ∃ body, t = body ++ .char '"' :: rest ∧ (∀ c ∈ body, 0x1F < c.toNat) ∧
      ∀ start' r, r <+: rest → readString start' done (body ++ .char '"' :: r) = .ok (read, r) := by
  fun_induction readString start done t with
  | case1 | case3 | case4 | case5 | case9 | case11 | case13 | case14 => cases h
  | case2 done t =>
    obtain ⟨rfl, rfl⟩ : done = read ∧ t = rest := by simpa using h
    exact ⟨[], rfl, by simp, fun start' r _ => by rw [List.nil_append, readString]⟩
  | case6 done a b c d a' b' c' d' e t n hq hhigh m hq' hlow ih =>
    obtain ⟨body, hbody, hall, hagain⟩ := ih h
    refine ⟨[.char '\\', .char 'u', a, b, c, d] ++ ([.char '\\', .char 'u', a', b', c', d'] ++ body), by
      rw [hbody]; rfl, ?_, fun start' r hr => ?_⟩
    · exact List.forall_mem_append.2 ⟨lt_toNat_of_hexQuad? hq,
        List.forall_mem_append.2 ⟨lt_toNat_of_hexQuad? hq', hall⟩⟩
    · rw [← hagain start' r hr]
      exact readString_pair _ _ hq hhigh hq' hlow (append_quote_ne_nil _ _)
  | case7 done a b c d a' b' c' d' e t n hq hhigh m hq' hlow ih =>
    obtain ⟨body, hbody, hall, hagain⟩ := ih h
    refine ⟨[.char '\\', .char 'u', a, b, c, d] ++ body, by rw [hbody]; rfl,
      List.forall_mem_append.2 ⟨lt_toNat_of_hexQuad? hq, hall⟩, fun start' r hr => ?_⟩
    rw [← hagain start' r hr]
    refine readString_escape _ _ hq (PairFree.of_isPrefix ?_ (prefix_of_quote hbody hr))
      (append_quote_ne_nil _ _)
    rintro - _ _ _ _ _ _ ⟨⟩
    exact ⟨m, hq', by simpa using hlow⟩
  | case8 done a b c d a' b' c' d' e t n hq hhigh ih =>
    obtain ⟨body, hbody, hall, hagain⟩ := ih h
    refine ⟨[.char '\\', .char 'u', a, b, c, d] ++ body, by rw [hbody]; rfl,
      List.forall_mem_append.2 ⟨lt_toNat_of_hexQuad? hq, hall⟩, fun start' r hr => ?_⟩
    rw [← hagain start' r hr]
    exact readString_escape _ _ hq (fun h => absurd h hhigh) (append_quote_ne_nil _ _)
  | case10 done a b c d e t hsingle n hq ih =>
    obtain ⟨body, hbody, hall, hagain⟩ := ih h
    refine ⟨[.char '\\', .char 'u', a, b, c, d] ++ body, by rw [hbody]; rfl,
      List.forall_mem_append.2 ⟨lt_toNat_of_hexQuad? hq, hall⟩, fun start' r hr => ?_⟩
    rw [← hagain start' r hr]
    refine readString_escape _ _ hq (PairFree.of_isPrefix ?_ (prefix_of_quote hbody hr))
      (append_quote_ne_nil _ _)
    rintro - _ _ _ _ _ _ ⟨⟩
    exact (hsingle _ _ _ _ _ _ rfl rfl).elim
  | case12 done c t _ _ _ e he ih =>
    obtain ⟨body, hbody, hall, hagain⟩ := ih h
    refine ⟨[.char '\\', c] ++ body, by rw [hbody]; rfl, ?_, fun start' r hr => ?_⟩
    · refine List.forall_mem_append.2 ⟨?_, hall⟩
      simp only [List.forall_mem_cons, List.not_mem_nil, false_implies, implies_true, and_true]
      exact ⟨by decide, lt_toNat_of_simpleEscape? he⟩
    · rw [← hagain start' r hr]
      exact readString_simple _ _ he
  | case15 done c t hquote hlast _ _ _ hback hc ih =>
    obtain ⟨body, hbody, hall, hagain⟩ := ih h
    have hback : c ≠ '\\' := ne_backslash hlast hback
    refine ⟨c :: body, by rw [hbody]; rfl, List.forall_mem_cons.2 ⟨Nat.not_le.1 hc, hall⟩,
      fun start' r hr => ?_⟩
    rw [← hagain start' r hr]
    exact readString_plain _ _ hquote hback (Nat.not_le.1 hc)

/-! ### Numbers and names -/

/-- Whether a character is a quote or a bracket. -/
def isMark (c : CodePoint) : Bool := ([.char '"', .char '[', .char ']', .char '{', .char '}'] : Text).elem c

/-- Whether a character can stand in a number or a name: it is no backquote, no blank and no mark. -/
def isSolid (c : CodePoint) : Bool := c != '`' && !Text.isBlank c && !isMark c

/-- Whether `f` takes `p` from the front of a text, and does so again with the same result when less stands
behind `p`. -/
structure Cuts {α : Type} (f : Text → α × Text) (t p : Text) : Prop where
  eq : t = p ++ (f t).2
  solid : ∀ c ∈ p, isSolid c = true
  again : ∀ r, r <+: (f t).2 → f (p ++ r) = ((f t).1, r)

theorem head?_of_cut {r t : Text} (h : r <+: t) : r = [] ∨ r.head? = t.head? := by
  obtain ⟨more, rfl⟩ := h
  cases r with
  | nil => exact .inl rfl
  | cons c r => exact .inr rfl

theorem cuts_nil {α : Type} {f : Text → α × Text} {t : Text} {a : α}
    (h : ∀ r, r <+: t → f r = (a, r)) : Cuts f t [] where
  eq := by rw [h t (List.prefix_refl t), List.nil_append]
  solid := by simp
  again r hr := by
    rw [h t (List.prefix_refl t)] at hr ⊢
    exact h r hr

theorem isSolid_of_isAsciiDigit {c : CodePoint} (h : Text.isAsciiDigit c = true) : isSolid c = true := by
  have hrange : 48 ≤ c.toNat ∧ c.toNat ≤ 57 := by
    simpa [Text.isAsciiDigit] using h
  have hne : c ≠ '`' := by
    rintro rfl
    exact absurd hrange (by decide)
  have hblank : Text.isBlank c = false := by
    rw [← Bool.not_eq_true]
    intro hb
    simp only [Text.isBlank, Bool.or_eq_true, Bool.and_eq_true, decide_eq_true_eq,
      beq_iff_eq] at hb
    omega
  have hmark : isMark c = false := by
    rw [← Bool.not_eq_true]
    intro hm
    have hnone : ([.char '"', .char '[', .char ']', .char '{', .char '}'] : Text).all
        (fun d => !(48 ≤ d.toNat && d.toNat ≤ 57)) = true := by
      decide
    have hc := List.all_eq_true.1 hnone c (List.elem_iff.1 hm)
    simp [hrange] at hc
  simp [isSolid, hne, hblank, hmark]

theorem takeWhile_append_of_cut {p : CodePoint → Bool} {t r : Text} (hr : r <+: t.dropWhile p) :
    (t.takeWhile p ++ r).takeWhile p = t.takeWhile p ∧
      (t.takeWhile p ++ r).dropWhile p = r := by
  refine Text.span_append (List.all_eq_true.1 List.all_takeWhile) ?_
  rcases head?_of_cut hr with rfl | hhead
  · exact nofun
  · rw [hhead]
    exact Text.head?_dropWhile p t

-- A mark such as a point belongs to a number only in front of a digit, and what is cut short shows no
-- digit that was not there.
theorem takeWhile_eq_nil_of_append {p : CodePoint → Bool} {r more : Text}
    (h : (r ++ more).takeWhile p = []) : r.takeWhile p = [] := by
  cases r with
  | nil => rfl
  | cons c r => simpa [List.takeWhile_cons] using h

/-- Cuts off the digits at the front of a text. -/
def takeAsciiDigits (t : Text) : Text × Text :=
  (t.takeWhile Text.isAsciiDigit, t.dropWhile Text.isAsciiDigit)

theorem cuts_takeAsciiDigits (t : Text) : Cuts takeAsciiDigits t (takeAsciiDigits t).1 where
  eq := List.takeWhile_append_dropWhile.symm
  solid c hc := isSolid_of_isAsciiDigit (List.all_eq_true.1 List.all_takeWhile c hc)
  again r hr := by
    obtain ⟨htake, hdrop⟩ := takeWhile_append_of_cut hr
    simp only [takeAsciiDigits, htake, hdrop]

theorem takeWhole_of_head {t : Text} (h : t.head? ≠ some '0') : takeWhole t = takeAsciiDigits t := by
  unfold takeWhole
  split
  · exact absurd rfl h
  · rfl

theorem exists_cuts_takeWhole (t : Text) : ∃ p, Cuts takeWhole t p ∧ (p = [] ↔ (takeWhole t).1 = []) := by
  by_cases h : t.head? = some '0'
  · obtain ⟨t, rfl⟩ : ∃ t', t = .char '0' :: t' := by
      cases t with
      | nil => cases h
      | cons c t => exact ⟨t, by rw [Option.some.inj h]⟩
    exact ⟨[.char '0'], ⟨rfl, List.forall_mem_singleton.2 (by decide), fun r _ => rfl⟩, by simp [takeWhole]⟩
  · have hcut := cuts_takeAsciiDigits t
    refine ⟨(takeAsciiDigits t).1, ⟨?_, hcut.solid, fun r hr => ?_⟩, by rw [takeWhole_of_head h]⟩
    · rw [takeWhole_of_head h]
      exact hcut.eq
    · rw [takeWhole_of_head h] at hr ⊢
      rw [takeWhole_of_head, hcut.again r hr]
      have hpre : (takeAsciiDigits t).1 ++ r <+: t := by
        conv => rhs; rw [hcut.eq]
        exact (List.prefix_append_right_inj _).2 hr
      rcases head?_of_cut hpre with hnil | hhead
      · rw [hnil]
        exact nofun
      · rwa [hhead]

theorem exists_cuts_takeFraction (t : Text) : ∃ p, Cuts takeFraction t p := by
  by_cases h : ∃ t', t = .char '.' :: t' ∧ t'.takeWhile Text.isAsciiDigit ≠ []
  · obtain ⟨t, rfl, hne⟩ := h
    have hcut := cuts_takeAsciiDigits t
    have hread : ∀ x, x.takeWhile Text.isAsciiDigit ≠ [] → takeFraction (.char '.' :: x) = takeAsciiDigits x := by
      intro x hx
      simp [takeFraction, takeAsciiDigits, hx]
    refine ⟨.char '.' :: (takeAsciiDigits t).1, ⟨?_, ?_, fun r hr => ?_⟩⟩
    · rw [hread t hne]
      exact congrArg (.char '.' :: ·) hcut.eq
    · exact List.forall_mem_cons.2 ⟨by decide, hcut.solid⟩
    · rw [hread t hne] at hr ⊢
      have hagain := hcut.again r hr
      rw [List.cons_append, hread, hagain]
      have hfirst := congrArg Prod.fst hagain
      exact fun he => hne (hfirst.symm.trans he)
  · have hnone : ∀ r, r <+: t → takeFraction r = ([], r) := by
      intro r hr
      unfold takeFraction
      split
      · next r =>
        obtain ⟨more, rfl⟩ := hr
        have hempty : (r ++ more).takeWhile Text.isAsciiDigit = [] :=
          Decidable.byContradiction fun hne => h ⟨r ++ more, rfl, hne⟩
        simp [takeWhile_eq_nil_of_append hempty]
      · rfl
    exact ⟨[], cuts_nil hnone⟩

theorem exists_cuts_takeSign (t : Text) : ∃ p, Cuts Number.takeSign t p := by
  by_cases h : t.head? = some '-' ∨ t.head? = some '+'
  · cases t with
    | nil => simp at h
    | cons c t =>
      refine ⟨[c], ?_⟩
      rcases h with h | h
      · obtain rfl : c = '-' := by simpa using h
        exact ⟨rfl, List.forall_mem_singleton.2 (by decide), fun r _ => rfl⟩
      · obtain rfl : c = '+' := by simpa using h
        exact ⟨rfl, List.forall_mem_singleton.2 (by decide), fun r _ => rfl⟩
  · refine ⟨[], cuts_nil (a := false) fun r hr => ?_⟩
    have hno : r.head? ≠ some '-' ∧ r.head? ≠ some '+' := by
      rcases head?_of_cut hr with rfl | hhead
      · exact ⟨nofun, nofun⟩
      · rw [hhead]
        exact not_or.1 h
    unfold Number.takeSign
    split
    · exact absurd rfl hno.1
    · exact absurd rfl hno.2
    · rfl

/-- One cut after another one. -/
def andThen {α β : Type} (f : Text → α × Text) (g : Text → β × Text) (t : Text) :
    (α × β) × Text :=
  (((f t).1, (g (f t).2).1), (g (f t).2).2)

theorem Cuts.andThen {α β : Type} {f : Text → α × Text} {g : Text → β × Text} {t p q : Text}
    (hf : Cuts f t p) (hg : Cuts g (f t).2 q) : Cuts (andThen f g) t (p ++ q) where
  eq := by
    rw [List.append_assoc]
    conv => lhs; rw [hf.eq, hg.eq]
    rfl
  solid := List.forall_mem_append.2 ⟨hf.solid, hg.solid⟩
  again r hr := by
    have hfirst : f (p ++ (q ++ r)) = ((f t).1, q ++ r) := hf.again _ (by
      conv => rhs; rw [hg.eq]
      exact (List.prefix_append_right_inj _).2 hr)
    rw [List.append_assoc]
    simp only [Json.andThen, hfirst, hg.again r hr]

/-- The number of an exponent with a sign. -/
def exponentOf (signed : Bool × Text) : Int :=
  if signed.1 then -(Text.digitsValue signed.2 : Int) else Text.digitsValue signed.2

theorem takeExponent_cons {e : CodePoint} (he : e = 'e' ∨ e = 'E') {t : Text}
    (ht : (andThen Number.takeSign takeAsciiDigits t).1.2 ≠ []) :
    takeExponent (e :: t) = (some (exponentOf (andThen Number.takeSign takeAsciiDigits t).1),
      (andThen Number.takeSign takeAsciiDigits t).2) := by
  have hcond : (decide (e = 'e') || decide (e = 'E')) = true := by simpa using he
  have hds : ((Number.takeSign t).2.takeWhile Text.isAsciiDigit).isEmpty = false := by
    simpa [andThen, takeAsciiDigits] using ht
  simp only [takeExponent, hcond, if_true, hds, Bool.false_eq_true, if_false]
  rfl

theorem takeExponent_of_no_digit {t : Text} (h : ∀ e t', t = e :: t' → e = 'e' ∨ e = 'E' →
    (andThen Number.takeSign takeAsciiDigits t').1.2 = []) : takeExponent t = (none, t) := by
  cases t with
  | nil => rfl
  | cons e t =>
    by_cases he : e = 'e' ∨ e = 'E'
    · have hcond : (decide (e = 'e') || decide (e = 'E')) = true := by simpa using he
      have hds : ((Number.takeSign t).2.takeWhile Text.isAsciiDigit).isEmpty = true := by
        simpa [andThen, takeAsciiDigits] using h e t rfl he
      simp only [takeExponent, hcond, if_true, hds]
    · have hcond : (decide (e = 'e') || decide (e = 'E')) = false := by simpa using he
      simp only [takeExponent, hcond, Bool.false_eq_true, if_false]

theorem exists_cuts_takeExponent (t : Text) : ∃ p, Cuts takeExponent t p := by
  by_cases h : ∃ e t', t = e :: t' ∧ (e = 'e' ∨ e = 'E') ∧
      (andThen Number.takeSign takeAsciiDigits t').1.2 ≠ []
  · obtain ⟨e, t, rfl, he, hds⟩ := h
    obtain ⟨p, hp⟩ := exists_cuts_takeSign t
    have hcut := hp.andThen (cuts_takeAsciiDigits _)
    refine ⟨e :: (p ++ (takeAsciiDigits (Number.takeSign t).2).1), ⟨?_, ?_, fun r hr => ?_⟩⟩
    · rw [takeExponent_cons he hds]
      exact congrArg (e :: ·) hcut.eq
    · refine List.forall_mem_cons.2 ⟨?_, hcut.solid⟩
      rcases he with rfl | rfl <;> decide
    · rw [takeExponent_cons he hds] at hr ⊢
      have hagain := hcut.again r hr
      rw [List.cons_append, takeExponent_cons he (by rw [hagain]; exact hds), hagain]
  · refine ⟨[], cuts_nil fun r hr => takeExponent_of_no_digit ?_⟩
    rintro e r' rfl he
    obtain ⟨more, rfl⟩ := hr
    have hempty : (andThen Number.takeSign takeAsciiDigits (r' ++ more)).1.2 = [] :=
      Decidable.byContradiction fun hne => h ⟨e, r' ++ more, rfl, he, hne⟩
    cases r' with
    | nil => rfl
    | cons c r' =>
      have hsign : (Number.takeSign (c :: r' ++ more)).2 = (Number.takeSign (c :: r')).2 ++ more := by
        unfold Number.takeSign
        split <;> simp_all
      simp only [andThen, hsign] at hempty
      exact takeWhile_eq_nil_of_append hempty

/-- Cuts off a minus sign. -/
def takeMinus : Text → Bool × Text
  | .char '-' :: t => (true, t)
  | t => (false, t)

theorem exists_cuts_takeMinus (t : Text) : ∃ p, Cuts takeMinus t p := by
  by_cases h : t.head? = some '-'
  · cases t with
    | nil => cases h
    | cons c t =>
      obtain rfl : c = '-' := by simpa using h
      exact ⟨[.char '-'], rfl, List.forall_mem_singleton.2 (by decide), fun r _ => rfl⟩
  · refine ⟨[], cuts_nil (a := false) fun r hr => ?_⟩
    have hno : r.head? ≠ some '-' := by
      rcases head?_of_cut hr with rfl | hhead
      · exact nofun
      · rwa [hhead]
    unfold takeMinus
    split
    · exact absurd rfl hno
    · rfl

/-- The parts of a number: sign, digits before the point, digits after it, and exponent. -/
def takeNumber : Text → (((Bool × Text) × Text) × Option Int) × Text :=
  andThen (andThen (andThen takeMinus takeWhole) takeFraction) takeExponent

/-- The value of the parts of a number. -/
def numberOf (parts : ((Bool × Text) × Text) × Option Int) : Except Number.NumeralError Value :=
  if parts.1.2.isEmpty && parts.2.isNone then
    match Number.ofDigits parts.1.1.2 with
    | .ok n => .ok (.int (if parts.1.1.1 then -(n : Int) else n))
    | .error e => .error e
  else
    .ok (.float (Number.ofScientific parts.1.1.1 (Text.digitsValue (parts.1.1.2 ++ parts.1.2))
      (parts.2.getD 0 - parts.1.2.length)))

theorem readNumber_eq (t : Text) : readNumber t =
    if (takeNumber t).1.1.1.2.isEmpty then .error (.malformed .value t)
    else match numberOf (takeNumber t).1 with
      | .ok v => .ok (v, (takeNumber t).2)
      | .error e => .error (.numeral e) := by
  have hparts : readNumber t =
      if (takeNumber t).1.1.1.2.isEmpty then .error (.malformed .value t)
      else if (takeNumber t).1.1.2.isEmpty && (takeNumber t).1.2.isNone then
        match Number.ofDigits (takeNumber t).1.1.1.2 with
        | .ok n => .ok (.int (if (takeNumber t).1.1.1.1 then -(n : Int) else n), (takeNumber t).2)
        | .error e => .error (.numeral e)
      else .ok (.float (Number.ofScientific (takeNumber t).1.1.1.1
        (Text.digitsValue ((takeNumber t).1.1.1.2 ++ (takeNumber t).1.1.2))
        ((takeNumber t).1.2.getD 0 - (takeNumber t).1.1.2.length)), (takeNumber t).2) := by
    rfl
  rw [hparts, numberOf]
  split
  · rfl
  · split
    · cases Number.ofDigits (takeNumber t).1.1.1.2 <;> rfl
    · rfl

/-- The text of a number stands before what remains, and may stand before less of it. -/
theorem readNumber_spec {t rest : Text} {v : Value} (h : readNumber t = .ok (v, rest)) :
    (∃ p, p ≠ [] ∧ t = p ++ rest ∧ (∀ c ∈ p, isSolid c = true) ∧
      ∀ r, r <+: rest → readNumber (p ++ r) = .ok (v, r)) ∧ ∀ ms, v ≠ .object ms := by
  obtain ⟨p, hminus⟩ := exists_cuts_takeMinus t
  obtain ⟨q, hwhole, hempty⟩ := exists_cuts_takeWhole (takeMinus t).2
  obtain ⟨f, hfraction⟩ := exists_cuts_takeFraction (andThen takeMinus takeWhole t).2
  obtain ⟨e, hexponent⟩ :=
    exists_cuts_takeExponent (andThen (andThen takeMinus takeWhole) takeFraction t).2
  have hcut : Cuts takeNumber t (p ++ q ++ f ++ e) :=
    ((hminus.andThen hwhole).andThen hfraction).andThen hexponent
  rw [readNumber_eq] at h
  split at h
  · cases h
  · next hne =>
    cases hvalue : numberOf (takeNumber t).1 with
    | error e => simp [hvalue] at h
    | ok w =>
      obtain ⟨rfl, rfl⟩ : w = v ∧ (takeNumber t).2 = rest := by simpa [hvalue] using h
      refine ⟨⟨p ++ q ++ f ++ e, fun hnil => ?_, hcut.eq, hcut.solid, fun r hr => ?_⟩, ?_⟩
      · have hq : q = [] := by simp_all
        exact hne (List.isEmpty_iff.2 (hempty.1 hq))
      · rw [readNumber_eq, hcut.again r hr]
        simp only [hvalue]
        rw [if_neg hne]
      · rintro ms rfl
        unfold numberOf at hvalue
        split at hvalue
        · split at hvalue <;> cases hvalue
        · cases hvalue

/-! ### Scalars -/

theorem after?_eq_none_of_cut {p x t : Text} (hx : x <+: t) (h : Text.after? p t = none) :
    Text.after? p x = none := by
  cases hp : Text.after? p x with
  | none => rfl
  | some rest =>
    obtain ⟨more, rfl⟩ := hx
    rw [Text.eq_append_of_after? hp, List.append_assoc, Text.after?_append] at h
    cases h

/-- No name begins another one, so that a name is found whatever follows it. -/
theorem readScalar_of_name {name : Text} {v : Value} (h : (name, v) ∈ names) (r : Text) :
    readScalar (name ++ r) = .ok (v, r) := by
  simp only [names, List.mem_cons, Prod.mk.injEq, List.not_mem_nil, or_false] at h
  rcases h with h | h | h | h | h | h <;> obtain ⟨rfl, rfl⟩ := h <;> rfl

theorem readScalar_spec {t rest : Text} {v : Value} (h : readScalar t = .ok (v, rest)) :
    (∃ p, p ≠ [] ∧ t = p ++ rest ∧ (∀ c ∈ p, isSolid c = true) ∧
      ∀ r, r <+: rest → readScalar (p ++ r) = .ok (v, r)) ∧ ∀ ms, v ≠ .object ms := by
  unfold readScalar at h
  split at h
  · next found hfound =>
    obtain rfl : found = (v, rest) := Except.ok.inj h
    obtain ⟨⟨name, w⟩, hmem, hname⟩ := List.exists_of_findSome?_eq_some hfound
    obtain ⟨rest', hafter, hpair⟩ := Option.map_eq_some_iff.1 hname
    obtain ⟨rfl, rfl⟩ := Prod.mk.inj hpair
    have hshape : ∀ n ∈ names, n.1 ≠ [] ∧ (∀ c ∈ n.1, isSolid c = true) ∧ ∀ ms, n.2 ≠ .object ms := by
      simp only [names, List.forall_mem_cons, List.not_mem_nil, false_implies, implies_true, and_true,
        ne_eq, reduceCtorEq, not_false_eq_true]
      decide
    obtain ⟨hne, hsolid, hobject⟩ := hshape _ hmem
    exact ⟨⟨name, hne, Text.eq_append_of_after? hafter, hsolid, fun r _ => readScalar_of_name hmem r⟩,
      hobject⟩
  · next hnone =>
    obtain ⟨⟨p, hne, ht, hsolid, hagain⟩, hobject⟩ := readNumber_spec h
    refine ⟨⟨p, hne, ht, hsolid, fun r hr => ?_⟩, hobject⟩
    have hno : names.findSome? (fun n => (Text.after? n.1 (p ++ r)).map (n.2, ·)) = none := by
      rw [List.findSome?_eq_none_iff] at hnone ⊢
      intro n hn
      have hafter : Text.after? n.1 t = none := by simpa using hnone n hn
      have hpre : p ++ r <+: t := ht ▸ (List.prefix_append_right_inj p).2 hr
      rw [after?_eq_none_of_cut hpre hafter]
      rfl
    unfold readScalar
    split
    · next found hfound => exact absurd (hno.symm.trans hfound).symm (Option.some_ne_none _)
    · exact hagain r hr

/-! ### Blanks and quoted strings -/

theorem skipBlanks_append {b x : Text} (hb : ∀ c ∈ b, isBlank c = true)
    (hx : ∀ c ∈ x.head?, isBlank c = false) : skipBlanks (b ++ x) = x :=
  (Text.span_append hb hx).2

/-- Blanks are skipped in the same way when the text behind the next token is cut short. -/
theorem skipBlanks_eq_append {t core rest : Text} (hne : core ≠ []) (h : skipBlanks t = core ++ rest) :
    ∃ b, t = b ++ (core ++ rest) ∧ (∀ c ∈ b, isBlank c = true) ∧
      ∀ r, r <+: rest → b ++ (core ++ r) <+: t ∧ skipBlanks (b ++ (core ++ r)) = core ++ r := by
  have hsplit : t = t.takeWhile isBlank ++ (core ++ rest) := by
    rw [← h]
    exact List.takeWhile_append_dropWhile.symm
  have hb : ∀ c ∈ t.takeWhile isBlank, isBlank c = true := List.all_eq_true.1 List.all_takeWhile
  refine ⟨t.takeWhile isBlank, hsplit, hb, fun r hr => ⟨?_, skipBlanks_append hb ?_⟩⟩
  · conv => rhs; rw [hsplit]
    exact (List.prefix_append_right_inj _).2 ((List.prefix_append_right_inj _).2 hr)
  · have hhead := Text.head?_dropWhile isBlank t
    rw [← skipBlanks, h, List.head?_append_of_ne_nil _ hne] at hhead
    rwa [List.head?_append_of_ne_nil _ hne]

theorem readQuoted_spec {t rest s : Text} (h : readQuoted (.char '"' :: t) = .ok (s, rest)) :
    ∃ body, t = body ++ .char '"' :: rest ∧ (∀ c ∈ body, 0x1F < c.toNat) ∧
      ∀ r, r <+: rest → readQuoted (.char '"' :: (body ++ .char '"' :: r)) = .ok (s, r) := by
  unfold readQuoted at h
  split at h
  · next done rest' hs =>
    obtain ⟨rfl, rfl⟩ : done.reverse = s ∧ rest' = rest := by simpa using h
    obtain ⟨body, hbody, hall, hagain⟩ := readString_spec hs
    refine ⟨body, hbody, hall, fun r hr => ?_⟩
    have hread := hagain (.char '"' :: (body ++ .char '"' :: r)) r hr
    simp only [readQuoted, List.drop_succ_cons, List.drop_zero, hread]
  · cases h

end Mend.Json
