import Mend.Proofs.Json.Limits

/-!
# Nesting

The nesting of a text is the greatest number of brackets and braces that are open at one time; those in
strings do not count. Whatever the reader takes from a text leaves as many of them open as before, and so it
runs out of levels only in a text that is nested deeper than it may be (`lt_nesting_of_read`).
-/

namespace Mend.Json

/-- Where the next character of a text stands: outside of strings, in one, or behind a backslash in one. -/
inductive Zone
  | outside
  | inside
  | escaped

/-- The greatest number of brackets that are open at one time, from a place on where `n` are open. -/
def nestingFrom : Zone → Nat → Text → Nat
  | _, n, [] => n
  | .escaped, n, _ :: t => nestingFrom .inside n t
  | .inside, n, c :: t =>
    nestingFrom (if c = '\\' then .escaped else if c = '"' then .outside else .inside) n t
  | .outside, n, c :: t =>
    if c = '"' then nestingFrom .inside n t
    else if c = '[' ∨ c = '{' then nestingFrom .outside (n + 1) t
    else if c = ']' ∨ c = '}' then max n (nestingFrom .outside (n - 1) t)
    else nestingFrom .outside n t

def nesting (t : Text) : Nat := nestingFrom .outside 0 t

theorem le_nestingFrom (zone : Zone) (n : Nat) (t : Text) : n ≤ nestingFrom zone n t := by
  fun_induction nestingFrom zone n t with
  | case1 => exact Nat.le_refl _
  | case2 _ _ _ ih => exact ih
  | case3 _ _ _ ih => exact ih
  | case4 _ _ ih => exact ih
  | case5 _ _ _ _ _ ih => exact Nat.le_of_succ_le ih
  | case6 => exact Nat.le_max_left _ _
  | case7 _ _ _ _ _ _ ih => exact ih

section Steps

variable {c : CodePoint} (n : Nat) (t : Text)

theorem nestingFrom_quote : nestingFrom .outside n (.char '"' :: t) = nestingFrom .inside n t := by
  simp [nestingFrom]

theorem nestingFrom_opening (hc : c = '[' ∨ c = '{') :
    nestingFrom .outside n (c :: t) = nestingFrom .outside (n + 1) t := by
  have hquote : c ≠ '"' := by
    rcases hc with rfl | rfl
    · decide
    · decide
  rw [nestingFrom, if_neg hquote, if_pos hc]

theorem le_nestingFrom_closing (hc : c = ']' ∨ c = '}') :
    nestingFrom .outside n t ≤ nestingFrom .outside (n + 1) (c :: t) := by
  have hother : c ≠ '"' ∧ ¬ (c = '[' ∨ c = '{') := by
    rcases hc with rfl | rfl
    · decide
    · decide
  rw [nestingFrom, if_neg hother.1, if_neg hother.2, if_pos hc, Nat.add_sub_cancel]
  exact Nat.le_max_right _ _

theorem nestingFrom_unmarked {p : Text} (hp : ∀ c ∈ p, isMark c = false) :
    nestingFrom .outside n (p ++ t) = nestingFrom .outside n t := by
  induction p with
  | nil => rfl
  | cons c p ih =>
    obtain ⟨hc, hp⟩ := List.forall_mem_cons.1 hp
    have hother : c ≠ '"' ∧ ¬ (c = '[' ∨ c = '{') ∧ ¬ (c = ']' ∨ c = '}') := by
      simp [isMark] at hc
      tauto
    rw [List.cons_append, nestingFrom, if_neg hother.1, if_neg hother.2.1, if_neg hother.2.2, ih hp]

theorem nestingFrom_skipBlanks : nestingFrom .outside n (skipBlanks t) = nestingFrom .outside n t := by
  have hblank : ∀ c ∈ t.takeWhile isBlank, isMark c = false := by
    intro c hc
    have hc : isBlank c = true := List.mem_takeWhile_imp hc
    simp only [isBlank, Bool.or_eq_true, decide_eq_true_eq] at hc
    rcases hc with ((rfl | rfl) | rfl) | rfl <;> decide
  have hsplit := nestingFrom_unmarked n (skipBlanks t) hblank
  rwa [skipBlanks, List.takeWhile_append_dropWhile, eq_comm] at hsplit

/-! ### Strings -/

theorem nestingFrom_plain (hquote : c ≠ '"') (hback : c ≠ '\\') :
    nestingFrom .inside n (c :: t) = nestingFrom .inside n t := by
  rw [nestingFrom, if_neg hback, if_neg hquote]

theorem nestingFrom_escape : nestingFrom .inside n (.char '\\' :: c :: t) = nestingFrom .inside n t := by
  simp [nestingFrom]

theorem ne_of_hexValue? {v : Nat} (h : Text.hexValue? c = some v) : c ≠ '"' ∧ c ≠ '\\' := by
  constructor
  · rintro rfl
    cases h
  · rintro rfl
    cases h

theorem nestingFrom_hexQuad {a b c d : CodePoint} {v : Nat} (h : hexQuad? a b c d = some v) :
    nestingFrom .inside n (.char '\\' :: .char 'u' :: a :: b :: c :: d :: t) = nestingFrom .inside n t := by
  have hplain : ∀ x ∈ [a, b, c, d], ∀ t, nestingFrom .inside n (x :: t) = nestingFrom .inside n t := by
    intro x hx t
    obtain ⟨u, hu⟩ := hexValue?_of_hexQuad? h x hx
    exact nestingFrom_plain n t (ne_of_hexValue? hu).1 (ne_of_hexValue? hu).2
  rw [nestingFrom_escape, hplain a (by simp), hplain b (by simp), hplain c (by simp), hplain d (by simp)]

end Steps

theorem nestingFrom_of_readString {start done t read rest : Text}
    (h : readString start done t = .ok (read, rest)) (n : Nat) :
    nestingFrom .inside n t = nestingFrom .outside n rest := by
  fun_induction readString start done t with
  | case1 | case3 | case4 | case5 | case9 | case11 | case13 | case14 => cases h
  | case2 done t =>
    obtain ⟨-, rfl⟩ : done = read ∧ t = rest := by simpa using h
    simp [nestingFrom]
  | case6 done a b c d a' b' c' d' e t v hq hhigh m hq' hlow ih =>
    rw [nestingFrom_hexQuad _ _ hq, nestingFrom_hexQuad _ _ hq', ih h]
  | case7 done a b c d a' b' c' d' e t v hq hhigh m hq' hlow ih => rw [nestingFrom_hexQuad _ _ hq, ih h]
  | case8 done a b c d a' b' c' d' e t v hq hhigh ih => rw [nestingFrom_hexQuad _ _ hq, ih h]
  | case10 done a b c d e t hsingle v hq ih => rw [nestingFrom_hexQuad _ _ hq, ih h]
  | case12 done c t _ _ _ e he ih => rw [nestingFrom_escape, ih h]
  | case15 done c t hquote hlast _ _ _ hback hc ih =>
    rw [nestingFrom_plain _ _ hquote (ne_backslash hlast hback), ih h]

theorem nestingFrom_of_readQuoted {t rest s : Text} (h : readQuoted (.char '"' :: t) = .ok (s, rest)) (n : Nat) :
    nestingFrom .outside n (.char '"' :: t) = nestingFrom .outside n rest := by
  unfold readQuoted at h
  split at h
  · next done rest' hstring =>
    obtain ⟨-, rfl⟩ : done.reverse = s ∧ rest' = rest := by simpa using h
    rw [nestingFrom_quote]
    exact nestingFrom_of_readString hstring n
  · cases h

/-! ### Reading -/

/-- Whether the outcome of a reading step fits the nesting of the text that it begins with: what remains is
nested as it was, where the step closes so many brackets, or else the levels left to open do not suffice. -/
def Fits (closes depth : Nat) (t : Text) : Step Value → Prop
  | .ok (_, rest) => ∀ n, nestingFrom .outside n rest ≤ nestingFrom .outside (n + closes) t
  | .error .listTooDeep => ∀ n, n + depth < nestingFrom .outside n t
  | .error .objectTooDeep => ∀ n, n + depth < nestingFrom .outside n t
  | .error _ => True

section Fits

variable {closes depth : Nat} {s t : Text} {result : Step Value}

theorem Fits.of_le (h : Fits closes depth t result)
    (hle : ∀ n, nestingFrom .outside n t ≤ nestingFrom .outside n s) : Fits closes depth s result := by
  match result, h with
  | .ok (_, rest), h => exact fun n => Nat.le_trans (h n) (hle _)
  | .error .listTooDeep, h => exact fun n => Nat.lt_of_lt_of_le (h n) (hle n)
  | .error .objectTooDeep, h => exact fun n => Nat.lt_of_lt_of_le (h n) (hle n)
  | .error (.malformed _ _), _ => trivial
  | .error (.numeral _), _ => trivial

theorem Fits.of_error {e : Failure} (h : Fits closes depth t (.error e)) (closes' : Nat) :
    Fits closes' depth t (.error e) := by
  cases e with
  | malformed trouble rest => trivial
  | numeral error => trivial
  | listTooDeep => exact h
  | objectTooDeep => exact h

theorem Fits.opened (h : Fits 1 depth t result) {c : CodePoint} (hc : c = '[' ∨ c = '{') :
    Fits 0 (depth + 1) (c :: t) result := by
  have hopen := fun n => nestingFrom_opening n t hc
  match result, h with
  | .ok (_, rest), h => exact fun n => (h n).trans_eq (hopen n).symm
  | .error .listTooDeep, h =>
    intro n
    have hlt := h (n + 1)
    rw [hopen]
    omega
  | .error .objectTooDeep, h =>
    intro n
    have hlt := h (n + 1)
    rw [hopen]
    omega
  | .error (.malformed _ _), _ => trivial
  | .error (.numeral _), _ => trivial

/-- A failure that every number of levels accounts for is no matter of levels. -/
theorem fits_of_explained {e : Failure} {whole : Text} (h : ∀ depth, e.Explained depth whole) :
    Fits closes depth t (.error e) := by
  cases e with
  | malformed trouble rest => trivial
  | numeral error => trivial
  | listTooDeep => exact absurd (h (openings whole)) (Nat.lt_irrefl _)
  | objectTooDeep => exact absurd (h (openings whole)) (Nat.lt_irrefl _)

end Fits

theorem fits_readScalar (depth : Nat) (t : Text) : Fits 0 depth t (readScalar t) := by
  cases h : readScalar t with
  | error e => exact fits_of_explained fun depth => explained_of_readScalar h depth
  | ok read =>
    obtain ⟨v, rest⟩ := read
    obtain ⟨⟨p, -, rfl, hsolid, -⟩, -⟩ := readScalar_spec h
    have hunmarked : ∀ c ∈ p, isMark c = false := fun c hc => by
      have hc := hsolid c hc
      simp [isSolid] at hc
      exact hc.2
    exact fun n => (nestingFrom_unmarked n rest hunmarked).ge

theorem fits_afterElement {close : CodePoint} (hclose : close = ']' ∨ close = '}') {depth : Nat} {done : Value}
    {next : Text → Step Value} (ih : ∀ t, Fits 1 depth t (next t)) (t : Text) :
    Fits 1 depth t (afterElement close done next t) := by
  have hskip := fun n => nestingFrom_skipBlanks n t
  unfold afterElement
  split
  · trivial
  · next c rest heq =>
    rw [heq] at hskip
    split
    · next hc =>
      intro n
      rw [← hskip]
      exact le_nestingFrom_closing n rest (hc ▸ hclose)
    · split
      · next hc =>
        refine (ih _).of_le fun n => ?_
        rw [nestingFrom_skipBlanks, ← hskip, hc]
        exact (nestingFrom_unmarked n rest (List.forall_mem_singleton.2 (by decide) :
          ∀ c ∈ ([.char ','] : Text), _)).ge
      · trivial

/-- Whether reading a value with so many steps fits the nesting of every text. -/
def ValuesFit (fuel : Nat) : Prop := ∀ depth t, Fits 0 depth t (readValue fuel depth t)

def ItemsFit (fuel : Nat) : Prop := ∀ depth items t, Fits 1 depth t (readItems fuel depth items t)

def MembersFit (fuel : Nat) : Prop := ∀ depth members t, Fits 1 depth t (readMembers fuel depth members t)

theorem itemsFit_succ {fuel : Nat} (ihValues : ValuesFit fuel) (ihItems : ItemsFit fuel) :
    ItemsFit (fuel + 1) := by
  intro depth items t
  have hfits := ihValues depth t
  cases hvalue : readValue fuel depth t with
  | error e =>
    rw [hvalue] at hfits
    simp only [readItems, hvalue]
    exact hfits.of_error 1
  | ok read =>
    obtain ⟨v, rest⟩ := read
    rw [hvalue] at hfits
    rw [readItems_succ hvalue]
    exact (fits_afterElement (.inl rfl) (ihItems depth _) rest).of_le hfits

theorem membersFit_succ {fuel : Nat} (ihValues : ValuesFit fuel) (ihMembers : MembersFit fuel) :
    MembersFit (fuel + 1) := by
  intro depth members t
  by_cases hquote : t.head? = some '"'
  · obtain ⟨t, rfl⟩ := List.head?_eq_some_iff.1 hquote
    cases hname : readQuoted (.char '"' :: t) with
    | error e =>
      simp only [readMembers, hname]
      exact fits_of_explained fun depth => explained_of_readQuoted hname depth []
    | ok read =>
      obtain ⟨name, rest0⟩ := read
      by_cases hcolon : (skipBlanks rest0).head? = some ':'
      · obtain ⟨rest1, hcolon⟩ := List.head?_eq_some_iff.1 hcolon
        have hlevel : ∀ n, nestingFrom .outside n (skipBlanks rest1) =
          nestingFrom .outside n (.char '"' :: t) := by
          intro n
          rw [nestingFrom_of_readQuoted hname, ← nestingFrom_skipBlanks n rest0, hcolon, nestingFrom_skipBlanks]
          exact (nestingFrom_unmarked n rest1 (List.forall_mem_singleton.2 (by decide) :
            ∀ c ∈ ([.char ':'] : Text), _)).symm
        have hfits := (ihValues depth (skipBlanks rest1)).of_le fun n => (hlevel n).le
        cases hvalue : readValue fuel depth (skipBlanks rest1) with
        | error e =>
          rw [hvalue] at hfits
          simp only [readMembers, hname, hcolon, hvalue]
          exact hfits.of_error 1
        | ok read =>
          obtain ⟨v, rest⟩ := read
          rw [hvalue] at hfits
          rw [readMembers_succ hname hcolon hvalue]
          exact (fits_afterElement (.inr rfl) (ihMembers depth _) rest).of_le hfits
      · simp only [readMembers, hname]
        split
        · next heq => exact absurd (congrArg List.head? heq) hcolon
        · trivial
  · unfold readMembers
    split
    · exact absurd rfl hquote
    · trivial

/-- A list or an object, closed at once or with something in it. -/
theorem fits_brackets {fuel depth : Nat} {opening close : CodePoint} {t : Text} {empty : Value}
    {step : Nat → Text → Step Value} (hopen : opening = '[' ∨ opening = '{')
    (hclose : close = ']' ∨ close = '}')
    (hempty : ∀ {fuel t after}, skipBlanks t = close :: after →
      readValue (fuel + 1) (depth + 1) (opening :: t) = .ok (empty, after))
    (hmore : ∀ {fuel t r}, skipBlanks t = r → r.head? ≠ some close →
      readValue (fuel + 1) (depth + 1) (opening :: t) = step fuel r)
    (ih : ∀ t, Fits 1 depth t (step fuel t)) :
    Fits 0 (depth + 1) (opening :: t) (readValue (fuel + 1) (depth + 1) (opening :: t)) := by
  by_cases hhead : (skipBlanks t).head? = some close
  · obtain ⟨after, hskip⟩ := List.head?_eq_some_iff.1 hhead
    rw [hempty hskip]
    intro n
    rw [Nat.add_zero, nestingFrom_opening n t hopen, ← nestingFrom_skipBlanks (n + 1) t, hskip]
    exact le_nestingFrom_closing n after hclose
  · rw [hmore rfl hhead]
    exact ((ih _).of_le fun n => (nestingFrom_skipBlanks n t).le).opened hopen

theorem valuesFit_succ {fuel : Nat} (ihItems : ItemsFit fuel) (ihMembers : MembersFit fuel) :
    ValuesFit (fuel + 1) := by
  intro depth t
  by_cases hquote : t.head? = some '"'
  · obtain ⟨t, rfl⟩ := List.head?_eq_some_iff.1 hquote
    cases hstring : readQuoted (.char '"' :: t) with
    | error e =>
      simp only [readValue, hstring]
      exact fits_of_explained fun depth => explained_of_readQuoted hstring depth []
    | ok read =>
      obtain ⟨s, rest⟩ := read
      simp only [readValue, hstring]
      exact fun n => (nestingFrom_of_readQuoted hstring n).ge
  by_cases hlist : t.head? = some '['
  · obtain ⟨t, rfl⟩ := List.head?_eq_some_iff.1 hlist
    cases depth with
    | zero =>
      intro n
      rw [nestingFrom_opening n t (.inl rfl)]
      exact le_nestingFrom .outside (n + 1) t
    | succ depth =>
      have hempty : ∀ {fuel t after}, skipBlanks t = .char ']' :: after →
          readValue (fuel + 1) (depth + 1) (.char '[' :: t) = .ok (.list [], after) := fun hskip => by
        simp only [readValue, hskip]
      exact fits_brackets (.inl rfl) (.inl rfl) hempty readValue_list (ihItems depth [])
  by_cases hobject : t.head? = some '{'
  · obtain ⟨t, rfl⟩ := List.head?_eq_some_iff.1 hobject
    cases depth with
    | zero =>
      intro n
      rw [nestingFrom_opening n t (.inr rfl)]
      exact le_nestingFrom .outside (n + 1) t
    | succ depth =>
      have hempty : ∀ {fuel t after}, skipBlanks t = .char '}' :: after →
          readValue (fuel + 1) (depth + 1) (.char '{' :: t) = .ok (.object [], after) := fun hskip => by
        simp only [readValue, hskip]
      exact fits_brackets (.inr rfl) (.inr rfl) hempty readValue_object (ihMembers depth [])
  have hscalar : readValue (fuel + 1) depth t = readScalar t := by
    unfold readValue
    split <;> simp_all
  rw [hscalar]
  exact fits_readScalar depth t

theorem fits (fuel : Nat) : ValuesFit fuel ∧ ItemsFit fuel ∧ MembersFit fuel := by
  induction fuel with
  | zero => exact ⟨fun _ _ => trivial, fun _ _ _ => trivial, fun _ _ _ => trivial⟩
  | succ fuel ih =>
    obtain ⟨hvalues, hitems, hmembers⟩ := ih
    exact ⟨valuesFit_succ hitems hmembers, itemsFit_succ hvalues hitems, membersFit_succ hvalues hmembers⟩

/-- A text that needs more levels than there are is nested deeper than it may be. -/
theorem lt_nesting_of_read {depth : Nat} {t : Text}
    (h : read depth t = .error .listTooDeep ∨ read depth t = .error .objectTooDeep) :
    depth < nesting t := by
  have hfits := (fits (2 * t.length + 2)).1 depth (skipBlanks t)
  have hfailure : readValue (2 * t.length + 2) depth (skipBlanks t) = .error .listTooDeep ∨
      readValue (2 * t.length + 2) depth (skipBlanks t) = .error .objectTooDeep := by
    unfold read at h
    split at h
    · simp at h
    · cases hvalue : readValue (2 * t.length + 2) depth (skipBlanks t) with
      | error e => cases e <;> simp_all [Failure.inText]
      | ok read =>
        obtain ⟨v, rest⟩ := read
        simp only [hvalue] at h
        split at h <;> simp [Failure.inText] at h
  rw [nesting, ← nestingFrom_skipBlanks]
  rcases hfailure with hvalue | hvalue
  · rw [hvalue] at hfits
    exact Nat.zero_add depth ▸ hfits 0
  · rw [hvalue] at hfits
    exact Nat.zero_add depth ▸ hfits 0

end Mend.Json
