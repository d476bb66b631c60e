import Mend.Proofs.Json.Shape

/-!
# The limits of reading

A text that is not read is malformed, or it goes beyond one of two limits: a numeral in it has more digits
than may be read, or more brackets are open than may be. The reading of a text without such a run of digits
and without so many brackets therefore ends with a value or with what is malformed (`Moderate.malformed`).
-/

namespace Mend.Json

/-- The number of brackets and braces that open something. -/
def openings (t : Text) : Nat := t.countP fun c => c == .char '[' || c == .char '\x7b'

/-- Whether a text has no run of digits that is too long to be read, and no more brackets than may be open. -/
structure Moderate (depth : Nat) (t : Text) : Prop where
  digits : ∀ run, run <:+: t → (∀ c ∈ run, Text.isAsciiDigit c = true) → run.length ≤ Number.maxDigits
  brackets : openings t ≤ depth

/-- Whether a text accounts for a failure with so many levels left to open. -/
def Failure.Explained (depth : Nat) (t : Text) : Failure → Prop
  | .malformed _ _ => True
  | .numeral _ => ∃ run, run <:+: t ∧ (∀ c ∈ run, Text.isAsciiDigit c = true) ∧ Number.maxDigits < run.length
  | .listTooDeep => depth < openings t
  | .objectTooDeep => depth < openings t

section Explained

variable {depth : Nat} {s t : Text} {e : Failure}

theorem Failure.Explained.of_suffix (h : e.Explained depth s) (hs : s <:+ t) : e.Explained depth t := by
  have hcount : openings s ≤ openings t := hs.sublist.countP_le
  cases e with
  | malformed trouble rest => trivial
  | numeral error =>
    obtain ⟨run, hrun, hdigits, hlong⟩ := h
    exact ⟨run, hrun.trans hs.isInfix, hdigits, hlong⟩
  | listTooDeep => exact Nat.lt_of_lt_of_le h hcount
  | objectTooDeep => exact Nat.lt_of_lt_of_le h hcount

/-- An opening bracket takes one level. -/
theorem Failure.Explained.opened (h : e.Explained depth t) {c : CodePoint} (hc : c = '[' ∨ c = '\x7b') :
    e.Explained (depth + 1) (c :: t) := by
  have hcount : openings (c :: t) = openings t + 1 := List.countP_cons_of_pos (by simpa using hc)
  cases e with
  | malformed trouble rest => trivial
  | numeral error =>
    obtain ⟨run, hrun, hdigits, hlong⟩ := h
    exact ⟨run, hrun.trans (List.suffix_cons c t).isInfix, hdigits, hlong⟩
  | listTooDeep => exact (Nat.succ_lt_succ h).trans_eq hcount.symm
  | objectTooDeep => exact (Nat.succ_lt_succ h).trans_eq hcount.symm

end Explained

theorem skipBlanks_suffix (t : Text) : skipBlanks t <:+ t := List.dropWhile_suffix _

/-! ### Leaves -/

theorem explained_of_readString {start done t : Text} {e : Failure}
    (h : readString start done t = .error e) (depth : Nat) (whole : Text) : e.Explained depth whole := by
  fun_induction readString start done t with
  | case1 | case3 | case4 | case5 | case9 | case11 | case13 | case14 =>
    rw [← Except.error.inj h]
    trivial
  | case2 => cases h
  | case6 _ _ _ _ _ _ _ _ _ _ _ _ _ _ _ _ _ ih => exact ih h
  | case7 _ _ _ _ _ _ _ _ _ _ _ _ _ _ _ _ _ ih => exact ih h
  | case8 _ _ _ _ _ _ _ _ _ _ _ _ _ _ ih => exact ih h
  | case10 _ _ _ _ _ _ _ _ _ _ ih => exact ih h
  | case12 _ _ _ _ _ _ _ _ ih => exact ih h
  | case15 _ _ _ _ _ _ _ _ _ _ ih => exact ih h

theorem explained_of_readQuoted {t : Text} {e : Failure} (h : readQuoted t = .error e) (depth : Nat)
    (whole : Text) : e.Explained depth whole := by
  unfold readQuoted at h
  split at h
  · cases h
  · next hstring =>
    rw [← Except.error.inj h]
    exact explained_of_readString hstring depth whole

theorem takeWhole_isPrefix (t : Text) :
    (takeWhole t).1 <+: t ∧ ∀ c ∈ (takeWhole t).1, Text.isAsciiDigit c = true := by
  by_cases h : t.head? = some '0'
  · obtain ⟨t, rfl⟩ := List.head?_eq_some_iff.1 h
    exact ⟨(List.prefix_cons_inj (CodePoint.char '0')).2 (List.nil_prefix ..),
      List.forall_mem_singleton.2 (by decide)⟩
  · rw [takeWhole_of_head h]
    exact ⟨List.takeWhile_prefix _, List.all_eq_true.1 List.all_takeWhile⟩

/-- A number that is not read is none, or has too many digits before the point. -/
theorem explained_of_readNumber {t : Text} {e : Failure} (h : readNumber t = .error e) (depth : Nat) :
    e.Explained depth t := by
  rw [readNumber_eq] at h
  split at h
  · rw [← Except.error.inj h]
    trivial
  · cases hvalue : numberOf (takeNumber t).1 with
    | ok v => simp [hvalue] at h
    | error error =>
      obtain rfl : .numeral error = e := by simpa [hvalue] using h
      obtain ⟨p, hminus⟩ := exists_cuts_takeMinus t
      obtain ⟨hbegins, hdigits⟩ := takeWhole_isPrefix (takeMinus t).2
      have hrest : (takeMinus t).2 <:+ t := ⟨p, hminus.eq.symm⟩
      -- Only the digits before the point are read as an integer, so they are the run that is too long.
      refine ⟨(takeWhole (takeMinus t).2).1, hbegins.isInfix.trans hrest.isInfix, hdigits, ?_⟩
      refine Nat.lt_of_not_le fun hshort => ?_
      have hread : Number.ofDigits (takeNumber t).1.1.1.2 =
          .ok (Text.numeralValue (takeNumber t).1.1.1.2) := if_pos hshort
      unfold numberOf at hvalue
      rw [hread] at hvalue
      split at hvalue <;> cases hvalue

theorem explained_of_readScalar {t : Text} {e : Failure} (h : readScalar t = .error e) (depth : Nat) :
    e.Explained depth t := by
  unfold readScalar at h
  split at h
  · cases h
  · exact explained_of_readNumber h depth

/-! ### Values -/

/-- Whether a text accounts for all failures of reading a value from it with so many steps. -/
def ExplainsValues (fuel : Nat) : Prop :=
  ∀ {depth : Nat} {t : Text} {e : Failure}, readValue fuel depth t = .error e → e.Explained depth t

def ExplainsItems (fuel : Nat) : Prop :=
  ∀ {depth : Nat} {items : List Value} {t : Text} {e : Failure},
    readItems fuel depth items t = .error e → e.Explained depth t

def ExplainsMembers (fuel : Nat) : Prop :=
  ∀ {depth : Nat} {members : List (Text × Value)} {t : Text} {e : Failure},
    readMembers fuel depth members t = .error e → e.Explained depth t

/-- What follows an element that was read. -/
theorem explained_of_afterElement {close : CodePoint} {done : Value} {next : Text → Step Value} {t : Text}
    {e : Failure} {depth : Nat} (h : afterElement close done next t = .error e)
    (ih : ∀ {t : Text}, next t = .error e → e.Explained depth t) : e.Explained depth t := by
  unfold afterElement at h
  split at h
  · rw [← Except.error.inj h]
    trivial
  · next c rest hskip =>
    split at h
    · cases h
    · split at h
      · have hrest : rest <:+ t := (List.suffix_cons c rest).trans (hskip ▸ skipBlanks_suffix t)
        exact (ih h).of_suffix ((skipBlanks_suffix rest).trans hrest)
      · rw [← Except.error.inj h]
        trivial

theorem suffix_of_readValue {fuel depth : Nat} {t rest : Text} {v : Value}
    (h : readValue fuel depth t = .ok (v, rest)) : rest <:+ t := by
  obtain ⟨core, hcore, -⟩ := (reads fuel).1 h
  exact ⟨core, hcore.symm⟩

theorem explainsItems_succ {fuel : Nat} (ihValues : ExplainsValues fuel) (ihItems : ExplainsItems fuel) :
    ExplainsItems (fuel + 1) := by
  intro depth items t e h
  cases hvalue : readValue fuel depth t with
  | error error =>
    obtain rfl : error = e := by simpa [readItems, hvalue] using h
    exact ihValues hvalue
  | ok read =>
    obtain ⟨v, rest⟩ := read
    rw [readItems_succ hvalue] at h
    exact (explained_of_afterElement h ihItems).of_suffix (suffix_of_readValue hvalue)

theorem explainsMembers_succ {fuel : Nat} (ihValues : ExplainsValues fuel)
    (ihMembers : ExplainsMembers fuel) : ExplainsMembers (fuel + 1) := by
  intro depth members t e h
  by_cases hquote : t.head? = some '"'
  · obtain ⟨t, rfl⟩ := List.head?_eq_some_iff.1 hquote
    cases hname : readQuoted (.char '"' :: t) with
    | error error =>
      obtain rfl : error = e := by simpa [readMembers, hname] using h
      exact explained_of_readQuoted hname depth _
    | ok read =>
      obtain ⟨name, rest0⟩ := read
      obtain ⟨body, hbody, -⟩ := readQuoted_spec hname
      by_cases hcolon : (skipBlanks rest0).head? = some ':'
      · obtain ⟨rest1, hcolon⟩ := List.head?_eq_some_iff.1 hcolon
        have hrest0 : rest0 <:+ .char '"' :: t := ⟨.char '"' :: (body ++ [.char '"']), by rw [hbody]; simp⟩
        -- What is read next is always a later part of the text, so that its brackets and digits count here too.
        have hrest1 : skipBlanks rest1 <:+ .char '"' :: t :=
          ((skipBlanks_suffix rest1).trans (List.suffix_cons (CodePoint.char ':') rest1)).trans
            ((hcolon ▸ skipBlanks_suffix rest0).trans hrest0)
        cases hvalue : readValue fuel depth (skipBlanks rest1) with
        | error error =>
          obtain rfl : error = e := by simpa [readMembers, hname, hcolon, hvalue] using h
          exact (ihValues hvalue).of_suffix hrest1
        | ok read =>
          obtain ⟨v, rest⟩ := read
          rw [readMembers_succ hname hcolon hvalue] at h
          exact (explained_of_afterElement h ihMembers).of_suffix
            ((suffix_of_readValue hvalue).trans hrest1)
      · simp only [readMembers, hname] at h
        split at h
        · next heq => exact absurd (congrArg List.head? heq) hcolon
        · rw [← Except.error.inj h]
          trivial
  · unfold readMembers at h
    split at h
    · exact absurd rfl hquote
    · rw [← Except.error.inj h]
      trivial

/-- A bracket or a brace, and what it opens. -/
theorem explained_of_brackets {fuel depth : Nat} {opening close : CodePoint} {t : Text} {e : Failure}
    {step : Nat → Text → Step Value} (hopen : opening = '[' ∨ opening = '{') {empty : Value}
    (hempty : ∀ {fuel t after}, skipBlanks t = close :: after →
      readValue (fuel + 1) (depth + 1) (opening :: t) = .ok (empty, after))
    (hmore : ∀ {fuel t r}, skipBlanks t = r → r.head? ≠ some close →
      readValue (fuel + 1) (depth + 1) (opening :: t) = step fuel r)
    (ih : ∀ {t : Text}, step fuel t = .error e → e.Explained depth t)
    (h : readValue (fuel + 1) (depth + 1) (opening :: t) = .error e) :
    e.Explained (depth + 1) (opening :: t) := by
  by_cases hhead : (skipBlanks t).head? = some close
  · obtain ⟨after, hskip⟩ := List.head?_eq_some_iff.1 hhead
    rw [hempty hskip] at h
    cases h
  · rw [hmore rfl hhead] at h
    exact ((ih h).of_suffix (skipBlanks_suffix t)).opened hopen

theorem explainsValues_succ {fuel : Nat} (ihItems : ExplainsItems fuel)
    (ihMembers : ExplainsMembers fuel) : ExplainsValues (fuel + 1) := by
  intro depth t e h
  by_cases hquote : t.head? = some '"'
  · obtain ⟨t, rfl⟩ := List.head?_eq_some_iff.1 hquote
    cases hstring : readQuoted (.char '"' :: t) with
    | error error =>
      obtain rfl : error = e := by simpa [readValue, hstring] using h
      exact explained_of_readQuoted hstring depth _
    | ok read => simp [readValue, hstring] at h
  by_cases hlist : t.head? = some '['
  · obtain ⟨t, rfl⟩ := List.head?_eq_some_iff.1 hlist
    cases depth with
    | zero =>
      obtain rfl : .listTooDeep = e := Except.error.inj h
      exact List.countP_pos_iff.2 ⟨'[', List.mem_cons_self .., by decide⟩
    | succ depth =>
      have hempty : ∀ {fuel t after}, skipBlanks t = .char ']' :: after →
          readValue (fuel + 1) (depth + 1) (.char '[' :: t) = .ok (.list [], after) := fun hskip => by
        simp only [readValue, hskip]
      exact explained_of_brackets (.inl rfl) hempty readValue_list ihItems h
  by_cases hobject : t.head? = some '{'
  · obtain ⟨t, rfl⟩ := List.head?_eq_some_iff.1 hobject
    cases depth with
    | zero =>
      obtain rfl : .objectTooDeep = e := Except.error.inj h
      exact List.countP_pos_iff.2 ⟨'{', List.mem_cons_self .., by decide⟩
    | succ depth =>
      have hempty : ∀ {fuel t after}, skipBlanks t = .char '}' :: after →
          readValue (fuel + 1) (depth + 1) (.char '{' :: t) = .ok (.object [], after) := fun hskip => by
        simp only [readValue, hskip]
      exact explained_of_brackets (.inr rfl) hempty readValue_object ihMembers h
  refine explained_of_readScalar ?_ depth
  rw [← h]
  unfold readValue
  split <;> simp_all

/-- The text of a value accounts for every failure of reading it. -/
theorem explains (fuel : Nat) : ExplainsValues fuel ∧ ExplainsItems fuel ∧ ExplainsMembers fuel := by
  induction fuel with
  | zero =>
    refine ⟨fun h => ?_, fun h => ?_, fun h => ?_⟩ <;>
      (rw [← Except.error.inj h]; trivial)
  | succ fuel ih =>
    obtain ⟨hvalues, hitems, hmembers⟩ := ih
    exact ⟨explainsValues_succ hitems hmembers, explainsItems_succ hvalues hitems,
      explainsMembers_succ hvalues hmembers⟩

/-! ### Whole texts -/

/-- A text within the limits is read, or malformed. -/
theorem Moderate.malformed {depth : Nat} {t : Text} (h : Moderate depth t) {e : ReadError}
    (hread : read depth t = .error e) :
    ∃ trouble place, e = .malformed trouble place := by
  unfold read at hread
  split at hread
  · exact ⟨_, _, (Except.error.inj hread).symm⟩
  · split at hread
    · next failure hvalue =>
      have hexplained := ((explains _).1 hvalue).of_suffix (skipBlanks_suffix t)
      obtain rfl := Except.error.inj hread
      cases failure with
      | malformed trouble rest => exact ⟨_, _, rfl⟩
      | numeral error =>
        obtain ⟨run, hrun, hdigits, hlong⟩ := hexplained
        exact absurd (h.digits run hrun hdigits) (Nat.not_le.2 hlong)
      | listTooDeep => exact absurd h.brackets (Nat.not_le.2 hexplained)
      | objectTooDeep => exact absurd h.brackets (Nat.not_le.2 hexplained)
    · split at hread
      · cases hread
      · exact ⟨_, _, (Except.error.inj hread).symm⟩

end Mend.Json
