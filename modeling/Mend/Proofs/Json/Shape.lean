import Mathlib.Data.List.TakeWhile
import Mend.Proofs.Json.Token

/-!
# The texts of values

Every value is read from a text of its own in front of what remains, and it is read from that text
also when the remainder is cut short (`reads`). In this text a backquote stands only inside a string,
which has no line feed, and an object reaches from one brace to another. A whole text is such a text
between blanks (`exists_valueText_of_read`), and blanks at its ends may be left out
(`ValueText.read_eq`).
-/

namespace Mend.Json

/-! ### Shielded backquotes -/

/-- Whether every backquote of a text stands between two quotes with no control character between
them. -/
inductive Shielded : Text → Prop
  | nil : Shielded []
  | plain {c : CodePoint} {t : Text} (hc : c ≠ '`') (rest : Shielded t) : Shielded (c :: t)
  | quoted {body t : Text} (hbody : ∀ c ∈ body, 0x1F < c.toNat) (rest : Shielded t) :
      Shielded (.char '"' :: (body ++ .char '"' :: t))

theorem Shielded.append {s t : Text} (hs : Shielded s) (ht : Shielded t) : Shielded (s ++ t) := by
  induction hs with
  | nil => exact ht
  | plain hc rest ih => exact .plain hc ih
  | quoted hbody rest ih =>
    rw [List.cons_append, List.append_assoc, List.cons_append]
    exact .quoted hbody ih

theorem shielded_of_no_fence {t : Text} (h : ∀ c ∈ t, c ≠ '`') : Shielded t := by
  induction t with
  | nil => exact .nil
  | cons c t ih =>
    obtain ⟨hc, ht⟩ := List.forall_mem_cons.1 h
    exact .plain hc (ih ht)

theorem shielded_of_blank {b : Text} (hb : ∀ c ∈ b, isBlank c = true) : Shielded b := by
  refine shielded_of_no_fence fun c hc he => ?_
  rw [he] at hc
  exact absurd (hb _ hc) (by decide)

/-! ### Values -/

theorem isBlank_of_jsonBlank {c : CodePoint} (h : isBlank c = true) : Text.isBlank c = true := by
  simp only [isBlank, Bool.or_eq_true, decide_eq_true_eq] at h
  rcases h with ((rfl | rfl) | rfl) | rfl <;> decide

/-- Whether `core` is the text of a value in front of `rest`. -/
structure ValueText (depth : Nat) (core : Text) (v : Value) (rest : Text) : Prop where
  shielded : Shielded core
  ne_nil : core ≠ []
  head : ∀ c ∈ core.head?, Text.isBlank c = false
  last : ∀ c ∈ core.getLast?, Text.isBlank c = false
  braces : ∀ ms, v = .object ms → core.head? = some '{' ∧ core.getLast? = some '}'
  -- A character costs two steps at most: one for a value, one for the collection that it stands in.
  again : ∀ fuel r, 2 * core.length ≤ fuel + 1 → r <+: rest →
    readValue fuel depth (core ++ r) = .ok (v, r)

/-- Whether `core` is what closes a list or an object, in front of `rest`. -/
structure TailText (step : Nat → Text → Step Value) (close : CodePoint) (core : Text) (v : Value)
    (rest : Text) : Prop where
  shielded : Shielded core
  last : core.getLast? = some close
  again : ∀ fuel r, 2 * core.length ≤ fuel → r <+: rest → step fuel (core ++ r) = .ok (v, r)

theorem valueText_of_readScalar {depth : Nat} {t rest : Text} {v : Value}
    (hquote : t.head? ≠ some '"') (hlist : t.head? ≠ some '[') (hobject : t.head? ≠ some '{')
    (h : readScalar t = .ok (v, rest)) :
    ∃ core, t = core ++ rest ∧ ValueText depth core v rest := by
  obtain ⟨⟨core, hne, rfl, hsolid, hagain⟩, hno⟩ := readScalar_spec h
  have hall : ∀ c ∈ core, (c ≠ '`' ∧ Text.isBlank c = false) ∧ isMark c = false := by
    simpa [isSolid] using hsolid
  refine ⟨core, rfl, shielded_of_no_fence fun c hc => (hall c hc).1.1, hne,
    fun c hc => (hall c (List.mem_of_mem_head? hc)).1.2, fun c hc => (hall c (List.mem_of_mem_getLast? hc)).1.2,
    fun ms he => absurd he (hno ms), fun fuel r hfuel hr => ?_⟩
  cases core with
  | nil => exact absurd rfl hne
  | cons c core =>
    obtain ⟨fuel, rfl⟩ : ∃ f, fuel = f + 1 := ⟨fuel - 1, by
      simp only [List.length_cons] at hfuel
      omega⟩
    rw [← hagain r hr, List.cons_append]
    rw [List.cons_append, List.head?_cons] at hquote hlist hobject
    unfold readValue
    split <;> simp_all

theorem valueText_of_string {depth fuel : Nat} {t rest : Text} {v : Value}
    (h : readValue (fuel + 1) depth (.char '"' :: t) = .ok (v, rest)) :
    ∃ core, .char '"' :: t = core ++ rest ∧ ValueText depth core v rest := by
  cases hs : readQuoted (.char '"' :: t) with
  | error e => simp [readValue, hs] at h
  | ok read =>
    obtain ⟨s, rest'⟩ := read
    obtain ⟨rfl, rfl⟩ : .text s = v ∧ rest' = rest := by simpa [readValue, hs] using h
    obtain ⟨body, rfl, hall, hagain⟩ := readQuoted_spec hs
    refine ⟨.char '"' :: (body ++ [.char '"']), by simp, .quoted hall .nil, List.cons_ne_nil _ _, ?_, ?_, nofun,
      fun fuel r hfuel hr => ?_⟩
    · rintro c ⟨⟩
      decide
    · rw [← List.cons_append, List.getLast?_concat]
      rintro c ⟨⟩
      decide
    · obtain ⟨fuel, rfl⟩ : ∃ f, fuel = f + 1 := ⟨fuel - 1, by
        simp only [List.length_cons] at hfuel
        omega⟩
      have hread := hagain r hr
      simp only [List.cons_append, List.append_assoc, List.nil_append, readValue, hread]

/-- A list or an object that is closed at once. -/
theorem valueText_of_empty {depth : Nat} {opening close : CodePoint} {b rest : Text} {v : Value}
    (hopen : opening ≠ '`' ∧ Text.isBlank opening = false)
    (hclose : close ≠ '`' ∧ Text.isBlank close = false) (hb : ∀ c ∈ b, isBlank c = true)
    (hbraces : ∀ ms, v = .object ms → opening = '{' ∧ close = '}')
    (hagain : ∀ fuel r, readValue (fuel + 1) depth (opening :: (b ++ close :: r)) = .ok (v, r)) :
    ∃ core, opening :: (b ++ close :: rest) = core ++ rest ∧ ValueText depth core v rest := by
  have hlast : (opening :: (b ++ [close])).getLast? = some close := by
    rw [← List.cons_append, List.getLast?_concat]
  refine ⟨opening :: (b ++ [close]), by simp, .plain hopen.1 ((shielded_of_blank hb).append
    (.plain hclose.1 .nil)), List.cons_ne_nil _ _, ?_, ?_, fun ms he => ?_, fun fuel r hfuel hr => ?_⟩
  · rintro c ⟨⟩
    exact hopen.2
  · rw [hlast]
    rintro c ⟨⟩
    exact hclose.2
  · obtain ⟨rfl, rfl⟩ := hbraces ms he
    exact ⟨rfl, hlast⟩
  · obtain ⟨fuel, rfl⟩ : ∃ f, fuel = f + 1 := ⟨fuel - 1, by
      simp only [List.length_cons] at hfuel
      omega⟩
    have hread := hagain fuel r
    simpa using hread

/-- A list or an object that holds something. -/
theorem valueText_of_tail {depth : Nat} {opening close : CodePoint} {b core rest : Text} {v : Value}
    {step : Nat → Text → Step Value}
    (hopen : opening ≠ '`' ∧ Text.isBlank opening = false) (hclose : Text.isBlank close = false)
    (hb : ∀ c ∈ b, isBlank c = true) (hbraces : ∀ ms, v = .object ms → opening = '{' ∧ close = '}')
    (htail : TailText step close core v rest)
    (hagain : ∀ fuel r, r <+: rest →
      readValue (fuel + 1) depth (opening :: (b ++ (core ++ r))) = step fuel (core ++ r)) :
    ValueText depth (opening :: (b ++ core)) v rest := by
  have hlast : (opening :: (b ++ core)).getLast? = some close := by
    rw [← List.cons_append, List.getLast?_append, htail.last]
    rfl
  refine ⟨.plain hopen.1 ((shielded_of_blank hb).append htail.shielded), List.cons_ne_nil _ _, ?_, ?_,
    fun ms he => ?_, fun fuel r hfuel hr => ?_⟩
  · rintro c ⟨⟩
    exact hopen.2
  · rw [hlast]
    rintro c ⟨⟩
    exact hclose
  · obtain ⟨rfl, rfl⟩ := hbraces ms he
    exact ⟨rfl, hlast⟩
  · simp only [List.length_cons, List.length_append] at hfuel
    obtain ⟨fuel, rfl⟩ : ∃ f, fuel = f + 1 := ⟨fuel - 1, by omega⟩
    rw [List.cons_append, List.append_assoc, hagain fuel r hr]
    exact htail.again fuel r (by omega) hr

theorem TailText.ne_nil {step : Nat → Text → Step Value} {close : CodePoint} {core rest : Text} {v : Value}
    (h : TailText step close core v rest) : core ≠ [] := by
  rintro rfl
  cases h.last

/-- What comes after an item of a list or a member of an object: the end, or a comma and the next one. -/
def afterElement (close : CodePoint) (done : Value) (next : Text → Step Value) (t : Text) : Step Value :=
  match skipBlanks t with
  | [] => .error (.malformed .comma [])
  | c :: rest =>
    if c = close then .ok (done, rest)
    else if c = ',' then next (skipBlanks rest)
    else .error (.malformed .comma (c :: rest))

section AfterElement

variable {close : CodePoint} {done : Value} {next : Text → Step Value} {t rest : Text}

theorem afterElement_of_close (h : skipBlanks t = close :: rest) :
    afterElement close done next t = .ok (done, rest) := by
  simp only [afterElement, h, if_true]

theorem afterElement_of_comma (hclose : close ≠ ',') (h : skipBlanks t = .char ',' :: rest) :
    afterElement close done next t = next (skipBlanks rest) := by
  simp only [afterElement, h, if_neg hclose.symm, if_true]

theorem afterElement_of_other (hclose : ∀ rest, skipBlanks t ≠ close :: rest)
    (hcomma : ∀ rest, skipBlanks t ≠ .char ',' :: rest) :
    afterElement close done next t = .error (.malformed .comma (skipBlanks t)) := by
  unfold afterElement
  split
  · next heq => rw [heq]
  · next c after heq =>
    have hc : c ≠ close := fun he => hclose after (he ▸ heq)
    have hcc : c ≠ ',' := fun he => hcomma after (he ▸ heq)
    rw [if_neg hc, if_neg hcc, heq]

end AfterElement

section Tail

variable {step next : Nat → Text → Step Value} {close : CodePoint} {done v : Value} {fuel : Nat}
  {elem t rest : Text} (helem : Shielded elem)
  (hread : ∀ fuel r, 2 * elem.length ≤ fuel + 1 → r <+: t →
    step (fuel + 1) (elem ++ r) = afterElement close done (next fuel) r)

include helem hread

theorem tailText_of_close (hclose : close ≠ '`') (hskip : skipBlanks t = close :: rest) :
    ∃ core, elem ++ t = core ++ rest ∧ TailText step close core done rest := by
  obtain ⟨b, rfl, hb, hcut⟩ := skipBlanks_eq_append (List.cons_ne_nil close []) hskip
  refine ⟨elem ++ (b ++ [close]), by simp, helem.append ((shielded_of_blank hb).append
    (.plain hclose .nil)), ?_, fun fuel r hfuel hr => ?_⟩
  · rw [List.getLast?_append, List.getLast?_append]
    rfl
  · simp only [List.length_append, List.length_singleton] at hfuel
    obtain ⟨fuel, rfl⟩ : ∃ f, fuel = f + 1 := ⟨fuel - 1, by omega⟩
    obtain ⟨hpre, hskip⟩ := hcut r hr
    rw [List.append_assoc, List.append_assoc, hread fuel _ (by omega) hpre]
    exact afterElement_of_close hskip

theorem tailText_of_comma {after : Text} (hclose : close ≠ ',') (hskip : skipBlanks t = .char ',' :: after)
    (htail : ∃ core, skipBlanks after = core ++ rest ∧ TailText next close core v rest) :
    ∃ core, elem ++ t = core ++ rest ∧ TailText step close core v rest := by
  obtain ⟨b, rfl, hb, hcut⟩ := skipBlanks_eq_append (List.cons_ne_nil (CodePoint.char ',') []) hskip
  obtain ⟨core, hcore, htail⟩ := htail
  obtain ⟨gap, rfl, hgap, hcutGap⟩ := skipBlanks_eq_append htail.ne_nil hcore
  refine ⟨elem ++ (b ++ .char ',' :: (gap ++ core)), by simp, helem.append ((shielded_of_blank hb).append
    (.plain (by decide) ((shielded_of_blank hgap).append htail.shielded))), ?_, fun fuel r hfuel hr => ?_⟩
  · rw [List.getLast?_append, List.getLast?_append, ← List.cons_append, List.getLast?_append, htail.last]
    rfl
  · simp only [List.length_append, List.length_cons] at hfuel
    obtain ⟨fuel, rfl⟩ : ∃ f, fuel = f + 1 := ⟨fuel - 1, by omega⟩
    obtain ⟨hpreGap, hskipGap⟩ := hcutGap r hr
    have hpre := (hcut _ hpreGap).1
    have hskip : skipBlanks (b ++ ([.char ','] ++ (gap ++ (core ++ r)))) = .char ',' :: (gap ++ (core ++ r)) :=
      (hcut _ hpreGap).2
    have hsplit : elem ++ (b ++ .char ',' :: (gap ++ core)) ++ r =
        elem ++ (b ++ ([.char ','] ++ (gap ++ (core ++ r)))) := by simp
    rw [hsplit, hread fuel _ (by omega) hpre, afterElement_of_comma hclose hskip, hskipGap]
    exact htail.again fuel r (by omega) hr

/-- An element and what comes after it, up to the end of the list or the object. -/
theorem tailText_of_afterElement (hclose : close ≠ '`' ∧ close ≠ ',')
    (ih : ∀ {t : Text}, next fuel t = .ok (v, rest) →
      ∃ core, t = core ++ rest ∧ TailText next close core v rest)
    (h : afterElement close done (next fuel) t = .ok (v, rest)) :
    ∃ core, elem ++ t = core ++ rest ∧ TailText step close core v rest := by
  unfold afterElement at h
  split at h
  · cases h
  · next c after hskip =>
    split at h
    · next hc =>
      subst hc
      obtain ⟨rfl, rfl⟩ : done = v ∧ after = rest := by simpa using h
      exact tailText_of_close helem hread hclose.1 hskip
    · split at h
      · next hcomma => exact tailText_of_comma helem hread hclose.2 (hcomma ▸ hskip) (ih h)
      · cases h

end Tail

theorem readItems_succ {fuel depth : Nat} {items : List Value} {t rest : Text} {v : Value}
    (h : readValue fuel depth t = .ok (v, rest)) : readItems (fuel + 1) depth items t =
      afterElement ']' (.list (v :: items).reverse) (readItems fuel depth (v :: items)) rest := by
  simp only [readItems, h]
  split
  · next heq => exact (afterElement_of_close heq).symm
  · next heq => exact (afterElement_of_comma (by decide) heq).symm
  · next hclose hcomma => exact (afterElement_of_other hclose hcomma).symm

theorem readMembers_succ {fuel depth : Nat} {members : List (Text × Value)} {t rest0 rest1 rest : Text}
    {name : Text} {v : Value} (hname : readQuoted (.char '"' :: t) = .ok (name, rest0))
    (hcolon : skipBlanks rest0 = .char ':' :: rest1)
    (hvalue : readValue fuel depth (skipBlanks rest1) = .ok (v, rest)) :
    readMembers (fuel + 1) depth members (.char '"' :: t) =
      afterElement '}' (.object (Assoc.put name v members))
        (readMembers fuel depth (Assoc.put name v members)) rest := by
  simp only [readMembers, hname, hcolon, hvalue]
  split
  · next heq => exact (afterElement_of_close heq).symm
  · next heq => exact (afterElement_of_comma (by decide) heq).symm
  · next hclose hcomma => exact (afterElement_of_other hclose hcomma).symm

/-- A member that is read has a name, a colon and a value. -/
theorem exists_of_readMembers {fuel depth : Nat} {members : List (Text × Value)} {t rest : Text} {v : Value}
    (h : readMembers (fuel + 1) depth members t = .ok (v, rest)) :
    ∃ t' name rest0 rest1 w after, t = .char '"' :: t' ∧ readQuoted (.char '"' :: t') = .ok (name, rest0) ∧
      skipBlanks rest0 = .char ':' :: rest1 ∧ readValue fuel depth (skipBlanks rest1) = .ok (w, after) := by
  unfold readMembers at h
  split at h
  · next t' =>
    split at h
    · cases h
    · next name rest0 hname =>
      split at h
      · next rest1 hcolon =>
        split at h
        · cases h
        · next w after hvalue => exact ⟨t', name, rest0, rest1, w, after, rfl, hname, hcolon, hvalue⟩
      · cases h
  · cases h

/-! ### The texts of values -/

/-- Whether all values that are read with so many steps have a text. -/
def ReadsValues (fuel : Nat) : Prop :=
  ∀ {depth : Nat} {t rest : Text} {v : Value}, readValue fuel depth t = .ok (v, rest) →
    ∃ core, t = core ++ rest ∧ ValueText depth core v rest

def ReadsItems (fuel : Nat) : Prop :=
  ∀ {depth : Nat} {items : List Value} {t rest : Text} {v : Value},
    readItems fuel depth items t = .ok (v, rest) →
      ∃ core, t = core ++ rest ∧ TailText (readItems · depth items) ']' core v rest

def ReadsMembers (fuel : Nat) : Prop :=
  ∀ {depth : Nat} {members : List (Text × Value)} {t rest : Text} {v : Value},
    readMembers fuel depth members t = .ok (v, rest) →
      ∃ core, t = core ++ rest ∧ TailText (readMembers · depth members) '}' core v rest

theorem readsItems_succ {fuel : Nat} (ihValues : ReadsValues fuel) (ihItems : ReadsItems fuel) :
    ReadsItems (fuel + 1) := by
  intro depth items t rest v h
  cases hvalue : readValue fuel depth t with
  | error e => simp [readItems, hvalue] at h
  | ok read =>
    obtain ⟨w, after⟩ := read
    obtain ⟨elem, rfl, helem⟩ := ihValues hvalue
    rw [readItems_succ hvalue] at h
    exact tailText_of_afterElement helem.shielded (fun k r hk hr => readItems_succ (helem.again k r hk hr))
      (by decide) ihItems h

theorem readsMembers_succ {fuel : Nat} (ihValues : ReadsValues fuel) (ihMembers : ReadsMembers fuel) :
    ReadsMembers (fuel + 1) := by
  intro depth members t rest v h
  obtain ⟨t, name, rest0, rest1, w, after, rfl, hname, hcolon, hvalue⟩ := exists_of_readMembers h
  rw [readMembers_succ hname hcolon hvalue] at h
  obtain ⟨body, rfl, hall, hname⟩ := readQuoted_spec hname
  obtain ⟨elem, helem, hw⟩ := ihValues hvalue
  obtain ⟨b, rfl, hb, hcut⟩ := skipBlanks_eq_append (List.cons_ne_nil (CodePoint.char ':') []) hcolon
  obtain ⟨gap, rfl, hgap, hcutGap⟩ := skipBlanks_eq_append hw.ne_nil helem
  have hshielded : Shielded (.char '"' :: (body ++ .char '"' :: (b ++ .char ':' :: (gap ++ elem)))) :=
    .quoted hall ((shielded_of_blank hb).append (.plain (by decide) ((shielded_of_blank hgap).append
      hw.shielded)))
  have hsplit : ∀ r, .char '"' :: (body ++ .char '"' :: (b ++ ([.char ':'] ++ (gap ++ (elem ++ r))))) =
      .char '"' :: (body ++ .char '"' :: (b ++ .char ':' :: (gap ++ elem))) ++ r := fun r => by simp
  have hstep : ∀ k r, 2 * (.char '"' :: (body ++ .char '"' :: (b ++ .char ':' :: (gap ++ elem)))).length ≤ k + 1 →
      r <+: after → readMembers (k + 1) depth members
        (.char '"' :: (body ++ .char '"' :: (b ++ .char ':' :: (gap ++ elem))) ++ r) =
        afterElement '}' (.object (Assoc.put name w members))
          (readMembers k depth (Assoc.put name w members)) r := fun k r hk hr => by
    obtain ⟨hpreGap, hskipGap⟩ := hcutGap r hr
    obtain ⟨hpre, hskip⟩ := hcut _ hpreGap
    simp only [List.length_cons, List.length_append] at hk
    rw [← hsplit]
    exact readMembers_succ (hname _ hpre) hskip
      ((congrArg _ hskipGap).trans (hw.again k r (by omega) hr))
  rw [hsplit]
  exact tailText_of_afterElement hshielded hstep (by decide) ihMembers h

theorem ne_object_of_readItems {fuel depth : Nat} {items : List Value} {t rest : Text} {v : Value}
    (h : readItems fuel depth items t = .ok (v, rest)) (ms : List (Text × Value)) : v ≠ .object ms := by
  induction fuel generalizing items t with
  | zero => cases h
  | succ fuel ih =>
    cases hvalue : readValue fuel depth t with
    | error e => simp [readItems, hvalue] at h
    | ok read =>
      obtain ⟨w, after⟩ := read
      rw [readItems_succ hvalue, afterElement] at h
      split at h
      · cases h
      · split at h
        · rintro rfl
          cases h
        · split at h
          · exact ih h
          · cases h

theorem ne_object_of_readValue {fuel depth : Nat} {t rest : Text} {v : Value}
    (h : readValue (fuel + 1) (depth + 1) (.char '[' :: t) = .ok (v, rest)) (ms : List (Text × Value)) :
    v ≠ .object ms := by
  simp only [readValue] at h
  split at h
  · rintro rfl
    cases h
  · exact ne_object_of_readItems h ms

section Opening

variable {fuel depth : Nat} {t r : Text}

theorem readValue_list (h : skipBlanks t = r) (hr : r.head? ≠ some ']') :
    readValue (fuel + 1) (depth + 1) (.char '[' :: t) = readItems fuel depth [] r := by
  subst h
  simp only [readValue]
  split
  · next heq => exact absurd (congrArg List.head? heq) hr
  · rfl

theorem readValue_object (h : skipBlanks t = r) (hr : r.head? ≠ some '}') :
    readValue (fuel + 1) (depth + 1) (.char '{' :: t) = readMembers fuel depth [] r := by
  subst h
  simp only [readValue]
  split
  · next heq => exact absurd (congrArg List.head? heq) hr
  · rfl

end Opening

/-- A list or an object, closed at once or with something in it. -/
theorem valueText_of_brackets {fuel depth : Nat} {opening close : CodePoint} {t rest : Text} {v empty : Value}
    {step : Nat → Text → Step Value} (hopen : opening ≠ '`' ∧ Text.isBlank opening = false)
    (hclose : close ≠ '`' ∧ Text.isBlank close = false)
    (hempty : ∀ {fuel t after}, skipBlanks t = close :: after →
      readValue (fuel + 1) depth (opening :: t) = .ok (empty, after))
    (hmore : ∀ {fuel t r}, skipBlanks t = r → r.head? ≠ some close →
      readValue (fuel + 1) depth (opening :: t) = step fuel r)
    (hbraces : ∀ ms, v = .object ms → opening = '{' ∧ close = '}')
    (ih : ∀ {t : Text}, step fuel t = .ok (v, rest) →
      ∃ core, t = core ++ rest ∧ TailText step close core v rest)
    (h : readValue (fuel + 1) depth (opening :: t) = .ok (v, rest)) :
    ∃ core, opening :: t = core ++ rest ∧ ValueText depth core v rest := by
  by_cases hhead : (skipBlanks t).head? = some close
  · obtain ⟨after, hskip⟩ := List.head?_eq_some_iff.1 hhead
    obtain ⟨rfl, rfl⟩ : empty = v ∧ after = rest := by simpa [hempty hskip] using h
    obtain ⟨b, rfl, hb, -⟩ := skipBlanks_eq_append (List.cons_ne_nil close []) hskip
    have hsolid : isBlank close = false := by
      rw [← Bool.not_eq_true]
      exact fun hblank => absurd (isBlank_of_jsonBlank hblank) (by simp [hclose.2])
    -- Whatever stands behind the closing mark, the blanks before it end there.
    refine valueText_of_empty hopen hclose hb hbraces fun fuel r => hempty (skipBlanks_append hb ?_)
    rintro c ⟨⟩
    exact hsolid
  · rw [hmore rfl hhead] at h
    obtain ⟨core, hcore, htail⟩ := ih h
    obtain ⟨b, rfl, hb, hcut⟩ := skipBlanks_eq_append htail.ne_nil hcore
    rw [hcore, List.head?_append_of_ne_nil _ htail.ne_nil] at hhead
    refine ⟨opening :: (b ++ core), by simp, valueText_of_tail hopen hclose.2 hb hbraces htail
      fun fuel r hr => hmore (hcut r hr).2 ?_⟩
    rwa [List.head?_append_of_ne_nil _ htail.ne_nil]

theorem readsValues_succ {fuel : Nat} (ihItems : ReadsItems fuel) (ihMembers : ReadsMembers fuel) :
    ReadsValues (fuel + 1) := by
  intro depth t rest v h
  by_cases hquote : t.head? = some '"'
  · obtain ⟨t, rfl⟩ := List.head?_eq_some_iff.1 hquote
    exact valueText_of_string h
  by_cases hlist : t.head? = some '['
  · obtain ⟨t, rfl⟩ := List.head?_eq_some_iff.1 hlist
    cases depth with
    | zero => cases h
    | succ depth =>
      have hempty : ∀ {fuel t after}, skipBlanks t = .char ']' :: after →
          readValue (fuel + 1) (depth + 1) (.char '[' :: t) = .ok (.list [], after) := fun hskip => by
        simp only [readValue, hskip]
      exact valueText_of_brackets (by decide) (by decide) hempty readValue_list
        (fun ms he => absurd he (ne_object_of_readValue h ms)) ihItems h
  by_cases hobject : t.head? = some '{'
  · obtain ⟨t, rfl⟩ := List.head?_eq_some_iff.1 hobject
    cases depth with
    | zero => cases h
    | succ depth =>
      have hempty : ∀ {fuel t after}, skipBlanks t = .char '}' :: after →
          readValue (fuel + 1) (depth + 1) (.char '{' :: t) = .ok (.object [], after) := fun hskip => by
        simp only [readValue, hskip]
      exact valueText_of_brackets (by decide) (by decide) hempty readValue_object
        (fun _ _ => ⟨rfl, rfl⟩) ihMembers h
  refine valueText_of_readScalar hquote hlist hobject ?_
  rw [← h]
  unfold readValue
  split <;> simp_all

/-- Every value that is read has a text, which is read in the same way whatever part of the rest
stands behind it. -/
theorem reads (fuel : Nat) : ReadsValues fuel ∧ ReadsItems fuel ∧ ReadsMembers fuel := by
  induction fuel with
  | zero => exact ⟨nofun, nofun, nofun⟩
  | succ fuel ih =>
    obtain ⟨hvalues, hitems, hmembers⟩ := ih
    exact ⟨readsValues_succ hitems hmembers, readsItems_succ hvalues hitems,
      readsMembers_succ hvalues hmembers⟩

/-! ### Whole texts -/

/-- No value begins with a byte order mark. -/
theorem ValueText.head_ne_mark {depth : Nat} {core rest : Text} {v : Value}
    (h : ValueText depth core v rest) : core.head? ≠ some '\ufeff' := by
  intro hmark
  obtain ⟨core, rfl⟩ := List.head?_eq_some_iff.1 hmark
  -- The reader takes the mark for the beginning of a number, and finds no digit.
  have hread := h.again (2 * (.char '\ufeff' :: core).length + 1) rest (by omega) (List.prefix_refl _)
  cases hread

/-- A text that is read is the text of its value between blanks. -/
theorem exists_valueText_of_read {depth : Nat} {t : Text} {v : Value} (h : read depth t = .ok v) :
    ∃ front core back, t = front ++ (core ++ back) ∧ (∀ c ∈ front, isBlank c = true) ∧
      (∀ c ∈ back, isBlank c = true) ∧ ValueText depth core v back := by
  unfold read at h
  split at h
  · cases h
  · split at h
    · cases h
    · next w back hvalue =>
      split at h
      · next hback =>
        obtain rfl : w = v := by simpa using h
        obtain ⟨core, hcore, hshape⟩ := (reads _).1 hvalue
        obtain ⟨front, rfl, hfront, -⟩ := skipBlanks_eq_append hshape.ne_nil hcore
        exact ⟨front, core, back, rfl, hfront, List.dropWhile_eq_nil_iff.1 hback, hshape⟩
      · cases h

/-- The text of a value is read with less of the blanks around it. -/
theorem ValueText.read_eq {depth : Nat} {core rest front back : Text} {v : Value}
    (h : ValueText depth core v rest) (hfront : ∀ c ∈ front, isBlank c = true)
    (hback : ∀ c ∈ back, isBlank c = true) (hrest : back <+: rest) :
    read depth (front ++ (core ++ back)) = .ok v := by
  have hskip : skipBlanks (front ++ (core ++ back)) = core ++ back := by
    refine skipBlanks_append hfront fun d hd => ?_
    rw [List.head?_append_of_ne_nil _ h.ne_nil] at hd
    rw [← Bool.not_eq_true]
    exact fun hb => absurd (isBlank_of_jsonBlank hb) (by simp [h.head d hd])
  have hmark : (front ++ (core ++ back)).head? ≠ some '\ufeff' := by
    cases front with
    | nil => rw [List.nil_append, List.head?_append_of_ne_nil _ h.ne_nil]; exact h.head_ne_mark
    | cons d front =>
      intro hd
      obtain rfl : d = '\ufeff' := by simpa using hd
      exact absurd (hfront _ (List.mem_cons_self ..)) (by decide)
  have hread := h.again (2 * (front ++ (core ++ back)).length + 2) back
    (by simp only [List.length_append]; omega) hrest
  have hdone : skipBlanks back = [] := List.dropWhile_eq_nil_iff.2 hback
  rw [read, if_neg hmark, hskip, hread]
  simp only [hdone]

end Mend.Json
