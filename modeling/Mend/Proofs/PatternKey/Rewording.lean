import Mend.Proofs.Partition
import Mend.Proofs.PatternKey

/-!
# Names and numbers do not count

The quotes of a message pair off from left to right. A rewording puts other texts between the quotes of a
pair and other runs of digits in the place of those outside of the pairs; it leaves all else as it is, a last
quote without a partner included. Masking names and then numbers takes both messages to one text, so that
they have one key (`Reworded.ofMessage_eq`).
-/

namespace Mend.PatternKey

/-- Whether a text has no quote. -/
def QuoteFree (t : Text) : Prop := ∀ c ∈ t, isQuote c = false

/-- Whether a text is a run of digits. -/
def IsNumber (t : Text) : Prop := t ≠ [] ∧ ∀ c ∈ t, Text.isDigit c = true

instance (t : Text) : Decidable (QuoteFree t) := List.decidableBAll _ t

instance (t : Text) : Decidable (IsNumber t) :=
  have : Decidable (∀ c ∈ t, Text.isDigit c = true) := List.decidableBAll _ t
  inferInstanceAs (Decidable (_ ∧ _))

theorem isQuote_eq_false {p : CodePoint → Bool} (hsingle : p '\'' = false) (hdouble : p '"' = false)
    {c : CodePoint}
    (h : p c = true) : isQuote c = false := by
  cases hc : isQuote c with
  | false => rfl
  | true =>
    have hquote : c = '\'' ∨ c = '"' := by
      simpa only [isQuote, Bool.or_eq_true, decide_eq_true_eq] using hc
    rcases hquote with rfl | rfl
    · rw [hsingle] at h
      cases h
    · rw [hdouble] at h
      cases h

theorem IsNumber.quoteFree {ds : Text} (h : IsNumber ds) : QuoteFree ds := by
  intro c hc
  exact isQuote_eq_false (by decide) (by decide) (h.2 c hc)

/-- Whether two messages differ in names and numbers alone. A run of digits need not be maximal: the digits
next to it may be kept, or belong to another run. -/
inductive Reworded : Text → Text → Prop
  | nil : Reworded [] []
  | keep {c : CodePoint} {t u : Text} (hc : isQuote c = false) (rest : Reworded t u) :
    Reworded (c :: t) (c :: u)
  | number (ds es : Text) {t u : Text} (hds : IsNumber ds) (hes : IsNumber es) (rest : Reworded t u) :
    Reworded (ds ++ t) (es ++ u)
  | name {l r : CodePoint} (inner other : Text) {t u : Text} (hl : isQuote l = true) (hr : isQuote r = true)
    (hinner : QuoteFree inner) (hother : QuoteFree other) (rest : Reworded t u) :
    Reworded (l :: (inner ++ r :: t)) (l :: (other ++ r :: u))
  | unpaired {q : CodePoint} {t u : Text} (hq : isQuote q = true) (ht : QuoteFree t) (rest : Reworded t u) :
    Reworded (q :: t) (q :: u)

/-! ### Names -/

theorem maskNames_append {t : Text} (ht : QuoteFree t) (u : Text) : maskNames (t ++ u) = t ++ maskNames u := by
  refine Text.append_of_keeps (fun c hc v => ?_) ht u
  rw [maskNames, maskNamesFrom, if_neg (by simp [hc])]
  rfl

theorem maskNames_of_quoteFree {t : Text} (ht : QuoteFree t) : maskNames t = t :=
  (maskNamesFrom_of_no_quote ht).1

theorem maskNames_unpaired {q : CodePoint} {t : Text} (hq : isQuote q = true) (ht : QuoteFree t) :
    maskNames (q :: t) = q :: t := by
  rw [maskNames, maskNamesFrom, if_pos hq]
  exact (maskNamesFrom_of_no_quote ht).2 [q]

theorem maskNames_pair {l r : CodePoint} {inner : Text} (hl : isQuote l = true) (hr : isQuote r = true)
    (hinner : QuoteFree inner) (t : Text) :
    maskNames (l :: (inner ++ r :: t)) = nameMask ++ maskNames t := by
  have hread : ∀ read : Text, maskNamesFrom (some read) (inner ++ r :: t) = nameMask ++ maskNames t := by
    induction inner with
    | nil =>
      intro read
      rw [List.nil_append, maskNamesFrom, if_pos hr]
      rfl
    | cons c inner ih =>
      intro read
      obtain ⟨hc, hinner⟩ := List.forall_mem_cons.1 hinner
      rw [List.cons_append, maskNamesFrom, if_neg (by simp [hc])]
      exact ih hinner (c :: read)
  rw [maskNames, maskNamesFrom, if_pos hl]
  exact hread [l]

/-! ### Numbers -/

/-- The mask is put at the first digit of a run; the others leave nothing. -/
theorem maskNumbersFrom_number {ds : Text} (hds : IsNumber ds) (inside : Bool) (t : Text) :
    maskNumbersFrom inside (ds ++ t) =
      (if inside then [] else numberMask) ++ maskNumbersFrom true t := by
  have hinside : ∀ es : Text, (∀ c ∈ es, Text.isDigit c = true) →
      maskNumbersFrom true (es ++ t) = maskNumbersFrom true t := by
    intro es hes
    induction es with
    | nil => rfl
    | cons c es ih =>
      obtain ⟨hc, hes⟩ := List.forall_mem_cons.1 hes
      rw [List.cons_append, maskNumbersFrom, if_pos hc, if_pos rfl, ih hes]
  cases ds with
  | nil => exact absurd rfl hds.1
  | cons c ds =>
    obtain ⟨hc, hall⟩ := List.forall_mem_cons.1 hds.2
    rw [List.cons_append, maskNumbersFrom, if_pos hc, hinside ds hall]
    cases inside with
    | false => rfl
    | true => rfl

theorem maskNumbersFrom_append_congr {t u : Text}
    (h : ∀ inside, maskNumbersFrom inside t = maskNumbersFrom inside u) (front : Text) (inside : Bool) :
    maskNumbersFrom inside (front ++ t) = maskNumbersFrom inside (front ++ u) := by
  induction front generalizing inside with
  | nil => exact h inside
  | cons c front ih =>
    rw [List.cons_append, List.cons_append, maskNumbersFrom, maskNumbersFrom, ih true, ih false]

/-! ### Rewordings -/

theorem exists_first_quote {t : Text} (h : ¬ QuoteFree t) :
    ∃ front q rest, t = front ++ q :: rest ∧ QuoteFree front ∧ isQuote q = true := by
  have hquote : (t.find? isQuote).isSome = true := by
    rw [List.find?_isSome]
    simpa [QuoteFree] using h
  obtain ⟨q, hfind⟩ := Option.isSome_iff_exists.1 hquote
  obtain ⟨hq, front, rest, rfl, hfront⟩ := List.find?_eq_some_iff_append.1 hfind
  exact ⟨front, q, rest, rfl, by simpa [QuoteFree] using hfront, hq⟩

theorem Reworded.quoteFree {t u : Text} (h : Reworded t u) (ht : QuoteFree t) : QuoteFree u := by
  induction h with
  | nil => exact ht
  | keep hc rest ih =>
    obtain ⟨-, ht⟩ := List.forall_mem_cons.1 ht
    exact List.forall_mem_cons.2 ⟨hc, ih ht⟩
  | number ds es hds hes rest ih =>
    obtain ⟨-, ht⟩ := List.forall_mem_append.1 ht
    exact List.forall_mem_append.2 ⟨hes.quoteFree, ih ht⟩
  | name inner other hl hr hinner hother rest ih =>
    have hno := ht _ List.mem_cons_self
    rw [hl] at hno
    cases hno
  | unpaired hq hfree rest ih =>
    have hno := ht _ List.mem_cons_self
    rw [hq] at hno
    cases hno

/-- Names are masked first, so that the pass over numbers sees no digit of a name. The state of that pass is
general, because a run of digits may go on in what follows. -/
theorem Reworded.maskNumbersFrom_eq {t u : Text} (h : Reworded t u) (inside : Bool) :
    maskNumbersFrom inside (maskNames t) = maskNumbersFrom inside (maskNames u) := by
  induction h generalizing inside with
  | nil => rfl
  | @keep c t u hc rest ih =>
    have hfree : QuoteFree [c] := List.forall_mem_singleton.2 hc
    have hcons : ∀ v : Text, maskNames (c :: v) = [c] ++ maskNames v := fun v => maskNames_append hfree v
    rw [hcons, hcons]
    exact maskNumbersFrom_append_congr ih [c] inside
  | number ds es hds hes rest ih =>
    rw [maskNames_append hds.quoteFree, maskNames_append hes.quoteFree, maskNumbersFrom_number hds,
      maskNumbersFrom_number hes, ih]
  | name inner other hl hr hinner hother rest ih =>
    rw [maskNames_pair hl hr hinner, maskNames_pair hl hr hother]
    exact maskNumbersFrom_append_congr ih nameMask inside
  | @unpaired q t u hq hfree rest ih =>
    have hfree' := rest.quoteFree hfree
    rw [maskNames_of_quoteFree hfree, maskNames_of_quoteFree hfree'] at ih
    rw [maskNames_unpaired hq hfree, maskNames_unpaired hq hfree']
    exact maskNumbersFrom_append_congr ih [q] inside

theorem Reworded.ofMessage_eq {t u : Text} (h : Reworded t u) : ofMessage t = ofMessage u := by
  have hmasked : maskNumbers (maskNames t) = maskNumbers (maskNames u) := h.maskNumbersFrom_eq false
  rw [ofMessage, ofMessage, hmasked]

/-- Every message can be read as a rewording of itself, whatever quotes it has. -/
theorem Reworded.refl (t : Text) : Reworded t t := by
  induction hlen : t.length using Nat.strongRecOn generalizing t with
  | ind n ih =>
    cases t with
    | nil => exact .nil
    | cons c t =>
      have hrest : ∀ u : Text, u.length ≤ t.length → Reworded u u := by
        intro u hu
        refine ih u.length ?_ u rfl
        rw [List.length_cons] at hlen
        omega
      by_cases hc : isQuote c = true
      · by_cases hfree : QuoteFree t
        · exact .unpaired hc hfree (hrest t (Nat.le_refl _))
        · -- The next quote is the partner of this one.
          obtain ⟨inner, r, u, rfl, hinner, hr⟩ := exists_first_quote hfree
          refine .name inner inner hc hr hinner hinner (hrest u ?_)
          rw [List.length_append, List.length_cons]
          omega
      · exact .keep (by simpa using hc) (hrest t (Nat.le_refl _))

theorem Reworded.keepAll (front : Text) {t u : Text} (hfront : QuoteFree front) (rest : Reworded t u) :
    Reworded (front ++ t) (front ++ u) := by
  induction front with
  | nil => exact rest
  | cons c front ih =>
    obtain ⟨hc, hfront⟩ := List.forall_mem_cons.1 hfront
    exact .keep hc (ih hfront)

/-- Names and numbers never split a cluster: a message and a rewording of it have one key, and diagnostics
with these messages are put into one cluster. -/
theorem reworded_share_cluster {m m' : Text} (h : Reworded m m') :
    ofMessage m = ofMessage m' ∧
    ∀ (ds : List Diagnostic) (d d' : Diagnostic), d ∈ ds → d' ∈ ds → d.message = m → d'.message = m' →
      Cluster.Together ds d d' := by
  refine ⟨h.ofMessage_eq, ?_⟩
  rintro ds d d' hd hd' rfl rfl
  exact (Cluster.together_iff hd hd').2 h.ofMessage_eq

/-- A name between quotes of two kinds, a name that is nothing at first, three numbers, and a last quote
without a partner. -/
theorem reworded_share_cluster_of_two_names :
    let d : Diagnostic := { file := "a.ts", line := 45, message := "12 of 'foo1\" and '' at 45: it's 7" }
    let e : Diagnostic := { file := "b.ts", line := 456, message := "3 of '/b/2\" and 'x y' at 456: it's 80" }
    Reworded d.message e.message ∧ ofMessage d.message = ofMessage e.message ∧ Cluster.Together [d, e] d e := by
  intro d e
  have hlast : Reworded "'s 7" "'s 80" :=
    .unpaired rfl (by decide) (.keepAll "s " (by decide) (.number "7" "80" (by decide) (by decide) .nil))
  have hmiddle : Reworded "'' at 45: it's 7" "'x y' at 456: it's 80" :=
    .name "" "x y" rfl rfl (by decide) (by decide)
      (.keepAll " at " (by decide)
        (.number "45" "456" (by decide) (by decide) (.keepAll ": it" (by decide) hlast)))
  have hall : Reworded d.message e.message :=
    .number "12" "3" (by decide) (by decide)
      (.keepAll " of " (by decide)
        (.name "foo1" "/b/2" rfl rfl (by decide) (by decide) (.keepAll " and " (by decide) hmiddle)))
  obtain ⟨hkey, htogether⟩ := reworded_share_cluster hall
  exact ⟨hall, hkey, htogether [d, e] d e List.mem_cons_self (List.mem_cons_of_mem _ List.mem_cons_self) rfl rfl⟩

end Mend.PatternKey
