import Mend.Overlay

/-!
# What is found in overlaid records

A member of overlaid records is the member of the record in which it is found, or one over the other where
both records have it.
-/

namespace Mend

/-- A name that is the same as a text is this text. -/
theorem Atom.text_beq_iff {t : Text} {a : Atom} : (text t == a) = true ↔ a = text t := by
  change sameName (text t) a = true ↔ _
  cases a with
  | text s => exact beq_iff_eq.trans ⟨fun h => congrArg text h.symm, fun h => (text.inj h).symm⟩
  | _ => simp [sameName, integer?]

namespace Datum

variable {name : Text}

theorem member?_cons_self (d : Datum) (fs : Fields) : member? name ((.text name, d) :: fs) = some d := by
  have hsame : (Atom.text name == Atom.text name) = true := Atom.text_beq_iff.2 rfl
  rw [member?, List.lookup_cons, hsame]

theorem member?_cons_of_ne {key : Atom} (h : key ≠ .text name) (d : Datum) (fs : Fields) :
    member? name ((key, d) :: fs) = member? name fs := by
  have hother : (Atom.text name == key) = false := Bool.eq_false_iff.2 fun hsame => h (Atom.text_beq_iff.1 hsame)
  rw [member?, List.lookup_cons, hother, member?]

/-- A member is not lost with the members of another name. -/
theorem member?_filter {key : Atom} (h : key ≠ .text name) (fs : Fields) :
    member? name (fs.filter fun f => !(f.1 == key)) = member? name fs := by
  induction fs with
  | nil => rfl
  | cons f fs ih =>
    obtain ⟨a, d⟩ := f
    by_cases hsame : (a == key) = true
    · have ha : a ≠ .text name := by
        rintro rfl
        exact h (Atom.text_beq_iff.1 hsame)
      rw [List.filter_cons_of_neg (by simp [hsame]), ih, member?_cons_of_ne ha]
    · rw [List.filter_cons_of_pos (by simp [hsame])]
      by_cases ha : a = .text name
      · rw [ha, member?_cons_self, member?_cons_self]
      · rw [member?_cons_of_ne ha, ih, member?_cons_of_ne ha]

theorem member?_membersOver (ls hs : Fields) : member? name (membersOver ls hs) =
    match member? name ls, member? name hs with
    | some low, some high => some (overlay low high)
    | some low, none => some low
    | none, high => high := by
  induction ls generalizing hs with
  | nil => simp [membersOver, member?]
  | cons l ls ih =>
    obtain ⟨key, low⟩ := l
    rw [membersOver]
    by_cases htext : key = .text name
    · subst htext
      rw [member?_cons_self, member?_cons_self]
      cases h : member? name hs with
      | none => rw [show hs.lookup (.text name) = none from h]; rfl
      | some high => rw [show hs.lookup (.text name) = some high from h]; rfl
    · rw [member?_cons_of_ne htext, member?_cons_of_ne htext, ih, member?_filter htext]

/-- A record lies under another one member by member. -/
theorem overlay_of_opened {ls hs : Fields} {high : Datum} (h : high.opened = .record hs) :
    overlay (.record ls) high = .record (membersOver ls hs) := by
  rw [overlay, h]

/-- Anything but a record is hidden. -/
theorem overlay_of_ne_record {low : Datum} (h : ∀ fs, low ≠ .record fs) (high : Datum) :
    overlay low high = high := by
  cases low with
  | record fs => exact absurd rfl (h fs)
  | _ => simp [overlay]

end Datum

end Mend
