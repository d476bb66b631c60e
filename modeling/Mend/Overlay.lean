import Mend.Assoc
import Mend.Datum

/-!
# Overlays

Data from several sources are laid over each other: records are joined member by member, and any
other datum hides what lies below it. What lies below is never a collection that stands in itself.
-/

namespace Mend.Datum

mutual

/-- A datum over another one. -/
def overlay : (low : Datum) → (high : Datum) → Datum
  | .record ls, high =>
    match high.opened with
    | .record hs => .record (membersOver ls hs)
    | _ => high
  | _, high => high

/-- The members of a record over those of another one. The names that are there come first, in their
order. -/
def membersOver : (low : Fields) → (high : Fields) → Fields
  | [], hs => hs
  | (name, l) :: ls, hs =>
    (name, ((hs.lookup name).map (overlay l)).getD l) ::
      membersOver ls (hs.filter fun h => !(h.1 == name))

end

/-- The members with a change of what stands at the end of a way through records, if something does.
Records on the way are made where they are missing; where anything else is in the way, nothing changes. -/
def alter (change : Option Datum → Datum) : (way : List Text) → Fields → Fields
  | [], fs => fs
  | [name], fs => Assoc.put (.text name) (change (member? name fs)) fs
  | name :: way, fs =>
    match member? name fs with
    | none => Assoc.put (.text name) (.record (alter change way [])) fs
    | some (.record sub) => Assoc.put (.text name) (.record (alter change way sub)) fs
    | some _ => fs

/-- Below an empty overlay nothing is hidden. -/
theorem membersOver_nil (low : Fields) : membersOver low [] = low := by
  induction low with
  | nil => rfl
  | cons f fs ih => obtain ⟨name, l⟩ := f; simp [membersOver, ih]

end Mend.Datum
