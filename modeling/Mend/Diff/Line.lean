import Mend.Text

/-!
# Lines of a diff

The first characters of a line in a diff tell what it does. Lines that begin with three minus or
three plus signs name files and change nothing, whatever follows.
-/

namespace Mend.Diff

/-- What a line of a diff does. -/
inductive LineKind
  | removal
  | addition
  | context
  | other
  deriving DecidableEq, Repr

/-- Whether a line removes the text after its mark. -/
def isRemoval (line : Text) : Bool := line.startsWith "-" && !line.startsWith "---"

/-- Whether a line adds the text after its mark. -/
def isAddition (line : Text) : Bool := line.startsWith "+" && !line.startsWith "+++"

/-- Whether a line shows a text that stays. -/
def isContext (line : Text) : Bool := line.startsWith " "

/-- What a line does. -/
def kind (line : Text) : LineKind :=
  if isRemoval line then .removal
  else if isAddition line then .addition
  else if isContext line then .context
  else .other

/-- The text after the mark of a line. -/
def payload (line : Text) : Text := line.drop 1

theorem kind_eq_removal (line : Text) : kind line = .removal ↔ isRemoval line = true := by
  unfold kind
  split
  · simp_all
  · split
    · simp_all
    · split <;> simp_all

theorem isRemoval_eq_false_of_isAddition {line : Text} (h : isAddition line = true) :
    isRemoval line = false := by
  cases line with
  | nil => rfl
  | cons c t =>
    simp only [isAddition, isRemoval, Text.startsWith] at h ⊢
    simp_all [List.isPrefixOf]
    grind

theorem isContext_eq_false_of_isAddition {line : Text} (h : isAddition line = true) :
    isContext line = false := by
  cases line with
  | nil => rfl
  | cons c t =>
    simp only [isAddition, isContext, Text.startsWith] at h ⊢
    simp_all [List.isPrefixOf]
    grind

theorem isContext_eq_false_of_isRemoval {line : Text} (h : isRemoval line = true) :
    isContext line = false := by
  cases line with
  | nil => rfl
  | cons c t =>
    simp only [isRemoval, isContext, Text.startsWith] at h ⊢
    simp_all [List.isPrefixOf]
    grind

theorem kind_eq_addition (line : Text) : kind line = .addition ↔ isAddition line = true := by
  unfold kind
  constructor
  · intro h
    split at h
    · simp at h
    · split at h
      · assumption
      · split at h <;> simp at h
  · intro h
    simp [isRemoval_eq_false_of_isAddition h, h]

theorem kind_eq_context (line : Text) : kind line = .context ↔ isContext line = true := by
  unfold kind
  constructor
  · intro h
    split at h
    · simp at h
    · split at h
      · simp at h
      · split at h
        · assumption
        · simp at h
  · intro h
    have hr : isRemoval line = false := by
      cases hr : isRemoval line
      · rfl
      · rw [isContext_eq_false_of_isRemoval hr] at h; simp at h
    have ha : isAddition line = false := by
      cases ha : isAddition line
      · rfl
      · rw [isContext_eq_false_of_isAddition ha] at h; simp at h
    simp [hr, ha, h]

end Mend.Diff
