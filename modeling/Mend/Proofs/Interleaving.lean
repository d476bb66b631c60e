import Mathlib.Algebra.GroupWithZero.Nat

/-!
# Interleavings

A list interleaves two others if it is made of the elements of both, each of them in its order. Elements
need not be the same: it is enough that each one is related to the one that it comes from.
-/

namespace Mend

/-- Whether the third list is made of elements related to those of the first two, in the order of each. -/
inductive Interleaving {α β : Type} (R : α → β → Prop) : List α → List α → List β → Prop
  | nil : Interleaving R [] [] []
  | left {a : α} {l : β} {as bs : List α} {ls : List β} (h : R a l)
      (rest : Interleaving R as bs ls) : Interleaving R (a :: as) bs (l :: ls)
  | right {b : α} {l : β} {as bs : List α} {ls : List β} (h : R b l)
      (rest : Interleaving R as bs ls) : Interleaving R as (b :: bs) (l :: ls)

namespace Interleaving

variable {α β : Type} {R : α → β → Prop} {as bs : List α} {ls : List β}

theorem symm (h : Interleaving R as bs ls) : Interleaving R bs as ls := by
  induction h with
  | nil => exact .nil
  | left h rest ih => exact .right h ih
  | right h rest ih => exact .left h ih

/-- What related elements are mapped to is interleaved in the same way. -/
theorem map {γ δ : Type} {Q : γ → δ → Prop} (h : Interleaving R as bs ls) (f : α → γ) (g : β → δ)
    (hfg : ∀ a l, R a l → Q (f a) (g l)) :
    Interleaving Q (as.map f) (bs.map f) (ls.map g) := by
  induction h with
  | nil => exact .nil
  | left h rest ih => exact .left (hfg _ _ h) ih
  | right h rest ih => exact .right (hfg _ _ h) ih

theorem filter (h : Interleaving R as bs ls) (p : α → Bool) (q : β → Bool)
    (hpq : ∀ a l, R a l → p a = q l) :
    Interleaving R (as.filter p) (bs.filter p) (ls.filter q) := by
  induction h with
  | nil => exact .nil
  | @left a l as bs ls h rest ih =>
    rw [List.filter_cons, List.filter_cons, hpq a l h]
    split
    · exact .left h ih
    · exact ih
  | @right b l as bs ls h rest ih =>
    rw [List.filter_cons, List.filter_cons, hpq b l h]
    split
    · exact .right h ih
    · exact ih

/-- A quantity that related elements share adds up. -/
theorem sum_map (h : Interleaving R as bs ls) (f : α → Nat) (g : β → Nat)
    (hfg : ∀ a l, R a l → f a = g l) :
    (ls.map g).sum = (as.map f).sum + (bs.map f).sum := by
  induction h with
  | nil => rfl
  | @left a l as bs ls h rest ih =>
    rw [List.map_cons, List.map_cons, List.sum_cons, List.sum_cons, ih, hfg a l h]
    omega
  | @right b l as bs ls h rest ih =>
    rw [List.map_cons, List.map_cons, List.sum_cons, List.sum_cons, ih, hfg b l h]
    omega

theorem length_eq (h : Interleaving R as bs ls) : ls.length = as.length + bs.length := by
  induction h with
  | nil => rfl
  | left h rest ih => simp only [List.length_cons, ih]; omega
  | right h rest ih => simp only [List.length_cons, ih]; omega

/-- An interleaving with nothing is the list itself. -/
theorem eq_of_nil {as bs : List α} (h : Interleaving Eq as [] bs) : as = bs := by
  generalize hnil : ([] : List α) = none at h
  induction h with
  | nil => rfl
  | left h rest ih => rw [h, ih hnil]
  | right h rest ih => cases hnil

end Interleaving

end Mend
