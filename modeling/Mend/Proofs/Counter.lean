import Mathlib.Algebra.BigOperators.Group.List.Basic
import Mathlib.Algebra.Order.Field.Rat
import Mathlib.Tactic.Abel
import Mend.Proofs.Rational
import Mend.Workspace

/-!
# Counters in exact numbers

Read over the rational numbers, a counter holds for each label set what was added under it, and in total what
was added at all (`get_inc`, `sum_inc`). What happens in a workspace adds some amounts to the counters of the
process (`Workspace.Adds`); by these the counters grow, each one in total (`Adds.grows`) and under each label
set (`Adds.growsUnder`).
-/

namespace Mend

open Metrics (CounterName Counter Labels Registry Tally)

namespace Metrics

instance : Tally ℚ := ⟨0, fun n => n⟩

namespace Counter

/-- All sums of a counter together. -/
def sum (c : Counter ℚ) : ℚ := (c.sums.map Prod.snd).sum

theorem total_eq (c : Counter ℚ) : c.total = .ok c.sum := by
  have hfold : ∀ (sums : List (Labels × ℚ)) (s : ℚ),
      sums.foldlM (fun s x => Number.Arithmetic.add s x.2) s = .ok (s + (sums.map Prod.snd).sum) := by
    intro sums
    induction sums with
    | nil => intro s; rw [List.map_nil, List.sum_nil, add_zero]; rfl
    | cons x sums ih =>
      intro s
      rw [List.foldlM_cons, Number.rational_add, List.map_cons, List.sum_cons, ← add_assoc]
      exact ih (s + x.2)
  rw [total, hfold, Number.rational_zero, zero_add, sum]

/-- The sum of a label set is exchanged, wherever it stands. -/
theorem sum_put (labels : Labels) (s : ℚ) (sums : List (Labels × ℚ)) :
    ((Assoc.put labels s sums).map Prod.snd).sum =
      (sums.map Prod.snd).sum - (sums.lookup labels).getD 0 + s := by
  induction sums with
  | nil => simp [Assoc.put]
  | cons x sums ih =>
    obtain ⟨l, x⟩ := x
    unfold Assoc.put
    by_cases h : l = labels
    · rw [h, if_pos (beq_self_eq_true labels), List.lookup_cons_self, Option.getD_some, List.map_cons,
        List.map_cons, List.sum_cons,
        List.sum_cons]
      abel
    · have hplace : (l == labels) = false := beq_eq_false_iff_ne.2 h
      have hother : (labels == l) = false := beq_eq_false_iff_ne.2 fun e => h e.symm
      rw [hplace, if_neg Bool.false_ne_true, List.lookup_cons, hother, List.map_cons, List.map_cons,
        List.sum_cons, List.sum_cons, ih]
      abel

theorem inc_eq {a : ℚ} (ha : 0 ≤ a) (c : Counter ℚ) (labels : Labels) :
    c.inc a labels = (⟨Assoc.put labels (c.get labels + a) c.sums⟩, .ok ()) := by
  have hless : Number.Arithmetic.less a Number.Arithmetic.zero = false := decide_eq_false (not_lt.2 ha)
  unfold inc
  rw [hless]
  rfl

theorem get_inc {a : ℚ} (ha : 0 ≤ a) (c : Counter ℚ) (labels l : Labels) :
    (c.inc a labels).1.get l = c.get l + if l = labels then a else 0 := by
  rw [inc_eq ha, get, Assoc.lookup_put]
  by_cases h : l = labels
  · rw [h, if_pos (beq_self_eq_true labels), if_pos rfl, Option.getD_some]
  · rw [beq_eq_false_iff_ne.2 h, if_neg Bool.false_ne_true, if_neg h, add_zero, get]

theorem sum_inc {a : ℚ} (ha : 0 ≤ a) (c : Counter ℚ) (labels : Labels) :
    (c.inc a labels).1.sum = c.sum + a := by
  rw [inc_eq ha, sum, sum_put, get, Number.rational_zero, sum]
  abel

end Counter

end Metrics

/-! ### What is added to the counters of a process -/

/-- An amount that is added to a counter under a label set. -/
structure Addition where
  counter : CounterName
  labels : Labels
  amount : Nat

/-- What an event adds to the counters. -/
def Event.addition? : Event → Option Addition
  | .counted c labels n => some ⟨c, labels, n⟩
  | _ => none

namespace Addition

/-- The amount that is added to a counter. -/
def amountTo (a : Addition) (c : CounterName) : Nat := if c = a.counter then a.amount else 0

/-- The amount that is added to a counter under a label set. -/
def amountUnder (a : Addition) (c : CounterName) (l : Labels) : Nat := if l = a.labels then a.amountTo c else 0

/-- All that some additions add to a counter. -/
def sumTo (as : List Addition) (c : CounterName) : Nat := (as.map fun a => a.amountTo c).sum

/-- All that some additions add to a counter under a label set. -/
def sumUnder (as : List Addition) (c : CounterName) (l : Labels) : Nat := (as.map fun a => a.amountUnder c l).sum

@[simp] theorem sumTo_nil (c : CounterName) : sumTo [] c = 0 := rfl

@[simp] theorem sumUnder_nil (c : CounterName) (l : Labels) : sumUnder [] c l = 0 := rfl

@[simp] theorem sumTo_cons (a : Addition) (as : List Addition) (c : CounterName) :
    sumTo (a :: as) c = a.amountTo c + sumTo as c := rfl

@[simp] theorem sumUnder_cons (a : Addition) (as : List Addition) (c : CounterName) (l : Labels) :
    sumUnder (a :: as) c l = a.amountUnder c l + sumUnder as c l := rfl

@[simp] theorem sumTo_append (as bs : List Addition) (c : CounterName) :
    sumTo (as ++ bs) c = sumTo as c + sumTo bs c := by
  rw [sumTo, List.map_append, List.sum_append, sumTo, sumTo]

@[simp] theorem sumUnder_append (as bs : List Addition) (c : CounterName) (l : Labels) :
    sumUnder (as ++ bs) c l = sumUnder as c l + sumUnder bs c l := by
  rw [sumUnder, List.map_append, List.sum_append, sumUnder, sumUnder]

end Addition

theorem counters_after (r : Registry ℚ) (e : Event) (c : CounterName) :
    (r.after e).counters c = match e.addition? with
      | some a => if c = a.counter then ((r.counters c).inc (a.amount : ℚ) a.labels).1 else r.counters c
      | none => r.counters c := by
  cases e with
  | counted counter labels amount =>
    show (if c = counter then ((r.counters counter).inc (amount : ℚ) labels).1 else r.counters c) = _
    dsimp only [Event.addition?]
    split
    · next h => rw [h]
    · rfl
  | notice n => rfl
  | timed timing seconds => rfl
  | asked question => rfl
  | exchange e => rfl

/-- What some events add to a registry of exact numbers. -/
theorem counters_foldl_after (es : List Event) (r : Registry ℚ) (c : CounterName) :
    ((es.foldl Registry.after r).counters c).sum =
        (r.counters c).sum + Addition.sumTo (es.filterMap Event.addition?) c ∧
      ∀ l, ((es.foldl Registry.after r).counters c).get l =
        (r.counters c).get l + Addition.sumUnder (es.filterMap Event.addition?) c l := by
  induction es generalizing r with
  | nil => simp
  | cons e es ih =>
    obtain ⟨hsum, hget⟩ := ih (r.after e)
    rw [List.foldl_cons]
    rw [counters_after] at hsum
    simp only [counters_after] at hget
    cases he : e.addition? with
    | none =>
      rw [he] at hsum
      simp only [he] at hget
      rw [List.filterMap_cons_none he]
      exact ⟨hsum, hget⟩
    | some a =>
      have hamount : (0 : ℚ) ≤ a.amount := Nat.cast_nonneg _
      rw [he] at hsum
      simp only [he] at hget
      rw [List.filterMap_cons_some he, Addition.sumTo_cons]
      simp only [Addition.sumUnder_cons, Addition.amountUnder, Addition.amountTo]
      by_cases hc : c = a.counter
      · simp only [if_pos hc, Counter.sum_inc hamount] at hsum
        simp only [if_pos hc, Counter.get_inc hamount] at hget
        refine ⟨?_, fun l => ?_⟩
        · rw [hsum, if_pos hc]
          push_cast
          abel
        · rw [hget, if_pos hc]
          push_cast
          abel
      · simp only [if_neg hc] at hsum hget
        refine ⟨?_, fun l => ?_⟩
        · rw [hsum, if_neg hc, Nat.zero_add]
        · rw [hget, if_neg hc, ite_self, Nat.zero_add]

namespace Workspace

/-- A counter of a workspace in exact numbers. -/
def exact (w : Workspace) (c : CounterName) : Counter ℚ := (w.metricsIn ℚ).counters c

/-- Whether the sum of each counter over all its label sets grew by some amount. -/
def Grows (w w' : Workspace) (n : CounterName → Nat) : Prop :=
  ∀ c, ∃ t, (w.exact c).total = .ok t ∧ (w'.exact c).total = .ok (t + n c)

/-- Whether each counter grew by some amount under each label set. -/
def GrowsUnder (w w' : Workspace) (n : CounterName → Labels → Nat) : Prop :=
  ∀ c l, (w'.exact c).get l = (w.exact c).get l + n c l

theorem Grows.congr {w w' : Workspace} {m n : CounterName → Nat} (h : w.Grows w' m) (hmn : ∀ c, m c = n c) :
    w.Grows w' n := funext hmn ▸ h

theorem GrowsUnder.congr {w w' : Workspace} {m n : CounterName → Labels → Nat} (h : w.GrowsUnder w' m)
    (hmn : ∀ c l, m c l = n c l) : w.GrowsUnder w' n := (funext fun c => funext (hmn c)) ▸ h

/-- Whether what happened since made some additions. -/
def Adds (w w' : Workspace) (as : List Addition) : Prop :=
  ∃ es, w'.journal = w.journal ++ es ∧ es.filterMap Event.addition? = as

namespace Adds

variable {w w' w'' : Workspace} {as bs : List Addition}

theorem refl (w : Workspace) : w.Adds w [] := ⟨[], (List.append_nil _).symm, rfl⟩

theorem trans (h : w.Adds w' as) (k : w'.Adds w'' bs) : w.Adds w'' (as ++ bs) := by
  obtain ⟨es, hes, rfl⟩ := h
  obtain ⟨fs, hfs, rfl⟩ := k
  exact ⟨es ++ fs, by rw [hfs, hes, List.append_assoc], List.filterMap_append⟩

theorem noteAll (h : w.Adds w' as) (xs : List Notice) : w.Adds (w'.noteAll xs) as := by
  have hnone : (xs.map Event.notice).filterMap Event.addition? = [] := by
    rw [List.filterMap_map]
    exact List.filterMap_eq_nil_iff.2 fun _ _ => rfl
  have hadds := h.trans ⟨_, journal_noteAll w' xs, hnone⟩
  rwa [List.append_nil] at hadds

theorem note (h : w.Adds w' as) (x : Notice) : w.Adds (w'.note x) as := h.noteAll [x]

theorem withFiles (h : w.Adds w' as) (files : FileTree) : w.Adds { w' with files := files } as := h

theorem count (h : w.Adds w' as) (c : CounterName) (labels : Labels) (n : Nat) :
    w.Adds (w'.count c labels n) (as ++ [⟨c, labels, n⟩]) :=
  h.trans ⟨[_], rfl, rfl⟩

theorem grows (h : w.Adds w' as) : w.Grows w' (Addition.sumTo as) := by
  obtain ⟨es, hes, rfl⟩ := h
  intro c
  refine ⟨(w.exact c).sum, Counter.total_eq _, ?_⟩
  have hsum := (counters_foldl_after es (w.metricsIn ℚ) c).1
  rw [Counter.total_eq, exact, metricsIn, hes, List.foldl_append, ← metricsIn, hsum]
  rfl

theorem growsUnder (h : w.Adds w' as) : w.GrowsUnder w' (Addition.sumUnder as) := by
  obtain ⟨es, hes, rfl⟩ := h
  intro c l
  have hget := (counters_foldl_after es (w.metricsIn ℚ) c).2 l
  rw [exact, metricsIn, hes, List.foldl_append, ← metricsIn, hget]
  rfl

end Adds

end Workspace

end Mend
