import Mathlib.Algebra.GroupWithZero.Nat
import Mathlib.Data.List.Basic
import Mend.Engine
import Mend.Proofs.Counter

/-!
# The books of a batch

A batch is a course of calls: patches are applied up to the first one that is refused, and then those before it
are reverted, the last one first, whether or not a revert is refused. What the batch tells about itself, and what
it adds to the counters, is read off the answers of these calls (`applyBatch_keeps_books`).
-/

namespace Mend

open Metrics (CounterName Labels)

namespace Engine

inductive Call
  | forth (item : Item)
  | back (item : Item)

/-- Calls with their answers, from one workspace to another. A revert that is refused is noted. -/
inductive Course (strict : Bool) : Workspace → List (Call × Bool) → Workspace → Prop
  | nil (w : Workspace) : Course strict w [] w
  | forth {w w1 w2 : Workspace} {item : Item} {answer : Bool} {calls : List (Call × Bool)}
      (called : apply strict w item.path item.patch = (w1, .ok answer)) (later : Course strict w1 calls w2) :
      Course strict w ((.forth item, answer) :: calls) w2
  | back {w w1 w2 : Workspace} {item : Item} {calls : List (Call × Bool)}
      (called : revert strict w item.path item.patch = (w1, .ok true)) (later : Course strict w1 calls w2) :
      Course strict w ((.back item, true) :: calls) w2
  | kept {w w1 w2 : Workspace} {item : Item} {calls : List (Call × Bool)}
      (called : revert strict w item.path item.patch = (w1, .ok false))
      (later : Course strict (w1.note (.rollbackFailed item.path)) calls w2) :
      Course strict w ((.back item, false) :: calls) w2

def Call.item : Call → Item
  | .forth item => item
  | .back item => item

def counterOf : Bool → CounterName
  | true => .patchesApplied
  | false => .patchesFailed

/-- What a call with an answer adds to the counters. -/
def addition (x : Call × Bool) : Addition := ⟨counterOf x.2, sourceLabel x.1.item.patch, 1⟩

section

variable {strict : Bool} {w w' w'' : Workspace} {item : Item} {items : List Item} {calls more : List (Call × Bool)}

theorem Course.append (h : Course strict w calls w') (k : Course strict w' more w'') :
    Course strict w (calls ++ more) w'' := by
  induction h with
  | nil w => exact k
  | forth called later ih => exact .forth called (ih k)
  | back called later ih => exact .back called (ih k)
  | kept called later ih => exact .kept called (ih k)

/-! ### One call -/

theorem adds_apply {path : Text} {p : Patch} {answer : Bool} (h : apply strict w path p = (w', .ok answer)) :
    w.Adds w' [⟨counterOf answer, sourceLabel p, 1⟩] := by
  unfold apply at h
  simp only at h
  cases hv : patchFile strict w.files (Path.ofText path) p with
  | mk ns verdict =>
    have hnoted := (Workspace.Adds.refl w).noteAll ns
    rw [hv] at h
    cases verdict with
    | written files =>
      obtain ⟨rfl, ha⟩ := Prod.mk.inj h
      obtain rfl := Except.ok.inj ha
      exact ((hnoted.withFiles files).note
        (.patchApplied (Path.ofText path).text p.description)).count .patchesApplied (sourceLabel p) 1
    | refused r =>
      obtain ⟨rfl, ha⟩ := Prod.mk.inj h
      obtain rfl := Except.ok.inj ha
      exact (hnoted.note (.patchFailed (Path.ofText path).text r.message r.kind)).count
        .patchesFailed (sourceLabel p) 1
    | raised f => cases (Prod.mk.inj h).2

theorem adds_revert {path : Text} {p : Patch} {answer : Bool} (h : revert strict w path p = (w', .ok answer)) :
    w.Adds w' [⟨counterOf answer, sourceLabel p, 1⟩] :=
  ((Workspace.Adds.refl w).note (.reverting path)).trans (adds_apply (p := reversed p) h)

/-! ### Courses -/

theorem Course.adds (h : Course strict w calls w') : w.Adds w' (calls.map addition) := by
  induction h with
  | nil w => exact .refl w
  | forth called later ih => exact (adds_apply called).trans ih
  | back called later ih => exact (adds_revert called).trans ih
  | kept called later ih => exact ((adds_revert called).note _).trans ih

/-- Items are applied up to the first one that is refused. -/
theorem course_of_applyItems {before applied : List Item} {refused : Option Item}
    (h : applyItems strict before items w = (w', .ok (applied, refused))) :
    (refused = none ∧ applied = items.reverse ++ before ∧
      Course strict w (items.map fun item => (.forth item, true)) w') ∨
    ∃ done failed rest, refused = some failed ∧ items = done ++ failed :: rest ∧
      applied = done.reverse ++ before ∧
      Course strict w (done.map (fun item => (.forth item, true)) ++ [(.forth failed, false)]) w' := by
  induction items generalizing w before with
  | nil =>
    obtain ⟨rfl, rfl, rfl⟩ : w = w' ∧ before = applied ∧ none = refused := by simpa [applyItems] using h
    exact .inl ⟨rfl, rfl, .nil w⟩
  | cons item items ih =>
    unfold applyItems at h
    split at h
    · next w1 called =>
      rcases ih h with ⟨hnone, happlied, hcourse⟩ | ⟨done, failed, rest, hsome, hitems, happlied, hcourse⟩
      · refine .inl ⟨hnone, ?_, .forth called hcourse⟩
        rw [happlied, List.reverse_cons, List.append_assoc, List.singleton_append]
      · refine .inr ⟨item :: done, failed, rest, hsome, by rw [hitems, List.cons_append], ?_,
          .forth called hcourse⟩
        rw [happlied, List.reverse_cons, List.append_assoc, List.singleton_append]
    · next w1 called =>
      obtain ⟨rfl, rfl, rfl⟩ : w1 = w' ∧ before = applied ∧ some item = refused := by simpa using h
      exact .inr ⟨[], item, items, rfl, rfl, rfl, .forth called (.nil _)⟩
    · simp at h

/-- The items that could not be reverted, of items with the answers of their reverts. -/
def kept (answered : List (Item × Bool)) : List Item := (answered.filter fun x => !x.2).map Prod.fst

/-- All items are reverted, whatever the answers are. -/
theorem course_of_revertItems {failures : List Item} (h : revertItems strict items w = (w', .ok failures)) :
    ∃ answered, answered.map Prod.fst = items ∧ failures = kept answered ∧
      Course strict w (answered.map fun x => (.back x.1, x.2)) w' := by
  induction items generalizing w failures with
  | nil =>
    obtain ⟨rfl, rfl⟩ : w = w' ∧ [] = failures := by simpa [revertItems] using h
    exact ⟨[], rfl, rfl, .nil w⟩
  | cons item items ih =>
    unfold revertItems at h
    split at h
    · next w1 called =>
      obtain ⟨answered, rfl, hfailures, hcourse⟩ := ih h
      exact ⟨(item, true) :: answered, rfl, hfailures, .back called hcourse⟩
    · next w1 called =>
      split at h
      · next w2 later hlater =>
        obtain ⟨rfl, rfl⟩ : w2 = w' ∧ item :: later = failures := by simpa using h
        obtain ⟨answered, rfl, rfl, hcourse⟩ := ih hlater
        exact ⟨(item, false) :: answered, rfl, rfl, .kept called hcourse⟩
      · simp at h
    · simp at h

/-! ### Batches -/

/-- Amounts for the counters that a batch adds to. -/
def batchCounts (applied failed rolledBack failures : Nat) : CounterName → Nat
  | .patchesApplied => applied
  | .patchesFailed => failed
  | .batchesRolledBack => rolledBack
  | .rollbackFailures => failures
  | _ => 0

/-- How many calls count for a counter under a label set: those that were answered accordingly and are about a
patch from that source. -/
def countUnder (calls : List (Call × Bool)) (c : CounterName) (l : Labels) : Nat :=
  calls.countP fun x => l = sourceLabel x.1.item.patch ∧ c = counterOf x.2

theorem sumUnder_additions (calls : List (Call × Bool)) :
    Addition.sumUnder (calls.map addition) = countUnder calls := by
  funext c l
  induction calls with
  | nil => rfl
  | cons x calls ih =>
    rw [List.map_cons, Addition.sumUnder_cons, ih, countUnder, countUnder, List.countP_cons, Nat.add_comm,
      Addition.amountUnder, Addition.amountTo, ← ite_and]
    congr 1
    exact if_congr decide_eq_true_iff.symm rfl rfl

theorem sumTo_forth (items : List Item) (c : CounterName) :
    Addition.sumTo ((items.map fun item => (.forth item, true)).map addition) c =
      batchCounts items.length 0 0 0 c := by
  induction items with
  | nil => cases c <;> rfl
  | cons item items ih =>
    rw [List.map_cons, List.map_cons, Addition.sumTo_cons, ih, addition, Addition.amountTo]
    cases c <;> simp [counterOf, batchCounts, Nat.add_comm]

theorem length_kept_le (answered : List (Item × Bool)) : (kept answered).length ≤ answered.length := by
  rw [kept, List.length_map]
  exact List.length_filter_le _ _

theorem sumTo_back (answered : List (Item × Bool)) (c : CounterName) :
    Addition.sumTo ((answered.map fun x => (.back x.1, x.2)).map addition) c =
      batchCounts (answered.length - (kept answered).length) (kept answered).length 0 0 c := by
  induction answered with
  | nil => cases c <;> rfl
  | cons x answered ih =>
    obtain ⟨item, answer⟩ := x
    have hle := length_kept_le answered
    rw [List.map_cons, List.map_cons, Addition.sumTo_cons, ih, addition, Addition.amountTo]
    cases answer with
    | true =>
      have hkept : kept ((item, true) :: answered) = kept answered := rfl
      rw [hkept, List.length_cons]
      cases c <;> simp [counterOf, batchCounts]
      omega
    | false =>
      have hkept : kept ((item, false) :: answered) = item :: kept answered := rfl
      rw [hkept, List.length_cons, List.length_cons]
      cases c <;> simp [counterOf, batchCounts]
      omega

/-- What a rollback adds to the counters after its reverts: items that could not be reverted are counted if there
are any. -/
def closing (failures : List Item) : List Addition :=
  ⟨.batchesRolledBack, [], 1⟩ :: if failures.isEmpty then [] else [⟨.rollbackFailures, [], failures.length⟩]

theorem sumTo_closing (failures : List Item) (c : CounterName) :
    Addition.sumTo (closing failures) c = batchCounts 0 0 1 failures.length c := by
  cases failures with
  | nil => cases c <;> rfl
  | cons item failures => cases c <;> simp [closing, Addition.amountTo, batchCounts]

theorem sumUnder_closing (failures : List Item) (c : CounterName) (l : Labels) :
    Addition.sumUnder (closing failures) c l = if l = [] then batchCounts 0 0 1 failures.length c else 0 := by
  have heach : ∀ a ∈ closing failures, a.labels = [] := by
    unfold closing
    split <;> simp
  rw [← sumTo_closing]
  split
  · next h =>
    refine congrArg List.sum (List.map_congr_left fun a ha => ?_)
    rw [Addition.amountUnder, heach a ha, if_pos h]
  · next h =>
    refine List.sum_eq_zero fun n hn => ?_
    obtain ⟨a, ha, rfl⟩ := List.mem_map.1 hn
    rw [Addition.amountUnder, heach a ha, if_neg h]

theorem rollBack_keeps_books {applied : List Item} {failed : Item} {b : BatchResult}
    (h : rollBack strict applied failed w = (w', .ok b)) :
    ∃ answered, answered.map Prod.fst = applied ∧
      b = ⟨(kept answered).length, true, some (failureReason failed), some failed, kept answered⟩ ∧
      (∃ w2, Course strict (w.note (.batchFailed (failureReason failed) applied.length))
        (answered.map fun x => (.back x.1, x.2)) w2 ∧ w'.files = w2.files) ∧
      w.Adds w' ((answered.map fun x => (.back x.1, x.2)).map addition ++ closing (kept answered)) := by
  simp only [rollBack] at h
  cases hrev : revertItems strict applied (w.note (.batchFailed (failureReason failed) applied.length)) with
  | mk w2 result =>
    rw [hrev] at h
    cases result with
    | error f => simp at h
    | ok failures =>
      obtain ⟨answered, happlied, rfl, hcourse⟩ := course_of_revertItems hrev
      obtain ⟨rfl, hb⟩ := Prod.mk.inj h
      refine ⟨answered, happlied, (Except.ok.inj hb).symm, ⟨w2, hcourse, by split <;> rfl⟩, ?_⟩
      have hback := (((Workspace.Adds.refl w).note
        (.batchFailed (failureReason failed) applied.length)).trans hcourse.adds).count .batchesRolledBack [] 1
      unfold closing
      split
      · exact hback.note _
      · rw [List.append_cons]
        exact (hback.count _ _ _).note _

/-- What a batch that comes to an answer has done. Either all items were applied. Or the items up to the first one
that was refused were called for, each one once and in order; those before it were reverted, each one once and
the last one first; and the answer names the refused item and the items that could not be reverted. The counters
grow by what was done: each one in total, and the calls under the sources of their patches. -/
theorem applyBatch_keeps_books {b : BatchResult} (h : applyBatch strict w items = (w', .ok b)) :
    (b = ⟨items.length, false, none, none, []⟩ ∧ ∃ w1, let calls := items.map fun item => (.forth item, true)
      Course strict (w.note (.applyingBatch items.length)) calls w1 ∧
      w' = w1.note (.batchApplied items.length) ∧ w.Grows w' (batchCounts items.length 0 0 0) ∧
      w.GrowsUnder w' (countUnder calls)) ∨
    ∃ done failed rest, items = done ++ failed :: rest ∧ ∃ answered, answered.map Prod.fst = done.reverse ∧
      let failures := kept answered
      let forth := done.map (fun item => (.forth item, true)) ++ [(.forth failed, false)]
      let back := answered.map fun x => (.back x.1, x.2)
      b = ⟨failures.length, true, some (failureReason failed), some failed, failures⟩ ∧ (∃ w1 w2,
        Course strict (w.note (.applyingBatch items.length)) forth w1 ∧
        Course strict (w1.note (.batchFailed (failureReason failed) done.length)) back w2 ∧
        w'.files = w2.files) ∧
      w.Grows w' (batchCounts (done.length + (done.length - failures.length)) (1 + failures.length) 1
        failures.length) ∧
      w.GrowsUnder w' fun c l =>
        countUnder (forth ++ back) c l + if l = [] then batchCounts 0 0 1 failures.length c else 0 := by
  have hbegun := (Workspace.Adds.refl w).note (.applyingBatch items.length)
  unfold applyBatch at h
  cases hrun : applyItems strict [] items (w.note (.applyingBatch items.length)) with
  | mk w1 result =>
    rw [hrun] at h
    cases result with
    | error f => simp at h
    | ok found =>
      obtain ⟨applied, refused⟩ := found
      rcases course_of_applyItems hrun with
        ⟨rfl, rfl, hcourse⟩ | ⟨done, failed, rest, rfl, hitems, rfl, hcourse⟩
      · obtain ⟨rfl, hb⟩ := Prod.mk.inj h
        rw [List.append_nil, List.length_reverse] at hb ⊢
        have hadds := (hbegun.trans hcourse.adds).note (.batchApplied items.length)
        refine .inl ⟨(Except.ok.inj hb).symm, w1, hcourse, rfl, ?_, ?_⟩
        · exact hadds.grows.congr (sumTo_forth items)
        · exact sumUnder_additions _ ▸ hadds.growsUnder
      · rw [List.append_nil] at h
        obtain ⟨answered, hanswered, hb, ⟨w2, hback, hfiles⟩, hrolled⟩ := rollBack_keeps_books h
        rw [List.length_reverse] at hback
        have hlen : answered.length = done.length := by
          have hlengths := congrArg List.length hanswered
          rwa [List.length_map, List.length_reverse] at hlengths
        have hadds := (hbegun.trans hcourse.adds).trans hrolled
        refine .inr ⟨done, failed, rest, hitems, answered, hanswered, hb, ⟨w1, w2, hcourse, hback, hfiles⟩, ?_, ?_⟩
        · refine hadds.grows.congr fun c => ?_
          simp only [List.nil_append, List.map_append, Addition.sumTo_append, sumTo_forth, sumTo_back,
            sumTo_closing, hlen]
          cases c <;> simp [batchCounts, Addition.amountTo, addition, counterOf]
        · refine hadds.growsUnder.congr fun c l => ?_
          rw [← sumUnder_closing, ← sumUnder_additions]
          simp only [List.nil_append, List.map_append, Addition.sumUnder_append, Nat.add_assoc]

end

/-- The third item is for a file that is missing. The second one, which was taken without a look at its line, is
reverted by another line than the old one, so that the first one no longer finds its context. -/
theorem applyBatch_keeps_books_of_kept_item :
    let first : Item := ⟨"a.ts", ⟨"@@ -1,2 +1,2 @@\n one\n-two\n+zwei", "", "a.ts", .generated⟩⟩
    let second : Item := ⟨"a.ts", ⟨"@@ -1 +1 @@\n-uno\n+eins", "", "a.ts", .generated⟩⟩
    let third : Item := ⟨"b.ts", ⟨"@@ -1 +1 @@\n-x\n+y", "", "b.ts", .generated⟩⟩
    let w : Workspace := .start { files := [(["a.ts"], Utf8.encode "one\ntwo")] }
    ∃ w', applyBatch false w [first, second, third] =
        (w', .ok ⟨1, true, some "Failed to apply patch to b.ts", some third, [first]⟩) ∧
      w.Grows w' (batchCounts 3 2 1 1) ∧ (w'.exact .patchesFailed).get [("source", "generated")] = 2 ∧
      (w'.exact .rollbackFailures).get [] = 1 := by
  intro first second third w
  have hanswer : (applyBatch false w [first, second, third]).2 =
      .ok ⟨1, true, some "Failed to apply patch to b.ts", some third, [first]⟩ := by
    decide
  cases hrun : applyBatch false w [first, second, third] with
  | mk w' result =>
    rw [hrun] at hanswer
    obtain rfl : result = _ := hanswer
    rcases applyBatch_keeps_books hrun with
      ⟨hb, -⟩ | ⟨done, failed, rest, hitems, answered, hanswered, hb, -, hgrows, hunder⟩
    · cases hb
    · simp only [BatchResult.mk.injEq, Option.some.injEq] at hb
      obtain ⟨hcount, -, -, rfl, hkept⟩ := hb
      obtain rfl : done = [first, second] := by
        rcases done with _ | ⟨a, _ | ⟨b, _ | ⟨c, done⟩⟩⟩
        · exact absurd (List.cons.inj hitems).1 (by decide)
        · exact absurd (List.cons.inj (List.cons.inj hitems).2).1 (by decide)
        · obtain ⟨rfl, rfl, -⟩ := by simpa using hitems
          rfl
        · simp at hitems
      obtain rfl : answered = [(second, true), (first, false)] := by
        rcases answered with _ | ⟨⟨a, x⟩, _ | ⟨⟨b, y⟩, _ | ⟨c, answered⟩⟩⟩ <;> simp at hanswered
        obtain ⟨rfl, rfl⟩ := hanswered
        revert hkept
        cases x <;> cases y <;> decide
      rw [← hcount] at hgrows
      exact ⟨w', rfl, hgrows, (hunder .patchesFailed [("source", "generated")]).trans (zero_add 2),
        (hunder .rollbackFailures []).trans (zero_add 1)⟩

end Engine

end Mend
