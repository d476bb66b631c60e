import Mend.Engine

/-!
# What the engine leaves in the journal

The journal of a workspace only grows. The engine adds notices and counted amounts to it: it puts no
question to the generator, and says nothing about the generator's budget (`continues_applyBatch`).
-/

namespace Mend

/-! ### Quiet events -/

def Event.question? : Event → Option Question
  | .asked q => some q
  | _ => none

/-- Whether a line of the log says that the budget of the generator is spent. -/
def LogEntry.tellsBudget (l : LogEntry) : Bool := l.event == ("generator_budget_exhausted" : Text)

/-- Whether an event is neither a question nor a line of the log about the budget. -/
structure Event.IsQuiet (e : Event) : Prop where
  question? : e.question? = none
  tellsBudget : ∀ l ∈ e.entry?, l.tellsBudget = false

theorem Event.isQuiet_notice {n : Notice} (h : n.entry.tellsBudget = false) :
    (Event.notice n).IsQuiet :=
  ⟨rfl, fun _ hl => Option.some.inj hl ▸ h⟩

theorem Event.isQuiet_counted (c : Metrics.CounterName) (labels : Metrics.Labels) (n : Nat) :
    (Event.counted c labels n).IsQuiet := ⟨rfl, nofun⟩

theorem Event.isQuiet_timed (t : Metrics.Timing) (seconds : Float) :
    (Event.timed t seconds).IsQuiet := ⟨rfl, nofun⟩

theorem Event.isQuiet_exchange (e : Exchange) : (Event.exchange e).IsQuiet := by
  refine ⟨rfl, fun l hl => ?_⟩
  have hl : e.entry? = some l := hl
  cases e with
  | sent request => cases hl
  | slept seconds => cases hl
  | _ => exact Option.some.inj hl ▸ rfl

namespace Workspace

def questions (w : Workspace) : List Question := w.journal.filterMap Event.question?

def budgetLines (w : Workspace) : List LogEntry := w.log.filter LogEntry.tellsBudget

/-- Whether the journal of a workspace goes on in another one, by quiet events. -/
def Continues (w w' : Workspace) : Prop :=
  ∃ es, w'.journal = w.journal ++ es ∧ ∀ e ∈ es, e.IsQuiet

namespace Continues

variable {w w' w'' : Workspace}

theorem refl (w : Workspace) : w.Continues w := ⟨[], (List.append_nil _).symm, nofun⟩

theorem trans (h : w.Continues w') (k : w'.Continues w'') : w.Continues w'' := by
  obtain ⟨es, hes, hquiet⟩ := h
  obtain ⟨fs, hfs, hquiet'⟩ := k
  refine ⟨es ++ fs, by rw [hfs, hes, List.append_assoc], fun e he => ?_⟩
  exact (List.mem_append.1 he).elim (hquiet e) (hquiet' e)

theorem record (h : w.Continues w') {e : Event} (he : e.IsQuiet) : w.Continues (w'.record e) :=
  h.trans ⟨[e], rfl, by simpa using he⟩

theorem note (h : w.Continues w') {n : Notice} (hn : n.entry.tellsBudget = false) :
    w.Continues (w'.note n) := h.record (Event.isQuiet_notice hn)

theorem noteAll (h : w.Continues w') {ns : List Notice}
    (hns : ∀ n ∈ ns, n.entry.tellsBudget = false) : w.Continues (w'.noteAll ns) := by
  refine h.trans ⟨ns.map .notice, rfl, fun e he => ?_⟩
  obtain ⟨n, hn, rfl⟩ := List.mem_map.1 he
  exact Event.isQuiet_notice (hns n hn)

theorem count (h : w.Continues w') (c : Metrics.CounterName) (labels : Metrics.Labels) (n : Nat) :
    w.Continues (w'.count c labels n) := h.record (Event.isQuiet_counted c labels n)

theorem withFiles (h : w.Continues w') (files : FileTree) :
    w.Continues { w' with files := files } := h

theorem isPrefix (h : w.Continues w') : w.journal <+: w'.journal := by
  obtain ⟨es, hes, -⟩ := h
  exact ⟨es, hes.symm⟩

theorem questions_eq (h : w.Continues w') : w'.questions = w.questions := by
  obtain ⟨es, hes, hquiet⟩ := h
  have hnone : es.filterMap Event.question? = [] :=
    List.filterMap_eq_nil_iff.2 fun e he => (hquiet e he).question?
  rw [questions, hes, List.filterMap_append, hnone, List.append_nil, questions]

theorem budgetLines_eq (h : w.Continues w') : w'.budgetLines = w.budgetLines := by
  obtain ⟨es, hes, hquiet⟩ := h
  have hnone : (es.filterMap Event.entry?).filter LogEntry.tellsBudget = [] := by
    refine List.filter_eq_nil_iff.2 fun l hl => ?_
    obtain ⟨e, he, hel⟩ := List.mem_filterMap.1 hl
    rw [(hquiet e he).tellsBudget l hel]
    exact Bool.false_ne_true
  rw [budgetLines, log, hes, List.filterMap_append, List.filter_append, hnone, List.append_nil,
    budgetLines, log]

end Continues

end Workspace

namespace Engine

open Workspace (Continues)

/-! ### One patch -/

/-- Comparing the context of a patch reports hunks that are compared in part, and the line that differs. -/
theorem mem_checkContext {file : Text} {ls : List Text} {hs : List Diff.Hunk} {n : Notice}
    (hn : n ∈ (checkContext file ls hs).1) :
    (∃ start, n = .weaklyValidated file start) ∨ ∃ line, n = .contextMismatch file line := by
  induction hs with
  | nil => cases hn
  | cons h hs ih =>
    have hweak : ∀ k ∈ (if h.hasTrailingContext then [Notice.weaklyValidated file h.oldStart] else []),
        ∃ start, k = .weaklyValidated file start := by
      intro k hk
      split at hk
      · exact ⟨_, List.mem_singleton.1 hk⟩
      · cases hk
    unfold checkContext at hn
    simp only at hn
    split at hn
    · rcases List.mem_append.1 hn with hn | hn
      · exact .inl (hweak n hn)
      · exact .inr ⟨_, List.mem_singleton.1 hn⟩
    · rcases List.mem_append.1 hn with hn | hn
      · exact .inl (hweak n hn)
      · exact ih hn

theorem mem_revise {strict : Bool} {content : Text} {p : Patch} {n : Notice}
    (hn : n ∈ (revise strict content p).1) :
    (∃ start, n = .weaklyValidated p.file start) ∨ ∃ line, n = .contextMismatch p.file line := by
  have hvalid : ∀ ns b, validate content p = .ok (ns, b) → ∀ k ∈ ns,
      (∃ start, k = .weaklyValidated p.file start) ∨ ∃ line, k = .contextMismatch p.file line := by
    intro ns b h k hk
    unfold validate at h
    split at h
    · cases h
    · have hns := congrArg Prod.fst (Except.ok.inj h)
      exact mem_checkContext (by rw [hns]; exact hk)
  unfold revise at hn
  split at hn
  · cases hn
  · next ns hv => exact hvalid ns false hv n hn
  · next ns hv =>
    refine hvalid ns true hv n ?_
    split at hn <;> exact hn

theorem mem_patchFile {strict : Bool} {files : FileTree} {path : Path} {p : Patch} {n : Notice}
    (hn : n ∈ (patchFile strict files path p).1) :
    (∃ start, n = .weaklyValidated p.file start) ∨ ∃ line, n = .contextMismatch p.file line := by
  unfold patchFile at hn
  split at hn
  · cases hn
  · split at hn
    · cases hn
    · split at hn
      · cases hn
      · next content _ =>
        refine @mem_revise strict content p n ?_
        split at hn <;> simp_all
  · cases hn

theorem continues_apply (strict : Bool) (w : Workspace) (path : Text) (p : Patch) :
    w.Continues (apply strict w path p).1 := by
  have hns : ∀ n ∈ (patchFile strict w.files (Path.ofText path) p).1,
      n.entry.tellsBudget = false := by
    intro n hn
    rcases mem_patchFile hn with ⟨start, rfl⟩ | ⟨line, rfl⟩
    · rfl
    · rfl
  unfold apply
  simp only
  cases hv : patchFile strict w.files (Path.ofText path) p with
  | mk ns verdict =>
    rw [hv] at hns
    have hnoted := (Continues.refl w).noteAll hns
    cases verdict with
    | written files => exact ((hnoted.withFiles files).note rfl).count _ _ _
    | refused r => exact (hnoted.note rfl).count _ _ _
    | raised f => exact hnoted

theorem continues_revert (strict : Bool) (w : Workspace) (path : Text) (p : Patch) :
    w.Continues (revert strict w path p).1 :=
  ((Continues.refl w).note rfl).trans (continues_apply strict _ path (reversed p))

/-! ### Batches -/

theorem continues_applyItems (strict : Bool) (items : List Item) (before : List Item) (w : Workspace) :
    w.Continues (applyItems strict before items w).1 := by
  induction items generalizing before w with
  | nil => exact .refl w
  | cons item items ih =>
    have hone := continues_apply strict w item.path item.patch
    unfold applyItems
    cases ha : apply strict w item.path item.patch with
    | mk w1 answer =>
      rw [ha] at hone
      rcases answer with f | _ | _
      · exact hone
      · exact hone
      · exact hone.trans (ih _ w1)

theorem continues_revertItems (strict : Bool) (items : List Item) (w : Workspace) :
    w.Continues (revertItems strict items w).1 := by
  induction items generalizing w with
  | nil => exact .refl w
  | cons item items ih =>
    have hone := continues_revert strict w item.path item.patch
    unfold revertItems
    cases ha : revert strict w item.path item.patch with
    | mk w1 answer =>
      rw [ha] at hone
      rcases answer with f | _ | _
      · exact hone
      · have hrest := (hone.note (n := .rollbackFailed item.path) rfl).trans (ih _)
        simp only
        cases hr : revertItems strict items (w1.note (.rollbackFailed item.path)) with
        | mk w2 failures =>
          rw [hr] at hrest
          cases failures with
          | ok failures => exact hrest
          | error f => exact hrest
      · exact hone.trans (ih w1)

theorem continues_rollBack (strict : Bool) (applied : List Item) (failed : Item) (w : Workspace) :
    w.Continues (rollBack strict applied failed w).1 := by
  have hback := ((Continues.refl w).note
    (n := .batchFailed (failureReason failed) applied.length) rfl).trans
    (continues_revertItems strict applied _)
  unfold rollBack
  simp only
  cases hr : revertItems strict applied
      (w.note (.batchFailed (failureReason failed) applied.length)) with
  | mk w1 failures =>
    rw [hr] at hback
    cases failures with
    | error f => exact hback
    | ok failures =>
      simp only
      have hcounted := hback.count .batchesRolledBack [] 1
      split
      · exact hcounted.note rfl
      · exact (hcounted.count _ _ _).note rfl

theorem continues_applyBatch (strict : Bool) (w : Workspace) (items : List Item) :
    w.Continues (applyBatch strict w items).1 := by
  have hforth := ((Continues.refl w).note (n := .applyingBatch items.length) rfl).trans
    (continues_applyItems strict items [] _)
  unfold applyBatch
  cases ha : applyItems strict [] items (w.note (.applyingBatch items.length)) with
  | mk w1 answer =>
    rw [ha] at hforth
    rcases answer with f | ⟨applied, _ | failed⟩
    · exact hforth
    · exact hforth.note rfl
    · exact hforth.trans (continues_rollBack strict applied failed w1)

end Engine

end Mend
