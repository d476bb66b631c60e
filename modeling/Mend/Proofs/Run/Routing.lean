import Mathlib.Data.List.Forall2
import Mend.Proofs.Run.Accounting
import Mend.Proofs.Run.Steps
import Mend.Rule.Builtin

/-!
# Which clusters reach the generator

The rules deal with all clusters first. Those that they leave are pending: they are put to the generator in
their order, one question for each, as long as the budget lasts, and the others are skipped. The invariant of
the second pass says which questions were put since its beginning (`Repair.Consulted`).
-/

namespace Mend.Repair

variable {σ : Type} {r : Repair σ} {g : Generator σ}

/-- Whether the rules leave a cluster: none accepts its representative, or the one that does makes no patch. -/
def isPending (r : Repair σ) (c : Cluster) : Bool := (r.rules.fixesFor c).toOption.any List.isEmpty

theorem isPending_iff {c : Cluster} : r.isPending c = true ↔ r.rules.fixesFor c = .ok [] := by
  unfold isPending
  cases r.rules.fixesFor c with
  | error e => simp [Except.toOption]
  | ok ps => simp [Except.toOption]

def pending (r : Repair σ) (ds : List Diagnostic) : List Cluster :=
  (Cluster.ofDiagnostics (r.settings.selected ds)).filter r.isPending

/-! ### The pass of the rules -/

def FixedBetween (r : Repair σ) (s t : RunState σ) (c : Cluster) (o : Outcome) : Prop :=
  ∃ s1 s2, s.Unasked s1 ∧ r.byRule c s1 = (s2, .ok (some o)) ∧ s2.Unasked t

theorem FixedBetween.of_unasked {s s1 t : RunState σ} {c : Cluster} {o : Outcome}
    (h : r.FixedBetween s1 t c o) (hs : s.Unasked s1) : r.FixedBetween s t c o := by
  obtain ⟨s2, s3, hbefore, hrule, hafter⟩ := h
  exact ⟨s2, s3, hs.trans hbefore, hrule, hafter⟩

/-- How a cluster comes out of the pass of the rules: it is left if it is pending, and else they have made an
outcome, which is not that of a cluster that was skipped or given up. -/
structure RoutedByRules (r : Repair σ) (s t : RunState σ) (c : Cluster) (p : Sorted) : Prop where
  cluster : p.1 = c
  left_iff : p.2 = none ↔ r.isPending c = true
  fixed : ∀ o, p.2 = some o → r.FixedBetween s t c o
  resolution : ∀ o, p.2 = some o → o.resolution = .rule ∨ o.resolution = .failed

theorem RoutedByRules.of_unasked {s s1 t : RunState σ} {c : Cluster} {p : Sorted}
    (h : r.RoutedByRules s1 t c p) (hs : s.Unasked s1) : r.RoutedByRules s t c p :=
  ⟨h.cluster, h.left_iff, fun o ho => (h.fixed o ho).of_unasked hs, h.resolution⟩

theorem resolution_of_settle {o o' : Outcome} {s s' : RunState σ} (h : r.settle o s = (s', .ok o')) :
    o'.resolution = o.resolution ∨ o'.resolution = .failed := by
  have hend := r.settlement o s
  rw [h] at hend
  cases hend with
  | proposed off noted => exact .inl rfl
  | @batched on items w b items_eq run =>
    rcases batchOutcome_cases o b with hb | ⟨error, hb⟩
    · exact .inl (by rw [hb])
    · exact .inr (by rw [hb])

theorem byRule_routes {c : Cluster} {found : Option Outcome} {s s' : RunState σ}
    (h : r.byRule c s = (s', .ok found)) :
    (found = none ↔ r.isPending c = true) ∧
      ∀ o, found = some o → o.resolution = .rule ∨ o.resolution = .failed := by
  have hend := r.ruleTurn c s
  rw [h] at hend
  generalize hres : (s', Except.ok found) = result at hend
  cases hend with
  | raised noted => cases hres
  | left noted nothing =>
    cases hres
    exact ⟨by simp [isPending_iff.2 nothing], by simp⟩
  | @fixed s1 rule ps noted mem fixes made some_patch =>
    have hleft : r.isPending c = false := by
      rw [Bool.eq_false_iff, Ne, isPending_iff, fixes]
      simpa using some_patch
    cases hsettle : r.settle (ruleOutcome rule c ps) s1 with
    | mk s2 settled =>
      rw [hsettle] at hres
      cases settled with
      | error f => cases hres
      | ok o =>
        cases hres
        refine ⟨by simp [hleft], fun o' ho' => ?_⟩
        obtain rfl := Option.some.inj ho'
        exact resolution_of_settle hsettle

theorem allByRule_routes {cs : List Cluster} {sorted : List Sorted} {s s' : RunState σ}
    (h : r.allByRule cs s = (s', .ok sorted)) :
    s.Unasked s' ∧ List.Forall₂ (r.RoutedByRules s s') cs sorted := by
  have hpass := rulePass h
  clear h
  induction hpass with
  | nil s => exact ⟨.refl s, .nil⟩
  | @cons c cs found sorted s s1 s' turn later ih =>
    have hstep : s.Unasked s1 := by
      have hunasked := r.unasked_byRule c s
      rwa [turn] at hunasked
    obtain ⟨hlater, hrouted⟩ := ih
    obtain ⟨hleft, hresolution⟩ := byRule_routes turn
    refine ⟨hstep.trans hlater, .cons ⟨rfl, hleft, fun o ho => ?_, hresolution⟩ ?_⟩
    · obtain rfl : found = some o := ho
      exact ⟨s, s1, .refl s, turn, hlater⟩
    · exact hrouted.imp fun _ _ hp => hp.of_unasked hstep

/-! ### Questions to the generator -/

/-- The states that a generator goes through as it is asked some questions one after the other, whatever the
clock shows at each of them. -/
inductive Answered (g : Generator σ) : σ → List Question → σ → Prop
  | nil {x : σ} : Answered g x [] x
  | cons {x y : σ} {q : Question} {qs : List Question} (clock : Float)
      (rest : Answered g (g.propose q (.start x clock)).1.state qs y) : Answered g x (q :: qs) y

theorem Answered.append {x y z : σ} {ps qs : List Question} (h : Answered g x ps y)
    (k : Answered g y qs z) : Answered g x (ps ++ qs) z := by
  induction h with
  | nil => exact k
  | cons clock rest ih => exact .cons clock (ih k)

/-- Whether the questions that were put to the generator between two states are these, one about each of
these clusters in their order. -/
structure Consulted (g : Generator σ) (cs : List Cluster) (s s' : RunState σ) (qs : List Question) :
    Prop where
  answered : Answered g s.generator qs s'.generator
  grows : s.workspace.journal <+: s'.workspace.journal
  questions : s'.workspace.questions = s.workspace.questions ++ qs
  messages : qs.map (·.message) = cs.map (·.representative.message)

namespace Consulted

variable {cs ds : List Cluster} {s s' s'' : RunState σ} {ps qs : List Question}

theorem of_unasked (g : Generator σ) (h : s.Unasked s') : Consulted g [] s s' [] :=
  ⟨h.generator ▸ .nil, h.journal.isPrefix, by rw [h.journal.questions_eq, List.append_nil], rfl⟩

theorem trans (h : Consulted g cs s s' ps) (k : Consulted g ds s' s'' qs) :
    Consulted g (cs ++ ds) s s'' (ps ++ qs) :=
  ⟨h.answered.append k.answered, h.grows.trans k.grows, by rw [k.questions, h.questions, List.append_assoc],
    by rw [List.map_append, List.map_append, h.messages, k.messages]⟩

theorem of_ask {c : Cluster} {q : Question} (habout : q.message = c.representative.message)
    (s : RunState σ) : Consulted g [c] s (ask g q s).1 [q] := by
  obtain ⟨-, hgenerator, hjournal⟩ := ask_spec g q s
  refine ⟨.cons s.workspace.clock (hgenerator ▸ .nil), ?_, ?_, by simpa using habout⟩
  · exact (List.prefix_append _ _).trans hjournal.isPrefix
  · rw [hjournal.questions_eq, Workspace.questions, Workspace.journal_record, List.filterMap_append]
    rfl

end Consulted

theorem budgetLines_ask (g : Generator σ) (q : Question) (s : RunState σ) :
    (ask g q s).1.workspace.budgetLines = s.workspace.budgetLines := by
  rw [(ask_spec g q s).2.2.budgetLines_eq, Workspace.budgetLines, Workspace.log,
    Workspace.journal_record, List.filterMap_append]
  exact congrArg _ (List.append_nil _)

/-- A consultation that comes to an outcome has put one question, about its cluster, and said nothing about
the budget. -/
theorem byGenerator_consults {c : Cluster} {o : Outcome} {s s' : RunState σ}
    (h : r.byGenerator g c s = (s', .ok o)) :
    (∃ q, Consulted g [c] s s' [q]) ∧ s'.workspace.budgetLines = s.workspace.budgetLines ∧
      o.resolution ≠ .skipped := by
  have hend := r.consultation g c s
  rw [h] at hend
  generalize hres : (s', Except.ok o) = result at hend
  cases hend with
  | unread noted => cases hres
  | interrupted noted about => cases hres
  | @unused s1 s2 q noted about later error =>
    cases hres
    refine ⟨⟨q, ?_⟩, ?_, by simp [unresolved]⟩
    · exact ((Consulted.of_unasked g noted.toUnasked).trans (.of_ask about s1)).trans
        (.of_unasked g later.toUnasked)
    · rw [later.journal.budgetLines_eq, budgetLines_ask, noted.journal.budgetLines_eq]
  | @used s1 s2 q noted about later ps targets =>
    have hsettle := r.unasked_settle (generatedOutcome c ps) s2
    rw [← hres] at hsettle
    refine ⟨⟨q, ?_⟩, ?_, ?_⟩
    · exact ((Consulted.of_unasked g noted.toUnasked).trans (.of_ask about s1)).trans
        (.of_unasked g (later.toUnasked.trans hsettle))
    · rw [hsettle.journal.budgetLines_eq, later.journal.budgetLines_eq, budgetLines_ask,
        noted.journal.budgetLines_eq]
    · rcases resolution_of_settle hres.symm with hr | hr
      · simp [hr, generatedOutcome]
      · simp [hr]

/-! ### The pass of the generator -/

def waiting (sorted : List Sorted) : List Cluster :=
  sorted.filterMap fun p => if p.2.isNone then some p.1 else none

theorem countP_isNone (sorted : List Sorted) :
    sorted.countP (fun p => p.2.isNone) = (waiting sorted).length := by
  induction sorted with
  | nil => rfl
  | cons p sorted ih =>
    obtain ⟨c, found⟩ := p
    cases found with
    | none => simp [waiting, ih]
    | some o => simpa [waiting] using ih

/-- The lines of the log about the budget that a pass adds, with `left` consultations to go. -/
def budgetReport (budget excess : Int) (left : Nat) (reported : Bool) (cs : List Cluster) : List LogEntry :=
  if reported || cs.length ≤ left then [] else [(Notice.budgetExhausted budget excess).entry]

/-- The report of the first cluster beyond the budget is no question, and the only line about the budget. -/
theorem note_budgetExhausted (g : Generator σ) (budget excess : Int) (s : RunState σ) :
    Consulted g [] s (s.note (.budgetExhausted budget excess)) [] ∧
      (s.note (.budgetExhausted budget excess)).workspace.budgetLines =
        s.workspace.budgetLines ++ [(Notice.budgetExhausted budget excess).entry] := by
  have hjournal : (s.note (.budgetExhausted budget excess)).workspace.journal =
      s.workspace.journal ++ [.notice (.budgetExhausted budget excess)] := rfl
  refine ⟨⟨.nil, ⟨_, rfl⟩, ?_, rfl⟩, ?_⟩
  · rw [Workspace.questions, hjournal, List.filterMap_append]
    rfl
  · rw [Workspace.budgetLines, Workspace.log, hjournal, List.filterMap_append, List.filter_append]
    rfl

/-- Whether an outcome is the one that the rules have made, if they have made one. -/
def Keeps (p : Sorted) (o : Outcome) : Prop := ∀ made, p.2 = some made → o = made

theorem keeps_none (c : Cluster) (o : Outcome) : Keeps (c, none) o := by simp [Keeps]

/-- The generator is asked about the first clusters that the rules have left, as many as the budget allows.
The others are skipped, and the first one of them is reported. -/
theorem allByGenerator_routes {budget excess : Int} {calls : Nat} {reported : Bool} {sorted : List Sorted}
    {os : List Outcome} {s s' : RunState σ}
    (hsorted : ∀ p ∈ sorted, ∀ o, p.2 = some o → o.resolution = .rule ∨ o.resolution = .failed)
    (h : r.allByGenerator g budget excess calls reported sorted s = (s', .ok os)) :
    (∃ qs, Consulted g ((waiting sorted).take (budget - calls).toNat) s s' qs) ∧
      os.filter (fun o => o.resolution = .skipped) =
        ((waiting sorted).drop (budget - calls).toNat).map overBudget ∧
      s'.workspace.budgetLines = s.workspace.budgetLines ++
        budgetReport budget excess (budget - calls).toNat reported (waiting sorted) ∧
      List.Forall₂ Keeps sorted os := by
  have hpass := generatorPass h
  clear h
  induction hpass with
  | nil calls reported s =>
    refine ⟨⟨[], ?_⟩, by simp [waiting], by simp [waiting, budgetReport], .nil⟩
    simpa [waiting] using Consulted.of_unasked g (.refl s)
  | @kept calls reported c o sorted os s s' later ih =>
    obtain ⟨hfound, hrest⟩ := List.forall_mem_cons.1 hsorted
    obtain ⟨hasked, hskipped, hlines, hkeeps⟩ := ih hrest
    have hkept : o.resolution ≠ .skipped := by
      rcases hfound o rfl with hr | hr
      · simp [hr]
      · simp [hr]
    have hwaiting : waiting ((c, some o) :: sorted) = waiting sorted := rfl
    rw [hwaiting, List.filter_cons_of_neg (by simpa using hkept)]
    exact ⟨hasked, hskipped, hlines, .cons (fun _ he => Option.some.inj he) hkeeps⟩
  | @skipped calls reported c sorted os s s' spent later ih =>
    obtain ⟨⟨qs, hasked⟩, hskipped, hlines, hkeeps⟩ := ih (List.forall_mem_cons.1 hsorted).2
    have hwaiting : waiting ((c, none) :: sorted) = c :: waiting sorted := rfl
    have hspent : (budget - calls).toNat = 0 := by omega
    rw [hspent] at hasked hskipped hlines ⊢
    have hskip : (overBudget c :: os).filter (fun o => o.resolution = .skipped) =
        (c :: waiting sorted).map overBudget := by
      rw [List.filter_cons_of_pos (by simp [overBudget]), hskipped, List.drop_zero, List.map_cons]
    rw [hwaiting]
    cases reported with
    | true => exact ⟨⟨qs, hasked⟩, hskip, hlines, .cons (keeps_none c _) hkeeps⟩
    | false =>
      obtain ⟨hnoted, hline⟩ := note_budgetExhausted g budget excess s
      refine ⟨⟨[] ++ qs, hnoted.trans hasked⟩, hskip, ?_, .cons (keeps_none c _) hkeeps⟩
      rw [hlines]
      simp only [Bool.false_eq_true, if_false, hline]
      simp [budgetReport]
  | @asked calls reported c o sorted os s s1 s' left turn later ih =>
    obtain ⟨⟨q, hq⟩, hline, hkept⟩ := byGenerator_consults turn
    obtain ⟨⟨qs, hasked⟩, hskipped, hlines, hkeeps⟩ := ih (List.forall_mem_cons.1 hsorted).2
    have hwaiting : waiting ((c, none) :: sorted) = c :: waiting sorted := rfl
    have hleft : (budget - calls).toNat = (budget - (calls + 1 : Nat)).toNat + 1 := by omega
    rw [hwaiting, hleft, List.filter_cons_of_neg (by simpa using hkept)]
    refine ⟨⟨q :: qs, hq.trans hasked⟩, hskipped, ?_, .cons (keeps_none c _) hkeeps⟩
    rw [hlines, hline]
    simp [budgetReport]

theorem closeAll_routes {sorted : List Sorted}
    (hsorted : ∀ p ∈ sorted, ∀ o, p.2 = some o → o.resolution = .rule ∨ o.resolution = .failed) :
    (closeAll sorted).filter (fun o => o.resolution = .unresolved) =
        (waiting sorted).map withoutGenerator ∧ List.Forall₂ Keeps sorted (closeAll sorted) := by
  induction sorted with
  | nil => exact ⟨rfl, .nil⟩
  | cons p sorted ih =>
    obtain ⟨c, found⟩ := p
    obtain ⟨hfound, hrest⟩ := List.forall_mem_cons.1 hsorted
    obtain ⟨hgiven, hkeeps⟩ := ih hrest
    cases found with
    | none =>
      have hclose : closeAll ((c, none) :: sorted) = withoutGenerator c :: closeAll sorted := rfl
      have hwaiting : waiting ((c, none) :: sorted) = c :: waiting sorted := rfl
      rw [hclose, hwaiting, List.filter_cons_of_pos (by simp [withoutGenerator, unresolved]), hgiven]
      exact ⟨rfl, .cons (keeps_none c _) hkeeps⟩
    | some o =>
      have hclose : closeAll ((c, some o) :: sorted) = o :: closeAll sorted := rfl
      have hmade : o.resolution ≠ .unresolved := by
        rcases hfound o rfl with hr | hr
        · simp [hr]
        · simp [hr]
      rw [hclose, List.filter_cons_of_neg (by simpa using hmade)]
      exact ⟨hgiven, .cons (fun _ he => Option.some.inj he) hkeeps⟩

/-! ### The run -/

theorem waiting_of_routed {s t : RunState σ} {cs : List Cluster} {sorted : List Sorted}
    (h : List.Forall₂ (r.RoutedByRules s t) cs sorted) : waiting sorted = cs.filter r.isPending := by
  induction h with
  | nil => rfl
  | @cons c p cs sorted hp _ ih =>
    obtain ⟨c2, found⟩ := p
    obtain rfl : c2 = c := hp.cluster
    cases found with
    | none =>
      have hwaiting : waiting ((c2, none) :: sorted) = c2 :: waiting sorted := rfl
      rw [hwaiting, ih, List.filter_cons_of_pos (hp.left_iff.1 rfl)]
    | some o =>
      have hwaiting : waiting ((c2, some o) :: sorted) = waiting sorted := rfl
      have hfixed : ¬ r.isPending c2 = true := fun hpending => by simpa using hp.left_iff.2 hpending
      rw [hwaiting, ih, List.filter_cons_of_neg hfixed]

theorem resolution_of_routed {s t : RunState σ} {cs : List Cluster} {sorted : List Sorted}
    (h : List.Forall₂ (r.RoutedByRules s t) cs sorted) :
    ∀ p ∈ sorted, ∀ o, p.2 = some o → o.resolution = .rule ∨ o.resolution = .failed := by
  induction h with
  | nil => exact List.forall_mem_nil _
  | cons hp _ ih => exact List.forall_mem_cons.2 ⟨hp.resolution, ih⟩

theorem fixedBetween_of_routed {s t : RunState σ} {cs : List Cluster} {sorted : List Sorted}
    {os : List Outcome} (h : List.Forall₂ (r.RoutedByRules s t) cs sorted)
    (hkeeps : List.Forall₂ Keeps sorted os) (haccounts : List.Forall₂ r.Accounts cs os) :
    ∀ o ∈ os, r.isPending o.cluster = false → r.FixedBetween s t o.cluster o := by
  induction h generalizing os with
  | nil =>
    cases hkeeps
    exact List.forall_mem_nil _
  | @cons c p cs sorted hp hrest ih =>
    cases hkeeps with
    | @cons _ o _ os hkeep hkeeps =>
      cases haccounts with
      | cons hone haccounts =>
        refine List.forall_mem_cons.2 ⟨fun hfixed => ?_, ih hkeeps haccounts⟩
        obtain ⟨rfl, -⟩ := hone
        cases hfound : p.2 with
        | none => simp [hp.left_iff.1 hfound] at hfixed
        | some made =>
          obtain rfl := hkeep made hfound
          exact hp.fixed o hfound

/-- What becomes of the clusters of a run that returns. The rules fix those that are not pending before the
generator is asked anything. It is then asked about the first pending clusters, one question for each, as
many as the budget allows; the others are skipped, which the log tells once with their number, to which a
budget below zero adds. Without a generator all pending clusters are given up. -/
theorem run_routes {ds : List Diagnostic} {s s' : RunState σ} {m : Summary}
    (h : r.run ds s = (s', .ok m)) :
    (∃ t, s.Unasked t ∧ t.workspace.journal <+: s'.workspace.journal ∧
      ∀ o ∈ m.outcomes, r.isPending o.cluster = false → r.FixedBetween s t o.cluster o) ∧
    (∀ g, r.generator = some g → r.settings.useGenerator = true →
      ∃ qs, Consulted g ((r.pending ds).take r.settings.maxConsultations.toNat) s s' qs ∧
        qs.length = min r.settings.maxConsultations.toNat (r.pending ds).length ∧
        m.outcomes.filter (fun o => o.resolution = .skipped) =
          ((r.pending ds).drop r.settings.maxConsultations.toNat).map overBudget ∧
        s'.workspace.budgetLines = s.workspace.budgetLines ++
          if m.count .skipped = 0 then []
          else [(Notice.budgetExhausted r.settings.maxConsultations
            (m.count .skipped - min r.settings.maxConsultations 0)).entry]) ∧
    (r.consults = false → s'.generator = s.generator ∧
      s'.workspace.questions = s.workspace.questions ∧
      m.outcomes.filter (fun o => o.resolution = .unresolved) =
        (r.pending ds).map withoutGenerator) := by
  have hcourse := r.course ds s
  rw [h] at hcourse
  cases hcourse with
  | @finished s1 s2 s3 _ sorted os noted rules rest later =>
    obtain ⟨hrules, hrouted⟩ := allByRule_routes rules
    have hpending : waiting sorted = r.pending ds := waiting_of_routed hrouted
    have hresolution := resolution_of_routed hrouted
    have haccounts := resolveRest_accounts (allByRule_accounts rules) rest
    have hcount : (Summary.ofOutcomes (r.settings.selected ds).length os).count .skipped =
        (os.filter fun o => o.resolution = .skipped).length := List.countP_eq_length_filter
    rcases r.resolveRest_cases sorted s2 with ⟨g, hg, hconsults, heq⟩ | ⟨hoff, heq⟩
    · rw [heq, countP_isNone, hpending] at rest
      obtain ⟨⟨qs, hasked⟩, hskipped, hlines, hkeeps⟩ := allByGenerator_routes hresolution rest
      have hbudget : (r.settings.maxConsultations - (0 : Nat)).toNat = r.settings.maxConsultations.toNat := by
        omega
      rw [hpending, hbudget] at hasked hskipped hlines
      have hall : Consulted g ((r.pending ds).take r.settings.maxConsultations.toNat) s s' qs := by
        simpa using ((Consulted.of_unasked g (noted.toUnasked.trans hrules)).trans hasked).trans
          (.of_unasked g later.toUnasked)
      refine ⟨⟨s2, noted.toUnasked.trans hrules, hasked.grows.trans later.journal.isPrefix, ?_⟩,
        fun g' hg' _ => ?_, fun hoff => by simp [hconsults] at hoff⟩
      · exact fun o ho hfixed => (fixedBetween_of_routed hrouted hkeeps haccounts o ho hfixed).of_unasked
          noted.toUnasked
      · obtain rfl := Option.some.inj (hg.symm.trans hg')
        refine ⟨qs, hall, ?_, hskipped, ?_⟩
        · have hlength := congrArg List.length hall.messages
          simpa using hlength
        · rw [later.journal.budgetLines_eq, hlines, hrules.journal.budgetLines_eq,
            noted.journal.budgetLines_eq, hcount, hskipped, List.length_map, List.length_drop,
            budgetReport]
          simp only [Bool.false_or, decide_eq_true_eq, Nat.sub_eq_zero_iff_le]
          split
          · rfl
          · next hbeyond =>
            have hexcess : ((r.pending ds).length : Int) - r.settings.maxConsultations =
                ((r.pending ds).length - r.settings.maxConsultations.toNat : Nat) -
                  min r.settings.maxConsultations 0 := by omega
            rw [hexcess]
    · rw [heq] at rest
      obtain ⟨rfl, rfl⟩ : s2 = s3 ∧ closeAll sorted = os := by simpa using rest
      obtain ⟨hgiven, hkeeps⟩ := closeAll_routes hresolution
      have hunasked := (noted.toUnasked.trans hrules).trans later.toUnasked
      refine ⟨⟨s2, noted.toUnasked.trans hrules, later.journal.isPrefix, ?_⟩,
        fun g hg huse => ?_, fun _ => ⟨hunasked.generator, hunasked.journal.questions_eq, ?_⟩⟩
      · exact fun o ho hfixed => (fixedBetween_of_routed hrouted hkeeps haccounts o ho hfixed).of_unasked
          noted.toUnasked
      · simp [consults, hg, huse] at hoff
      · rw [← hpending]
        exact hgiven

/-- The rules fix the first of three clusters. The budget allows one question, so that the generator is asked
about the second cluster, in vain, and the third one is skipped. -/
theorem run_routes_of_one_question :
    let g : Generator Nat := ⟨"model", fun _ session =>
      (session.withState (session.state + 1), .error (.failed "no answer"))⟩
    let r : Repair Nat := ⟨{ Settings.Run.default with maxConsultations := 1 },
      Rule.builtinRegistry, some g, fun _ => .ok []⟩
    let ds : List Diagnostic := [⟨"a.ts", 1, "HttpModule deprecated", .error, Nat.succ_pos _⟩,
      ⟨"a.ts", 1, "no such name", .error, Nat.succ_pos _⟩,
      ⟨"a.ts", 1, "no such type", .error, Nat.succ_pos _⟩]
    let files := FileTree.empty.put ["a.ts"]
      (Utf8.encode "import \x7b HttpModule \x7d from '@angular/http';\n")
    ∃ s' m, r.run ds ⟨.start files, 0⟩ = (s', .ok m) ∧
      s'.workspace.questions.map (·.message) = ["no such name"] ∧ s'.generator = 1 ∧
      (m.outcomes.filter fun o => o.resolution = .skipped).map (·.cluster.representative.message) =
        ["no such type"] ∧
      s'.workspace.budgetLines = [(Notice.budgetExhausted 1 1).entry] := by
  intro g r ds files
  have hends : (r.run ds ⟨.start files, 0⟩).2.isOk = true := by decide +kernel
  have hpending : (r.pending ds).map (·.representative.message) = ["no such name", "no such type"] := by
    decide +kernel
  cases hrun : r.run ds ⟨.start files, 0⟩ with
  | mk s' result =>
    cases result with
    | error f =>
      rw [hrun] at hends
      cases hends
    | ok m =>
      obtain ⟨-, hasks, -⟩ := run_routes hrun
      obtain ⟨qs, hasked, -, hskipped, hlines⟩ := hasks g rfl rfl
      have hmessages : qs.map (·.message) = ["no such name"] := by
        rw [hasked.messages, List.map_take, hpending]
        rfl
      have hlate : (m.outcomes.filter fun o => o.resolution = .skipped).map
          (·.cluster.representative.message) = ["no such type"] := by
        rw [hskipped, List.map_map, List.map_drop]
        exact congrArg (List.drop 1) hpending
      have hcount : m.count .skipped = 1 := by
        have hlength := congrArg List.length hlate
        rw [List.length_map, ← List.countP_eq_length_filter] at hlength
        exact hlength
      have hstate : s'.generator = 1 := by
        obtain ⟨q, rfl⟩ : ∃ q, qs = [q] := by
          have hlength := congrArg List.length hmessages
          rw [List.length_map] at hlength
          exact List.length_eq_one_iff.1 hlength
        have hanswered := hasked.answered
        generalize s'.generator = y at hanswered ⊢
        cases hanswered with
        | cons clock rest =>
          generalize hx : (g.propose q (.start _ clock)).1.state = x at rest
          cases rest
          exact hx.symm
      refine ⟨s', m, rfl, ?_, hstate, hlate, ?_⟩
      · rw [hasked.questions, List.map_append, hmessages]
        rfl
      · rw [hlines, hcount]
        rfl

end Mend.Repair
