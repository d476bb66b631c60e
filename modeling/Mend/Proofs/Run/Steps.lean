import Mend.Proofs.Engine.Journal
import Mend.Proofs.RuleFix
import Mend.Run

/-!
# All that a step of a run can do

A run settles outcomes, gives clusters to rules and puts them to the generator. For each of these steps one
relation lists the ways in which it may end, with what holds then (`Settlement`, `RuleTurn`,
`Consultation`). What a step notes on the way leaves the files and the generator alone (`RunState.Noted`).
A pass over all clusters that comes to its end is told step by step (`RulePass`, `GeneratorPass`).
-/

namespace Mend

variable {σ : Type}

/-! ### Notes -/

/-- Whether a step has put no question to the generator, and reported nothing about its budget. -/
structure RunState.Unasked (s s' : RunState σ) : Prop where
  generator : s'.generator = s.generator
  journal : s.workspace.Continues s'.workspace

/-- Whether a step has done nothing but to note and to count. -/
structure RunState.Noted (s s' : RunState σ) : Prop extends s.Unasked s' where
  files : s'.workspace.files = s.workspace.files

namespace RunState

variable {s s' s'' : RunState σ}

theorem Unasked.refl (s : RunState σ) : s.Unasked s := ⟨rfl, .refl _⟩

theorem Unasked.trans (h : s.Unasked s') (k : s'.Unasked s'') : s.Unasked s'' :=
  ⟨k.generator.trans h.generator, h.journal.trans k.journal⟩

theorem Noted.refl (s : RunState σ) : s.Noted s := ⟨.refl s, rfl⟩

theorem Noted.trans (h : s.Noted s') (k : s'.Noted s'') : s.Noted s'' :=
  ⟨h.toUnasked.trans k.toUnasked, k.files.trans h.files⟩

theorem Noted.noteAll (h : s.Noted s') {ns : List Notice}
    (hns : ∀ n ∈ ns, n.entry.tellsBudget = false) : s.Noted (s'.noteAll ns) :=
  ⟨⟨h.generator, h.journal.noteAll hns⟩, h.files⟩

theorem Noted.note (h : s.Noted s') {n : Notice} (hn : n.entry.tellsBudget = false) :
    s.Noted (s'.note n) :=
  h.noteAll (by simpa using hn)

theorem Noted.count (h : s.Noted s') (c : Metrics.CounterName) (labels : Metrics.Labels) (n : Nat) :
    s.Noted (s'.count c labels n) :=
  ⟨⟨h.generator, h.journal.count c labels n⟩, h.files⟩

theorem Noted.timed (h : s.Noted s') (t : Metrics.Timing) (start : Float) :
    s.Noted (s'.timed t start) :=
  ⟨⟨h.generator, h.journal.record (Event.isQuiet_timed t _)⟩, h.files⟩

end RunState

/-! ### The patches of rules -/

theorem RuleRegistry.accepts_of_firstAccepting {d : Diagnostic} {rules : List Rule} {rule : Rule}
    (h : firstAccepting d rules = .ok (some rule)) : rule ∈ rules ∧ rule.accepts d = .ok true := by
  induction rules with
  | nil => cases h
  | cons first rules ih =>
    unfold firstAccepting at h
    split at h
    · cases h
    · next haccepts =>
      obtain rfl := Option.some.inj (Except.ok.inj h)
      exact ⟨List.mem_cons_self, haccepts⟩
    · obtain ⟨hmem, haccepts⟩ := ih h
      exact ⟨List.mem_cons_of_mem _ hmem, haccepts⟩

/-- The patches that the rules make for a cluster: those of the first rule that accepts its
representative. -/
def RuleRegistry.fixesFor (rs : RuleRegistry) (c : Cluster) : Except RuleError (List Patch) :=
  match firstAccepting c.representative rs.rules with
  | .error e => .error e
  | .ok none => .ok []
  | .ok (some rule) => rule.fixes c

namespace Repair

/-! ### Settling -/

/-- How the settling of an outcome ends: its patches are only proposed, or they cannot be put in order, or
their batch comes to an answer or meets a limit. -/
inductive Settlement (r : Repair σ) (o : Outcome) (s : RunState σ) : Step σ Outcome → Prop
  | proposed (off : r.settings.autoApply = false) {s1 : RunState σ} (noted : s.Noted s1) :
      Settlement r o s (s1, .ok o)
  | unordered (on : r.settings.autoApply = true) {f : RunFault} : Settlement r o s (s, .error f)
  | raised (on : r.settings.autoApply = true) {items : List Engine.Item} {w : Workspace}
      {f : Engine.Fault} (items_eq : r.itemsOf o.patches = .ok items)
      (run : Engine.applyBatch r.settings.strictValidation s.workspace items = (w, .error f)) :
      Settlement r o s ({ s with workspace := w }, .error (.engine f))
  | batched (on : r.settings.autoApply = true) {items : List Engine.Item} {w : Workspace}
      {b : Engine.BatchResult} (items_eq : r.itemsOf o.patches = .ok items)
      (run : Engine.applyBatch r.settings.strictValidation s.workspace items = (w, .ok b)) :
      Settlement r o s ({ s with workspace := w }, .ok (batchOutcome o b))

theorem settlement (r : Repair σ) (o : Outcome) (s : RunState σ) :
    Settlement r o s (r.settle o s) := by
  unfold settle
  by_cases hauto : r.settings.autoApply = true
  · simp only [hauto, Bool.not_true, Bool.false_eq_true, if_false]
    cases hitems : r.itemsOf o.patches with
    | error e => exact .unordered hauto
    | ok items =>
      simp only
      split
      · next w f hrun => exact .raised hauto hitems hrun
      · next w b hrun => exact .batched hauto hitems hrun
  · have hoff : r.settings.autoApply = false := by simpa using hauto
    simp only [hoff, Bool.not_false, if_true]
    exact .proposed hoff ((RunState.Noted.refl s).note rfl)

theorem unasked_settle (r : Repair σ) (o : Outcome) (s : RunState σ) : s.Unasked (r.settle o s).1 := by
  have hend := r.settlement o s
  generalize r.settle o s = result at hend
  cases hend with
  | proposed off noted => exact noted.toUnasked
  | unordered on => exact .refl s
  | @raised on items w f items_eq run =>
    have hbatch := Engine.continues_applyBatch r.settings.strictValidation s.workspace items
    rw [run] at hbatch
    exact ⟨rfl, hbatch⟩
  | @batched on items w b items_eq run =>
    have hbatch := Engine.continues_applyBatch r.settings.strictValidation s.workspace items
    rw [run] at hbatch
    exact ⟨rfl, hbatch⟩

theorem batchOutcome_cases (o : Outcome) (b : Engine.BatchResult) :
    batchOutcome o b = { o with batch := some b } ∨
      ∃ error, batchOutcome o b = { o with resolution := .failed, batch := some b, error := some error } := by
  unfold batchOutcome
  split
  · exact .inl rfl
  · exact .inr ⟨_, rfl⟩

/-! ### Rules -/

def ruleOutcome (rule : Rule) (c : Cluster) (ps : List Patch) : Outcome :=
  { cluster := c, resolution := .rule, rule := some rule.id, patches := ps }

/-- How the turn of the rules on a cluster ends: a rule fails, or the cluster is left, or the patches of a
rule are settled. -/
inductive RuleTurn (r : Repair σ) (c : Cluster) (s : RunState σ) :
    Step σ (Option Outcome) → Prop
  | raised {s1 : RunState σ} {e : RuleError} (noted : s.Noted s1)
      (failed : r.rules.fixesFor c = .error e) : RuleTurn r c s (s1, .error (.rule e))
  | left {s1 : RunState σ} (noted : s.Noted s1) (nothing : r.rules.fixesFor c = .ok []) :
      RuleTurn r c s (s1, .ok none)
  | fixed {s1 : RunState σ} {rule : Rule} {ps : List Patch} (noted : s.Noted s1)
      (mem : rule ∈ r.rules.rules) (fixes : r.rules.fixesFor c = .ok ps) (made : rule.fixes c = .ok ps)
      (some_patch : ps ≠ []) :
      RuleTurn r c s
        ((r.settle (ruleOutcome rule c ps) s1).1, (r.settle (ruleOutcome rule c ps) s1).2.map some)

theorem ruleTurn (r : Repair σ) (c : Cluster) (s : RunState σ) : RuleTurn r c s (r.byRule c s) := by
  have hnoted := RunState.Noted.refl s
  unfold byRule RuleRegistry.ruleFor
  cases hfirst : RuleRegistry.firstAccepting c.representative r.rules.rules with
  | error e =>
    exact .raised (hnoted.noteAll (List.forall_mem_nil _)) (by simp only [RuleRegistry.fixesFor, hfirst])
  | ok found =>
    cases found with
    | none =>
      exact .left (hnoted.note (n := .noRuleMatched c.id c.pattern) rfl)
        (by simp only [RuleRegistry.fixesFor, hfirst])
    | some rule =>
      have hfixes : r.rules.fixesFor c = rule.fixes c := by simp only [RuleRegistry.fixesFor, hfirst]
      have hmatched : s.Noted (s.noteAll [.ruleMatched c.id rule.id]) := hnoted.note rfl
      have hcounted := hmatched.count .ruleMatches [("rule", rule.id)] 1
      simp only
      cases hmade : rule.fixes c with
      | error e => exact .raised hcounted (hfixes.trans hmade)
      | ok ps =>
        have hreported := hcounted.note (n := rule.fixesNotice c ps) rfl
        simp only
        by_cases hempty : ps.isEmpty = true
        · rw [if_pos hempty]
          exact .left (hreported.note rfl) (by rw [hfixes, hmade, List.isEmpty_iff.1 hempty])
        · rw [if_neg hempty]
          have hturn := @RuleTurn.fixed σ r c s _ rule ps hreported
            (RuleRegistry.accepts_of_firstAccepting hfirst).1 (hfixes.trans hmade) hmade (by simpa using hempty)
          unfold ruleOutcome at hturn
          split
          · next s2 o hsettle =>
            rw [hsettle] at hturn
            exact hturn
          · next s2 f hsettle =>
            rw [hsettle] at hturn
            exact hturn

theorem unasked_byRule (r : Repair σ) (c : Cluster) (s : RunState σ) : s.Unasked (r.byRule c s).1 := by
  have hend := r.ruleTurn c s
  generalize r.byRule c s = result at hend
  cases hend with
  | raised noted => exact noted.toUnasked
  | left noted nothing => exact noted.toUnasked
  | fixed noted mem fixes made some_patch => exact noted.toUnasked.trans (r.unasked_settle _ _)

/-! ### The generator -/

def generatedOutcome (c : Cluster) (ps : List Patch) : Outcome :=
  { cluster := c, resolution := .generated, patches := ps }

/-- How the consultation of the generator about a cluster ends: the context of the question cannot be
read, or the question is put, and then the run is interrupted, or there is no patch to use, or the
patches that have a target are settled. -/
inductive Consultation (r : Repair σ) (g : Generator σ) (c : Cluster) (s : RunState σ) :
    Step σ Outcome → Prop
  | unread {s1 : RunState σ} {f : RunFault} (noted : s.Noted s1) :
      Consultation r g c s (s1, .error f)
  | interrupted {s1 : RunState σ} {q : Question} (noted : s.Noted s1)
      (about : q.message = c.representative.message) {f : RunFault} :
      Consultation r g c s ((ask g q s1).1, .error f)
  | unused {s1 s2 : RunState σ} {q : Question} (noted : s.Noted s1)
      (about : q.message = c.representative.message) (later : (ask g q s1).1.Noted s2)
      (error : Text) : Consultation r g c s (s2, .ok (unresolved c error))
  | used {s1 s2 : RunState σ} {q : Question} (noted : s.Noted s1)
      (about : q.message = c.representative.message) (later : (ask g q s1).1.Noted s2)
      {ps : List Patch} (targets : ∀ p ∈ ps, Response.hasTarget p = true) :
      Consultation r g c s (r.settle (generatedOutcome c ps) s2)

theorem useProposals_cases (r : Repair σ) (c : Cluster) (candidates : List Patch) (s : RunState σ) :
    ∃ s', s.Noted s' ∧
      (r.useProposals c candidates s = (s', .ok (unresolved c "Generator produced no usable patches")) ∨
        r.useProposals c candidates s =
          r.settle (generatedOutcome c (candidates.filter Response.hasTarget)) s') := by
  unfold useProposals generatedOutcome
  simp only
  generalize hs' : (if (candidates.filter Response.hasTarget).length < candidates.length then
    s.note (.untargetedDropped c.id (candidates.length - (candidates.filter Response.hasTarget).length))
    else s) = s'
  have hnoted : s.Noted s' := by
    rw [← hs']
    split
    · exact (RunState.Noted.refl s).note rfl
    · exact .refl s
  refine ⟨s', hnoted, ?_⟩
  split
  · exact .inl rfl
  · exact .inr rfl

theorem tellsBudget_ofDiagnostic {settings : Settings.Run} {t : FileTree} {d : Diagnostic} {n : Notice}
    (hn : n ∈ (CodeContext.ofDiagnostic settings t d).1) : n.entry.tellsBudget = false := by
  unfold CodeContext.ofDiagnostic at hn
  simp only at hn
  split at hn
  · cases hn
  · split at hn
    · cases hn
    · obtain rfl := List.mem_singleton.1 hn
      rfl

theorem tellsBudget_docsFor {r : Repair σ} {c : Cluster} {n : Notice} (hn : n ∈ (r.docsFor c).1) :
    n.entry.tellsBudget = false := by
  unfold docsFor at hn
  split at hn
  · cases hn
  · obtain rfl := List.mem_singleton.1 hn
    rfl

theorem consultation (r : Repair σ) (g : Generator σ) (c : Cluster) (s : RunState σ) :
    Consultation r g c s (r.byGenerator g c s) := by
  unfold byGenerator
  cases hread : CodeContext.ofDiagnostic r.settings s.workspace.files c.representative with
  | mk ns context =>
    have hns : ∀ n ∈ ns, n.entry.tellsBudget = false := fun n hn =>
      tellsBudget_ofDiagnostic (by rw [hread]; exact hn)
    have hnoted := (RunState.Noted.refl s).noteAll hns
    cases context with
    | error e => exact .unread hnoted
    | ok context =>
      have hput := ((hnoted.noteAll fun n => tellsBudget_docsFor (r := r) (c := c)).note
        (n := .consulting c.id c.representative.location g.modelName) rfl).count .generatorRequests [] 1
      simp only
      generalize hq : (⟨c.representative.message, context, (r.docsFor c).2⟩ : Question) = q
      have habout : q.message = c.representative.message := by rw [← hq]
      generalize hs1 : RunState.count _ .generatorRequests [] 1 = s1 at hput ⊢
      cases hask : ask g q s1 with
      | mk s2 answer =>
        obtain rfl : (ask g q s1).1 = s2 := congrArg Prod.fst hask
        have hlater := RunState.Noted.refl (ask g q s1).1
        cases answer with
        | ok candidates =>
          obtain ⟨s3, hs3, hnone | hsettle⟩ := r.useProposals_cases c candidates (ask g q s1).1
          · simp only [hnone]
            exact .unused hput habout hs3 _
          · simp only [hsettle]
            exact .used hput habout hs3 fun p hp => (List.mem_filter.1 hp).2
        | error f =>
          have hreported := (hlater.note (n := .consultationFailed c.id f.message f.kind) rfl).count
            .generatorErrors [] 1
          cases f with
          | interrupted => exact .interrupted hput habout
          | _ => exact .unused hput habout hreported _

/-! ### Questions -/

/-- Asking puts one question into the journal, and the generator goes on from the state it was in. The files
are as before. -/
theorem ask_spec (g : Generator σ) (q : Question) (s : RunState σ) :
    (ask g q s).1.workspace.files = s.workspace.files ∧
      (ask g q s).1.generator = (g.propose q (.start s.generator s.workspace.clock)).1.state ∧
      (s.workspace.record (.asked q)).Continues (ask g q s).1.workspace := by
  refine ⟨rfl, rfl, ?_⟩
  let exchanges := (g.propose q (.start s.generator s.workspace.clock)).1.exchanges
  have hquiet : ∀ e ∈ exchanges.map Event.exchange, e.IsQuiet := by
    intro e he
    obtain ⟨x, -, rfl⟩ := List.mem_map.1 he
    exact Event.isQuiet_exchange x
  have hexchanged : (s.workspace.record (.asked q)).Continues
      { s.workspace.record (.asked q) with
        clock := (g.propose q (.start s.generator s.workspace.clock)).1.clock
        journal := (s.workspace.record (.asked q)).journal ++ exchanges.map Event.exchange } :=
    ⟨_, rfl, hquiet⟩
  exact hexchanged.record (Event.isQuiet_timed _ _)

/-! ### Passes -/

/-- A pass of the rules that comes to its end. -/
inductive RulePass (r : Repair σ) :
    List Cluster → RunState σ → List Sorted → RunState σ → Prop
  | nil (s : RunState σ) : RulePass r [] s [] s
  | cons {c : Cluster} {cs : List Cluster} {found : Option Outcome} {sorted : List Sorted}
      {s s1 s' : RunState σ} (turn : r.byRule c s = (s1, .ok found))
      (later : RulePass r cs s1 sorted s') : RulePass r (c :: cs) s ((c, found) :: sorted) s'

theorem rulePass {r : Repair σ} {cs : List Cluster} {sorted : List Sorted} {s s' : RunState σ}
    (h : r.allByRule cs s = (s', .ok sorted)) : RulePass r cs s sorted s' := by
  induction cs generalizing s s' sorted with
  | nil =>
    obtain ⟨rfl, rfl⟩ : s = s' ∧ [] = sorted := by simpa [allByRule] using h
    exact .nil s
  | cons c cs ih =>
    unfold allByRule at h
    split at h
    · cases h
    · next s1 found hturn =>
      split at h
      · cases h
      · next s2 rest hrest =>
        obtain ⟨rfl, rfl⟩ : s2 = s' ∧ (c, found) :: rest = sorted := by simpa using h
        exact .cons hturn (ih hrest)

/-- A pass of the generator that comes to its end, after `calls` consultations at its beginning. -/
inductive GeneratorPass (r : Repair σ) (g : Generator σ) (budget excess : Int) :
    (calls : Nat) → (reported : Bool) → List Sorted → RunState σ → List Outcome → RunState σ → Prop
  | nil (calls : Nat) (reported : Bool) (s : RunState σ) :
      GeneratorPass r g budget excess calls reported [] s [] s
  | kept {calls : Nat} {reported : Bool} {c : Cluster} {o : Outcome} {sorted : List Sorted}
      {os : List Outcome} {s s' : RunState σ}
      (later : GeneratorPass r g budget excess calls reported sorted s os s') :
      GeneratorPass r g budget excess calls reported ((c, some o) :: sorted) s (o :: os) s'
  | skipped {calls : Nat} {reported : Bool} {c : Cluster} {sorted : List Sorted} {os : List Outcome}
      {s s' : RunState σ} (spent : budget ≤ calls)
      (later : GeneratorPass r g budget excess calls true sorted
        (if reported then s else s.note (.budgetExhausted budget excess)) os s') :
      GeneratorPass r g budget excess calls reported ((c, none) :: sorted) s (overBudget c :: os) s'
  | asked {calls : Nat} {reported : Bool} {c : Cluster} {o : Outcome} {sorted : List Sorted}
      {os : List Outcome} {s s1 s' : RunState σ} (left : ¬ budget ≤ calls)
      (turn : r.byGenerator g c s = (s1, .ok o))
      (later : GeneratorPass r g budget excess (calls + 1) reported sorted s1 os s') :
      GeneratorPass r g budget excess calls reported ((c, none) :: sorted) s (o :: os) s'

theorem generatorPass {r : Repair σ} {g : Generator σ} {budget excess : Int} {calls : Nat}
    {reported : Bool} {sorted : List Sorted} {os : List Outcome} {s s' : RunState σ}
    (h : r.allByGenerator g budget excess calls reported sorted s = (s', .ok os)) :
    GeneratorPass r g budget excess calls reported sorted s os s' := by
  induction sorted generalizing calls reported s s' os with
  | nil =>
    obtain ⟨rfl, rfl⟩ : s = s' ∧ [] = os := by
      unfold allByGenerator at h
      simpa using h
    exact .nil calls reported s
  | cons p sorted ih =>
    obtain ⟨c, found⟩ := p
    cases found with
    | some o =>
      unfold allByGenerator at h
      split at h
      · cases h
      · next s1 os1 hlater =>
        obtain ⟨rfl, rfl⟩ : s1 = s' ∧ o :: os1 = os := by simpa using h
        exact .kept (ih hlater)
    | none =>
      unfold allByGenerator at h
      by_cases hspent : budget ≤ calls
      · simp only [if_pos hspent] at h
        split at h
        · cases h
        · next s1 os1 hlater =>
          obtain ⟨rfl, rfl⟩ : s1 = s' ∧ overBudget c :: os1 = os := by simpa using h
          exact .skipped hspent (ih hlater)
      · simp only [if_neg hspent] at h
        split at h
        · cases h
        · next s1 o hturn =>
          split at h
          · cases h
          · next s2 os1 hlater =>
            obtain ⟨rfl, rfl⟩ : s2 = s' ∧ o :: os1 = os := by simpa using h
            exact .asked hspent hturn (ih hlater)

/-! ### The run -/

theorem resolveRest_of_not_consults {r : Repair σ} (hoff : r.consults = false)
    (sorted : List Sorted) (s : RunState σ) : r.resolveRest sorted s = (s, .ok (closeAll sorted)) := by
  unfold resolveRest
  unfold consults at hoff
  cases hg : r.generator with
  | none => rfl
  | some g =>
    have huse : r.settings.useGenerator = false := by simpa [hg] using hoff
    simp only [huse, Bool.false_eq_true, if_false]

/-- What follows the pass of the rules: either the generator goes through what they have left, or all of it is
given up. -/
theorem resolveRest_cases (r : Repair σ) (sorted : List Sorted) (s : RunState σ) :
    (∃ g, r.generator = some g ∧ r.consults = true ∧
      r.resolveRest sorted s =
        r.allByGenerator g r.settings.maxConsultations
          (sorted.countP (fun p => p.2.isNone) - r.settings.maxConsultations) 0 false sorted s) ∨
    (r.consults = false ∧ r.resolveRest sorted s = (s, .ok (closeAll sorted))) := by
  by_cases hconsults : r.consults = true
  · obtain ⟨hsome, huse⟩ : r.generator.isSome = true ∧ r.settings.useGenerator = true := by
      simpa [consults] using hconsults
    obtain ⟨g, hg⟩ := Option.isSome_iff_exists.1 hsome
    exact .inl ⟨g, hg, hconsults, by simp only [resolveRest, hg, huse, if_true]⟩
  · have hoff : r.consults = false := by simpa using hconsults
    exact .inr ⟨hoff, resolveRest_of_not_consults hoff sorted s⟩

/-- How a run ends: a fault ends the pass of the rules, or what follows it, or both passes come to their end
and the outcomes are summed up. -/
inductive Course (r : Repair σ) (ds : List Diagnostic) (s : RunState σ) : Step σ Summary → Prop
  | raisedByRules {s1 s2 s' : RunState σ} {f : RunFault} (noted : s.Noted s1)
      (rules : r.allByRule (Cluster.ofDiagnostics (r.settings.selected ds)) s1 = (s2, .error f))
      (later : s2.Noted s') : Course r ds s (s', .error f)
  | raisedInRest {s1 s2 s3 s' : RunState σ} {sorted : List Sorted} {f : RunFault} (noted : s.Noted s1)
      (rules : r.allByRule (Cluster.ofDiagnostics (r.settings.selected ds)) s1 = (s2, .ok sorted))
      (rest : r.resolveRest sorted s2 = (s3, .error f)) (later : s3.Noted s') :
      Course r ds s (s', .error f)
  | finished {s1 s2 s3 s' : RunState σ} {sorted : List Sorted} {os : List Outcome} (noted : s.Noted s1)
      (rules : r.allByRule (Cluster.ofDiagnostics (r.settings.selected ds)) s1 = (s2, .ok sorted))
      (rest : r.resolveRest sorted s2 = (s3, .ok os)) (later : s3.Noted s') :
      Course r ds s (s', .ok (.ofOutcomes (r.settings.selected ds).length os))

theorem course (r : Repair σ) (ds : List Diagnostic) (s : RunState σ) : Course r ds s (r.run ds s) := by
  have hnoted := ((((RunState.Noted.refl s).count .diagnosticsReceived []
    (r.settings.selected ds).length).note (n := .runStarted ds.length (r.settings.selected ds).length
      r.consults r.settings.autoApply) rfl).note (n := .clustered
      (Cluster.members (Cluster.ofDiagnostics (r.settings.selected ds))).length
      (Cluster.ofDiagnostics (r.settings.selected ds)).length) rfl).count .clustersFound []
      (Cluster.ofDiagnostics (r.settings.selected ds)).length
  have hstart := hnoted.note (n := .clusteringComplete
    (Cluster.ofDiagnostics (r.settings.selected ds)).length) rfl
  have htimed (v : RunState σ) := (RunState.Noted.refl v).timed .run s.workspace.clock
  unfold run repair
  simp only
  cases hrules : r.allByRule (Cluster.ofDiagnostics (r.settings.selected ds)) _ with
  | mk s2 sorted =>
    cases sorted with
    | error f => exact .raisedByRules hstart hrules (htimed s2)
    | ok sorted =>
      cases hrest : r.resolveRest sorted s2 with
      | mk s3 os =>
        simp only [hrest]
        cases os with
        | error f => exact .raisedInRest hstart hrules hrest (htimed s3)
        | ok os => exact .finished hstart hrules hrest ((htimed s3).note rfl)

end Repair

end Mend
