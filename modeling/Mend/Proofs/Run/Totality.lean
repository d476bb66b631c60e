import Mend.Proofs.Retry
import Mend.Proofs.Run.Accounting
import Mend.Proofs.Run.Rules

/-!
# Runs that come to an end

What goes wrong with one cluster is its outcome, and the run goes on: errors of the model, responses that
give no patches, patches that do not fit, and rollbacks that are not complete. A run is only ended by what
the engine or a rule cannot handle at all. For regular diagnostics, and a model whose patches have hunks that are
in bounds and can be written, and files that can be looked up (`Model.Harmless`), this does not happen, and each
cluster has an outcome (`Repair.run_total`).
-/

namespace Mend

/-! ### Models -/

/-- A model that is not interrupted, as long as its state is good: then it stays good, and each patch that is
read from a response and has a target is fine. -/
structure Model.Harmless {σ : Type} (model : Model σ) (depth : Nat) (Good : σ → Prop) (Fine : Patch → Prop) :
    Prop where
  stays : ∀ m request, Good m → Good (model.send m request).1
  goes_on : ∀ m request, Good m → (model.send m request).2 ≠ .error .interrupted
  fine : ∀ m request texts, Good m → (model.send m request).2 = .ok texts →
    ∀ ps, (Generator.patchesOf depth texts.flatten).2 = .ok ps →
      ∀ p ∈ ps, Response.hasTarget p = true → Fine p

/-- Whether each proposed patch that has a target is fine, or there is a failure that is no interruption. -/
def Generator.FineAnswer (Fine : Patch → Prop) : Except GeneratorFault (List Patch) → Prop
  | .ok ps => ∀ p ∈ ps, Response.hasTarget p = true → Fine p
  | .error f => f ≠ .interrupted

/-- A generator that answers in this way as long as its state is good, and keeps its state good. -/
structure Generator.Harmless {σ : Type} (g : Generator σ) (Good : σ → Prop) (Fine : Patch → Prop) :
    Prop where
  stays : ∀ q s, Good s.state → Good (g.propose q s).1.state
  answers : ∀ q s, Good s.state → FineAnswer Fine (g.propose q s).2

namespace Generator

variable {σ : Type}

/-- What an attempt gives: a response whose patches are fine, or an error that is no interruption. -/
def FineAttempt (depth : Nat) (Fine : Patch → Prop) : Except AttemptError Text → Prop
  | .ok response => ∀ ps, (patchesOf depth response).2 = .ok ps →
      ∀ p ∈ ps, Response.hasTarget p = true → Fine p
  | .error e => e ≠ .model .interrupted

section

variable {model : Model σ} {depth : Nat} {Good : σ → Prop} {Fine : Patch → Prop}
  (h : model.Harmless depth Good Fine)

include h

theorem fineAttempt_attempt (request : ModelRequest) {s : Session (ModelState σ)}
    (hs : Good s.state.2) :
    Good (attempt model request s).1.state.2 ∧ FineAttempt depth Fine (attempt model request s).2 := by
  have hturn := state_awaitTurn s
  unfold attempt
  cases ht : awaitTurn s with
  | mk s1 result =>
    rw [ht] at hturn
    cases result with
    | error e => exact ⟨by rw [hturn]; exact hs, by simp [FineAttempt]⟩
    | ok u =>
      have hgood : Good (s1.emit (.sent request)).state.2 := by
        rw [Session.state_emit, hturn]
        exact hs
      simp only
      cases hsend : model.send (s1.emit (.sent request)).state.2 request with
      | mk m result =>
        have hstays := h.stays _ request hgood
        have hgoes := h.goes_on _ request hgood
        have hfine := fun texts => h.fine _ request texts hgood
        rw [hsend] at hstays hgoes hfine
        cases result with
        | ok texts => exact ⟨hstays, hfine texts rfl⟩
        | error e => exact ⟨hstays, fun he => hgoes (by rw [AttemptError.model.inj he])⟩

theorem fineAttempt_run (retry : Settings.Retry) (request : ModelRequest)
    {s : Session (ModelState σ)} (hs : Good s.state.2) :
    let run := (policyOf retry).run AttemptError.mayPass AttemptError.report (attempt model request) s
    Good run.1.state.2 ∧ FineAttempt depth Fine run.2 :=
  @Retry.Policy.run_invariant (ModelState σ) _ _ _ _ _ _ (fun m => Good m.2) (FineAttempt depth Fine)
    (fun _ hs => fineAttempt_attempt h request hs) s hs

end

theorem failureOf_ne_interrupted {e : AttemptError} (h : e ≠ .model .interrupted) :
    (failureOf e).2 ≠ .interrupted := by
  cases e with
  | limiter e => simp [failureOf]
  | model e => cases e <;> simp_all [failureOf]

theorem fineAnswer_patchesOf {depth : Nat} {Fine : Patch → Prop} {response : Text}
    (h : FineAttempt depth Fine (.ok response)) : FineAnswer Fine (patchesOf depth response).2 := by
  cases hr : (patchesOf depth response).2 with
  | ok ps => exact h ps hr
  | error f =>
    unfold patchesOf at hr
    split at hr
    · cases hr
      simp [FineAnswer]
    · split at hr
      · cases hr
        simp [FineAnswer]
      · cases hr
      · cases hr

/-- A generator that consults a harmless model is harmless, whatever the rate limit and the retries. -/
theorem harmless_ofModel {model : Model σ} {depth : Nat} {Good : σ → Prop} {Fine : Patch → Prop}
    (h : model.Harmless depth Good Fine) (settings : Settings.Model) (retry : Settings.Retry) :
    (ofModel settings retry depth model).Harmless (fun s => Good s.2) Fine := by
  have hall : ∀ q s, Good s.state.2 →
      Good ((ofModel settings retry depth model).propose q s).1.state.2 ∧
        FineAnswer Fine ((ofModel settings retry depth model).propose q s).2 := by
    intro q s hs
    simp only [ofModel]
    have hrun := @fineAttempt_run _ model depth Good Fine h retry (requestOf settings q)
      (s.emit (.prepared settings.model (requestOf settings q).prompt.length)) hs
    revert hrun
    simp only
    cases (policyOf retry).run AttemptError.mayPass AttemptError.report
      (attempt model (requestOf settings q))
      (s.emit (.prepared settings.model (requestOf settings q).prompt.length)) with
    | mk s1 result =>
      rintro ⟨hgood, hresult⟩
      cases result with
      | error e => exact ⟨by rw [state_foldl_emit]; exact hgood, failureOf_ne_interrupted hresult⟩
      | ok response => exact ⟨by rw [state_foldl_emit]; exact hgood, fineAnswer_patchesOf hresult⟩
  exact ⟨fun q s hs => (hall q s hs).1, fun q s hs => (hall q s hs).2⟩

end Generator

namespace Repair

/-! ### The generator's turn -/

/-- A patch of a model that a run can deal with: the hunks are in bounds and can be written on both sides, and the
file can be looked up. -/
def Manageable {σ : Type} (r : Repair σ) (t : FileTree) (p : Patch) : Prop :=
  Diff.Manageable p.diff ∧
    ∃ node, t.probe (Path.ofText (CodeContext.resolve r.settings p.file).text) = .ok node

section

variable {σ : Type} {r : Repair σ} {t : FileTree} {Good : σ → Prop}

theorem Manageable.settleable {p : Patch} (h : r.Manageable t p) :
    r.Settleable t (fun _ _ => True) p := by
  obtain ⟨⟨hs, hd, hb⟩, hpath⟩ := h
  exact ⟨Patch.exists_firstLine hd, hpath, Engine.retractable_of_manageable _ ⟨hs, hd, hb⟩⟩

/-- Whether the files still have the names of a tree, and the state of the generator is good. -/
structure Steady (t : FileTree) (Good : σ → Prop) (s : RunState σ) : Prop where
  sameNames : t.SameNames s.workspace.files
  good : Good s.generator

theorem Steady.of_kept {s s' : RunState σ} (h : Steady t Good s) (hk : s.Kept s') :
    Steady t Good s' :=
  ⟨h.sameNames.trans hk.sameNames, by rw [hk.generator]; exact h.good⟩

theorem exists_useProposals {s : RunState σ} (hs : Steady t Good s) (c : Cluster)
    {candidates : List Patch}
    (hfine : ∀ p ∈ candidates, Response.hasTarget p = true → r.Manageable t p) :
    ∃ s' o, r.useProposals c candidates s = (s', .ok o) ∧ Steady t Good s' := by
  unfold useProposals
  simp only
  have hsteady : Steady t Good (if (candidates.filter Response.hasTarget).length < candidates.length then
      s.note (.untargetedDropped c.id
        (candidates.length - (candidates.filter Response.hasTarget).length)) else s) := by
    split
    · exact ⟨hs.sameNames, hs.good⟩
    · exact hs
  by_cases hempty : (candidates.filter Response.hasTarget).isEmpty = true
  · rw [if_pos hempty]
    exact ⟨_, _, rfl, hsteady⟩
  · rw [if_neg hempty]
    obtain ⟨s', o, hrun, hkept⟩ := @exists_settle σ r (fun _ _ => True) (fun _ => trivial)
      { cluster := c, resolution := .generated, patches := candidates.filter Response.hasTarget } _
      fun p hp => by
        obtain ⟨hmem, htarget⟩ := List.mem_filter.1 hp
        exact (hfine p hmem htarget).settleable.of_sameNames hsteady.sameNames
    exact ⟨s', o, hrun, hsteady.of_kept hkept⟩

theorem ask_steady {g : Generator σ} {Fine : Patch → Prop} (hg : g.Harmless Good Fine) (q : Question)
    {s : RunState σ} (hs : Steady t Good s) :
    Steady t Good (ask g q s).1 ∧ Generator.FineAnswer Fine (ask g q s).2 :=
  ⟨⟨hs.sameNames, hg.stays q _ hs.good⟩, hg.answers q _ hs.good⟩

/-- Whether the context of a diagnostic can be put to a model: its file has a path that a file can have. -/
def Askable (settings : Settings.Run) (d : Diagnostic) : Prop := (CodeContext.resolve settings d.file).IsValid

/-- The context of a diagnostic can be read, or the question says that it cannot. -/
theorem exists_context {settings : Settings.Run} {d : Diagnostic} (h : Askable settings d)
    (files : FileTree) :
    ∃ ns context, CodeContext.ofDiagnostic settings files d = (ns, .ok context) := by
  unfold CodeContext.ofDiagnostic
  simp only
  cases hr : files.read (CodeContext.resolve settings d.file) with
  | ok bytes => exact ⟨_, _, rfl⟩
  | error e =>
    simp only [FileTree.isInvalidPath_of_read h hr, Bool.false_eq_true, if_false]
    exact ⟨_, _, rfl⟩

theorem exists_byGenerator {g : Generator σ} (hg : g.Harmless Good (r.Manageable t)) {c : Cluster}
    (hask : Askable r.settings c.representative) {s : RunState σ} (hs : Steady t Good s) :
    ∃ s' o, r.byGenerator g c s = (s', .ok o) ∧ Steady t Good s' := by
  obtain ⟨ns, context, hcontext⟩ := exists_context hask s.workspace.files
  unfold byGenerator
  rw [hcontext]
  simp only
  generalize hs1 : ((((s.noteAll ns).noteAll (r.docsFor c).1).note
    (.consulting c.id c.representative.location g.modelName)).count .generatorRequests [] 1) = s1
  have hsteady : Steady t Good s1 := by
    rw [← hs1]
    exact ⟨hs.sameNames, hs.good⟩
  have hanswer := ask_steady hg ⟨c.representative.message, context, (r.docsFor c).2⟩ hsteady
  cases ha : ask g ⟨c.representative.message, context, (r.docsFor c).2⟩ s1 with
  | mk s2 result =>
    rw [ha] at hanswer
    obtain ⟨hsteady2, hfine⟩ := hanswer
    cases result with
    | ok candidates => exact exists_useProposals hsteady2 c hfine
    | error f =>
      have hno : f ≠ .interrupted := hfine
      cases f with
      | interrupted => exact absurd rfl hno
      | _ => exact ⟨_, _, rfl, hsteady2.sameNames, hsteady2.good⟩

theorem exists_allByGenerator {g : Generator σ} (hg : g.Harmless Good (r.Manageable t))
    (budget excess : Int) (calls : Nat) (reported : Bool) {sorted : List Sorted}
    (hask : ∀ p ∈ sorted, Askable r.settings p.1.representative)
    {s : RunState σ} (hs : Steady t Good s) :
    ∃ s' os, r.allByGenerator g budget excess calls reported sorted s = (s', .ok os) := by
  induction sorted generalizing calls reported s with
  | nil => exact ⟨s, [], by unfold allByGenerator; rfl⟩
  | cons p sorted ih =>
    obtain ⟨hone, hrest⟩ := List.forall_mem_cons.1 hask
    obtain ⟨c, found⟩ := p
    cases found with
    | some o =>
      obtain ⟨s', os, hrun⟩ := ih calls reported hrest hs
      exact ⟨s', o :: os, by rw [allByGenerator, hrun]⟩
    | none =>
      by_cases hspent : budget ≤ calls
      · have hnoted : Steady t Good
            (if reported then s else s.note (.budgetExhausted budget excess)) := by
          split
          · exact hs
          · exact ⟨hs.sameNames, hs.good⟩
        obtain ⟨s', os, hrun⟩ := ih calls true hrest hnoted
        exact ⟨s', overBudget c :: os, by rw [allByGenerator, if_pos hspent]; simp only [hrun]⟩
      · obtain ⟨s1, o, hone, hs1⟩ := exists_byGenerator hg hone hs
        obtain ⟨s', os, hrun⟩ := ih (calls + 1) reported hrest hs1
        exact ⟨s', o :: os, by rw [allByGenerator, if_neg hspent, hone]; simp only [hrun]⟩

theorem exists_resolveRest {sorted : List Sorted}
    (hg : ∀ g, r.generator = some g → g.Harmless Good (r.Manageable t))
    (hask : ∀ p ∈ sorted, Askable r.settings p.1.representative)
    {s : RunState σ} (hs : Steady t Good s) :
    ∃ s' os, r.resolveRest sorted s = (s', .ok os) := by
  unfold resolveRest
  cases hr : r.generator with
  | none => exact ⟨s, _, rfl⟩
  | some g =>
    simp only
    by_cases huse : r.settings.useGenerator = true
    · rw [if_pos huse]
      exact exists_allByGenerator (hg g hr) _ _ _ _ hask hs
    · rw [if_neg huse]
      exact ⟨s, _, rfl⟩

/-! ### The run -/

theorem exists_run (hrules : r.rules = Rule.builtinRegistry)
    (hg : ∀ g, r.generator = some g → g.Harmless Good (r.Manageable t)) {ds : List Diagnostic}
    {s : RunState σ} (hs : Steady t Good s)
    (hreg : ∀ d ∈ ds, d.IsRegular r.settings s.workspace.files) (hask : ∀ d ∈ ds, Askable r.settings d) :
    ∃ s' m, r.run ds s = (s', .ok m) := by
  refine exists_run_of_rest hrules hreg fun s1 sorted hkept hfst =>
    exists_resolveRest hg (fun p hp => ?_) (hs.of_kept hkept)
  have hc := List.mem_map_of_mem (f := Prod.fst) hp
  rw [hfst] at hc
  exact hask _ (List.mem_of_mem_filter (Cluster.mem_of_mem_instances hc List.mem_cons_self))

end

/-- A run of the built-in rules on regular diagnostics comes to its end with an outcome for each cluster,
whatever goes wrong on the way, as long as the hunks of the model's patches are in bounds, their lines can be
written, and their files can be looked up. -/
theorem run_total {σ : Type} {r : Repair (Generator.ModelState σ)} {model : Model σ} {depth : Nat}
    {Good : σ → Prop} {ds : List Diagnostic} {s : RunState (Generator.ModelState σ)}
    (hrules : r.rules = Rule.builtinRegistry)
    (hgen : ∀ g, r.generator = some g → ∃ settings retry, g = .ofModel settings retry depth model)
    (hmodel : model.Harmless depth Good (r.Manageable s.workspace.files)) (hgood : Good s.generator.2)
    (hreg : ∀ d ∈ ds, d.IsRegular r.settings s.workspace.files)
    (hask : ∀ d ∈ ds, Askable r.settings d) :
    ∃ s' m, r.run ds s = (s', .ok m) ∧
      m.outcomes.map (·.cluster) = Cluster.ofDiagnostics (r.settings.selected ds) := by
  have hg : ∀ g, r.generator = some g →
      g.Harmless (fun s => Good s.2) (r.Manageable s.workspace.files) := by
    intro g hr
    obtain ⟨settings, retry, rfl⟩ := hgen g hr
    exact Generator.harmless_ofModel hmodel settings retry
  obtain ⟨s', m, hrun⟩ := exists_run hrules hg ⟨.refl _, hgood⟩ hreg hask
  obtain ⟨s1, hrepair⟩ := repair_of_run hrun
  obtain ⟨os, rfl, haccounts⟩ := repair_accounts hrepair
  exact ⟨s', _, hrun, (map_cluster_of_accounts haccounts).1⟩

/-- The model proposes the same diff for two clusters. It fits once, and the run comes to its end. -/
theorem run_total_of_stale_diff :
    let model : Model Unit :=
      ⟨fun _ _ => ((), .ok ["```diff\n+++ b/a.ts\n@@ -1,1 +1,1 @@\n-one\n+two\n```"])⟩
    let r : Repair (Generator.ModelState Unit) := ⟨.default, Rule.builtinRegistry,
      some (.ofModel ⟨"key", "model", 256, 0.0, 0, 30.0, 5.0⟩ .default 980 model), fun _ => .ok []⟩
    let ds : List Diagnostic := [⟨"a.ts", 1, "no such name", .error, Nat.succ_pos _⟩,
      ⟨"a.ts", 1, "no such type", .error, Nat.succ_pos _⟩]
    let s : RunState (Generator.ModelState Unit) :=
      ⟨.start (FileTree.empty.put ["a.ts"] (Utf8.encode "one\n")),
        ⟨.real 1.0, .real 1.0, .real 1.0, .real 0.0⟩, ()⟩
    ∃ s' m, r.run ds s = (s', .ok m) ∧ m.outcomes.length = 2 := by
  intro model r ds s
  let p : Patch :=
    ⟨"+++ b/a.ts\n@@ -1,1 +1,1 @@\n-one\n+two", "Generated patch 1", "a.ts", .generated⟩
  have hreply : (Generator.patchesOf 980
      "```diff\n+++ b/a.ts\n@@ -1,1 +1,1 @@\n-one\n+two\n```").2.toOption = some [p] := by
    decide +kernel
  have hpatch : r.Manageable s.workspace.files p :=
    ⟨⟨[⟨1, 1, 1, 1, ["-one", "+two"]⟩], by decide, by decide⟩,
      (FileTree.exists_probe_iff_isOk _ _).2 (by decide)⟩
  have hmodel : model.Harmless 980 (fun _ => True) (r.Manageable s.workspace.files) := by
    refine ⟨fun _ _ _ => trivial, fun _ _ _ => nofun, ?_⟩
    intro _ _ texts _ hsend ps hps q hq _
    obtain rfl := Except.ok.inj hsend
    rw [List.flatten_singleton] at hps
    rw [hps] at hreply
    obtain rfl : ps = [p] := Option.some.inj hreply
    obtain rfl := List.mem_singleton.1 hq
    exact hpatch
  have hlookup : ∀ d ∈ ds, ∃ node,
      s.workspace.files.probe (Path.ofText (CodeContext.resolve r.settings d.file).text) = .ok node :=
    fun d hd => (FileTree.exists_probe_iff_isOk _ _).2 (by revert d; decide)
  obtain ⟨s', m, hrun, hclusters⟩ := @run_total _ r model 980 _ ds s rfl
    (fun g hg => ⟨_, _, (Option.some.inj hg).symm⟩) hmodel trivial
    (fun d hd => ⟨by revert d; decide, hlookup d hd, by revert d; decide⟩) (by unfold Askable; decide)
  have hlength : (Cluster.ofDiagnostics (r.settings.selected ds)).length = 2 := by decide +kernel
  exact ⟨s', m, hrun, by rw [← hlength, ← hclusters, List.length_map]⟩

/-- The model proposes to put a line at a position of twenty digits: the run ends without a summary, and the
second cluster is not dealt with. -/
theorem run_ended_by_large_position :
    let model : Model Unit := ⟨fun _ _ =>
      ((), .ok ["```diff\n+++ b/a.ts\n@@ -9999999999999999999,0 +1,1 @@\n+x\n```"])⟩
    let r : Repair (Generator.ModelState Unit) := ⟨.default, Rule.builtinRegistry,
      some (.ofModel ⟨"key", "model", 256, 0.0, 0, 30.0, 5.0⟩ .default 980 model), fun _ => .ok []⟩
    let ds : List Diagnostic := [⟨"a.ts", 1, "no such name", .error, Nat.succ_pos _⟩,
      ⟨"b.ts", 1, "no such type", .error, Nat.succ_pos _⟩]
    let s : RunState (Generator.ModelState Unit) :=
      ⟨.start (FileTree.empty.put ["a.ts"] (Utf8.encode "one\n")),
        ⟨.real 1.0, .real 1.0, .real 1.0, .real 0.0⟩, ()⟩
    (∃ s', r.run ds s = (s', .error (.engine .positionTooLarge))) ∧
      ¬ ∃ s' m, r.run ds s = (s', .ok m) := by
  intro model r ds s
  let faultOf : Except RunFault Summary → Option Engine.Fault
    | .error (.engine f) => some f
    | _ => none
  have hfault : faultOf (r.run ds s).2 = some .positionTooLarge := by decide +kernel
  have hrun : (r.run ds s).2 = .error (.engine .positionTooLarge) := by
    revert hfault
    cases (r.run ds s).2 with
    | ok m => nofun
    | error f =>
      cases f with
      | engine f => exact fun hf => by rw [Option.some.inj hf]
      | _ => nofun
  exact ⟨⟨_, Prod.ext rfl hrun⟩, fun ⟨s', m, hm⟩ => by rw [hm] at hrun; cases hrun⟩

end Repair

end Mend
