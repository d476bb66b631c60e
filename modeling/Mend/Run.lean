import Mend.CodeContext
import Mend.Generator
import Mend.Outcome
import Mend.Rule.Match

/-!
# Runs

A run takes the diagnostics of one analysis and repairs what it can. Diagnostics are clustered; first
each cluster is fixed by the first rule that accepts it, then the generator is asked about the
clusters that are left, one after the other and within a budget. The patches of a cluster are applied
as one batch. What goes wrong with one cluster is its outcome and does not stop the others; only
what the engine or a rule cannot handle at all ends the run.
-/

namespace Mend

open Metrics (CounterName Timing)

/-- What ends a run. -/
inductive RunFault
  | rule (e : RuleError)
  | engine (f : Engine.Fault)
  | context (e : FileError)
  | numeral (e : Number.NumeralError)
  | interrupted

/-- What a run works with: its settings, the rules, a generator or none, and the documentation for a
cluster, which may fail to be found. -/
structure Repair (σ : Type) where
  settings : Settings.Run
  rules : RuleRegistry
  generator : Option (Generator σ)
  docs : Cluster → Except Text Text

/-- The workspace and the state of the generator. -/
structure RunState (σ : Type) where
  workspace : Workspace
  generator : σ

namespace RunState

variable {σ : Type}

/-- The state after some notices. -/
def noteAll (s : RunState σ) (ns : List Notice) : RunState σ :=
  { s with workspace := s.workspace.noteAll ns }

/-- The state after a notice. -/
def note (s : RunState σ) (n : Notice) : RunState σ := s.noteAll [n]

/-- The state after an amount was counted. -/
def count (s : RunState σ) (c : CounterName) (labels : Metrics.Labels) (n : Nat) : RunState σ :=
  { s with workspace := s.workspace.count c labels n }

/-- The state after a duration that began at an instant. -/
def timed (s : RunState σ) (t : Timing) (start : Float) : RunState σ :=
  { s with workspace := s.workspace.record (.timed t (s.workspace.clock - start)) }

end RunState

namespace Repair

variable {σ : Type}

/-- Whether clusters that no rule fixes are put to the generator. -/
def consults (r : Repair σ) : Bool := r.generator.isSome && r.settings.useGenerator

/-- The result of a step of a run. -/
abbrev Step (σ α : Type) : Type := RunState σ × Except RunFault α

/-! ### Applying patches -/

/-- The items of a batch: later lines come first, and paths are seen from the workspace. -/
def itemsOf (r : Repair σ) (ps : List Patch) : Except Number.NumeralError (List Engine.Item) :=
  (Patch.bottomUp ps).map fun ps =>
    ps.map fun p => ⟨(CodeContext.resolve r.settings p.file).text, p⟩

/-- The error of an outcome whose batch failed. -/
def batchError (b : Engine.BatchResult) : Text :=
  let incomplete : Text :=
    "; rollback incomplete for " ++ Text.ofNat b.rollbackFailures.length ++ " patches"
  b.failureReason.getD [] ++ if b.rollbackClean then [] else incomplete

/-- The outcome of a cluster whose patches were applied as a batch. -/
def batchOutcome (o : Outcome) (b : Engine.BatchResult) : Outcome :=
  if b.success then { o with batch := some b }
  else { o with resolution := .failed, batch := some b, error := some (batchError b) }

/-- Applies the patches of an outcome as one batch, unless patches are only proposed. -/
def settle (r : Repair σ) (o : Outcome) (s : RunState σ) : Step σ Outcome :=
  if !r.settings.autoApply then
    (s.note (.patchesProposed o.cluster.id o.patches.length), .ok o)
  else
    match r.itemsOf o.patches with
    | .error e => (s, .error (.numeral e))
    | .ok items =>
      match Engine.applyBatch r.settings.strictValidation s.workspace items with
      | (w, .error f) => ({ s with workspace := w }, .error (.engine f))
      | (w, .ok b) => ({ s with workspace := w }, .ok (batchOutcome o b))

/-! ### Rules -/

/-- Fixes a cluster by a rule, if one accepts it and makes patches for it. -/
def byRule (r : Repair σ) (c : Cluster) (s : RunState σ) : Step σ (Option Outcome) :=
  match r.rules.ruleFor c with
  | (ns, .error e) => (s.noteAll ns, .error (.rule e))
  | (ns, .ok none) => (s.noteAll ns, .ok none)
  | (ns, .ok (some rule)) =>
    let s := (s.noteAll ns).count .ruleMatches [("rule", rule.id)] 1
    match rule.fixes c with
    | .error e => (s, .error (.rule e))
    | .ok patches =>
      let s := s.note (rule.fixesNotice c patches)
      if patches.isEmpty then (s.note (.ruleGaveNoPatches c.id rule.id), .ok none)
      else
        match r.settle { cluster := c, resolution := .rule, rule := some rule.id, patches } s with
        | (s, .ok o) => (s, .ok (some o))
        | (s, .error f) => (s, .error f)

/-- A cluster with its outcome, if a rule made one. -/
abbrev Sorted : Type := Cluster × Option Outcome

/-- Goes through the clusters with the rules. -/
def allByRule (r : Repair σ) : List Cluster → RunState σ → Step σ (List Sorted)
  | [], s => (s, .ok [])
  | c :: cs, s =>
    match r.byRule c s with
    | (s, .error f) => (s, .error f)
    | (s, .ok o) =>
      match allByRule r cs s with
      | (s, .error f) => (s, .error f)
      | (s, .ok rest) => (s, .ok ((c, o) :: rest))

/-! ### The generator -/

/-- The documentation for a cluster; without it the question is put all the same. -/
def docsFor (r : Repair σ) (c : Cluster) : List Notice × Text :=
  match r.docs c with
  | .ok t => ([], t)
  | .error e => ([.docsFailed c.id e], [])

/-- Puts a question to the generator. The exchanges become part of the journal. -/
def ask (g : Generator σ) (q : Question) (s : RunState σ) :
    RunState σ × Except GeneratorFault (List Patch) :=
  let w := s.workspace.record (.asked q)
  let (session, result) := g.propose q (.start s.generator w.clock)
  let w := { w with
    clock := session.clock
    journal := w.journal ++ session.exchanges.map Event.exchange }
  ((RunState.mk w session.state).timed .generator s.workspace.clock, result)

/-- The outcome of a cluster for which nothing was made. -/
def unresolved (c : Cluster) (error : Text) : Outcome :=
  { cluster := c, resolution := .unresolved, error := some error }

/-- Fixes a cluster by the patches that the generator proposed, as far as it is known which file they
are for. -/
def useProposals (r : Repair σ) (c : Cluster) (candidates : List Patch) (s : RunState σ) :
    Step σ Outcome :=
  let patches := candidates.filter Response.hasTarget
  let s := if patches.length < candidates.length then
      s.note (.untargetedDropped c.id (candidates.length - patches.length))
    else s
  if patches.isEmpty then (s, .ok (unresolved c "Generator produced no usable patches"))
  else r.settle { cluster := c, resolution := .generated, patches } s

/-- Fixes a cluster by the generator. -/
def byGenerator (r : Repair σ) (g : Generator σ) (c : Cluster) (s : RunState σ) :
    Step σ Outcome :=
  match CodeContext.ofDiagnostic r.settings s.workspace.files c.representative with
  | (ns, .error e) => (s.noteAll ns, .error (.context e))
  | (ns, .ok context) =>
    let (docsNotices, docs) := r.docsFor c
    let s := (s.noteAll ns).noteAll docsNotices
    let s := s.note (.consulting c.id c.representative.location g.modelName)
    let s := s.count .generatorRequests [] 1
    match ask g ⟨c.representative.message, context, docs⟩ s with
    | (s, .ok candidates) => r.useProposals c candidates s
    | (s, .error .interrupted) => (s, .error .interrupted)
    | (s, .error f) =>
      let s := s.note (.consultationFailed c.id f.message f.kind)
      (s.count .generatorErrors [] 1, .ok (unresolved c ("Generator failed: " ++ f.message)))

/-- The outcome of a cluster that is left when there is no generator. -/
def withoutGenerator (c : Cluster) : Outcome :=
  unresolved c "No matching pattern and generator disabled"

/-- The outcome of a cluster that is left when the budget is spent. -/
def overBudget (c : Cluster) : Outcome :=
  { cluster := c, resolution := .skipped, error := some "Generator budget exhausted" }

/-- Goes through the clusters that are left with the generator, of which `calls` were put to it so
far. The first cluster beyond the budget is reported, together with the number of those in excess. -/
def allByGenerator (r : Repair σ) (g : Generator σ) (budget excess : Int) :
    (calls : Nat) → (reported : Bool) → List Sorted → RunState σ → Step σ (List Outcome)
  | _, _, [], s => (s, .ok [])
  | calls, reported, (_, some o) :: rest, s =>
    match allByGenerator r g budget excess calls reported rest s with
    | (s, .error f) => (s, .error f)
    | (s, .ok os) => (s, .ok (o :: os))
  | calls, reported, (c, none) :: rest, s =>
    if budget ≤ calls then
      let s := if reported then s else s.note (.budgetExhausted budget excess)
      match allByGenerator r g budget excess calls true rest s with
      | (s, .error f) => (s, .error f)
      | (s, .ok os) => (s, .ok (overBudget c :: os))
    else
      match r.byGenerator g c s with
      | (s, .error f) => (s, .error f)
      | (s, .ok o) =>
        match allByGenerator r g budget excess (calls + 1) reported rest s with
        | (s, .error f) => (s, .error f)
        | (s, .ok os) => (s, .ok (o :: os))

/-- The outcomes when there is no generator. -/
def closeAll (sorted : List Sorted) : List Outcome :=
  sorted.map fun (c, o) => o.getD (withoutGenerator c)

/-- Goes through the clusters that are left. -/
def resolveRest (r : Repair σ) (sorted : List Sorted) (s : RunState σ) : Step σ (List Outcome) :=
  match r.generator with
  | some g =>
    if r.settings.useGenerator then
      let budget := r.settings.maxConsultations
      let pending := sorted.countP fun p => p.2.isNone
      r.allByGenerator g budget (pending - budget) 0 false sorted s
    else (s, .ok (closeAll sorted))
  | none => (s, .ok (closeAll sorted))

/-! ### The run -/

/-- Repairs what the diagnostics report. -/
def repair (r : Repair σ) (ds : List Diagnostic) (s : RunState σ) : Step σ Summary :=
  let chosen := r.settings.selected ds
  let s := s.count .diagnosticsReceived [] chosen.length
  let s := s.note (.runStarted ds.length chosen.length r.consults r.settings.autoApply)
  let clusters := Cluster.ofDiagnostics chosen
  let s := s.note (.clustered (Cluster.members clusters).length clusters.length)
  let s := s.count .clustersFound [] clusters.length
  let s := s.note (.clusteringComplete clusters.length)
  match r.allByRule clusters s with
  | (s, .error f) => (s, .error f)
  | (s, .ok sorted) =>
    match r.resolveRest sorted s with
    | (s, .error f) => (s, .error f)
    | (s, .ok os) => (s, .ok (.ofOutcomes chosen.length os))

/-- A run: its duration is measured, and its end is reported if it comes to one. -/
def run (r : Repair σ) (ds : List Diagnostic) (s : RunState σ) : Step σ Summary :=
  let start := s.workspace.clock
  match r.repair ds s with
  | (s, .error f) => (s.timed .run start, .error f)
  | (s, .ok summary) =>
    let s := s.timed .run start
    (s.note (.runComplete summary.patchesApplied summary.errorsFixed summary.remaining),
      .ok summary)

end Repair

end Mend
