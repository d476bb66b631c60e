import Mend.Assoc
import Mend.Json
import Mend.Number.Quantity

/-!
# Metrics

Counters add up amounts under label sets; histograms keep observations. The registry of a process
holds a fixed set of each and is written out as a record or in the Prometheus text format.

Label sets are kept in the order of their names, and a counter keeps its label sets in the order in
which they were first used.
-/

namespace Mend.Metrics

open Number (Quantity Overflow)
open Json (Value)

/-! ### Labels -/

/-- A label set: names with their values, in the order of the names. -/
abbrev Labels := List (Text × Text)

/-- The label set with these names and values. -/
def Labels.ofList (ls : List (Text × Text)) : Labels :=
  ls.mergeSort fun a b => Text.atMost a.1 b.1

/-! ### Counters -/

/-- Why an amount cannot be counted. -/
inductive AmountError
  | negative
  | notANumber (kind : Text)
  | overflow (o : Overflow)
  deriving DecidableEq, Repr

/-- The text of the error. -/
def AmountError.message : AmountError → Text
  | .negative => "Counter can only increase"
  | .notANumber kind => "'<' not supported between instances of '" ++ kind ++ "' and 'int'"
  | .overflow o => o.message

/-- The amount that a value stands for. -/
def amountOf : Value → Except AmountError Quantity
  | .int n => .ok (.whole n)
  | .float x => .ok (.real x)
  | .bool b => .ok (.whole (if b then 1 else 0))
  | v => .error (.notANumber v.kind)

/-- The numbers that a counter adds up. -/
class Tally (α : Type) extends Number.Arithmetic α where
  /-- What the sum of a label set begins with. -/
  start : α
  /-- A number of things. -/
  ofNat : Nat → α

instance : Tally Quantity := ⟨.real 0.0, fun n => .whole n⟩

/-- A counter: a sum for each label set that was used. -/
structure Counter (α : Type) where
  sums : List (Labels × α)

namespace Counter

/-- A counter that was never used. -/
def empty {α : Type} : Counter α := ⟨[]⟩

variable {α : Type} [Tally α]

/-- Adds an amount to the sum of a label set. An amount that cannot be added still opens the label
set. -/
def inc (c : Counter α) (amount : α) (labels : Labels) : Counter α × Except AmountError Unit :=
  if Number.Arithmetic.less amount Number.Arithmetic.zero then (c, .error .negative)
  else
    let old := (c.sums.lookup labels).getD Tally.start
    match Number.Arithmetic.add old amount with
    | .ok s => (⟨Assoc.put labels s c.sums⟩, .ok ())
    | .error e => (⟨Assoc.put labels old c.sums⟩, .error (.overflow e))

/-- The sum of a label set; zero if it was never used. -/
def get (c : Counter α) (labels : Labels) : α :=
  (c.sums.lookup labels).getD Number.Arithmetic.zero

/-- The sum over all label sets. -/
def total (c : Counter α) : Except Overflow α :=
  c.sums.foldlM (fun s x => Number.Arithmetic.add s x.2) Number.Arithmetic.zero

end Counter

/-! ### Histograms -/

/-- The bounds of the default buckets, in seconds. -/
def defaultBounds : List Float := [0.01, 0.05, 0.1, 0.5, 1.0, 5.0, 10.0, 30.0, 60.0, 1.0 / 0.0]

/-- A histogram: the bounds of its buckets and the observations of each label set. -/
structure Histogram where
  bounds : List Float
  observations : List (Labels × List Quantity)

/-- Count, sum, least, greatest and mean of some observations. -/
structure Stats where
  count : Nat
  sum : Quantity
  min : Quantity
  max : Quantity
  mean : Quantity

namespace Histogram

/-- A histogram without observations; without bounds it has the default ones. -/
def empty (bounds : List Float) : Histogram :=
  ⟨if bounds.isEmpty then defaultBounds else bounds, []⟩

/-- Adds an observation at the end of its label set. -/
def add (labels : Labels) (q : Quantity) :
    List (Labels × List Quantity) → List (Labels × List Quantity)
  | [] => [(labels, [q])]
  | (l, qs) :: os => if l = labels then (l, qs ++ [q]) :: os else (l, qs) :: add labels q os

/-- The histogram after an observation. -/
def observe (h : Histogram) (q : Quantity) (labels : Labels) : Histogram :=
  { h with observations := add labels q h.observations }

/-- The observations of a label set. -/
def values (h : Histogram) (labels : Labels) : List Quantity :=
  (h.observations.lookup labels).getD []

/-- The sum of some quantities, from the first to the last. -/
def sum : Quantity → List Quantity → Except Overflow Quantity
  | s, [] => .ok s
  | s, q :: qs =>
    match Number.Arithmetic.add s q with
    | .ok s => sum s qs
    | .error e => .error e

/-- The statistics of a label set; whole zeros if it has no observation. -/
def stats (h : Histogram) (labels : Labels) : Except Overflow Stats :=
  match h.values labels with
  | [] => .ok ⟨0, .whole 0, .whole 0, .whole 0, .whole 0⟩
  | q :: qs => do
    let total ← sum (.whole 0) (q :: qs)
    let mean ← total.div (.whole (q :: qs).length)
    return ⟨(q :: qs).length, total, qs.foldl Number.Arithmetic.least q,
      qs.foldl Number.Arithmetic.greatest q, mean⟩

/-- Bounds without repetition, in the order of their first use. -/
def distinct (bounds : List Float) : List Float :=
  bounds.foldl (fun bs b => if bs.any (· == b) then bs else bs ++ [b]) []

/-- For each bound the number of observations that have it as the first bound not below them. -/
def counts (h : Histogram) (labels : Labels) : List (Float × Nat) :=
  let placed := (h.values labels).filterMap fun q => h.bounds.find? fun b => q.atMost (.real b)
  (distinct h.bounds).map fun b => (b, placed.countP (· == b))

end Histogram

/-! ### The registry -/

/-- The counters of a process. -/
inductive CounterName
  | diagnosticsReceived
  | clustersFound
  | ruleMatches
  | generatorRequests
  | generatorErrors
  | patchesApplied
  | patchesFailed
  | batchesRolledBack
  | rollbackFailures
  deriving DecidableEq, Repr

/-- The histograms of a process. -/
inductive Timing
  | run
  | generator
  deriving DecidableEq, Repr

namespace CounterName

/-- All counters in the order in which they are written out. -/
def all : List CounterName :=
  [diagnosticsReceived, clustersFound, ruleMatches, generatorRequests, generatorErrors,
    patchesApplied, patchesFailed, batchesRolledBack, rollbackFailures]

/-- The name under which a counter is written out. -/
def metric : CounterName → Text
  | diagnosticsReceived => "migration_repair_diagnostics_received_total"
  | clustersFound => "migration_repair_clusters_total"
  | ruleMatches => "migration_repair_pattern_matches_total"
  | generatorRequests => "migration_repair_generator_requests_total"
  | generatorErrors => "migration_repair_generator_errors_total"
  | patchesApplied => "migration_repair_patches_applied_total"
  | patchesFailed => "migration_repair_patches_failed_total"
  | batchesRolledBack => "migration_repair_batches_rolled_back_total"
  | rollbackFailures => "migration_repair_rollback_failures_total"

/-- What a counter counts. -/
def help : CounterName → Text
  | diagnosticsReceived => "Total diagnostics received for repair"
  | clustersFound => "Total error clusters formed"
  | ruleMatches => "Clusters matched by a tier-1 rule"
  | generatorRequests => "Tier-2 generator requests"
  | generatorErrors => "Tier-2 generator failures"
  | patchesApplied => "Patches written to disk"
  | patchesFailed => "Patches that could not be applied"
  | batchesRolledBack => "Patch batches rolled back after a failure"
  | rollbackFailures => "Patches that could not be reverted during rollback"

end CounterName

/-- The metrics of a process. -/
structure Registry (α : Type) where
  counters : CounterName → Counter α
  timings : Timing → Histogram

namespace Registry

variable {α : Type}

/-- The registry of a process that did nothing yet. -/
def empty : Registry α := ⟨fun _ => .empty, fun _ => .empty []⟩

/-- The registry with another counter under a name. -/
def setCounter (r : Registry α) (name : CounterName) (c : Counter α) : Registry α :=
  { r with counters := fun n => if n = name then c else r.counters n }

/-- The registry after an amount was counted. -/
def inc [Tally α] (r : Registry α) (name : CounterName) (amount : α) (labels : Labels) :
    Registry α × Except AmountError Unit :=
  let (c, result) := (r.counters name).inc amount labels
  (r.setCounter name c, result)

/-- The registry after a duration was observed. -/
def observe (r : Registry α) (timing : Timing) (q : Quantity) : Registry α :=
  let h := (r.timings timing).observe q []
  { r with timings := fun t => if t = timing then h else r.timings t }

/-! ### Writing out -/

/-- The value of a quantity. -/
def valueOf : Quantity → Value
  | .whole n => .int n
  | .real x => .float x

/-- The record of some statistics. -/
def statsRecord (s : Stats) : Value :=
  .record [("count", .nat s.count), ("sum", valueOf s.sum), ("min", valueOf s.min),
    ("max", valueOf s.max), ("mean", valueOf s.mean)]

/-- The record of all metrics after some seconds of uptime. -/
def record (r : Registry Quantity) (uptime : Float) : Except Overflow Value := do
  let total (n : CounterName) : Except Overflow Value := (r.counters n).total.map valueOf
  let generator ← (r.timings .generator).stats []
  let run ← (r.timings .run).stats []
  return .record [
    ("uptime_seconds", .float uptime),
    ("diagnostics", .record [("received", ← total .diagnosticsReceived),
      ("clusters", ← total .clustersFound)]),
    ("tier1", .record [("matches", ← total .ruleMatches)]),
    ("tier2", .record [("requests", ← total .generatorRequests),
      ("errors", ← total .generatorErrors), ("duration_stats", statsRecord generator)]),
    ("patches", .record [("applied", ← total .patchesApplied), ("failed", ← total .patchesFailed),
      ("batches_rolled_back", ← total .batchesRolledBack),
      ("rollback_failures", ← total .rollbackFailures)]),
    ("runs", .record [("duration_stats", statsRecord run)])]

/-- The label set in the text format; nothing is escaped. -/
def labelText (labels : Labels) : Text :=
  if labels.isEmpty then []
  else
    let label (l : Text × Text) : Text := l.1 ++ "=\"" ++ l.2 ++ "\""
    "\x7b" ++ Text.joinOn ',' (labels.map label) ++ "\x7d"

/-- The sample line of one label set. -/
def sampleLine (name : CounterName) (sample : Labels × Quantity) : Text :=
  name.metric ++ labelText sample.1 ++ " " ++ sample.2.text

/-- The lines of one counter: what it counts, its type, and a sample for each label set. -/
def counterLines (r : Registry Quantity) (name : CounterName) : List Text :=
  ("# HELP " ++ name.metric ++ " " ++ name.help) ::
    ("# TYPE " ++ name.metric ++ " counter") :: (r.counters name).sums.map (sampleLine name)

/-- All counters in the Prometheus text format. -/
def prometheus (r : Registry Quantity) : Text := Text.ofLines (CounterName.all.flatMap r.counterLines)

end Registry

end Mend.Metrics
