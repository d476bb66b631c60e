import Mend.Cluster
import Mend.Engine

/-!
# Outcomes

What became of each cluster of a run, and the sums over all of them.
-/

namespace Mend

/-- How a cluster ended. -/
inductive Resolution
  /-- Fixed by a rule. -/
  | rule
  /-- Fixed by the generator. -/
  | generated
  /-- No patches were made. -/
  | unresolved
  /-- Patches were made, but their batch did not apply. -/
  | failed
  /-- The budget of the generator was spent. -/
  | skipped
  deriving DecidableEq, Repr

namespace Resolution

/-- The name of a resolution. -/
def name : Resolution → Text
  | rule => "pattern"
  | generated => "generated"
  | unresolved => "unresolved"
  | failed => "failed"
  | skipped => "skipped"

/-- The resolution with a name. -/
def ofName? (t : Text) : Option Resolution :=
  [rule, generated, unresolved, failed, skipped].find? fun r => r.name = t

theorem ofName?_name (r : Resolution) : ofName? r.name = some r := by cases r <;> decide

end Resolution

/-- What became of a cluster. -/
structure Outcome where
  cluster : Cluster
  resolution : Resolution
  rule : Option Text := none
  patches : List Patch := []
  batch : Option Engine.BatchResult := none
  error : Option Text := none

namespace Outcome

/-- Whether the patches of the cluster are in the files now. -/
def applied (o : Outcome) : Bool := o.batch.any Engine.BatchResult.success

/-- Whether the batch of the cluster was undone. -/
def rolledBack (o : Outcome) : Bool := o.batch.any (·.rolledBack)

/-- The number of diagnostics that an applied outcome takes care of: a patch of a rule fixes the one
that it was made for, a generated one is for the representative only. -/
def fixedCount (o : Outcome) : Nat :=
  match o.resolution with
  | .rule => min o.patches.length o.cluster.size
  | _ => 1

/-- The number of diagnostics that some applied outcomes take care of. -/
def fixedAmong : List Outcome → Nat
  | [] => 0
  | o :: os => o.fixedCount + fixedAmong os

end Outcome

/-- The outcomes of a run with their sums. -/
structure Summary where
  total : Int
  outcomes : List Outcome
  patchesApplied : Int
  errorsFixed : Int
  remaining : Int
  rolledBack : Nat

namespace Summary

/-- The summary of some outcomes. -/
def ofOutcomes (total : Nat) (os : List Outcome) : Summary :=
  let applied := os.filter Outcome.applied
  let fixed := Outcome.fixedAmong applied
  { total := total
    outcomes := os
    patchesApplied := (applied.flatMap (·.patches)).length
    errorsFixed := fixed
    remaining := (total : Int) - fixed
    rolledBack := os.countP Outcome.rolledBack }

/-- The number of clusters that ended in a way. -/
def count (s : Summary) (r : Resolution) : Nat := s.outcomes.countP fun o => o.resolution = r

/-- The number of clusters that ended in none of the two good ways. -/
def unresolved (s : Summary) : Nat := s.count .unresolved + s.count .failed + s.count .skipped

/-- The summary in one line. -/
def message (s : Summary) : Text :=
  if s.total = 0 then "Migration completed successfully with no errors."
  else if s.remaining = 0 then
    "Fixed all " ++ Text.ofInt s.errorsFixed ++ " errors with " ++ Text.ofInt s.patchesApplied ++
      " patches."
  else
    "Applied " ++ Text.ofInt s.patchesApplied ++ " patches, fixed " ++ Text.ofInt s.errorsFixed ++
      " errors. " ++ Text.ofInt s.remaining ++ " errors require manual fixes."

/-- A cluster in one line: its name, its size and its pattern. -/
def clusterLine (c : Cluster) : Text :=
  c.id ++ " x" ++ Text.ofNat c.size ++ ": " ++ c.pattern

/-- An outcome in one line. -/
def outcomeLine (o : Outcome) : Text :=
  "  [" ++ o.resolution.name ++ "] " ++ clusterLine o.cluster ++
    match o.error with
    | some (c :: e) => " (" ++ (c :: e) ++ ")"
    | _ => []

/-- The lines of a printed summary. -/
def lines (s : Summary) : List Text :=
  s.message ::
    ("  clusters: " ++ Text.ofNat s.outcomes.length ++ "  pattern: " ++
      Text.ofNat (s.count .rule) ++ "  generated: " ++ Text.ofNat (s.count .generated) ++
      "  unresolved: " ++ Text.ofNat s.unresolved) :: s.outcomes.map outcomeLine

end Summary

end Mend
