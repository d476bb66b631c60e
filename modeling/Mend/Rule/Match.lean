import Mend.Cluster
import Mend.Notice
import Mend.Rule

/-!
# Matching clusters with rules

A cluster is matched with the first rule that accepts its representative; rules after that one are
not asked. The rule then fixes each diagnostic of the cluster that it can, unless it fails at one.
-/

namespace Mend.RuleRegistry

/-- The first rule of a list that accepts a diagnostic. -/
def firstAccepting (d : Diagnostic) : List Rule → Except RuleError (Option Rule)
  | [] => .ok none
  | rule :: rules =>
    match rule.accepts d with
    | .error e => .error e
    | .ok true => .ok (some rule)
    | .ok false => firstAccepting d rules

/-- The rule for a cluster, with what is reported. -/
def ruleFor (r : RuleRegistry) (c : Cluster) : List Notice × Except RuleError (Option Rule) :=
  match firstAccepting c.representative r.rules with
  | .error e => ([], .error e)
  | .ok none => ([.noRuleMatched c.id c.pattern], .ok none)
  | .ok (some rule) => ([.ruleMatched c.id rule.id], .ok (some rule))

end Mend.RuleRegistry

namespace Mend.Rule

/-- The fixes of a rule for the diagnostics of a cluster, in their order. -/
def fixes (rule : Rule) (c : Cluster) : Except RuleError (List Patch) :=
  (c.instances.mapM rule.fix).map fun made => made.filterMap fun patch => patch

/-- What is reported about the fixes of a rule. -/
def fixesNotice (rule : Rule) (c : Cluster) (patches : List Patch) : Notice :=
  .fixesGenerated c.id rule.id c.size patches.length

end Mend.Rule
