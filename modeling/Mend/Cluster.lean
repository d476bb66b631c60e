import Mend.Diagnostic
import Mend.PatternKey

/-!
# Clusters

A cluster holds the diagnostics that share a pattern key, so that each pattern is dealt with once.
Clusters come in the order in which their keys are first seen and are numbered from one; the
diagnostics of a cluster keep their order, and the first one represents it.
-/

namespace Mend

/-- The diagnostics of one pattern: the first one and those after it. -/
structure Cluster where
  number : Nat
  pattern : Text
  representative : Diagnostic
  others : List Diagnostic
  deriving DecidableEq, Repr

namespace Cluster

/-- The name of a cluster. -/
def id (c : Cluster) : Text := "cluster-" ++ Text.ofNat c.number

/-- The diagnostics of a cluster. -/
def instances (c : Cluster) : List Diagnostic := c.representative :: c.others

/-- The number of diagnostics. -/
def size (c : Cluster) : Nat := c.instances.length

/-- Texts without repetition, in the order of their first use. -/
def firstUses (ts : List Text) : List Text :=
  ts.foldl (fun seen t => if seen.elem t then seen else seen ++ [t]) []

/-- The files of a cluster. -/
def files (c : Cluster) : List Text := firstUses (c.instances.map (·.file))

/-- A diagnostic with its pattern key. -/
abbrev Keyed := Text × Diagnostic

/-- The diagnostics with a key. -/
def sharing (k : Text) (ds : List Keyed) : List Diagnostic := (ds.filter (·.1 == k)).map (·.2)

/-- The keyed diagnostics with any other key. -/
def without (k : Text) (ds : List Keyed) : List Keyed := ds.filter (·.1 != k)

theorem length_without_le (k : Text) (ds : List Keyed) : (without k ds).length ≤ ds.length :=
  List.length_filter_le _ _

/-- Groups diagnostics by key and numbers the groups from `n` on: the first diagnostic opens a group
with all that share its key, and the others make up the groups after it. -/
def groupFrom (n : Nat) : List Keyed → List Cluster
  | [] => []
  | (k, d) :: ds => ⟨n, k, d, sharing k ds⟩ :: groupFrom (n + 1) (without k ds)
termination_by ds => ds.length
decreasing_by exact Nat.lt_succ_of_le (length_without_le _ _)

/-- The clusters of some diagnostics. -/
def ofDiagnostics (ds : List Diagnostic) : List Cluster :=
  groupFrom 1 (ds.map fun d => (PatternKey.ofMessage d.message, d))

@[simp] theorem groupFrom_nil (n : Nat) : groupFrom n [] = [] := by rw [groupFrom]

theorem groupFrom_cons (n : Nat) (k : Text) (d : Diagnostic) (ds : List Keyed) :
    groupFrom n ((k, d) :: ds) =
      ⟨n, k, d, sharing k ds⟩ :: groupFrom (n + 1) (without k ds) := by rw [groupFrom]

/-- The diagnostics of some clusters, cluster by cluster. -/
def members (cs : List Cluster) : List Diagnostic := cs.flatMap instances

end Cluster

end Mend
