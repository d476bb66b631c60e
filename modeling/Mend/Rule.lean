import Mend.Diagnostic
import Mend.Patch

/-!
# Rules

A rule fixes the diagnostics that it accepts without asking anyone. Rules stand in a registry, where
the order of registration is the order of priority and no two rules have the same name.

Deciding whether a rule accepts a diagnostic may itself fail, and so may fixing it; then the failure is
passed on.
-/

namespace Mend

/-- The failure of a rule. -/
structure RuleError where
  message : Text
  deriving DecidableEq, Repr

/-- A known pattern of diagnostics and how to fix one of them. -/
structure Rule where
  id : Text
  name : Text
  description : Text
  accepts : Diagnostic → Except RuleError Bool
  fix : Diagnostic → Except RuleError (Option Patch)

/-- The registered rules, those of higher priority first. -/
structure RuleRegistry where
  rules : List Rule
  nodup : (rules.map Rule.id).Nodup

/-- A rule was registered under a name that is taken. -/
structure DuplicateRule where
  id : Text
  deriving DecidableEq, Repr

/-- The text of the error. -/
def DuplicateRule.message (e : DuplicateRule) : Text := "Duplicate pattern rule id: " ++ e.id

namespace RuleRegistry

/-- The registry without rules. -/
def empty : RuleRegistry := ⟨[], List.nodup_nil⟩

instance : Inhabited RuleRegistry := ⟨empty⟩

/-- The names of the rules. -/
def ids (r : RuleRegistry) : List Text := r.rules.map Rule.id

/-- The number of rules. -/
def size (r : RuleRegistry) : Nat := r.rules.length

/-- The rule with a name. -/
def get? (r : RuleRegistry) (id : Text) : Option Rule := r.rules.find? fun rule => rule.id = id

/-- The registry with one more rule, of the lowest priority. -/
def register (r : RuleRegistry) (rule : Rule) : Except DuplicateRule RuleRegistry :=
  if h : rule.id ∈ r.ids then .error ⟨rule.id⟩
  else
    .ok ⟨r.rules ++ [rule], by
      rw [List.map_append, List.map_singleton]
      exact List.nodup_append.2 ⟨r.nodup, List.pairwise_singleton _ _,
        fun a ha b hb e => h (by rw [← List.mem_singleton.1 hb, ← e]; exact ha)⟩⟩

/-- The registry of some rules. -/
def ofList (rules : List Rule) : Except DuplicateRule RuleRegistry :=
  rules.foldlM register empty

theorem register_eq_error_iff (r : RuleRegistry) (rule : Rule) :
    (∃ e, r.register rule = .error e) ↔ rule.id ∈ r.ids := by
  unfold register
  split <;> simp_all

theorem rules_of_register {r s : RuleRegistry} {rule : Rule} (h : r.register rule = .ok s) :
    s.rules = r.rules ++ [rule] := by
  unfold register at h
  split at h
  · cases h
  · injection h with h
    rw [← h]

end RuleRegistry

end Mend
