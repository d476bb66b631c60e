import Mathlib.Data.List.Induction
import Mend.Rule.Match

/-!
# Registered rules and their priority

After any calls that register rules, those that fail among them, a registry holds the first rule of each name in
the order of the calls. A cluster is matched with the first of these rules that accepts its representative, and the
rules behind that one are not asked; nor are they where a rule before them fails (`ordered_first_match`).

That rules are not asked is said of the same search with tests that leave a trace (`searchWith`).
-/

namespace Mend.RuleRegistry

/-! ### Calls -/

/-- One call: what it answers, and the registry after it, which is the one before it if the call fails. -/
def offer (r : RuleRegistry) (rule : Rule) : Except DuplicateRule Unit × RuleRegistry :=
  match r.register rule with
  | .error e => (.error e, r)
  | .ok s => (.ok (), s)

/-- The registry after some calls. -/
def offerAll (r : RuleRegistry) (calls : List Rule) : RuleRegistry :=
  calls.foldl (fun r rule => (r.offer rule).2) r

/-- The rules without those under whose name another one stands before them. -/
def firstOfEachName : List Rule → List Rule
  | [] => []
  | rule :: rules => rule :: (firstOfEachName rules).filter fun other => other.id ≠ rule.id

theorem mem_ids_firstOfEachName {id : Text} {rules : List Rule} :
    id ∈ (firstOfEachName rules).map Rule.id ↔ id ∈ rules.map Rule.id := by
  induction rules with
  | nil => rfl
  | cons rule rules ih =>
    rw [firstOfEachName, List.map_cons, List.mem_cons, List.map_cons, List.mem_cons, ← ih]
    by_cases h : id = rule.id
    · simp only [h, true_or]
    · simp only [h, false_or, List.mem_map, List.mem_filter]
      constructor
      · rintro ⟨other, ⟨hother, -⟩, rfl⟩
        exact ⟨other, hother, rfl⟩
      · rintro ⟨other, hother, rfl⟩
        exact ⟨other, ⟨hother, by simpa using h⟩, rfl⟩

theorem firstOfEachName_concat (rules : List Rule) (rule : Rule) :
    firstOfEachName (rules ++ [rule]) =
      if rule.id ∈ rules.map Rule.id then firstOfEachName rules else firstOfEachName rules ++ [rule] := by
  induction rules with
  | nil => rfl
  | cons first rules ih =>
    rw [List.cons_append, firstOfEachName, ih, firstOfEachName, List.map_cons]
    by_cases hmem : rule.id ∈ rules.map Rule.id
    · rw [if_pos hmem, if_pos (List.mem_cons_of_mem _ hmem)]
    · rw [if_neg hmem, List.filter_append]
      by_cases hfirst : rule.id = first.id
      · rw [if_pos (by rw [hfirst]; exact List.mem_cons_self)]
        simp [hfirst]
      · rw [if_neg (by simpa [hfirst] using hmem)]
        simp [hfirst]

theorem firstOfEachName_of_nodup {rules : List Rule} (h : (rules.map Rule.id).Nodup) :
    firstOfEachName rules = rules := by
  induction rules with
  | nil => rfl
  | cons rule rules ih =>
    rw [List.map_cons, List.nodup_cons] at h
    rw [firstOfEachName, ih h.2, List.filter_eq_self.2 fun other hother => ?_]
    have hne : other.id ≠ rule.id := fun heq => h.1 (heq ▸ List.mem_map_of_mem hother)
    simpa using hne

theorem find?_firstOfEachName (id : Text) (rules : List Rule) :
    (firstOfEachName rules).find? (fun rule => rule.id = id) = rules.find? fun rule => rule.id = id := by
  induction rules with
  | nil => rfl
  | cons rule rules ih =>
    rw [firstOfEachName, List.find?_cons, List.find?_cons]
    by_cases h : rule.id = id
    · simp only [h, decide_true]
    · simp only [h, decide_false, ← ih, List.find?_filter]
      refine congrArg (List.find? · _) (funext fun other => ?_)
      by_cases hother : other.id = id
      · simp [hother, Ne.symm h]
      · simp [hother]

theorem offer_of_mem {r : RuleRegistry} {rule : Rule} (h : rule.id ∈ r.ids) :
    r.offer rule = (.error ⟨rule.id⟩, r) := by
  simp only [offer, register, dif_pos h]

theorem offer_of_not_mem {r : RuleRegistry} {rule : Rule} (h : rule.id ∉ r.ids) :
    ∃ s, r.offer rule = (.ok (), s) ∧ s.rules = r.rules ++ [rule] := by
  simp only [offer, register, dif_neg h]
  exact ⟨_, rfl, rfl⟩

theorem rules_offerAll (r : RuleRegistry) (calls : List Rule) :
    (r.offerAll calls).rules = firstOfEachName (r.rules ++ calls) := by
  induction calls using List.reverseRecOn with
  | nil => rw [List.append_nil, firstOfEachName_of_nodup r.nodup, offerAll, List.foldl_nil]
  | append_singleton calls rule ih =>
    have hstep : r.offerAll (calls ++ [rule]) = ((r.offerAll calls).offer rule).2 := by
      simp only [offerAll, List.foldl_append, List.foldl_cons, List.foldl_nil]
    have hids : rule.id ∈ (r.offerAll calls).ids ↔ rule.id ∈ (r.rules ++ calls).map Rule.id := by
      rw [ids, ih, mem_ids_firstOfEachName]
    rw [hstep, ← List.append_assoc, firstOfEachName_concat, ← ih]
    by_cases h : rule.id ∈ (r.offerAll calls).ids
    · rw [offer_of_mem h, if_pos (hids.1 h)]
    · obtain ⟨s, hs, hrules⟩ := offer_of_not_mem h
      rw [hs, if_neg (mt hids.2 h), hrules]

/-! ### Searches -/

/-- The search for a rule with tests that may have effects. They are made one after the other, up to the first
one that accepts. -/
def searchWith {m : Type → Type} [Monad m] (test : Rule → m Bool) : List Rule → m (Option Rule)
  | [] => pure none
  | rule :: rules => do
    if ← test rule then pure (some rule) else searchWith test rules

theorem firstAccepting_eq_searchWith (d : Diagnostic) (rules : List Rule) :
    firstAccepting d rules = searchWith (fun rule => rule.accepts d) rules := by
  induction rules with
  | nil => rfl
  | cons rule rules ih =>
    rw [firstAccepting, searchWith, ih]
    cases rule.accepts d with
    | error e => rfl
    | ok accepted =>
      cases accepted with
      | false => rfl
      | true => rfl

/-- The test of a rule that notes which rule it tests. -/
def tracedTest (d : Diagnostic) (rule : Rule) : ExceptT RuleError (StateM (List Rule)) Bool := do
  modify (· ++ [rule])
  ExceptT.mk (pure (rule.accepts d))

/-- What the search answers with these tests, and the rules that they were made of, after `asked`. -/
def traced (d : Diagnostic) (rules asked : List Rule) : Except RuleError (Option Rule) × List Rule :=
  (searchWith (tracedTest d) rules).run.run asked

section

variable {d : Diagnostic} {rule : Rule} {rules before : List Rule}

theorem traced_cons (d : Diagnostic) (rule : Rule) (rules asked : List Rule) :
    traced d (rule :: rules) asked =
      match rule.accepts d with
      | .error e => (.error e, asked ++ [rule])
      | .ok true => (.ok (some rule), asked ++ [rule])
      | .ok false => traced d rules (asked ++ [rule]) := by
  have htest : (tracedTest d rule).run.run asked = (rule.accepts d, asked ++ [rule]) := rfl
  unfold traced
  rw [searchWith]
  simp only [ExceptT.run_bind, StateT.run_bind, htest]
  cases rule.accepts d with
  | error e => rfl
  | ok accepted =>
    cases accepted with
    | false => rfl
    | true => rfl

theorem fst_traced (d : Diagnostic) (rules asked : List Rule) :
    (traced d rules asked).1 = firstAccepting d rules := by
  induction rules generalizing asked with
  | nil => rfl
  | cons rule rules ih =>
    rw [traced_cons, firstAccepting]
    cases rule.accepts d with
    | error e => rfl
    | ok accepted =>
      cases accepted with
      | false => exact ih _
      | true => rfl

/-- Whether a rule decides about a diagnostic: the rules before it reject the diagnostic, and it does not. -/
structure Decides (d : Diagnostic) (rules before : List Rule) (rule : Rule) : Prop where
  isPrefix : before ++ [rule] <+: rules
  rejected : ∀ b ∈ before, b.accepts d = .ok false
  not_rejected : rule.accepts d ≠ .ok false

theorem traced_of_rejected (hb : ∀ b ∈ before, b.accepts d = .ok false) (asked : List Rule) :
    traced d (before ++ rules) asked = traced d rules (asked ++ before) := by
  induction before generalizing asked with
  | nil => rw [List.nil_append, List.append_nil]
  | cons b before ih =>
    obtain ⟨hb, hbefore⟩ := List.forall_mem_cons.1 hb
    rw [List.cons_append, traced_cons, hb]
    simp only [ih hbefore, List.append_assoc, List.singleton_append]

theorem Decides.traced_eq (h : Decides d rules before rule) :
    traced d rules [] = ((rule.accepts d).map fun _ => some rule, before ++ [rule]) := by
  obtain ⟨⟨later, rfl⟩, hrejected, hrule⟩ := h
  rw [List.append_assoc, traced_of_rejected hrejected, List.singleton_append, traced_cons, List.nil_append]
  cases haccepts : rule.accepts d with
  | error e => rfl
  | ok accepted =>
    cases accepted with
    | false => exact absurd haccepts hrule
    | true => rfl

theorem firstAccepting_of_decides (h : Decides d rules before rule) :
    firstAccepting d rules = (rule.accepts d).map fun _ => some rule := by
  rw [← fst_traced d rules [], h.traced_eq]

theorem firstAccepting_of_rejected (h : ∀ rule ∈ rules, rule.accepts d = .ok false) :
    firstAccepting d rules = .ok none := by
  rw [← fst_traced d rules [], ← List.append_nil rules, traced_of_rejected h]
  rfl

theorem Decides.cons {first : Rule} (hfirst : first.accepts d = .ok false) (h : Decides d rules before rule) :
    Decides d (first :: rules) (first :: before) rule where
  isPrefix := (List.prefix_cons_inj first).2 h.isPrefix
  rejected := List.forall_mem_cons.2 ⟨hfirst, h.rejected⟩
  not_rejected := h.not_rejected

/-- How the search ends: all rules reject the diagnostic, or one decides, by accepting it or by failing. -/
inductive Found (d : Diagnostic) (rules : List Rule) : Except RuleError (Option Rule) → Prop
  | rejected (all : ∀ rule ∈ rules, rule.accepts d = .ok false) : Found d rules (.ok none)
  | accepted {before : List Rule} {rule : Rule} (decides : Decides d rules before rule)
      (accepts : rule.accepts d = .ok true) : Found d rules (.ok (some rule))
  | failed {before : List Rule} {rule : Rule} {e : RuleError} (decides : Decides d rules before rule)
      (fails : rule.accepts d = .error e) : Found d rules (.error e)

theorem found (d : Diagnostic) (rules : List Rule) : Found d rules (firstAccepting d rules) := by
  induction rules with
  | nil => exact .rejected (List.forall_mem_nil _)
  | cons first rules ih =>
    have hhead (hfirst : first.accepts d ≠ .ok false) : Decides d (first :: rules) [] first :=
      ⟨List.prefix_append [first] rules, List.forall_mem_nil _, hfirst⟩
    unfold firstAccepting
    cases hfirst : first.accepts d with
    | error e => exact .failed (hhead (by simp [hfirst])) hfirst
    | ok accepted =>
      cases accepted with
      | true => exact .accepted (hhead (by simp [hfirst])) hfirst
      | false =>
        simp only
        generalize firstAccepting d rules = answer at ih ⊢
        cases ih with
        | rejected all => exact .rejected (List.forall_mem_cons.2 ⟨hfirst, all⟩)
        | accepted decides accepts => exact .accepted (decides.cons hfirst) accepts
        | failed decides fails => exact .failed (decides.cons hfirst) fails

theorem firstAccepting_eq_none_iff :
    firstAccepting d rules = .ok none ↔ ∀ rule ∈ rules, rule.accepts d = .ok false := by
  refine ⟨fun h => ?_, firstAccepting_of_rejected⟩
  have hfound := found d rules
  rw [h] at hfound
  cases hfound with
  | rejected all => exact all

theorem firstAccepting_eq_some_iff :
    firstAccepting d rules = .ok (some rule) ↔
      ∃ before, Decides d rules before rule ∧ rule.accepts d = .ok true := by
  constructor
  · intro h
    have hfound := found d rules
    rw [h] at hfound
    cases hfound with
    | accepted decides accepts => exact ⟨_, decides, accepts⟩
  · rintro ⟨before, decides, accepts⟩
    rw [firstAccepting_of_decides decides, accepts]
    rfl

theorem firstAccepting_eq_error_iff {e : RuleError} :
    firstAccepting d rules = .error e ↔
      ∃ before rule, Decides d rules before rule ∧ rule.accepts d = .error e := by
  constructor
  · intro h
    have hfound := found d rules
    rw [h] at hfound
    cases hfound with
    | failed decides fails => exact ⟨_, _, decides, fails⟩
  · rintro ⟨before, rule, decides, fails⟩
    rw [firstAccepting_of_decides decides, fails]
    rfl

end

theorem snd_ruleFor (r : RuleRegistry) (c : Cluster) :
    (r.ruleFor c).2 = firstAccepting c.representative r.rules := by
  unfold ruleFor
  cases firstAccepting c.representative r.rules with
  | error e => rfl
  | ok found =>
    cases found with
    | none => rfl
    | some rule => rfl

/-- After any calls, on a registry to begin with, the registry holds the first rule of each name in order, and finds
it by its name. A further call fails exactly if the name is taken, and then changes nothing; else its rule comes last.
The rule for a cluster is the one that decides about the representative, if it accepts it; if it fails, so does the
search; and there is none if all rules reject it. The rules behind the one that decides are not tested. -/
theorem ordered_first_match (start : RuleRegistry) (calls : List Rule) :
    let all := start.rules ++ calls
    let r := start.offerAll calls
    (r.rules = firstOfEachName all ∧ r.ids.Nodup ∧
      ∀ id, r.get? id = all.find? fun rule => rule.id = id) ∧
    (∀ rule : Rule, if rule.id ∈ all.map Rule.id then r.offer rule = (.error ⟨rule.id⟩, r)
      else ∃ s, r.offer rule = (.ok (), s) ∧ s.rules = r.rules ++ [rule]) ∧
    ∀ c : Cluster, let d := c.representative
      (∀ rule, (r.ruleFor c).2 = .ok (some rule) ↔
        ∃ before, Decides d r.rules before rule ∧ rule.accepts d = .ok true) ∧
      (∀ e, (r.ruleFor c).2 = .error e ↔
        ∃ before rule, Decides d r.rules before rule ∧ rule.accepts d = .error e) ∧
      ((r.ruleFor c).2 = .ok none ↔ ∀ rule ∈ r.rules, rule.accepts d = .ok false) ∧
      (r.ruleFor c).2 = searchWith (fun rule => rule.accepts d) r.rules ∧
      ∀ before rule, Decides d r.rules before rule →
        traced d r.rules [] = ((r.ruleFor c).2, before ++ [rule]) := by
  intro all r
  have hrules : r.rules = firstOfEachName all := rules_offerAll start calls
  refine ⟨⟨hrules, r.nodup, fun id => ?_⟩, fun rule => ?_, fun c => ?_⟩
  · rw [get?, hrules, find?_firstOfEachName]
  · have hids : rule.id ∈ r.ids ↔ rule.id ∈ all.map Rule.id := by
      rw [ids, hrules, mem_ids_firstOfEachName]
    split
    · next h => exact offer_of_mem (hids.2 h)
    · next h => exact offer_of_not_mem (mt hids.1 h)
  · rw [snd_ruleFor]
    exact ⟨fun _ => firstAccepting_eq_some_iff, fun _ => firstAccepting_eq_error_iff, firstAccepting_eq_none_iff,
      firstAccepting_eq_searchWith _ _, fun before rule h => Prod.ext (fst_traced _ _ _) (by rw [h.traced_eq])⟩

end Mend.RuleRegistry
