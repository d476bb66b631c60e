import Mend.Proofs.Cluster
import Mend.Proofs.PatternKey
import Mend.Proofs.RuleFix
import Mend.Proofs.Run.Steps
import Mend.Proofs.Text
import Mend.Rule.Builtin

/-!
# What the built-in rules match

A rule is chosen by the representative of a cluster, and then fixes the other diagnostics of the cluster
unseen. These have the same pattern key, which may lack the words that the rule looks for: where the words
stand between quotes, they are masked. Where the rule accepts the key itself, it accepts every message with
this key (`Rule.accepts_pattern_iff`).
-/

namespace Mend

namespace Rule

/-! ### Words of a message and of its key -/

def watchwords : List Text :=
  ["HttpModule", "deprecated", missingExport, "rxjs", "entryComponents", "does not exist"]

theorem contains_of_contains_ofMessage {words m : Text} (hwords : words ∈ watchwords)
    (h : Text.contains (PatternKey.ofMessage m) words = true) : Text.contains m words = true := by
  have hplain : ∀ w ∈ watchwords, .char '<' ∉ w ∧ .char '>' ∉ w := by decide
  have hmasks : ∀ w ∈ watchwords, ∀ mask ∈ [PatternKey.nameMask, PatternKey.numberMask,
      PatternKey.pathMask], Text.contains mask w = false := by decide
  obtain ⟨hl, hr⟩ := hplain words hwords
  refine Text.contains_iff.2 (PatternKey.isInfix_of_isInfix_ofMessage hl hr (fun mask hmask hi => ?_)
    (Text.contains_iff.1 h))
  exact nomatch (hmasks words hwords mask hmask).symm.trans (Text.contains_iff.2 hi)

/-- A built-in rule tests the message alone, and a message passes its test if the key of the message does. -/
theorem exists_test {rule : Rule} (h : rule ∈ builtin) :
    ∃ test : Text → Bool, (∀ d, rule.accepts d = .ok (test d.message)) ∧
      ∀ m, test (PatternKey.ofMessage m) = true → test m = true := by
  have hword {words m : Text} (hmem : words ∈ watchwords) :=
    contains_of_contains_ofMessage (m := m) hmem
  have hcases : rule = httpModule ∨ rule = operatorImport ∨ rule = entryComponents := by
    simpa [builtin] using h
  rcases hcases with rfl | rfl | rfl
  · refine ⟨fun m => Text.contains m "HttpModule" &&
      (Text.contains m "deprecated" || Text.contains m missingExport), fun d => rfl, fun m hm => ?_⟩
    simp only [Bool.and_eq_true, Bool.or_eq_true] at hm ⊢
    exact ⟨hword (by decide) hm.1, hm.2.imp (hword (by decide)) (hword (by decide))⟩
  · refine ⟨fun m => Text.contains m "rxjs" && Text.contains m missingExport, fun d => rfl,
      fun m hm => ?_⟩
    simp only [Bool.and_eq_true] at hm ⊢
    exact ⟨hword (by decide) hm.1, hword (by decide) hm.2⟩
  · refine ⟨fun m => Text.contains m "entryComponents" && Text.contains m "does not exist",
      fun d => rfl, fun m hm => ?_⟩
    simp only [Bool.and_eq_true] at hm ⊢
    exact ⟨hword (by decide) hm.1, hword (by decide) hm.2⟩

/-- A built-in rule accepts all messages with a key exactly if it accepts the key. -/
theorem accepts_pattern_iff {rule : Rule} (h : rule ∈ builtin) {d : Diagnostic} {key : Text}
    (hkey : PatternKey.ofMessage d.message = key) :
    rule.accepts { d with message := key } = .ok true ↔
      ∀ e : Diagnostic, PatternKey.ofMessage e.message = key → rule.accepts e = .ok true := by
  obtain ⟨test, htest, hdown⟩ := exists_test h
  simp only [htest, Except.ok.injEq]
  constructor
  · rintro hpass e rfl
    exact hdown e.message hpass
  · intro hall
    exact hall { d with message := key } (by rw [← hkey]; exact PatternKey.ofMessage_ofMessage _)

/-! ### Clusters -/

/-- A rule that is chosen for a cluster accepts its representative. Each of its patches is made for a
diagnostic of the cluster, whose message has the key of the representative. The rule accepts all diagnostics
with this key, those of the cluster among them, exactly if it accepts the key as a message. -/
theorem fixes_of_ruleFor {ds : List Diagnostic} {c : Cluster} (hc : c ∈ Cluster.ofDiagnostics ds)
    {ns : List Notice} {rule : Rule} (h : builtinRegistry.ruleFor c = (ns, .ok (some rule))) :
    rule.accepts c.representative = .ok true ∧
    (∀ ps, rule.fixes c = .ok ps → ∀ p ∈ ps, ∃ d ∈ c.instances, d ∈ ds ∧ rule.fix d = .ok (some p) ∧
      PatternKey.ofMessage d.message = PatternKey.ofMessage c.representative.message) ∧
    (rule.accepts { c.representative with message := c.pattern } = .ok true ↔
      ∀ d : Diagnostic, PatternKey.ofMessage d.message = c.pattern → rule.accepts d = .ok true) ∧
    (rule.accepts { c.representative with message := c.pattern } = .ok true →
      ∀ ps, rule.fixes c = .ok ps → ∀ p ∈ ps,
        ∃ d ∈ c.instances, rule.fix d = .ok (some p) ∧ rule.accepts d = .ok true) := by
  have hkey : ∀ d ∈ c.instances, PatternKey.ofMessage d.message = c.pattern := fun d hd =>
    Cluster.ofMessage_of_mem_instances hc hd
  have hfirst : PatternKey.ofMessage c.representative.message = c.pattern :=
    hkey _ List.mem_cons_self
  obtain ⟨hmem, haccepts⟩ : rule ∈ builtin ∧ rule.accepts c.representative = .ok true := by
    unfold RuleRegistry.ruleFor at h
    cases hfound : RuleRegistry.firstAccepting c.representative builtinRegistry.rules with
    | error e => simp [hfound] at h
    | ok found =>
      cases found with
      | none => simp [hfound] at h
      | some first =>
        obtain ⟨-, rfl⟩ : _ ∧ first = rule := by simpa [hfound] using h
        exact RuleRegistry.accepts_of_firstAccepting hfound
  have hall := accepts_pattern_iff hmem hfirst
  refine ⟨haccepts, fun ps hps p hp => ?_, hall, fun hpattern ps hps p hp => ?_⟩
  · obtain ⟨d, hd, hfix⟩ := (mem_fixes hps).1 hp
    exact ⟨d, hd, Cluster.mem_of_mem_instances hc hd, hfix, (hkey d hd).trans hfirst.symm⟩
  · obtain ⟨d, hd, hfix⟩ := (mem_fixes hps).1 hp
    exact ⟨d, hd, hfix, hall.1 hpattern d (hkey d hd)⟩

/-- The words that the rule looks for stand outside of quotes, so that the key keeps them: the rule accepts
both diagnostics of the cluster. -/
theorem fixes_of_ruleFor_of_plain_words :
    let a : Diagnostic := ⟨"a.ts", 1, "HttpModule deprecated in 'a'", .error, Nat.succ_pos _⟩
    let b : Diagnostic := ⟨"b.ts", 2, "HttpModule deprecated in 'b'", .error, Nat.succ_pos _⟩
    let c : Cluster := ⟨1, "HttpModule deprecated in <STRING>", a, [b]⟩
    c ∈ Cluster.ofDiagnostics [a, b] ∧ ∃ ps, httpModule.fixes c = .ok ps ∧ ps.length = 2 ∧
      ∀ p ∈ ps, ∃ d ∈ c.instances, httpModule.fix d = .ok (some p) ∧ httpModule.accepts d = .ok true := by
  intro a b c
  have hc : c ∈ Cluster.ofDiagnostics [a, b] := by decide +kernel
  have hrule : builtinRegistry.ruleFor c = ([.ruleMatched c.id httpModule.id], .ok (some httpModule)) := rfl
  obtain ⟨-, -, -, hmatched⟩ := fixes_of_ruleFor hc hrule
  obtain ⟨ps, hps⟩ := @exists_fixes httpModule (by simp [builtin]) c (by decide)
  refine ⟨hc, ps, hps, ?_, hmatched rfl ps hps⟩
  rw [(fixes_eq_ok_iff.1 hps).2]
  decide

/-- The words that the rule looks for are a quoted name, so that the key does not have them: the rule makes a
patch for a diagnostic of the cluster that it does not accept. -/
theorem fixes_of_unmatched_instance :
    let a : Diagnostic := ⟨"a.ts", 1, "'HttpModule' is deprecated", .error, Nat.succ_pos _⟩
    let b : Diagnostic := ⟨"b.ts", 1, "'Foo' is deprecated", .error, Nat.succ_pos _⟩
    let c : Cluster := ⟨1, "<STRING> is deprecated", a, [b]⟩
    c ∈ Cluster.ofDiagnostics [a, b] ∧ (∃ ns, builtinRegistry.ruleFor c = (ns, .ok (some httpModule))) ∧
      ∃ ps, httpModule.fixes c = .ok ps ∧ ∃ p ∈ ps, ∀ d ∈ c.instances, httpModule.fix d = .ok (some p) →
        httpModule.accepts d = .ok false := by
  intro a b c
  have hc : c ∈ Cluster.ofDiagnostics [a, b] := by decide +kernel
  have hb : b ∈ c.instances := List.mem_cons_of_mem _ List.mem_cons_self
  obtain ⟨ps, hps⟩ := @exists_fixes httpModule (by simp [builtin]) c (by decide)
  have hfixb := replaceLines_of_printable (d := b) (by decide)
  refine ⟨hc, ⟨_, rfl⟩, ps, hps, _, (mem_fixes hps).2 ⟨b, hb, hfixb _ _ _⟩, fun d hd hfix => ?_⟩
  obtain rfl | hd := List.mem_cons.1 hd
  · have hfixa := replaceLines_of_printable (d := a) (by decide)
    have hsame := (hfixa _ _ _).symm.trans hfix
    have hfile : a.file = b.file := congrArg Patch.file (Option.some.inj (Except.ok.inj hsame))
    exact absurd hfile (by decide)
  · obtain rfl := List.mem_singleton.1 hd
    rfl

end Rule

end Mend
