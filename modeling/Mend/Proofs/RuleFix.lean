import Mend.Rule.Builtin
import Mend.Rule.Match

/-!
# Fixes of a rule

A rule makes patches for a cluster where it fails at no diagnostic of it, and each patch is one that it makes
for some diagnostic (`Rule.mem_fixes`). The built-in rules fail only where the number of a line cannot be
printed (`Rule.exists_fixes`).
-/

namespace Mend.Rule

/-! ### Any rule -/

/-- The patch that a rule makes for a diagnostic, if it makes one. -/
def fix? (rule : Rule) (d : Diagnostic) : Option Patch := (rule.fix d).toOption.join

/-- A rule makes patches for a cluster where it fails at no diagnostic of it. -/
theorem fixes_eq_ok_iff {rule : Rule} {c : Cluster} {ps : List Patch} :
    rule.fixes c = .ok ps ↔
      (∀ d ∈ c.instances, ∃ made, rule.fix d = .ok made) ∧ ps = c.instances.filterMap rule.fix? := by
  have hone : ∀ (ds : List Diagnostic) (ps : List Patch),
      (ds.mapM rule.fix).map (fun made => made.filterMap fun patch => patch) = .ok ps ↔
        (∀ d ∈ ds, ∃ made, rule.fix d = .ok made) ∧ ps = ds.filterMap rule.fix? := by
    intro ds
    induction ds with
    | nil => simp [Except.map, pure, Except.pure, eq_comm]
    | cons d ds ih =>
      intro ps
      rw [List.mapM_cons]
      cases hd : rule.fix d with
      | error e => simp [hd, bind, Except.bind, Except.map]
      | ok made =>
        cases hds : ds.mapM rule.fix with
        | error e =>
          have hfails := ih (ds.filterMap rule.fix?)
          simp only [hds, Except.map, reduceCtorEq, and_true, false_iff] at hfails
          simp [hd, bind, Except.bind, Except.map, hfails]
        | ok mades =>
          obtain ⟨hall, hmades⟩ := (ih (mades.filterMap fun patch => patch)).1 (by rw [hds]; rfl)
          rw [and_iff_right (List.forall_mem_cons.2 ⟨⟨made, hd⟩, hall⟩)]
          cases made <;> simp [hd, bind, Except.bind, Except.map, pure, Except.pure, fix?, Except.toOption,
            hmades, eq_comm]
  exact hone c.instances ps

theorem mem_fixes {rule : Rule} {c : Cluster} {ps : List Patch} (h : rule.fixes c = .ok ps) {p : Patch} :
    p ∈ ps ↔ ∃ d ∈ c.instances, rule.fix d = .ok (some p) := by
  obtain ⟨-, rfl⟩ := fixes_eq_ok_iff.1 h
  rw [List.mem_filterMap]
  refine exists_congr fun d => and_congr_right fun _ => ?_
  unfold fix?
  cases rule.fix d with
  | error e => simp [Except.toOption]
  | ok made => simp [Except.toOption]

theorem fixes_eq_nil_iff {rule : Rule} {c : Cluster} :
    rule.fixes c = .ok [] ↔ ∀ d ∈ c.instances, rule.fix d = .ok none := by
  constructor
  · intro h d hd
    obtain ⟨made, hmade⟩ := (fixes_eq_ok_iff.1 h).1 d hd
    cases made with
    | none => exact hmade
    | some p => exact absurd ((mem_fixes h).2 ⟨d, hd, hmade⟩) List.not_mem_nil
  · intro h
    refine fixes_eq_ok_iff.2 ⟨fun d hd => ⟨none, h d hd⟩, (List.filterMap_eq_nil_iff.2 fun d hd => ?_).symm⟩
    rw [fix?, h d hd]
    rfl

theorem replaceLines_of_printable {d : Diagnostic} (h : (Number.print d.line).isOk = true)
    (removed added : List Text) (description : Text) :
    replaceLines d removed added description =
      .ok (some (.replacingLines d.file d.line removed added description)) := by
  unfold replaceLines
  cases hp : Number.print d.line with
  | error e => simp [hp, Except.isOk, Except.toBool] at h
  | ok t => rfl

theorem patch_of_replaceLines {d : Diagnostic} {removed added : List Text} {description : Text} {p : Patch}
    (h : replaceLines d removed added description = .ok (some p)) :
    p = .replacingLines d.file d.line removed added description := by
  unfold replaceLines at h
  split at h
  · exact (Option.some.inj (Except.ok.inj h)).symm
  · cases h

theorem operator_of_fix {d : Diagnostic} {p : Patch} (h : operatorImport.fix d = .ok (some p)) :
    ∃ op, operator? d = some op ∧ replaceLines d ["import 'rxjs/add/operator/" ++ op ++ "';"]
      ["import \x7b " ++ op ++ " \x7d from 'rxjs/operators';"]
      ("Update RxJS " ++ op ++ " operator import") = .ok (some p) := by
  simp only [operatorImport, plain] at h
  split at h
  · cases h
  · next op hop => exact ⟨op, hop, h⟩

/-- A built-in rule fails at no diagnostic whose line can be printed. -/
theorem exists_made {rule : Rule} (h : rule ∈ builtin) {d : Diagnostic}
    (hline : (Number.print d.line).isOk = true) : ∃ made, rule.fix d = .ok made := by
  have hcases : rule = httpModule ∨ rule = operatorImport ∨ rule = entryComponents := by
    simpa [builtin] using h
  rcases hcases with rfl | rfl | rfl
  · exact ⟨_, replaceLines_of_printable hline _ _ _⟩
  · cases hop : operator? d with
    | none => exact ⟨none, by simp only [operatorImport, plain, hop]⟩
    | some op =>
      exact ⟨_, by simp only [operatorImport, plain, hop]; exact replaceLines_of_printable hline _ _ _⟩
  · exact ⟨_, replaceLines_of_printable hline _ _ _⟩

theorem exists_fixes {rule : Rule} (h : rule ∈ builtin) {c : Cluster}
    (hline : ∀ d ∈ c.instances, (Number.print d.line).isOk = true) : ∃ ps, rule.fixes c = .ok ps :=
  ⟨_, fixes_eq_ok_iff.2 ⟨fun d hd => exists_made h (hline d hd), rfl⟩⟩

end Mend.Rule
