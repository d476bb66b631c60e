import Mend.Proofs.LinePatch
import Mend.Proofs.RuleFix
import Mend.Run

/-!
# Batches of rules

The patches that a built-in rule makes for a cluster replace lines that the rule knows
(`Rule.replacement_of_fix`). Where all texts end in a line feed, such a batch is applied as a whole, or
the files stay as they were, whichever patch is refused and however many of them are for one file.
-/

namespace Mend.Patch

/-! ### The order of a batch -/

theorem exists_firstLine {p : Patch} {hs : List Diff.Hunk} (h : Diff.hunks p.diff = .ok hs) :
    ∃ n, p.firstLine = .ok n :=
  ⟨_, by simp only [firstLine, h]; rfl⟩

theorem withFirstLines_spec {ps : List Patch} {rs : List (Nat × Patch)}
    (h : withFirstLines ps = .ok rs) : rs.map Prod.snd = ps ∧ ∀ x ∈ rs, x.2.firstLine = .ok x.1 := by
  induction ps generalizing rs with
  | nil =>
    obtain rfl : [] = rs := by simpa [withFirstLines] using h
    exact ⟨rfl, List.forall_mem_nil _⟩
  | cons p ps ih =>
    unfold withFirstLines at h
    split at h
    · cases h
    · next n hn =>
      split at h
      · cases h
      · next rest hrest =>
        obtain rfl : (n, p) :: rest = rs := by simpa using h
        obtain ⟨hsnd, hfirst⟩ := ih hrest
        exact ⟨by rw [List.map_cons, hsnd], List.forall_mem_cons.2 ⟨hn, hfirst⟩⟩

theorem exists_withFirstLines {ps : List Patch} (h : ∀ p ∈ ps, ∃ n, p.firstLine = .ok n) :
    ∃ rs, withFirstLines ps = .ok rs := by
  induction ps with
  | nil => exact ⟨[], rfl⟩
  | cons p ps ih =>
    obtain ⟨⟨n, hn⟩, hps⟩ := List.forall_mem_cons.1 h
    obtain ⟨rs, hrs⟩ := ih hps
    exact ⟨(n, p) :: rs, by simp only [withFirstLines, hn, hrs]⟩

/-- Ordering patches neither drops one nor makes one. -/
theorem perm_of_bottomUp {ps qs : List Patch} (h : bottomUp ps = .ok qs) : qs.Perm ps := by
  unfold bottomUp at h
  split at h
  · cases h
  · next rs hrs =>
    obtain rfl := Except.ok.inj h
    rw [← (withFirstLines_spec hrs).1]
    exact (List.mergeSort_perm rs _).map Prod.snd

/-- In a batch, no patch stands before one that begins further down. -/
theorem pairwise_of_bottomUp {ps qs : List Patch} (h : bottomUp ps = .ok qs) :
    qs.Pairwise fun p q => ∀ m n, p.firstLine = .ok m → q.firstLine = .ok n → n ≤ m := by
  unfold bottomUp at h
  split at h
  · cases h
  · next rs hrs =>
    obtain rfl := Except.ok.inj h
    obtain ⟨-, hfirst⟩ := withFirstLines_spec hrs
    have hsorted : (rs.mergeSort fun a b => decide (b.1 ≤ a.1)).Pairwise
        fun a b => decide (b.1 ≤ a.1) = true :=
      List.pairwise_mergeSort (fun a b c hab hbc => by simp only [decide_eq_true_eq] at *; omega)
        (fun a b => by simp only [Bool.or_eq_true, decide_eq_true_eq]; omega) rs
    refine List.pairwise_map.2 (hsorted.imp_of_mem fun {a b} ha hb hle m n hm hn => ?_)
    have ham := (hfirst a (List.mem_mergeSort.1 ha)).symm.trans hm
    have hbn := (hfirst b (List.mem_mergeSort.1 hb)).symm.trans hn
    rw [← Except.ok.inj ham, ← Except.ok.inj hbn]
    exact of_decide_eq_true hle

theorem exists_bottomUp {ps : List Patch} (h : ∀ p ∈ ps, ∃ n, p.firstLine = .ok n) :
    ∃ qs, bottomUp ps = .ok qs := by
  obtain ⟨rs, hrs⟩ := exists_withFirstLines h
  exact ⟨_, by simp only [bottomUp, hrs]; rfl⟩

/-- Patches that are in order stay in their order. -/
theorem bottomUp_of_pairwise {ps : List Patch} {rs : List (Nat × Patch)} (h : withFirstLines ps = .ok rs)
    (hsorted : rs.Pairwise fun a b => b.1 ≤ a.1) : bottomUp ps = .ok ps := by
  rw [bottomUp, h]
  simp only [List.mergeSort_of_pairwise (hsorted.imp fun hle => decide_eq_true hle), (withFirstLines_spec h).1]

end Mend.Patch

namespace Mend.Rule

/-! ### The patches of the built-in rules -/

theorem mem_operators_of_operator? {d : Diagnostic} {op : Text} (h : operator? d = some op) :
    op ∈ operators := by
  unfold operator? at h
  split at h
  · next found hf =>
    obtain rfl := Option.some.inj h
    simpa using (Option.filter_eq_some_iff.1 hf).2
  · exact List.mem_of_find?_eq_some h

/-- The patches of a built-in rule replace up to three lines from the line of the diagnostic on, by as many
lines or by none. -/
theorem replacement_of_fix {rule : Rule} (hrule : rule ∈ builtin) {d : Diagnostic} {p : Patch}
    (hp : rule.fix d = .ok (some p)) :
    ∃ removed added description, Diff.Replacement removed added ∧
      (removed.length ≤ 3 ∧ (added.length = removed.length ∨ added = [])) ∧
      p = .replacingLines d.file d.line removed added description := by
  simp only [builtin, List.mem_cons, List.not_mem_nil, or_false] at hrule
  rcases hrule with rfl | rfl | rfl
  · exact ⟨_, _, _, by decide, by decide, patch_of_replaceLines hp⟩
  · obtain ⟨op, hop, hmade⟩ := operator_of_fix hp
    have hmem := mem_operators_of_operator? hop
    refine ⟨_, _, _, ?_, ⟨?_, .inl ?_⟩, patch_of_replaceLines hmade⟩
    · simp only [operators, List.mem_cons, List.not_mem_nil, or_false] at hmem
      rcases hmem with rfl | rfl | rfl
      · decide
      · decide
      · decide
    · rw [List.length_singleton]
      omega
    · rw [List.length_singleton, List.length_singleton]
  · exact ⟨_, _, _, by decide, by decide, patch_of_replaceLines hp⟩

theorem file_of_mem_fixes {rule : Rule} (hrule : rule ∈ builtin) {c : Cluster} {ps : List Patch}
    (hps : rule.fixes c = .ok ps) {p : Patch} (hp : p ∈ ps) : ∃ d ∈ c.instances, p.file = d.file := by
  obtain ⟨d, hd, hfix⟩ := (mem_fixes hps).1 hp
  obtain ⟨removed, added, description, -, -, rfl⟩ := replacement_of_fix hrule hfix
  exact ⟨d, hd, rfl⟩

theorem undoable_of_mem_fixes {rule : Rule} (hrule : rule ∈ builtin) {c : Cluster}
    (hfile : ∀ d ∈ c.instances, .char '\n' ∉ d.file)
    (hline : ∀ d ∈ c.instances, (Number.print d.line).isOk = true) (strict : Bool) {ps : List Patch}
    (hps : rule.fixes c = .ok ps) {p : Patch} (hp : p ∈ ps) :
    (∃ n, p.firstLine = .ok n) ∧ Engine.Undoable strict Diff.EndsInLineFeed p ∧
      ∃ d ∈ c.instances, p.file = d.file := by
  obtain ⟨d, hd, hfix⟩ := (mem_fixes hps).1 hp
  obtain ⟨removed, added, description, hx, -, rfl⟩ := replacement_of_fix hrule hfix
  have hshort := Diff.length_of_print (hline d hd)
  have hh := Diff.hunks_replacingLines hx.legible (hfile d hd) hshort description
  refine ⟨Patch.exists_firstLine hh, ?_, d, hd, rfl⟩
  exact Engine.undoable_replacingLines strict hx (hfile d hd) d.line_pos hshort description

end Mend.Rule

namespace Mend.Repair

variable {σ : Type}

def itemOf (r : Repair σ) (p : Patch) : Engine.Item := ⟨(CodeContext.resolve r.settings p.file).text, p⟩

theorem itemsOf_eq_ok {r : Repair σ} {ps : List Patch} {items : List Engine.Item} :
    r.itemsOf ps = .ok items ↔ ∃ qs, Patch.bottomUp ps = .ok qs ∧ qs.map r.itemOf = items := by
  unfold itemsOf
  cases Patch.bottomUp ps with
  | error e =>
    constructor
    · intro h
      cases h
    · rintro ⟨qs, hqs, -⟩
      cases hqs
  | ok qs =>
    constructor
    · intro h
      exact ⟨qs, rfl, Except.ok.inj h⟩
    · rintro ⟨qs', hqs, rfl⟩
      obtain rfl := Except.ok.inj hqs
      rfl

theorem perm_of_itemsOf {r : Repair σ} {ps : List Patch} {items : List Engine.Item}
    (h : r.itemsOf ps = .ok items) : (items.map Engine.Item.patch).Perm ps ∧
      ∀ item ∈ items, item.path = (CodeContext.resolve r.settings item.patch.file).text := by
  obtain ⟨qs, hqs, rfl⟩ := itemsOf_eq_ok.1 h
  refine ⟨?_, fun item hitem => ?_⟩
  · rw [List.map_map]
    exact (List.Perm.of_eq (List.map_id' qs)).trans (Patch.perm_of_bottomUp hqs)
  · obtain ⟨p, -, rfl⟩ := List.mem_map.1 hitem
    rfl

theorem exists_itemsOf (r : Repair σ) {ps : List Patch} (h : ∀ p ∈ ps, ∃ n, p.firstLine = .ok n) :
    ∃ items, r.itemsOf ps = .ok items ∧ (items.map Engine.Item.patch).Perm ps ∧
      ∀ item ∈ items, item.path = (CodeContext.resolve r.settings item.patch.file).text := by
  obtain ⟨qs, hqs⟩ := Patch.exists_bottomUp h
  have hitems : r.itemsOf ps = .ok (qs.map r.itemOf) := itemsOf_eq_ok.2 ⟨qs, hqs, rfl⟩
  exact ⟨_, hitems, perm_of_itemsOf hitems⟩

theorem settle_of_itemsOf {r : Repair σ} {o : Outcome} {items : List Engine.Item}
    (hauto : r.settings.autoApply = true) (hitems : r.itemsOf o.patches = .ok items)
    (s : RunState σ) :
    r.settle o s =
      match Engine.applyBatch r.settings.strictValidation s.workspace items with
      | (w, .error f) => ({ s with workspace := w }, .error (.engine f))
      | (w, .ok b) => ({ s with workspace := w }, .ok (batchOutcome o b)) := by
  unfold settle
  rw [hauto, hitems]
  cases hrun : Engine.applyBatch r.settings.strictValidation s.workspace items with
  | mk w result =>
    cases result with
    | error f => simp only [Bool.not_true, Bool.false_eq_true, if_false, hrun]
    | ok b => simp only [Bool.not_true, Bool.false_eq_true, if_false, hrun]

/-- The patches of a built-in rule for a cluster are all applied, and the outcome is that of the rule, or
the outcome is a failure and the files are as they were. A rule writes the number of a line into its
patch, and every number that can be read can also be printed. -/
theorem settle_all_or_nothing (r : Repair σ) {rule : Rule} (hrule : rule ∈ Rule.builtin) (c : Cluster)
    (s : RunState σ) (hauto : r.settings.autoApply = true)
    (hfile : ∀ d ∈ c.instances, .char '\n' ∉ d.file)
    (hpath : ∀ d ∈ c.instances, ∃ node, s.workspace.files.probe
      (Path.ofText (CodeContext.resolve r.settings d.file).text) = .ok node)
    (hline : ∀ d ∈ c.instances, (Number.print d.line).isOk = true)
    (htext : ∀ names content, s.workspace.files.text? names = some content →
      content = [] ∨ content.getLast? = some '\n') :
    ∃ ps, rule.fixes c = .ok ps ∧
      let o : Outcome := { cluster := c, resolution := .rule, rule := some rule.id, patches := ps }
      ∃ s' o' b, r.settle o s = (s', .ok o') ∧ o'.batch = some b ∧
        ((o'.resolution = .rule ∧ b.success = true ∧ b.appliedCount = ps.length ∧
            ∃ items, r.itemsOf ps = .ok items ∧ (items.map Engine.Item.patch).Perm ps ∧
              Engine.Applied r.settings.strictValidation s.workspace.files items
                s'.workspace.files) ∨
          (o'.resolution = .failed ∧ b.success = false ∧ b.rollbackClean = true ∧
            b.appliedCount = 0 ∧ s'.workspace.files = s.workspace.files)) := by
  obtain ⟨ps, hps⟩ := Rule.exists_fixes hrule hline
  refine ⟨ps, hps, ?_⟩
  intro o
  have hpatch := fun p (hp : p ∈ ps) =>
    Rule.undoable_of_mem_fixes hrule hfile hline r.settings.strictValidation hps hp
  obtain ⟨items, hitems, hperm, hplace⟩ := r.exists_itemsOf fun p hp => (hpatch p hp).1
  have hmem : ∀ item ∈ items, item.patch ∈ ps := fun item hitem =>
    hperm.mem_iff.1 (List.mem_map_of_mem hitem)
  have hlookup : ∀ item ∈ items, ∃ node,
      s.workspace.files.probe (Path.ofText item.path) = .ok node := by
    intro item hitem
    obtain ⟨-, -, d, hd, hsame⟩ := hpatch item.patch (hmem item hitem)
    rw [hplace item hitem, hsame]
    exact hpath d hd
  -- The text without any line is good as well: no rule finds a line to remove in it.
  have hgood : Engine.AllTexts Diff.EndsInLineFeed s.workspace.files := by
    intro names content hc
    rcases htext names content hc with rfl | hlast
    · rfl
    · exact Diff.endsInLineFeed_of_getLast? hlast
  have hundo : ∀ item ∈ items, Engine.Undoable r.settings.strictValidation Diff.EndsInLineFeed
      item.patch := fun item hitem => (hpatch item.patch (hmem item hitem)).2.1
  have hlength : items.length = ps.length := by
    rw [← hperm.length_eq, List.length_map]
  obtain ⟨w, b, hrun, hcases⟩ := Engine.applyBatch_cases hlookup hgood hundo
  have hsettle : r.settle o s = ({ s with workspace := w }, .ok (batchOutcome o b)) := by
    rw [settle_of_itemsOf hauto hitems, hrun]
  refine ⟨_, _, b, hsettle, ?_, ?_⟩
  · unfold batchOutcome
    split <;> rfl
  · rcases hcases with ⟨hsuccess, hcount, hall⟩ | ⟨hfail, hclean, hcount, hsame⟩
    · refine .inl ⟨?_, hsuccess, hcount.trans hlength, items, hitems, hperm, hall⟩
      rw [batchOutcome, if_pos hsuccess]
    · refine .inr ⟨?_, hfail, hclean, hcount, hsame⟩
      rw [batchOutcome, hfail]
      rfl

/-- Two diagnostics on one file: the patch for line two is applied, and then the one for line one does
not fit. -/
theorem settle_all_or_nothing_of_two_diagnostics :
    let r : Repair Unit := ⟨{ Settings.Run.default with workspaceRoot := .ofText "/ws" },
      Rule.builtinRegistry, none, fun _ => .ok []⟩
    let c : Cluster := ⟨1, [], ⟨"a.ts", 2, "HttpModule deprecated", .error, by omega⟩,
      [⟨"a.ts", 1, "HttpModule deprecated", .error, by omega⟩]⟩
    let files := FileTree.empty.put ["ws", "a.ts"]
      (Utf8.encode "x\nimport \x7b HttpModule \x7d from '@angular/http';\n")
    ∃ ps, Rule.httpModule.fixes c = .ok ps ∧
      let o : Outcome :=
        { cluster := c, resolution := .rule, rule := some Rule.httpModule.id, patches := ps }
      ∃ s' o', r.settle o ⟨.start files, ()⟩ = (s', .ok o') ∧ o'.resolution = .failed ∧
        s'.workspace.files = files := by
  intro r c files
  have htext : ∀ names content, files.text? names = some content →
      content = [] ∨ content.getLast? = some '\n' := by
    intro names content hc
    rw [FileTree.text?_put (by decide)] at hc
    split at hc
    · obtain rfl := Option.some.inj hc
      exact .inr (by decide)
    · cases hc
  obtain ⟨ps, hps, s', o', b, hrun, -, hcases⟩ := settle_all_or_nothing r List.mem_cons_self c
    ⟨.start files, ()⟩ rfl
    (by decide) (fun d hd => (FileTree.exists_probe_iff_isOk _ _).2 (by revert d; decide)) (by decide) htext
  let patchAt (line : Nat) : Patch := .replacingLines "a.ts" line
    ["import \x7b HttpModule \x7d from '@angular/http';"]
    ["import \x7b HttpClientModule \x7d from '@angular/common/http';"]
    "Replace HttpModule with HttpClientModule"
  obtain rfl : ps = [patchAt 2, patchAt 1] := by
    rw [(Rule.fixes_eq_ok_iff.1 hps).2]
    decide +kernel
  let o : Outcome :=
    { cluster := c, resolution := .rule, rule := some Rule.httpModule.id, patches := [patchAt 2, patchAt 1] }
  have hitems : r.itemsOf o.patches = .ok (o.patches.map fun p => ⟨"/ws/a.ts", p⟩) := by
    have hlines : Patch.withFirstLines o.patches = .ok ([2, 1].zip o.patches) := by decide
    rw [itemsOf, Patch.bottomUp_of_pairwise hlines (by decide)]
    rfl
  have hfailed : (r.settle o ⟨.start files, ()⟩).2.toOption.map Outcome.resolution = some .failed := by
    rw [settle_of_itemsOf rfl hitems]
    decide +kernel
  rw [hrun] at hfailed
  have hres : o'.resolution = .failed := Option.some.inj hfailed
  refine ⟨_, hps, s', o', hrun, hres, ?_⟩
  rcases hcases with ⟨hrule, -⟩ | ⟨-, -, -, -, hsame⟩
  · rw [hres] at hrule
    cases hrule
  · exact hsame

end Mend.Repair
