import Mend.Proofs.Engine.RulePatch
import Mend.Proofs.Run.Routing
import Mend.Proofs.Run.Rules

/-!
# Fixes that shift each other

The fixes of the rules name lines of the files as they were before the run. Within a cluster the fixes for
later lines are made first, so that none of them shifts another one (`spares_of_itemsOf`), and the order of its
diagnostics does not matter (`settle_replaces_ranges`). The clusters are fixed in the order in which they were
found, and there a fix that changes the number of lines shifts those of later clusters below it. Where this
does not happen, a run replaces all ranges at once, each in its place in the old file
(`run_replaces_ranges`).
-/

namespace Mend.Patch

theorem firstLine_of_edit? {p : Patch} {e : Diff.Edit} (h : Diff.edit? p.diff = some e) :
    p.firstLine = .ok e.start := by
  obtain ⟨k, hk, rfl⟩ := Diff.exists_hunk_of_edit? h
  simp only [firstLine, hk]
  rfl

end Mend.Patch

namespace Mend

namespace Rule

/-- The edit of a built-in rule begins at the line of its diagnostic. -/
theorem edit?_of_fix {rule : Rule} (hrule : rule ∈ builtin) {d : Diagnostic} {p : Patch}
    (hfix : rule.fix d = .ok (some p)) {e : Diff.Edit} (he : Diff.edit? p.diff = some e) :
    ∃ removed added description, p = .replacingLines d.file d.line removed added description ∧
      Diff.Replacement removed added ∧ e = ⟨d.line, removed, added⟩ := by
  obtain ⟨removed, added, description, hx, -, rfl⟩ := replacement_of_fix hrule hfix
  exact ⟨removed, added, description, rfl, hx, hx.legible.edit?_replacingLines he⟩

/-- Whether the lines that a rule puts in place of others can be written. -/
def IsWritable (rule : Rule) : Prop :=
  ∀ d p, rule.fix d = .ok (some p) → ∀ e, Diff.edit? p.diff = some e → ∀ l ∈ e.new, Utf8.Encodable l

theorem isWritable_of_builtin {rule : Rule} (hrule : rule ∈ builtin) : rule.IsWritable := by
  intro d p hfix e he l hl
  obtain ⟨removed, added, description, -, hx, rfl⟩ := edit?_of_fix hrule hfix he
  exact hx.encodable l (List.mem_append_right _ hl)

end Rule

end Mend

namespace Mend.Repair

open Engine (Edited ReplaceRanges)

variable {σ : Type} {r : Repair σ} {t : FileTree} {done : List Engine.Item}

/-- The items of the patches that the rules make for a cluster. -/
def fixItems (r : Repair σ) (c : Cluster) : List Engine.Item :=
  ((r.rules.fixesFor c).toOption.getD []).map r.itemOf

/-- Within a batch, no item shifts a later one. -/
theorem spares_of_itemsOf {ps : List Patch} {items : List Engine.Item} (h : r.itemsOf ps = .ok items)
    (t : FileTree) :
    items.Perm (ps.map r.itemOf) ∧ items.Pairwise (Engine.Item.Spares t) := by
  obtain ⟨qs, hqs, rfl⟩ := itemsOf_eq_ok.1 h
  refine ⟨(Patch.perm_of_bottomUp hqs).map r.itemOf, List.pairwise_map.2 ?_⟩
  refine (Patch.pairwise_of_bottomUp hqs).imp fun {p q} hle s hs u hu _ hlt => ?_
  have hfirst := hle _ _ (Patch.firstLine_of_edit? (Engine.edit?_of_site? hs))
    (Patch.firstLine_of_edit? (Engine.edit?_of_site? hu))
  omega

theorem isWritable_of_mem_fixes {rule : Rule} (hrule : rule.IsWritable) {c : Cluster} {ps : List Patch}
    (hps : rule.fixes c = .ok ps) : ∀ item ∈ ps.map r.itemOf, item.IsWritable := by
  refine List.forall_mem_map.2 fun p hp => ?_
  obtain ⟨d, -, hfix⟩ := (Rule.mem_fixes hps).1 hp
  exact hrule d p hfix

/-! ### One cluster -/

theorem settle_edits {o : Outcome} {s : RunState σ} (hauto : r.settings.autoApply = true)
    (h : Edited t s.workspace.files done) (hrep : ReplaceRanges t (done ++ o.patches.map r.itemOf))
    (hdone : ∀ a ∈ done, ∀ b ∈ o.patches.map r.itemOf, a.Spares t b)
    (hwritable : ∀ item ∈ o.patches.map r.itemOf, item.IsWritable) :
    ∃ s' o', r.settle o s = (s', .ok o') ∧
      (o'.cluster = o.cluster ∧ o'.resolution = o.resolution ∧ o'.applied = true) ∧
      Edited t s'.workspace.files (done ++ o.patches.map r.itemOf) := by
  obtain ⟨items, hitems, -, -⟩ := r.exists_itemsOf fun p (hp : p ∈ o.patches) => by
    obtain ⟨names, content, e, he⟩ := hrep.found (r.itemOf p)
      (List.mem_append_right _ (List.mem_map_of_mem hp))
    exact ⟨_, Patch.firstLine_of_edit? he.edit⟩
  obtain ⟨hperm, hspares⟩ := spares_of_itemsOf hitems t
  have hall := hperm.symm.append_left done
  obtain ⟨w, hrun, hedited⟩ := h.applyBatch (hrep.perm hall)
    (fun a ha b hb => hdone a ha b (hperm.mem_iff.1 hb)) hspares
    (fun item hitem => hwritable item (hperm.mem_iff.1 hitem)) r.settings.strictValidation
  rw [settle_of_itemsOf hauto hitems, hrun]
  exact ⟨_, _, rfl, ⟨rfl, rfl, rfl⟩, hedited.perm hall.symm (hrep.perm hall).apart⟩

structure FixedByRules (r : Repair σ) (p : Sorted) : Prop where
  left : p.2 = none → r.isPending p.1 = true
  fixed : ∀ o, p.2 = some o → o.cluster = p.1 ∧ o.resolution = .rule ∧ o.applied = true

/-- A cluster for which the built-in rules make fixes is fixed, if its lines are not shifted by what was done
before. Nothing happens to the files for the other ones. -/
theorem byRule_edits (hauto : r.settings.autoApply = true) (hrules : ∀ rule ∈ r.rules.rules, rule.IsWritable)
    {c : Cluster} (hmade : (r.rules.fixesFor c).isOk = true) {s : RunState σ}
    (h : Edited t s.workspace.files done) (hrep : ReplaceRanges t (done ++ r.fixItems c))
    (hdone : ∀ a ∈ done, ∀ b ∈ r.fixItems c, a.Spares t b) :
    ∃ s' found, r.byRule c s = (s', .ok found) ∧ r.FixedByRules (c, found) ∧
      Edited t s'.workspace.files (done ++ r.fixItems c) := by
  have hend := r.ruleTurn c s
  generalize r.byRule c s = result at hend
  cases hend with
  | raised noted failed =>
    rw [failed] at hmade
    cases hmade
  | left noted nothing =>
    refine ⟨_, none, rfl, ⟨fun _ => isPending_iff.2 nothing, by simp⟩, ?_⟩
    have hitems : r.fixItems c = [] := by
      rw [fixItems, nothing]
      rfl
    rw [hitems, List.append_nil, noted.files]
    exact h
  | @fixed s1 rule ps noted mem fixes made some_patch =>
    have hitems : r.fixItems c = (ruleOutcome rule c ps).patches.map r.itemOf := by
      rw [fixItems, fixes]
      rfl
    rw [hitems] at hrep hdone ⊢
    rw [← noted.files] at h
    obtain ⟨s', o, hsettle, ho, hedited⟩ :=
      settle_edits hauto h hrep hdone (isWritable_of_mem_fixes (hrules rule mem) made)
    rw [hsettle]
    refine ⟨s', some o, rfl, ⟨by simp, fun o' hfound => ?_⟩, hedited⟩
    obtain rfl := Option.some.inj hfound
    exact ho

/-! ### All clusters -/

/-- The pass of the rules, after items that were done before: fixes that come first shift none of a later
cluster. -/
theorem allByRule_edits (hauto : r.settings.autoApply = true)
    (hrules : ∀ rule ∈ r.rules.rules, rule.IsWritable) {cs : List Cluster}
    (hmade : ∀ c ∈ cs, (r.rules.fixesFor c).isOk = true) {s : RunState σ} (h : Edited t s.workspace.files done)
    (hrep : ReplaceRanges t (done ++ cs.flatMap r.fixItems))
    (hdone : ∀ a ∈ done, ∀ b ∈ cs.flatMap r.fixItems, a.Spares t b)
    (hcs : cs.Pairwise fun c d => ∀ a ∈ r.fixItems c, ∀ b ∈ r.fixItems d, a.Spares t b) :
    ∃ s' sorted, r.allByRule cs s = (s', .ok sorted) ∧ (∀ p ∈ sorted, r.FixedByRules p) ∧
      Edited t s'.workspace.files (done ++ cs.flatMap r.fixItems) := by
  induction cs generalizing s done with
  | nil =>
    refine ⟨s, [], rfl, List.forall_mem_nil _, ?_⟩
    simpa using h
  | cons c cs ih =>
    obtain ⟨hfirst, hcs⟩ := List.pairwise_cons.1 hcs
    obtain ⟨hmade, hmades⟩ := List.forall_mem_cons.1 hmade
    rw [List.flatMap_cons] at hrep hdone ⊢
    rw [← List.append_assoc] at hrep ⊢
    obtain ⟨s1, found, hone, hfound, h1⟩ := byRule_edits hauto hrules hmade h
      (hrep.sublist (List.sublist_append_left _ _)) fun a ha b hb =>
        hdone a ha b (List.mem_append_left _ hb)
    have hlater : ∀ a ∈ done ++ r.fixItems c, ∀ b ∈ cs.flatMap r.fixItems, a.Spares t b := by
      intro a ha b hb
      rcases List.mem_append.1 ha with ha | ha
      · exact hdone a ha b (List.mem_append_right _ hb)
      · obtain ⟨d, hd, hbd⟩ := List.mem_flatMap.1 hb
        exact hfirst d hd a ha b hbd
    obtain ⟨s2, sorted, hrest, hsorted, h2⟩ := ih hmades h1 hrep hlater hcs
    exact ⟨s2, (c, found) :: sorted, by simp only [allByRule, hone, hrest],
      List.forall_mem_cons.2 ⟨hfound, hsorted⟩, h2⟩

theorem closeAll_fixed {sorted : List Sorted} (h : ∀ p ∈ sorted, r.FixedByRules p) :
    ∀ o ∈ closeAll sorted, r.isPending o.cluster = false → o.resolution = .rule ∧ o.applied = true := by
  intro o ho hfixed
  obtain ⟨⟨c, found⟩, hp, rfl⟩ := List.mem_map.1 ho
  cases found with
  | none =>
    have hpending : r.isPending c = true := (h _ hp).left rfl
    exact absurd (hpending.symm.trans hfixed) (by simp)
  | some o => exact ((h _ hp).fixed o rfl).2

/-! ### The run -/

/-- A run without a generator on diagnostics whose fixes replace ranges of lines that do not overlap. If no fix
that changes the number of lines stands above one of a later cluster, every cluster with fixes is fixed by its
rule, and each file has all ranges replaced at once, in their places in the old file. The rules only have to make
lines that can be written, as the built-in ones do (`Rule.isWritable_of_builtin`). -/
theorem run_replaces_ranges (hauto : r.settings.autoApply = true) (hoff : r.consults = false)
    (hrules : ∀ rule ∈ r.rules.rules, rule.IsWritable) (ds : List Diagnostic) (s : RunState σ) :
    let clusters := Cluster.ofDiagnostics (r.settings.selected ds)
    let before := s.workspace.files
    (∀ c ∈ clusters, (r.rules.fixesFor c).isOk = true) →
    ReplaceRanges before (clusters.flatMap r.fixItems) →
    (clusters.Pairwise fun c d => ∀ a ∈ r.fixItems c, ∀ b ∈ r.fixItems d, a.Spares before b) →
    ∃ s' m, r.run ds s = (s', .ok m) ∧ m.outcomes.map (·.cluster) = clusters ∧
      (∀ o ∈ m.outcomes, r.isPending o.cluster = false → o.resolution = .rule ∧ o.applied = true) ∧
      Edited before s'.workspace.files (clusters.flatMap r.fixItems) := by
  intro clusters before hmade hrep hspares
  have hpass : ∀ s1 : RunState σ, s.Noted s1 → ∃ s2 sorted,
      r.allByRule clusters s1 = (s2, .ok sorted) ∧ (∀ p ∈ sorted, r.FixedByRules p) ∧
      Edited before s2.workspace.files (clusters.flatMap r.fixItems) := by
    intro s1 hnoted
    refine @allByRule_edits σ r before [] hauto hrules clusters hmade s1 ?_ hrep (List.forall_mem_nil _) hspares
    rw [hnoted.files]
    exact .nil before
  have hcourse := r.course ds s
  generalize r.run ds s = result at hcourse
  cases hcourse with
  | raisedByRules noted rules later =>
    obtain ⟨s2, sorted, hsorted, -, -⟩ := hpass _ noted
    exact absurd (hsorted.symm.trans rules) (by simp)
  | raisedInRest noted rules rest later =>
    rw [resolveRest_of_not_consults hoff] at rest
    cases rest
  | @finished s1 s2 s3 s' sorted os noted rules rest later =>
    obtain ⟨s2', sorted', hsorted, hfixed, hedited⟩ := hpass s1 noted
    obtain ⟨rfl, rfl⟩ : s2' = s2 ∧ sorted' = sorted := by simpa using hsorted.symm.trans rules
    have haccounts := resolveRest_accounts (allByRule_accounts rules) rest
    rw [resolveRest_of_not_consults hoff] at rest
    obtain ⟨rfl, rfl⟩ : s2' = s3 ∧ closeAll sorted' = os := by simpa using rest
    refine ⟨s', _, rfl, (map_cluster_of_accounts haccounts).1, closeAll_fixed hfixed, ?_⟩
    rw [later.files]
    exact hedited

/-- The import below is fixed before the list of three lines above it is removed. -/
theorem run_replaces_ranges_of_lower_line_first :
    let r : Repair Unit := ⟨.default, Rule.builtinRegistry, none, fun _ => .ok []⟩
    let ds : List Diagnostic := [⟨"a.ts", 4, "HttpModule deprecated", .error, Nat.succ_pos _⟩,
      ⟨"a.ts", 1, "entryComponents does not exist", .error, Nat.succ_pos _⟩]
    let files := FileTree.empty.put ["a.ts"] (Utf8.encode
      "  entryComponents: [\n    MyComponent\n  ],\nimport \x7b HttpModule \x7d from '@angular/http';\n")
    ∃ s' m, r.run ds ⟨.start files, ()⟩ = (s', .ok m) ∧
      (∀ o ∈ m.outcomes, o.resolution = .rule ∧ o.applied = true) ∧
      s'.workspace.files.text? ["a.ts"] =
        some ("import \x7b HttpClientModule \x7d from '@angular/common/http';\n" : Text) := by
  intro r ds files
  let clusters := Cluster.ofDiagnostics (r.settings.selected ds)
  have hchecks : (∀ c ∈ clusters, (r.rules.fixesFor c).isOk = true) ∧
      ReplaceRanges files (clusters.flatMap r.fixItems) ∧
      (clusters.Pairwise fun c d => ∀ a ∈ r.fixItems c, ∀ b ∈ r.fixItems d, a.Spares files b) ∧
      ∀ c ∈ clusters, r.isPending c = false := by
    decide +kernel
  obtain ⟨hmade, hrep, hspares, hnone⟩ := hchecks
  obtain ⟨s', m, hrun, hclusters, hfixed, hedited⟩ := run_replaces_ranges (r := r) rfl rfl
    (fun _ hrule => Rule.isWritable_of_builtin hrule) ds ⟨.start files, ()⟩ hmade hrep hspares
  refine ⟨s', m, hrun, fun o ho => hfixed o ho (hnone _ ?_), ?_⟩
  · have hcluster : o.cluster ∈ m.outcomes.map (·.cluster) := List.mem_map_of_mem ho
    rwa [hclusters] at hcluster
  · rw [hedited.text ["a.ts"] _ (FileTree.text?_put (by decide) _ _ _)]
    decide +kernel

/-- The same file, with the diagnostics the other way round: the list above is removed first, and the line of
the import is no longer where its fix looks for it. -/
theorem run_shifts_later_cluster :
    let r : Repair Unit := ⟨.default, Rule.builtinRegistry, none, fun _ => .ok []⟩
    let ds : List Diagnostic := [⟨"a.ts", 1, "entryComponents does not exist", .error, Nat.succ_pos _⟩,
      ⟨"a.ts", 4, "HttpModule deprecated", .error, Nat.succ_pos _⟩]
    let files := FileTree.empty.put ["a.ts"] (Utf8.encode
      "  entryComponents: [\n    MyComponent\n  ],\nimport \x7b HttpModule \x7d from '@angular/http';\n")
    let items := (Cluster.ofDiagnostics (r.settings.selected ds)).flatMap r.fixItems
    ReplaceRanges files items ∧
      ∃ s' m, r.run ds ⟨.start files, ()⟩ = (s', .ok m) ∧
        m.outcomes.map (·.resolution) = [.rule, .failed] ∧ ¬ Edited files s'.workspace.files items := by
  intro r ds files items
  let old : Text :=
    "  entryComponents: [\n    MyComponent\n  ],\nimport \x7b HttpModule \x7d from '@angular/http';\n"
  let left : Text := "import \x7b HttpModule \x7d from '@angular/http';\n"
  have hchecks : ReplaceRanges files items ∧
      (r.run ds ⟨.start files, ()⟩).2.toOption.map (·.outcomes.map (·.resolution)) =
        some [.rule, .failed] ∧
      (r.run ds ⟨.start files, ()⟩).1.workspace.files.content? ["a.ts"] = some (Utf8.encode left) ∧
      Text.ofLines (Diff.replaceRanges (Engine.editsOn files ["a.ts"] items) (Text.lines old)) ≠ left := by
    decide +kernel
  obtain ⟨hrep, hends, hcontent, hne⟩ := hchecks
  cases hrun : r.run ds ⟨.start files, ()⟩ with
  | mk s' result =>
    rw [hrun] at hends hcontent
    cases result with
    | error f => cases hends
    | ok m =>
      refine ⟨hrep, s', m, rfl, Option.some.inj hends, fun hedited => ?_⟩
      have hat := hedited.text ["a.ts"] old (FileTree.text?_put (by decide) _ _ _)
      rw [FileTree.text?_eq_some.2 ⟨hcontent, by decide⟩] at hat
      exact hne (Option.some.inj hat).symm

end Mend.Repair
