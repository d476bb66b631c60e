import Mend.Proofs.Cluster
import Mend.Proofs.Engine.Frame
import Mend.Proofs.Engine.Retract
import Mend.Proofs.RuleBatch

/-!
# Rules that come to an end

Settling an outcome comes to an end where its patches can be put in order, their files can be looked up, and
each patch can be retracted (`Repair.Settleable`). The patches that the built-in rules make for regular
diagnostics are of this kind, whatever the files hold, so that the rules come to the end of all clusters
(`Repair.exists_allByRule`).
-/

namespace Mend

/-- Whether a rule can name the file of a diagnostic in a diff, the file can be looked up, and the numbers of
the lines from the diagnostic on can be printed. A built-in rule replaces up to three lines. -/
structure Diagnostic.IsRegular (settings : Settings.Run) (t : FileTree) (d : Diagnostic) : Prop where
  no_newline : .char '\n' ∉ d.file
  lookup : ∃ node, t.probe (Path.ofText (CodeContext.resolve settings d.file).text) = .ok node
  printable : (Number.print (d.line + 2 : ℕ)).isOk = true

theorem Diagnostic.IsRegular.printable_line {settings : Settings.Run} {t : FileTree} {d : Diagnostic}
    (h : d.IsRegular settings t) : (Number.print d.line).isOk = true :=
  Diff.print_of_length (Nat.le_trans (Diff.length_ofNat_mono (by omega)) (Diff.length_of_print h.printable))

theorem Diagnostic.IsRegular.of_sameNames {settings : Settings.Run} {t u : FileTree} {d : Diagnostic}
    (h : d.IsRegular settings t) (hsame : t.SameNames u) : d.IsRegular settings u :=
  ⟨h.no_newline, hsame.exists_probe h.lookup, h.printable⟩

/-- Whether a step of a run has kept the names of the files and the state of the generator. -/
structure RunState.Kept {σ : Type} (s s' : RunState σ) : Prop where
  sameNames : s.workspace.files.SameNames s'.workspace.files
  generator : s'.generator = s.generator

theorem RunState.Kept.refl {σ : Type} (s : RunState σ) : s.Kept s := ⟨.refl _, rfl⟩

theorem RunState.Kept.trans {σ : Type} {s s' s'' : RunState σ} (h : s.Kept s') (k : s'.Kept s'') :
    s.Kept s'' := ⟨h.sameNames.trans k.sameNames, k.generator.trans h.generator⟩

namespace Repair

variable {σ : Type} {r : Repair σ} {Over : Text → Text → Prop}

/-! ### Settling -/

/-- A patch that can be put in order with others, whose file can be looked up, and that can be retracted. -/
structure Settleable (r : Repair σ) (t : FileTree) (Over : Text → Text → Prop) (p : Patch) : Prop where
  ordered : ∃ n, p.firstLine = .ok n
  lookup : ∃ node, t.probe (Path.ofText (CodeContext.resolve r.settings p.file).text) = .ok node
  retractable : Engine.Retractable r.settings.strictValidation Over p

theorem Settleable.of_sameNames {t u : FileTree} {p : Patch} (h : r.Settleable t Over p)
    (hsame : t.SameNames u) : r.Settleable u Over p :=
  ⟨h.ordered, hsame.exists_probe h.lookup, h.retractable⟩

theorem exists_settle (hrefl : ∀ content, Over content content) {o : Outcome} {s : RunState σ}
    (hp : ∀ p ∈ o.patches, r.Settleable s.workspace.files Over p) :
    ∃ s' o', r.settle o s = (s', .ok o') ∧ s.Kept s' := by
  by_cases hauto : r.settings.autoApply = true
  · obtain ⟨items, hitems, hperm, hplace⟩ := r.exists_itemsOf fun p hmem => (hp p hmem).ordered
    have hone : ∀ item ∈ items, r.Settleable s.workspace.files Over item.patch := fun item hitem =>
      hp _ (hperm.mem_iff.1 (List.mem_map_of_mem hitem))
    obtain ⟨w, b, hrun⟩ := Engine.exists_applyBatch (w := s.workspace) hrefl
      (fun item hitem => by rw [hplace item hitem]; exact (hone item hitem).lookup)
      (fun item hitem => (hone item hitem).retractable)
    have hnames := Engine.sameNames_applyBatch r.settings.strictValidation s.workspace items
    rw [hrun] at hnames
    rw [settle_of_itemsOf hauto hitems, hrun]
    exact ⟨_, _, rfl, hnames, rfl⟩
  · have hoff : r.settings.autoApply = false := by simpa using hauto
    simp only [settle, hoff, Bool.not_false, if_true]
    exact ⟨_, o, rfl, .refl _, rfl⟩

/-! ### Clusters -/

/-- The patches of a built-in rule for regular diagnostics can be settled, whatever the texts hold: a patch
brings back its lines in every text that is no shorter than the one it has left. -/
theorem settleable_of_mem_fixes {rule : Rule} (hrule : rule ∈ Rule.builtin) {c : Cluster}
    {t : FileTree} (hreg : ∀ d ∈ c.instances, d.IsRegular r.settings t) {ps : List Patch}
    (hps : rule.fixes c = .ok ps) {p : Patch} (hp : p ∈ ps) : r.Settleable t Engine.NoShorter p := by
  obtain ⟨d, hd, hfix⟩ := (Rule.mem_fixes hps).1 hp
  obtain ⟨removed, added, description, hx, ⟨hfew, hsize⟩, rfl⟩ := Rule.replacement_of_fix hrule hfix
  have hprint : ∀ k ≤ 2, (Text.ofNat (d.line + k)).length ≤ Number.maxDigits := fun k hk =>
    Nat.le_trans (Diff.length_ofNat_mono (by omega)) (Diff.length_of_print (hreg d hd).printable)
  have hstart : (Text.ofNat d.line).length ≤ Number.maxDigits := hprint 0 (by omega)
  have hh := Diff.hunks_replacingLines hx.legible (hreg d hd).no_newline hstart description
  refine ⟨Patch.exists_firstLine hh, (hreg d hd).lookup, ?_⟩
  exact Engine.retractable_of_replacement hx hh (Bool.or_true _) d.line_pos hsize
    fun k hk => hprint k (by omega)

theorem exists_firstAccepting {rules : List Rule} (hrules : ∀ rule ∈ rules, rule ∈ Rule.builtin)
    (d : Diagnostic) : ∃ found, RuleRegistry.firstAccepting d rules = .ok found ∧
      ∀ rule, found = some rule → rule ∈ rules := by
  induction rules with
  | nil => exact ⟨none, rfl, by simp⟩
  | cons rule rules ih =>
    obtain ⟨hone, hrest⟩ := List.forall_mem_cons.1 hrules
    obtain ⟨found, hfound, hmem⟩ := ih hrest
    obtain ⟨b, hb⟩ : ∃ b, rule.accepts d = .ok b := by
      simp only [Rule.builtin, List.mem_cons, List.not_mem_nil, or_false] at hone
      rcases hone with rfl | rfl | rfl
      · exact ⟨_, rfl⟩
      · exact ⟨_, rfl⟩
      · exact ⟨_, rfl⟩
    unfold RuleRegistry.firstAccepting
    rw [hb]
    cases b with
    | true => exact ⟨some rule, rfl, by simp⟩
    | false => exact ⟨found, hfound, fun k hk => List.mem_cons_of_mem _ (hmem k hk)⟩

theorem exists_ruleFor (c : Cluster) : ∃ ns found,
    Rule.builtinRegistry.ruleFor c = (ns, .ok found) ∧ ∀ rule, found = some rule → rule ∈ Rule.builtin := by
  obtain ⟨found, hfound, hmem⟩ := @exists_firstAccepting Rule.builtin (fun _ h => h) c.representative
  have hfirst : RuleRegistry.firstAccepting c.representative Rule.builtinRegistry.rules = .ok found :=
    hfound
  unfold RuleRegistry.ruleFor
  rw [hfirst]
  cases found with
  | none => exact ⟨_, none, rfl, hmem⟩
  | some rule => exact ⟨_, some rule, rfl, hmem⟩

theorem exists_byRule (hrules : r.rules = Rule.builtinRegistry) {c : Cluster} {s : RunState σ}
    (hreg : ∀ d ∈ c.instances, d.IsRegular r.settings s.workspace.files) :
    ∃ s' o, r.byRule c s = (s', .ok o) ∧ s.Kept s' := by
  obtain ⟨ns, found, hfound, hmem⟩ := exists_ruleFor c
  unfold byRule
  rw [hrules, hfound]
  cases found with
  | none => exact ⟨_, none, rfl, .refl _, rfl⟩
  | some rule =>
    obtain ⟨ps, hps⟩ := Rule.exists_fixes (hmem rule rfl) fun d hd => (hreg d hd).printable_line
    simp only [hps]
    by_cases hempty : ps.isEmpty = true
    · rw [if_pos hempty]
      exact ⟨_, none, rfl, .refl _, rfl⟩
    · rw [if_neg hempty]
      obtain ⟨s', o, hs, hkept⟩ := @exists_settle σ r Engine.NoShorter (fun _ => Nat.le_refl _)
        { cluster := c, resolution := .rule, rule := some rule.id, patches := ps }
        (((s.noteAll ns).count .ruleMatches [("rule", rule.id)] 1).note (rule.fixesNotice c ps))
        fun p hp => settleable_of_mem_fixes (hmem rule rfl) hreg hps hp
      exact ⟨s', some o, by rw [hs], hkept.sameNames, hkept.generator⟩

/-- The built-in rules come to the end of all clusters of regular diagnostics. -/
theorem exists_allByRule (hrules : r.rules = Rule.builtinRegistry) {cs : List Cluster}
    {s : RunState σ}
    (hreg : ∀ c ∈ cs, ∀ d ∈ c.instances, d.IsRegular r.settings s.workspace.files) :
    ∃ s' sorted, r.allByRule cs s = (s', .ok sorted) ∧ sorted.map Prod.fst = cs ∧ s.Kept s' := by
  induction cs generalizing s with
  | nil => exact ⟨s, [], rfl, rfl, .refl s⟩
  | cons c cs ih =>
    obtain ⟨hone, hrest⟩ := List.forall_mem_cons.1 hreg
    obtain ⟨s1, o, hs1, hkept1⟩ := exists_byRule hrules hone
    obtain ⟨s2, rest, hs2, hfst, hkept2⟩ := @ih s1 fun k hk d hd =>
      (hrest k hk d hd).of_sameNames hkept1.sameNames
    exact ⟨s2, (c, o) :: rest, by simp only [allByRule, hs1, hs2], by rw [List.map_cons, hfst],
      hkept1.trans hkept2⟩

/-! ### The run -/

/-- A run clusters the diagnostics, goes through the clusters with the rules, and then through those that
are left; what is noted before changes nothing else. -/
theorem repair_eq (r : Repair σ) (ds : List Diagnostic) (s : RunState σ) :
    ∃ s1, s.Kept s1 ∧ s1.workspace.files = s.workspace.files ∧ r.repair ds s =
      match r.allByRule (Cluster.ofDiagnostics (r.settings.selected ds)) s1 with
      | (s, .error f) => (s, .error f)
      | (s, .ok sorted) =>
        match r.resolveRest sorted s with
        | (s, .error f) => (s, .error f)
        | (s, .ok os) => (s, .ok (.ofOutcomes (r.settings.selected ds).length os)) := by
  refine ⟨_, ?_, ?_, rfl⟩
  · exact ⟨.refl _, rfl⟩
  · rfl

/-- A run on regular diagnostics comes to its end if what follows the rules does. -/
theorem exists_run_of_rest (hrules : r.rules = Rule.builtinRegistry) {ds : List Diagnostic}
    {s : RunState σ} (hreg : ∀ d ∈ ds, d.IsRegular r.settings s.workspace.files)
    (hrest : ∀ s1 sorted, s.Kept s1 →
      sorted.map Prod.fst = Cluster.ofDiagnostics (r.settings.selected ds) →
      ∃ s2 os, r.resolveRest sorted s1 = (s2, .ok os)) :
    ∃ s' m, r.run ds s = (s', .ok m) := by
  obtain ⟨s1, hkept1, -, heq⟩ := r.repair_eq ds s
  have hclusters : ∀ c ∈ Cluster.ofDiagnostics (r.settings.selected ds), ∀ d ∈ c.instances,
      d.IsRegular r.settings s1.workspace.files := fun c hc d hd =>
    (hreg d (List.mem_of_mem_filter (Cluster.mem_of_mem_instances hc hd))).of_sameNames hkept1.sameNames
  obtain ⟨s2, sorted, hsorted, hfst, hkept2⟩ := exists_allByRule hrules hclusters
  obtain ⟨s3, os, hos⟩ := hrest s2 sorted (hkept1.trans hkept2) hfst
  rw [hsorted] at heq
  simp only [hos] at heq
  unfold run
  rw [heq]
  exact ⟨_, _, rfl⟩

end Repair

end Mend
