import Mend.Proofs.Run.Accounting
import Mend.Proofs.Run.Rules
import Mend.Proofs.Run.Steps

/-!
# Clusters on different files

Two lists of diagnostics that share no pattern key and whose paths lead to different files can be repaired
apart or together, in any order that keeps that of each list: every cluster has the outcome that it has
without the other list, and every file ends as it does there (`Repair.run_interleaving`).

A cluster under another number, in a workspace that agrees on the files of the cluster, is settled in the
same way (`Repair.byRule_parallel`). From this, three runs are compared step by step: each step of the joint
run is one of the two others, and what it leaves alone is all that the third run has to do with
(`Repair.Joint`).
-/

namespace Mend

open FileTree (AgreeOn Confined)

variable {σ : Type}

/-! ### Outcomes and summaries -/

/-- Whether two outcomes differ at most in the numbers of their clusters. -/
def Outcome.Same (o o' : Outcome) : Prop :=
  o' = { o with cluster := { o.cluster with number := o'.cluster.number } }

namespace Outcome.Same

variable {o o' : Outcome}

theorem patches_eq (h : o.Same o') : o'.patches = o.patches := by rw [h]

theorem gain_eq (h : o.Same o') : o.gain = o'.gain := by
  rw [h]
  rfl

theorem appliedPatches_eq (h : o.Same o') : o.appliedPatches = o'.appliedPatches := by
  rw [h]
  rfl

theorem rolledBack_eq (h : o.Same o') : o.rolledBack = o'.rolledBack := by
  rw [h]
  rfl

theorem batchOutcome (h : o.Same o') (b : Engine.BatchResult) :
    (Repair.batchOutcome o b).Same (Repair.batchOutcome o' b) := by
  unfold Repair.batchOutcome
  split
  · exact congrArg (fun x => { x with batch := some b }) h
  · exact congrArg (fun x : Outcome =>
      { x with resolution := .failed, batch := some b, error := some (Repair.batchError b) }) h

theorem withoutGenerator {c d : Cluster} (h : c.Same d) :
    (Repair.withoutGenerator c).Same (Repair.withoutGenerator d) :=
  congrArg Repair.withoutGenerator h

end Outcome.Same

/-- Whether a summary has the outcomes of two others, in the order of each, and the sums of their sums. -/
structure Summary.Joins (m n joint : Summary) : Prop where
  outcomes : Interleaving Outcome.Same m.outcomes n.outcomes joint.outcomes
  total : joint.total = m.total + n.total
  patchesApplied : joint.patchesApplied = m.patchesApplied + n.patchesApplied
  errorsFixed : joint.errorsFixed = m.errorsFixed + n.errorsFixed
  remaining : joint.remaining = m.remaining + n.remaining
  rolledBack : joint.rolledBack = m.rolledBack + n.rolledBack

theorem Summary.joins_ofOutcomes {as bs ls : List Outcome} (h : Interleaving Outcome.Same as bs ls)
    {k m n : Nat} (htotal : n = k + m) :
    Joins (.ofOutcomes k as) (.ofOutcomes m bs) (.ofOutcomes n ls) := by
  have hgain := h.sum_map Outcome.gain Outcome.gain fun _ _ e => e.gain_eq
  have hpatches := h.sum_map Outcome.appliedPatches Outcome.appliedPatches
    fun _ _ e => e.appliedPatches_eq
  have hback := (h.filter Outcome.rolledBack Outcome.rolledBack fun _ _ e => e.rolledBack_eq).length_eq
  refine ⟨h, ?_, ?_, ?_, ?_, ?_⟩
  · simp only [ofOutcomes, htotal, Nat.cast_add]
  · simp only [ofOutcomes, Outcome.length_flatMap_filter, hpatches, Nat.cast_add]
  · simp only [ofOutcomes, Outcome.fixedAmong_filter, hgain, Nat.cast_add]
  · simp only [ofOutcomes, Outcome.fixedAmong_filter, hgain, htotal, Nat.cast_add]
    omega
  · simp only [ofOutcomes, List.countP_eq_length_filter, hback]

namespace Repair

variable {r : Repair σ} {S T : List Text → Prop}

/-! ### Files that a run has to do with -/

/-- Whether the path of one of some diagnostics leads to the file with these names. -/
def Touches (r : Repair σ) (t : FileTree) (ds : List Diagnostic) (names : List Text) : Prop :=
  ∃ d ∈ ds, t.LeadsTo (Path.ofText (CodeContext.resolve r.settings d.file).text) names

/-- Whether the diagnostics of a cluster touch files with some names only. -/
def Stays (r : Repair σ) (S : List Text → Prop) (t : FileTree) (c : Cluster) : Prop :=
  ∀ names, r.Touches t c.instances names → S names

theorem Stays.of_sameNames {t u : FileTree} {c : Cluster} (h : r.Stays S t c)
    (hsame : t.SameNames u) : r.Stays S u c := fun names ⟨d, hd, hn⟩ =>
  h names ⟨d, hd, (hsame.leadsTo _ names).2 hn⟩

/-! ### Two steps in parallel -/

/-- Whether two results are related, or the same fault. -/
inductive SameResult {α β : Type} (Q : α → β → Prop) : Except RunFault α → Except RunFault β → Prop
  | ok {a : α} {b : β} (h : Q a b) : SameResult Q (.ok a) (.ok b)
  | error (f : RunFault) : SameResult Q (.error f) (.error f)

/-- Two steps of runs that begin with two trees of files and give the same result. They end with trees that
agree on some files, and each one leaves all other files alone. -/
structure Parallel {α β : Type} (S : List Text → Prop) (Q : α → β → Prop) (t u : FileTree)
    (x : Step σ α) (y : Step σ β) : Prop where
  result : SameResult Q x.2 y.2
  agree : AgreeOn S x.1.workspace.files y.1.workspace.files
  left : Confined S t x.1.workspace.files
  right : Confined S u y.1.workspace.files

theorem Parallel.of_same_files {α β : Type} {Q : α → β → Prop} {s v s' v' : RunState σ}
    (h : AgreeOn S s.workspace.files v.workspace.files)
    (hs : s'.workspace.files = s.workspace.files) (hv : v'.workspace.files = v.workspace.files)
    {x : Except RunFault α} {y : Except RunFault β} (hresult : SameResult Q x y) :
    Parallel S Q s.workspace.files v.workspace.files (s', x) (v', y) where
  result := hresult
  agree := by rw [hs, hv]; exact h
  left := by rw [hs]; exact .refl S _
  right := by rw [hv]; exact .refl S _

/-- Where two workspaces agree on the files of an outcome's patches, it is settled alike in both. -/
theorem settle_parallel {o o' : Outcome} (hsame : o.Same o') {s v : RunState σ}
    (h : AgreeOn S s.workspace.files v.workspace.files)
    (hin : ∀ p ∈ o.patches, ∀ names, s.workspace.files.LeadsTo
      (Path.ofText (CodeContext.resolve r.settings p.file).text) names → S names) :
    Parallel S Outcome.Same s.workspace.files v.workspace.files (r.settle o s) (r.settle o' v) := by
  by_cases hauto : r.settings.autoApply = true
  · cases hitems : r.itemsOf o.patches with
    | error e =>
      have hitems' := hsame.patches_eq ▸ hitems
      simp only [settle, hauto, hitems, hitems', Bool.not_true, Bool.false_eq_true, if_false]
      exact .of_same_files h rfl rfl (.error _)
    | ok items =>
      have hwithin : Engine.Within S s.workspace.files items := by
        intro item hitem names hn
        obtain ⟨hperm, hplace⟩ := perm_of_itemsOf hitems
        rw [hplace item hitem] at hn
        exact hin item.patch (hperm.mem_iff.1 (List.mem_map_of_mem hitem)) names hn
      have hbatch := Engine.applyBatch_parallel r.settings.strictValidation h hwithin
      rw [settle_of_itemsOf hauto hitems, settle_of_itemsOf hauto (hsame.patches_eq ▸ hitems)]
      cases hw : Engine.applyBatch r.settings.strictValidation s.workspace items with
      | mk w a =>
        cases hv : Engine.applyBatch r.settings.strictValidation v.workspace items with
        | mk w' b =>
          rw [hw, hv] at hbatch
          obtain rfl : a = b := hbatch.result
          cases a with
          | error f => exact ⟨.error _, hbatch.agree, hbatch.left, hbatch.right⟩
          | ok b => exact ⟨.ok (hsame.batchOutcome b), hbatch.agree, hbatch.left, hbatch.right⟩
  · have hoff : r.settings.autoApply = false := by simpa using hauto
    simp only [settle, hoff, Bool.not_false, if_true]
    refine .of_same_files h ?_ ?_ (.ok hsame)
    · rfl
    · rfl

/-- A cluster is fixed by the same built-in rule in the same way whatever its number, where two workspaces
agree on the files that its diagnostics touch. -/
theorem byRule_parallel (hrules : r.rules = Rule.builtinRegistry) {c d : Cluster}
    (hsame : c.Same d) {s v : RunState σ} (h : AgreeOn S s.workspace.files v.workspace.files)
    (hin : r.Stays S s.workspace.files c) :
    Parallel S (Option.Rel Outcome.Same) s.workspace.files v.workspace.files (r.byRule c s)
      (r.byRule d v) := by
  obtain ⟨n, rfl⟩ : ∃ n, d = { c with number := n } := ⟨_, hsame⟩
  obtain ⟨found, hfound, hmem⟩ := @exists_firstAccepting Rule.builtin (fun _ h => h) c.representative
  have hfirst : RuleRegistry.firstAccepting c.representative Rule.builtinRegistry.rules = .ok found :=
    hfound
  unfold byRule RuleRegistry.ruleFor
  rw [hrules]
  simp only [hfirst]
  cases found with
  | none =>
    refine .of_same_files h ?_ ?_ (.ok Option.Rel.none)
    · rfl
    · rfl
  | some rule =>
    have hfixes : rule.fixes { c with number := n } = rule.fixes c := rfl
    simp only [hfixes]
    cases hps : rule.fixes c with
    | error e =>
      refine .of_same_files h ?_ ?_ (.error _)
      · rfl
      · rfl
    | ok ps =>
      simp only
      by_cases hempty : ps.isEmpty = true
      · simp only [if_pos hempty]
        refine .of_same_files h ?_ ?_ (.ok Option.Rel.none)
        · rfl
        · rfl
      · simp only [if_neg hempty]
        -- What is noted before changes no file.
        generalize hs1 : RunState.note _ (rule.fixesNotice c ps) = s1
        generalize hv1 : RunState.note _ (rule.fixesNotice { c with number := n } ps) = v1
        have hs1files : s1.workspace.files = s.workspace.files := by rw [← hs1]; rfl
        have hv1files : v1.workspace.files = v.workspace.files := by rw [← hv1]; rfl
        have hsettle := @settle_parallel σ r S
          { cluster := c, resolution := .rule, rule := some rule.id, patches := ps }
          { cluster := { c with number := n }, resolution := .rule, rule := some rule.id,
            patches := ps } rfl s1 v1 (by rwa [hs1files, hv1files]) ?_
        · rw [hs1files, hv1files] at hsettle
          revert hsettle
          cases r.settle _ s1 with
          | mk s2 a =>
            cases r.settle _ v1 with
            | mk v2 b =>
              intro hsettle
              cases hsettle.result with
              | ok ho => exact ⟨.ok (.some ho), hsettle.agree, hsettle.left, hsettle.right⟩
              | error f => exact ⟨.error f, hsettle.agree, hsettle.left, hsettle.right⟩
        · intro p hp names hn
          obtain ⟨d, hd, hfile⟩ := Rule.file_of_mem_fixes (hmem rule rfl) hps hp
          rw [hs1files, hfile] at hn
          exact hin names ⟨d, hd, hn⟩

/-! ### Three runs -/

/-- Whether two clusters went through the rules alike, whatever their numbers. -/
def SameSorted (p q : Sorted) : Prop := p.1.Same q.1 ∧ Option.Rel Outcome.Same p.2 q.2

/-- How steps of three runs end, two apart and a joint one: the joint run agrees with each of the others on
all files that are not for the other one, or it ends with the fault of one of them. -/
inductive Joint {α β γ : Type} (S T : List Text → Prop) (Q : α → β → γ → Prop) :
    Step σ α → Step σ β → Step σ γ → Prop
  | returned {s t u : RunState σ} {a : α} {b : β} {c : γ} (h : Q a b c)
      (left : AgreeOn (fun names => ¬ T names) s.workspace.files u.workspace.files)
      (right : AgreeOn (fun names => ¬ S names) t.workspace.files u.workspace.files) :
      Joint S T Q (s, .ok a) (t, .ok b) (u, .ok c)
  | left {s u : RunState σ} {y : Step σ β} (f : RunFault) :
      Joint S T Q (s, .error f) y (u, .error f)
  | right {x : Step σ α} {t u : RunState σ} (f : RunFault) :
      Joint S T Q x (t, .error f) (u, .error f)

theorem Joint.symm {α β γ : Type} {Q : α → β → γ → Prop} {P : β → α → γ → Prop}
    {x : Step σ α} {y : Step σ β} {z : Step σ γ} (h : Joint S T Q x y z)
    (hQ : ∀ a b c, Q a b c → P b a c) : Joint T S P y x z := by
  cases h with
  | returned h left right => exact .returned (hQ _ _ _ h) right left
  | left f => exact .right f
  | right f => exact .left f

/-- The joint run and the first one take the same step, and the other run waits. -/
theorem allByRule_cons_joint (hrules : r.rules = Rule.builtinRegistry)
    (hapart : ∀ names, S names → ¬ T names) {c l : Cluster} (hsame : c.Same l)
    {cs ds ls : List Cluster} {s t u : RunState σ}
    (left : AgreeOn (fun names => ¬ T names) s.workspace.files u.workspace.files)
    (right : AgreeOn (fun names => ¬ S names) t.workspace.files u.workspace.files)
    (hin : r.Stays S s.workspace.files c)
    (hrest : ∀ s' u' : RunState σ, s.workspace.files.SameNames s'.workspace.files →
      AgreeOn (fun names => ¬ T names) s'.workspace.files u'.workspace.files →
      AgreeOn (fun names => ¬ S names) t.workspace.files u'.workspace.files →
      Joint S T (Interleaving SameSorted) (r.allByRule cs s') (r.allByRule ds t)
        (r.allByRule ls u')) :
    Joint S T (Interleaving SameSorted) (r.allByRule (c :: cs) s) (r.allByRule ds t)
      (r.allByRule (l :: ls) u) := by
  -- The step only has to do with files that are not for the other run, and there the two runs agree.
  have hagree : AgreeOn S s.workspace.files u.workspace.files :=
    ⟨left.sameNames, fun names hn => left.content names (hapart names hn)⟩
  have hone := byRule_parallel hrules hsame hagree hin
  rw [allByRule, allByRule]
  cases hs : r.byRule c s with
  | mk s1 a =>
    cases hu : r.byRule l u with
    | mk u1 b =>
      rw [hs, hu] at hone
      obtain ⟨hresult, hagree1, hleft, hright⟩ := hone
      cases hresult with
      | error f => exact .left f
      | @ok o o' ho =>
        have left1 := left.of_confined hagree1 hleft hright
        have right1 := right.trans_confined hright
        have htail := hrest s1 u1 hleft.sameNames left1 right1
        simp only
        revert htail
        cases r.allByRule cs s1 with
        | mk s2 ps =>
          cases r.allByRule ds t with
          | mk t2 qs =>
            cases r.allByRule ls u1 with
            | mk u2 ls2 =>
              intro htail
              cases htail with
              | returned h left2 right2 => exact .returned (.left ⟨hsame, ho⟩ h) left2 right2
              | left f => exact .left f
              | right f => exact .right f

/-- The rules on interleaved clusters of which the two parts stay in different files. -/
theorem allByRule_joint (hrules : r.rules = Rule.builtinRegistry)
    (hapart : ∀ names, S names → ¬ T names) {cs ds ls : List Cluster}
    (h : Interleaving Cluster.Same cs ds ls) {s t u : RunState σ}
    (left : AgreeOn (fun names => ¬ T names) s.workspace.files u.workspace.files)
    (right : AgreeOn (fun names => ¬ S names) t.workspace.files u.workspace.files)
    (hcs : ∀ c ∈ cs, r.Stays S s.workspace.files c) (hds : ∀ d ∈ ds, r.Stays T t.workspace.files d) :
    Joint S T (Interleaving SameSorted) (r.allByRule cs s) (r.allByRule ds t) (r.allByRule ls u) := by
  induction h generalizing s t u with
  | nil => exact .returned .nil left right
  | left hsame rest ih =>
    obtain ⟨hone, hrest⟩ := List.forall_mem_cons.1 hcs
    exact allByRule_cons_joint hrules hapart hsame left right hone fun s' u' hnames left' right' =>
      ih left' right' (fun c hc => (hrest c hc).of_sameNames hnames) hds
  | right hsame rest ih =>
    obtain ⟨hone, hrest⟩ := List.forall_mem_cons.1 hds
    -- The same step with the two sides exchanged.
    have hback : ∀ names, T names → ¬ S names := fun names ht hs => hapart names hs ht
    refine (allByRule_cons_joint hrules hback hsame right left hone
      fun t' u' hnames right' left' => ?_).symm fun _ _ _ h => h.symm
    exact (ih left' right' hcs fun d hd => (hrest d hd).of_sameNames hnames).symm fun _ _ _ h => h.symm

theorem closeAll_interleaving {ps qs sorted : List Sorted} (h : Interleaving SameSorted ps qs sorted) :
    Interleaving Outcome.Same (closeAll ps) (closeAll qs) (closeAll sorted) := by
  refine h.map _ _ ?_
  rintro ⟨c, o⟩ ⟨d, o'⟩ ⟨hsame, ho⟩
  cases ho with
  | none => exact Outcome.Same.withoutGenerator hsame
  | some ho => exact ho

theorem repair_joint (hrules : r.rules = Rule.builtinRegistry) (hoff : r.consults = false)
    {A B L : List Diagnostic} (h : Interleaving Eq A B L)
    (hkeys : ∀ a ∈ A, ∀ b ∈ B, PatternKey.ofMessage a.message ≠ PatternKey.ofMessage b.message)
    {s : RunState σ}
    (hfiles : ∀ names, r.Touches s.workspace.files A names → ¬ r.Touches s.workspace.files B names) :
    Joint (r.Touches s.workspace.files A) (r.Touches s.workspace.files B) Summary.Joins
      (r.repair A s) (r.repair B s) (r.repair L s) := by
  have hmem : ∀ {ds : List Diagnostic} {d : Diagnostic}, d ∈ r.settings.selected ds → d ∈ ds :=
    List.mem_of_mem_filter
  have hchosen : Interleaving Eq (r.settings.selected A) (r.settings.selected B)
      (r.settings.selected L) := h.filter _ _ fun _ _ e => by rw [e]
  have hclusters := Cluster.ofDiagnostics_interleaving hchosen fun a ha b hb =>
    hkeys a (hmem ha) b (hmem hb)
  have hstays : ∀ (ds : List Diagnostic), ∀ c ∈ Cluster.ofDiagnostics (r.settings.selected ds),
      r.Stays (r.Touches s.workspace.files ds) s.workspace.files c := fun ds c hc names ⟨d, hd, hn⟩ =>
    ⟨d, hmem (Cluster.mem_of_mem_instances hc hd), hn⟩
  obtain ⟨sA, -, hsA, hA⟩ := repair_eq r A s
  obtain ⟨sB, -, hsB, hB⟩ := repair_eq r B s
  obtain ⟨sL, -, hsL, hL⟩ := repair_eq r L s
  have hall := @allByRule_joint σ r _ _ hrules hfiles _ _ _ hclusters sA sB sL
    (by rw [hsA, hsL]; exact .refl _ _) (by rw [hsB, hsL]; exact .refl _ _)
    (by rw [hsA]; exact hstays A) (by rw [hsB]; exact hstays B)
  rw [hA, hB, hL]
  revert hall
  cases r.allByRule (Cluster.ofDiagnostics (r.settings.selected A)) sA with
  | mk s1 ps =>
    cases r.allByRule (Cluster.ofDiagnostics (r.settings.selected B)) sB with
    | mk t1 qs =>
      cases r.allByRule (Cluster.ofDiagnostics (r.settings.selected L)) sL with
      | mk u1 sorted =>
        intro hall
        cases hall with
        | left f => exact .left f
        | right f => exact .right f
        | returned hsorted left right =>
          simp only [resolveRest_of_not_consults hoff]
          exact .returned (Summary.joins_ofOutcomes (closeAll_interleaving hsorted) hchosen.length_eq)
            left right

theorem run_joint (hrules : r.rules = Rule.builtinRegistry) (hoff : r.consults = false)
    {A B L : List Diagnostic} (h : Interleaving Eq A B L)
    (hkeys : ∀ a ∈ A, ∀ b ∈ B, PatternKey.ofMessage a.message ≠ PatternKey.ofMessage b.message)
    {s : RunState σ}
    (hfiles : ∀ names, r.Touches s.workspace.files A names → ¬ r.Touches s.workspace.files B names) :
    Joint (r.Touches s.workspace.files A) (r.Touches s.workspace.files B) Summary.Joins
      (r.run A s) (r.run B s) (r.run L s) := by
  have hrepair := repair_joint hrules hoff h hkeys hfiles
  unfold run
  revert hrepair
  cases r.repair A s with
  | mk s1 a =>
    cases r.repair B s with
    | mk t1 b =>
      cases r.repair L s with
      | mk u1 c =>
        intro hrepair
        cases hrepair with
        | left f => exact .left f
        | right f => exact .right f
        | returned hsums left right => exact .returned hsums left right

/-- Diagnostics that share no pattern key and whose paths lead to different files are repaired together as
they are apart. The joint run of an interleaving returns exactly where the two others do, and it does so for
regular diagnostics. Its outcomes are theirs under other numbers, and its sums are the sums of theirs. The
files that the second list does not touch end as in the first run, and those that the first list does not
touch end as in the second one. -/
theorem run_interleaving (hrules : r.rules = Rule.builtinRegistry) (hoff : r.consults = false)
    {A B L : List Diagnostic} (h : Interleaving Eq A B L)
    (hkeys : ∀ a ∈ A, ∀ b ∈ B, PatternKey.ofMessage a.message ≠ PatternKey.ofMessage b.message)
    {s : RunState σ}
    (hfiles : ∀ names, r.Touches s.workspace.files A names → ¬ r.Touches s.workspace.files B names) :
    ((∀ d ∈ L, d.IsRegular r.settings s.workspace.files) → ∃ s' m, r.run L s = (s', .ok m)) ∧
    ((∃ s' m, r.run L s = (s', .ok m)) ↔
      (∃ s' m, r.run A s = (s', .ok m)) ∧ ∃ s' m, r.run B s = (s', .ok m)) ∧
    ∀ sA mA sB mB sL mL, r.run A s = (sA, .ok mA) → r.run B s = (sB, .ok mB) →
      r.run L s = (sL, .ok mL) →
      Interleaving Outcome.Same mA.outcomes mB.outcomes mL.outcomes ∧
      mL.total = mA.total + mB.total ∧
      mL.patchesApplied = mA.patchesApplied + mB.patchesApplied ∧
      mL.errorsFixed = mA.errorsFixed + mB.errorsFixed ∧
      mL.remaining = mA.remaining + mB.remaining ∧
      mL.rolledBack = mA.rolledBack + mB.rolledBack ∧
      AgreeOn (fun names => ¬ r.Touches s.workspace.files B names)
        sA.workspace.files sL.workspace.files ∧
      AgreeOn (fun names => ¬ r.Touches s.workspace.files A names)
        sB.workspace.files sL.workspace.files := by
  have hjoint := run_joint hrules hoff h hkeys hfiles
  refine ⟨fun hreg => ?_, ⟨?_, ?_⟩, ?_⟩
  · exact exists_run_of_rest hrules hreg fun s1 sorted _ _ =>
      ⟨s1, _, resolveRest_of_not_consults hoff sorted s1⟩
  · rintro ⟨sL, mL, hL⟩
    rw [hL] at hjoint
    generalize hA : r.run A s = x at hjoint ⊢
    generalize hB : r.run B s = y at hjoint ⊢
    cases hjoint with
    | returned _ _ _ => exact ⟨⟨_, _, rfl⟩, _, _, rfl⟩
  · rintro ⟨⟨sA, mA, hA⟩, sB, mB, hB⟩
    rw [hA, hB] at hjoint
    generalize hL : r.run L s = z at hjoint ⊢
    cases hjoint with
    | returned _ _ _ => exact ⟨_, _, rfl⟩
  · intro sA mA sB mB sL mL hA hB hL
    rw [hA, hB, hL] at hjoint
    cases hjoint with
    | returned hsums left right =>
      exact ⟨hsums.outcomes, hsums.total, hsums.patchesApplied, hsums.errorsFixed, hsums.remaining,
        hsums.rolledBack, left, right⟩

/-- Two files that take turns. The rule finds no line to replace for the first diagnostic, the two others are
fixed, and the one on the second file changes nothing for the first file. -/
theorem run_interleaving_of_two_files :
    let r : Repair Unit := ⟨.default, Rule.builtinRegistry, none, fun _ => .ok []⟩
    let a : Diagnostic := ⟨"a.ts", 1, "HttpModule deprecated", .error, Nat.succ_pos _⟩
    let a' : Diagnostic := ⟨"/ws/a.ts", 2, "HttpModule has no exported member", .error, Nat.succ_pos _⟩
    let b : Diagnostic := ⟨"../ws/b.ts", 1, "rxjs has no exported member 'map'", .error, Nat.succ_pos _⟩
    let nameA : List Text := ["ws", "a.ts"]
    let nameB : List Text := ["ws", "b.ts"]
    let files : FileTree :=
      { files := [(nameA, Utf8.encode "x\nimport \x7b HttpModule \x7d from '@angular/http';\n"),
          (nameB, Utf8.encode "import 'rxjs/add/operator/map';\n")]
        home := ["ws"] }
    let s : RunState Unit := ⟨.start files, ()⟩
    ∃ sA mA sB mB sL mL, r.run [a, a'] s = (sA, .ok mA) ∧ r.run [b] s = (sB, .ok mB) ∧
      r.run [a, b, a'] s = (sL, .ok mL) ∧ mL.errorsFixed = 2 ∧
      sL.workspace.files.content? nameA = sA.workspace.files.content? nameA ∧
      sL.workspace.files.content? nameB = sB.workspace.files.content? nameB := by
  intro r a a' b nameA nameB files s
  have hfixed : ∀ {ds s' m n}, r.run ds s = (s', .ok m) →
      (r.run ds s).2.toOption.map Summary.errorsFixed = some n → m.errorsFixed = n := by
    intro ds s' m n hrun h
    rw [hrun] at h
    exact Option.some.inj h
  have hreg : ∀ d ∈ [a, b, a'], d.IsRegular r.settings files := fun d hd =>
    ⟨by revert d; decide, (FileTree.exists_probe_iff_isOk _ _).2 (by revert d; decide), by revert d; decide⟩
  have hplace : ∀ (ds : List Diagnostic) (there : List Text), (∀ d ∈ ds, (files.locate
      (Path.ofText (CodeContext.resolve r.settings d.file).text)).toOption = some there) →
      ∀ names, r.Touches files ds names → names = there := by
    rintro ds there hds names ⟨d, hd, hn, -⟩
    have hd' := hds d hd
    rw [hn] at hd'
    exact Option.some.inj hd'
  have hplaceA := hplace [a, a'] nameA (by decide +kernel)
  have hplaceB := hplace [b] nameB (by decide +kernel)
  have hapart : nameA ≠ nameB := by decide
  obtain ⟨hreturns, hiff, hall⟩ := run_interleaving (r := r) (s := s) rfl rfl
    (.left rfl (.right rfl (.left rfl .nil)) : Interleaving Eq [a, a'] [b] [a, b, a'])
    (by decide +kernel) fun names ha hb => hapart ((hplaceA names ha).symm.trans (hplaceB names hb))
  obtain ⟨sL, mL, hL⟩ := hreturns hreg
  obtain ⟨⟨sA, mA, hA⟩, sB, mB, hB⟩ := hiff.1 ⟨sL, mL, hL⟩
  have hfixedA : mA.errorsFixed = 1 := hfixed hA (by decide +kernel)
  have hfixedB : mB.errorsFixed = 1 := hfixed hB (by decide +kernel)
  obtain ⟨-, -, -, hsum, -, -, hleft, hright⟩ := hall _ _ _ _ _ _ hA hB hL
  refine ⟨sA, mA, sB, mB, sL, mL, hA, hB, hL, by omega, ?_, ?_⟩
  · exact (hleft.content _ fun ht => hapart (hplaceB _ ht)).symm
  · exact (hright.content _ fun ht => hapart (hplaceA _ ht).symm).symm

end Repair

end Mend
