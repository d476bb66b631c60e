import Mend.Proofs.Engine.Frame
import Mend.Proofs.Run.Routing
import Mend.Proofs.RuleBatch

/-!
# What a run writes

A run changes files only where it settles an outcome: whatever relation between trees of files each settling
keeps, the run keeps, also where it does not return (`Repair.files_run`). While patches are only proposed,
no file changes. Otherwise each file that changed is one that a patch of an outcome with a batch is for
(`Repair.run_writes`).
-/

namespace Mend

open FileTree (Confined)

theorem FileTree.Confined.mono {S T : List Text → Prop} {t u : FileTree} (h : Confined S t u)
    (hsub : ∀ names, S names → T names) : Confined T t u :=
  ⟨h.sameNames, fun names hn => h.content names fun hs => hn (hsub names hs)⟩

theorem FileTree.Confined.of_eq {S : List Text → Prop} {t u : FileTree} (h : u = t) : Confined S t u := by
  rw [h]
  exact .refl S t

namespace Outcome

/-- Whether the batch of an outcome, if it has one, may write the file with some names: a patch of the outcome
is for this file. -/
def MayWrite (settings : Settings.Run) (t : FileTree) (o : Outcome) (names : List Text) : Prop :=
  o.batch.isSome = true ∧
    ∃ p ∈ o.patches, t.LeadsTo (Path.ofText (CodeContext.resolve settings p.file).text) names

/-- Whether the patches of an outcome are those of a rule, or generated ones that have a target. -/
def IsMade (rules : List Rule) (o : Outcome) : Prop :=
  (∃ rule ∈ rules, o.rule = some rule.id ∧ rule.fixes o.cluster = .ok o.patches) ∨
    (o.rule = none ∧ ∀ p ∈ o.patches, Response.hasTarget p = true)

end Outcome

namespace Repair

variable {σ : Type} {r : Repair σ} {g : Generator σ} {t : FileTree}

/-! ### Files change by settling only -/

section

variable {R : FileTree → FileTree → Prop}

theorem files_byRule (hrefl : ∀ t, R t t)
    (hsettle : ∀ o (s : RunState σ), R s.workspace.files (r.settle o s).1.workspace.files)
    (c : Cluster) (s : RunState σ) : R s.workspace.files (r.byRule c s).1.workspace.files := by
  have hend := r.ruleTurn c s
  generalize r.byRule c s = result at hend
  cases hend with
  | raised noted => exact noted.files ▸ hrefl _
  | left noted nothing => exact noted.files ▸ hrefl _
  | fixed noted mem fixes made some_patch => exact noted.files ▸ hsettle _ _

theorem files_byGenerator (hrefl : ∀ t, R t t)
    (hsettle : ∀ o (s : RunState σ), R s.workspace.files (r.settle o s).1.workspace.files)
    (c : Cluster) (s : RunState σ) : R s.workspace.files (r.byGenerator g c s).1.workspace.files := by
  have hend := r.consultation g c s
  generalize r.byGenerator g c s = result at hend
  cases hend with
  | unread noted => exact noted.files ▸ hrefl _
  | @interrupted s1 q noted about f =>
    have hfiles := (ask_spec g q s1).1.trans noted.files
    exact hfiles ▸ hrefl _
  | @unused s1 s2 q noted about later error =>
    have hfiles := later.files.trans ((ask_spec g q s1).1.trans noted.files)
    exact hfiles ▸ hrefl _
  | @used s1 s2 q noted about later ps targets =>
    have hfiles := later.files.trans ((ask_spec g q s1).1.trans noted.files)
    exact hfiles ▸ hsettle _ _

theorem files_allByRule (hrefl : ∀ t, R t t) (htrans : ∀ {t u v}, R t u → R u v → R t v)
    (hsettle : ∀ o (s : RunState σ), R s.workspace.files (r.settle o s).1.workspace.files)
    (cs : List Cluster) (s : RunState σ) : R s.workspace.files (r.allByRule cs s).1.workspace.files := by
  induction cs generalizing s with
  | nil => exact hrefl _
  | cons c cs ih =>
    have hone := files_byRule hrefl hsettle c s
    unfold allByRule
    cases hrule : r.byRule c s with
    | mk s1 found =>
      rw [hrule] at hone
      cases found with
      | error f => exact hone
      | ok found =>
        have hboth := htrans hone (ih s1)
        simp only
        cases hall : r.allByRule cs s1 with
        | mk s2 rest =>
          rw [hall] at hboth
          cases rest with
          | error f => exact hboth
          | ok rest => exact hboth

theorem files_allByGenerator (hrefl : ∀ t, R t t) (htrans : ∀ {t u v}, R t u → R u v → R t v)
    (hsettle : ∀ o (s : RunState σ), R s.workspace.files (r.settle o s).1.workspace.files)
    (budget excess : Int) (calls : Nat) (reported : Bool) (sorted : List Sorted) (s : RunState σ) :
    R s.workspace.files
      (r.allByGenerator g budget excess calls reported sorted s).1.workspace.files := by
  induction sorted generalizing calls reported s with
  | nil =>
    unfold allByGenerator
    exact hrefl _
  | cons p sorted ih =>
    obtain ⟨c, found⟩ := p
    cases found with
    | some o =>
      have hrest := ih calls reported s
      unfold allByGenerator
      cases hall : r.allByGenerator g budget excess calls reported sorted s with
      | mk s1 os =>
        rw [hall] at hrest
        cases os with
        | error f => exact hrest
        | ok os => exact hrest
    | none =>
      unfold allByGenerator
      by_cases hspent : budget ≤ calls
      · have hnoted : (if reported then s else s.note (.budgetExhausted budget excess)).workspace.files =
            s.workspace.files := by
          split
          · rfl
          · rfl
        have hrest := ih calls true (if reported then s else s.note (.budgetExhausted budget excess))
        rw [hnoted] at hrest
        simp only [if_pos hspent]
        cases hall : r.allByGenerator g budget excess calls true sorted
            (if reported then s else s.note (.budgetExhausted budget excess)) with
        | mk s1 os =>
          rw [hall] at hrest
          cases os with
          | error f => exact hrest
          | ok os => exact hrest
      · have hone := files_byGenerator (g := g) hrefl hsettle c s
        simp only [if_neg hspent]
        cases hask : r.byGenerator g c s with
        | mk s1 o =>
          rw [hask] at hone
          cases o with
          | error f => exact hone
          | ok o =>
            have hboth := htrans hone (ih (calls + 1) reported s1)
            simp only
            cases hall : r.allByGenerator g budget excess (calls + 1) reported sorted s1 with
            | mk s2 os =>
              rw [hall] at hboth
              cases os with
              | error f => exact hboth
              | ok os => exact hboth

theorem files_resolveRest (hrefl : ∀ t, R t t) (htrans : ∀ {t u v}, R t u → R u v → R t v)
    (hsettle : ∀ o (s : RunState σ), R s.workspace.files (r.settle o s).1.workspace.files)
    (sorted : List Sorted) (s : RunState σ) :
    R s.workspace.files (r.resolveRest sorted s).1.workspace.files := by
  rcases r.resolveRest_cases sorted s with ⟨g, -, -, heq⟩ | ⟨-, heq⟩
  · rw [heq]
    exact files_allByGenerator hrefl htrans hsettle _ _ _ _ _ _
  · rw [heq]
    exact hrefl _

/-- What the settling of every outcome keeps between two trees of files, a run keeps, whatever its result. -/
theorem files_run (hrefl : ∀ t, R t t) (htrans : ∀ {t u v}, R t u → R u v → R t v)
    (hsettle : ∀ o (s : RunState σ), R s.workspace.files (r.settle o s).1.workspace.files)
    (ds : List Diagnostic) (s : RunState σ) :
    R s.workspace.files (r.run ds s).1.workspace.files := by
  have hend := r.course ds s
  have hrules := files_allByRule hrefl htrans hsettle
    (Cluster.ofDiagnostics (r.settings.selected ds))
  generalize r.run ds s = result at hend
  cases hend with
  | @raisedByRules s1 s2 s' f noted rules later =>
    have hpass := hrules s1
    rw [rules] at hpass
    rw [← noted.files, later.files]
    exact hpass
  | @raisedInRest s1 s2 s3 s' sorted f noted rules rest later =>
    have hpass := hrules s1
    have hrest := files_resolveRest hrefl htrans hsettle sorted s2
    rw [rules] at hpass
    rw [rest] at hrest
    rw [← noted.files, later.files]
    exact htrans hpass hrest
  | @finished s1 s2 s3 s' sorted os noted rules rest later =>
    have hpass := hrules s1
    have hrest := files_resolveRest hrefl htrans hsettle sorted s2
    rw [rules] at hpass
    rw [rest] at hrest
    rw [← noted.files, later.files]
    exact htrans hpass hrest

end

/-- Where patches are only proposed, a run leaves the files as they are, also where it does not return. -/
theorem files_run_of_proposed (hoff : r.settings.autoApply = false) (ds : List Diagnostic)
    (s : RunState σ) : (r.run ds s).1.workspace.files = s.workspace.files := by
  refine (files_run (R := Eq) (fun _ => rfl) Eq.trans (fun o s => ?_) ds s).symm
  have hend := r.settlement o s
  generalize r.settle o s = result at hend
  cases hend with
  | proposed off noted => exact noted.files.symm
  | unordered on => rfl
  | raised on items_eq run => simp [on] at hoff
  | batched on items_eq run => simp [on] at hoff

/-! ### The files of an outcome -/

theorem settle_writes {o o' : Outcome} {s s' : RunState σ} (hsame : t.SameNames s.workspace.files)
    (h : r.settle o s = (s', .ok o')) :
    Confined (o'.MayWrite r.settings t) s.workspace.files s'.workspace.files ∧
      o'.cluster = o.cluster ∧ o'.patches = o.patches ∧ o'.rule = o.rule := by
  have hend := r.settlement o s
  rw [h] at hend
  cases hend with
  | proposed off noted => exact ⟨Confined.of_eq noted.files, rfl, rfl, rfl⟩
  | @batched on items w b items_eq run =>
    obtain ⟨hperm, hplace⟩ := perm_of_itemsOf items_eq
    obtain ⟨hcluster, hpatches, hrule, hbatch⟩ : (batchOutcome o b).cluster = o.cluster ∧
        (batchOutcome o b).patches = o.patches ∧ (batchOutcome o b).rule = o.rule ∧
        (batchOutcome o b).batch.isSome = true := by
      rcases batchOutcome_cases o b with hb | ⟨error, hb⟩
      · rw [hb]
        exact ⟨rfl, rfl, rfl, rfl⟩
      · rw [hb]
        exact ⟨rfl, rfl, rfl, rfl⟩
    have hwithin : Engine.Within ((batchOutcome o b).MayWrite r.settings t) s.workspace.files items := by
      intro item hitem names hnames
      have hmem : item.patch ∈ o.patches := hperm.mem_iff.1 (List.mem_map_of_mem hitem)
      rw [hplace item hitem] at hnames
      exact ⟨hbatch, item.patch, hpatches ▸ hmem, (hsame.leadsTo _ names).2 hnames⟩
    have hbatch := Engine.applyBatch_parallel r.settings.strictValidation
      (.refl ((batchOutcome o b).MayWrite r.settings t) s.workspace.files) hwithin
    rw [run] at hbatch
    exact ⟨hbatch.left, hcluster, hpatches, hrule⟩

theorem byRule_writes {c : Cluster} {found : Option Outcome} {s s' : RunState σ}
    (hsame : t.SameNames s.workspace.files) (h : r.byRule c s = (s', .ok found)) :
    Confined (fun names => ∃ o, found = some o ∧ o.MayWrite r.settings t names)
        s.workspace.files s'.workspace.files ∧ ∀ o, found = some o → o.IsMade r.rules.rules := by
  have hend := r.ruleTurn c s
  rw [h] at hend
  generalize hres : (s', Except.ok found) = result at hend
  cases hend with
  | raised noted => cases hres
  | left noted nothing =>
    cases hres
    exact ⟨Confined.of_eq noted.files, by simp⟩
  | @fixed s1 rule ps noted mem fixes made some_patch =>
    cases hsettle : r.settle (ruleOutcome rule c ps) s1 with
    | mk s2 settled =>
      rw [hsettle] at hres
      cases settled with
      | error f => cases hres
      | ok o =>
        cases hres
        obtain ⟨hconfined, hcluster, hpatches, hrule⟩ :=
          settle_writes (t := t) (noted.files ▸ hsame) hsettle
        rw [noted.files] at hconfined
        refine ⟨hconfined.mono fun names hn => ⟨o, rfl, hn⟩, fun o' ho' => ?_⟩
        obtain rfl := Option.some.inj ho'
        exact .inl ⟨rule, mem, hrule, by rw [hpatches, hcluster]; exact made⟩

theorem byGenerator_writes {c : Cluster} {o : Outcome} {s s' : RunState σ}
    (hsame : t.SameNames s.workspace.files) (h : r.byGenerator g c s = (s', .ok o)) :
    Confined (o.MayWrite r.settings t) s.workspace.files s'.workspace.files ∧
      o.IsMade r.rules.rules := by
  have hend := r.consultation g c s
  rw [h] at hend
  generalize hres : (s', Except.ok o) = result at hend
  cases hend with
  | unread noted => cases hres
  | interrupted noted about => cases hres
  | @unused s1 s2 q noted about later error =>
    cases hres
    have hfiles := later.files.trans ((ask_spec g q s1).1.trans noted.files)
    exact ⟨Confined.of_eq hfiles, .inr ⟨rfl, List.forall_mem_nil _⟩⟩
  | @used s1 s2 q noted about later ps targets =>
    have hfiles := later.files.trans ((ask_spec g q s1).1.trans noted.files)
    obtain ⟨hconfined, -, hpatches, hrule⟩ := settle_writes (t := t) (hfiles ▸ hsame) hres.symm
    rw [hfiles] at hconfined
    exact ⟨hconfined, .inr ⟨hrule, by rw [hpatches]; exact targets⟩⟩

/-! ### The files of all outcomes -/

theorem allByRule_writes {cs : List Cluster} {sorted : List Sorted} {s s' : RunState σ}
    (hsame : t.SameNames s.workspace.files) (h : r.allByRule cs s = (s', .ok sorted)) :
    Confined (fun names => ∃ p ∈ sorted, ∃ o, p.2 = some o ∧ o.MayWrite r.settings t names)
        s.workspace.files s'.workspace.files ∧
      ∀ p ∈ sorted, ∀ o, p.2 = some o → o.IsMade r.rules.rules := by
  have hpass := rulePass h
  clear h
  induction hpass with
  | nil s => exact ⟨.refl _ _, List.forall_mem_nil _⟩
  | @cons c cs found sorted s s1 s' turn later ih =>
    obtain ⟨hfirst, hmade⟩ := byRule_writes hsame turn
    obtain ⟨hlater, hall⟩ := ih (hsame.trans hfirst.sameNames)
    refine ⟨(hfirst.mono ?_).trans (hlater.mono ?_), List.forall_mem_cons.2 ⟨hmade, hall⟩⟩
    · exact fun names hn => ⟨(c, found), List.mem_cons_self, hn⟩
    · rintro names ⟨p, hp, hn⟩
      exact ⟨p, List.mem_cons_of_mem _ hp, hn⟩

theorem mem_of_keeps {sorted : List Sorted} {os : List Outcome} (h : List.Forall₂ Keeps sorted os)
    {p : Sorted} {o : Outcome} (hp : p ∈ sorted) (ho : p.2 = some o) : o ∈ os := by
  induction h with
  | nil => cases hp
  | cons hkeep _ ih =>
    rcases List.mem_cons.1 hp with rfl | hp
    · rw [hkeep o ho]
      exact List.mem_cons_self
    · exact List.mem_cons_of_mem _ (ih hp)

theorem allByGenerator_writes {budget excess : Int} {calls : Nat} {reported : Bool} {sorted : List Sorted}
    {os : List Outcome} {s s' : RunState σ} (hsame : t.SameNames s.workspace.files)
    (hsorted : ∀ p ∈ sorted, ∀ o, p.2 = some o → o.IsMade r.rules.rules)
    (h : r.allByGenerator g budget excess calls reported sorted s = (s', .ok os)) :
    Confined (fun names => ∃ o ∈ os, o.MayWrite r.settings t names)
        s.workspace.files s'.workspace.files ∧ ∀ o ∈ os, o.IsMade r.rules.rules := by
  have hpass := generatorPass h
  clear h
  -- what the other outcomes may write, all of them may
  have hmono : ∀ (o : Outcome) (os : List Outcome) names, (∃ o' ∈ os, o'.MayWrite r.settings t names) →
      ∃ o' ∈ o :: os, o'.MayWrite r.settings t names := by
    rintro o os names ⟨o', ho', hn⟩
    exact ⟨o', List.mem_cons_of_mem _ ho', hn⟩
  induction hpass with
  | nil calls reported s => exact ⟨.refl _ _, List.forall_mem_nil _⟩
  | @kept calls reported c o sorted os s s' later ih =>
    obtain ⟨hfound, hrest⟩ := List.forall_mem_cons.1 hsorted
    obtain ⟨hlater, hall⟩ := ih hsame hrest
    exact ⟨hlater.mono (hmono o os), List.forall_mem_cons.2 ⟨hfound o rfl, hall⟩⟩
  | @skipped calls reported c sorted os s s' spent later ih =>
    have hfiles : (if reported then s else s.note (.budgetExhausted budget excess)).workspace.files =
        s.workspace.files := by
      split
      · rfl
      · rfl
    obtain ⟨hlater, hall⟩ := ih (hfiles ▸ hsame) (List.forall_mem_cons.1 hsorted).2
    rw [hfiles] at hlater
    exact ⟨hlater.mono (hmono _ os),
      List.forall_mem_cons.2 ⟨.inr ⟨rfl, List.forall_mem_nil _⟩, hall⟩⟩
  | @asked calls reported c o sorted os s s1 s' left turn later ih =>
    obtain ⟨hfirst, hmade⟩ := byGenerator_writes hsame turn
    obtain ⟨hlater, hall⟩ := ih (hsame.trans hfirst.sameNames) (List.forall_mem_cons.1 hsorted).2
    refine ⟨(hfirst.mono ?_).trans (hlater.mono (hmono o os)), List.forall_mem_cons.2 ⟨hmade, hall⟩⟩
    exact fun names hn => ⟨o, List.mem_cons_self, hn⟩

theorem resolveRest_writes {sorted : List Sorted} {os : List Outcome} {s s' : RunState σ}
    (hsame : t.SameNames s.workspace.files)
    (hsorted : ∀ p ∈ sorted, ∀ o, p.2 = some o → o.IsMade r.rules.rules)
    (h : r.resolveRest sorted s = (s', .ok os)) :
    Confined (fun names => ∃ o ∈ os, o.MayWrite r.settings t names)
        s.workspace.files s'.workspace.files ∧ ∀ o ∈ os, o.IsMade r.rules.rules := by
  rcases r.resolveRest_cases sorted s with ⟨g, -, -, heq⟩ | ⟨-, heq⟩
  · rw [heq] at h
    exact allByGenerator_writes hsame hsorted h
  · rw [heq] at h
    obtain ⟨rfl, rfl⟩ : s = s' ∧ closeAll sorted = os := by simpa using h
    refine ⟨.refl _ _, fun o ho => ?_⟩
    obtain ⟨⟨c, found⟩, hp, rfl⟩ := List.mem_map.1 ho
    cases found with
    | none => exact .inr ⟨rfl, List.forall_mem_nil _⟩
    | some o => exact hsorted _ hp o rfl

theorem resolveRest_keeps {sorted : List Sorted} {os : List Outcome} {s s' : RunState σ}
    (hsorted : ∀ p ∈ sorted, ∀ o, p.2 = some o → o.resolution = .rule ∨ o.resolution = .failed)
    (h : r.resolveRest sorted s = (s', .ok os)) : List.Forall₂ Keeps sorted os := by
  rcases r.resolveRest_cases sorted s with ⟨g, -, -, heq⟩ | ⟨-, heq⟩
  · rw [heq] at h
    obtain ⟨-, -, -, hkeeps⟩ := allByGenerator_routes hsorted h
    exact hkeeps
  · rw [heq] at h
    obtain ⟨-, rfl⟩ : s = s' ∧ closeAll sorted = os := by simpa using h
    exact (closeAll_routes hsorted).2

/-! ### The run -/

theorem run_writes_of_ok {ds : List Diagnostic} {s s' : RunState σ} {m : Summary}
    (h : r.run ds s = (s', .ok m)) :
    Confined (fun names => ∃ o ∈ m.outcomes, o.MayWrite r.settings s.workspace.files names)
        s.workspace.files s'.workspace.files ∧ ∀ o ∈ m.outcomes, o.IsMade r.rules.rules := by
  have hcourse := r.course ds s
  rw [h] at hcourse
  cases hcourse with
  | @finished s1 s2 s3 _ sorted os noted rules rest later =>
    have hsame : s.workspace.files.SameNames s1.workspace.files := by
      rw [noted.files]
      exact .refl _
    obtain ⟨hpass, hmade⟩ := allByRule_writes hsame rules
    obtain ⟨hlater, hall⟩ := resolveRest_writes (hsame.trans hpass.sameNames) hmade rest
    have hkeeps := resolveRest_keeps (resolution_of_routed (allByRule_routes rules).2) rest
    rw [noted.files] at hpass
    rw [← later.files] at hlater
    refine ⟨(hpass.mono ?_).trans hlater, hall⟩
    rintro names ⟨p, hp, o, ho, hn⟩
    exact ⟨o, mem_of_keeps hkeeps hp ho, hn⟩

/-- What a run writes. Where patches are only proposed, no file changes, whatever the run comes to, and the
summary says that nothing was applied. Otherwise, in a run that returns, each file that has changed is one that
a patch of an outcome with a batch is for. The patches of an outcome are those that a rule makes for its
cluster, or generated ones that have a target. -/
theorem run_writes (r : Repair σ) (ds : List Diagnostic) (s : RunState σ) :
    (r.settings.autoApply = false →
      (r.run ds s).1.workspace.files = s.workspace.files ∧
      ∀ m, (r.run ds s).2 = .ok m → (∀ o ∈ m.outcomes, o.batch = none) ∧ m.patchesApplied = 0 ∧
        m.errorsFixed = 0 ∧ m.remaining = m.total) ∧
    (∀ m, (r.run ds s).2 = .ok m →
      s.workspace.files.SameNames (r.run ds s).1.workspace.files ∧
      (∀ names, (r.run ds s).1.workspace.files.content? names ≠ s.workspace.files.content? names →
        ∃ o ∈ m.outcomes, o.MayWrite r.settings s.workspace.files names) ∧
      ∀ o ∈ m.outcomes, o.IsMade r.rules.rules) := by
  refine ⟨fun hoff => ⟨files_run_of_proposed hoff ds s, fun m hm => ?_⟩, fun m hm => ?_⟩
  · have hrun : r.run ds s = ((r.run ds s).1, .ok m) := Prod.ext rfl hm
    obtain ⟨s1, hrepair⟩ := repair_of_run hrun
    obtain ⟨os, rfl, haccounts⟩ := repair_accounts hrepair
    have hnone : ∀ o ∈ os, o.batch = none := fun o ho =>
      ((map_cluster_of_accounts haccounts).2 o ho).proposed hoff
    have hnothing : os.filter Outcome.applied = [] :=
      List.filter_eq_nil_iff.2 fun o ho => by simp [Outcome.applied, hnone o ho]
    refine ⟨hnone, ?_, ?_, ?_⟩
    · simp [Summary.ofOutcomes, hnothing]
    · simp [Summary.ofOutcomes, hnothing, Outcome.fixedAmong]
    · simp [Summary.ofOutcomes, hnothing, Outcome.fixedAmong]
  · have hrun : r.run ds s = ((r.run ds s).1, .ok m) := Prod.ext rfl hm
    obtain ⟨hconfined, hmade⟩ := run_writes_of_ok hrun
    refine ⟨hconfined.sameNames, fun names hchanged => ?_, hmade⟩
    by_contra hnot
    exact hchanged (hconfined.content names hnot)

/-- The generator proposes a patch for a file and one for a file that is not known. The first one alone is an
outcome's patch and changes its file, and it does not if patches are only proposed. -/
theorem run_writes_of_unknown_file :
    let patch (file : Text) : Patch := ⟨"@@ -1,1 +1,1 @@\n-one\n+two\n", "fix", file, .generated⟩
    let g : Generator Unit :=
      ⟨"model", fun _ session => (session, .ok [patch "unknown", patch "a.ts"])⟩
    let root := Path.ofText "/ws"
    let r (autoApply : Bool) : Repair Unit :=
      ⟨{ Settings.Run.default with autoApply, workspaceRoot := root }, Rule.builtinRegistry, some g,
        fun _ => .ok []⟩
    let ds : List Diagnostic := [⟨"a.ts", 1, "no such name", .error, Nat.succ_pos _⟩]
    let s : RunState Unit := ⟨.start (FileTree.empty.put ["ws", "a.ts"] (Utf8.encode "one\n")), ()⟩
    ((r false).run ds s).1.workspace.files = s.workspace.files ∧
      ∃ m, ((r true).run ds s).2 = .ok m ∧
        ((r true).run ds s).1.workspace.files.text? ["ws", "a.ts"] = some "two\n" ∧
        (∃ o ∈ m.outcomes, o.MayWrite (r true).settings s.workspace.files ["ws", "a.ts"]) ∧
        ∀ o ∈ m.outcomes, o.rule = none → ∀ p ∈ o.patches, p.file ≠ "unknown" := by
  intro patch g root r ds s
  have hends : ((r true).run ds s).2.isOk = true := by decide +kernel
  have htext : ((r true).run ds s).1.workspace.files.text? ["ws", "a.ts"] = some "two\n" := by decide +kernel
  have hbefore : s.workspace.files.text? ["ws", "a.ts"] = some "one\n" := by decide +kernel
  refine ⟨((run_writes (r false) ds s).1 rfl).1, ?_⟩
  cases hm : ((r true).run ds s).2 with
  | error f =>
    rw [hm] at hends
    cases hends
  | ok m =>
    obtain ⟨-, hchanged, hmade⟩ := (run_writes (r true) ds s).2 m hm
    refine ⟨m, rfl, htext, hchanged ["ws", "a.ts"] fun hsame => ?_, fun o ho hnone p hp => ?_⟩
    · rw [FileTree.text?, hsame, ← FileTree.text?, hbefore] at htext
      exact absurd htext (by decide)
    · rcases hmade o ho with ⟨rule, -, hrule, -⟩ | ⟨-, htargets⟩
      · simp [hrule] at hnone
      · rintro hfile
        have htarget := htargets p hp
        rw [Response.hasTarget, hfile] at htarget
        exact absurd htarget (by decide)

end Repair

end Mend
