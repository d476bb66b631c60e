import Mend.Command
import Mend.Proofs.Cluster
import Mend.Proofs.Run.Steps

/-!
# The accounts of a run

Each cluster of a run has one outcome, and what the outcome says of its batch agrees with how it was
resolved (`Outcome.Accounted`). This is shown step by step, from the settling of one outcome up to the whole
run. An outcome never fixes more diagnostics than its cluster has, so that the sums of a summary balance
and nothing remains exactly where every outcome fixes its whole cluster (`run_accounts`).
-/

namespace Mend

namespace Engine

/-- A batch is rolled back exactly where it does not succeed. -/
theorem rolledBack_of_applyBatch {strict : Bool} {w w' : Workspace} {items : List Item}
    {b : BatchResult} (h : applyBatch strict w items = (w', .ok b)) : b.rolledBack = !b.success := by
  unfold applyBatch at h
  split at h
  · cases h
  · cases h
    rfl
  · unfold rollBack at h
    simp only at h
    split at h
    · cases h
    · cases h
      rfl

end Engine

namespace Outcome

/-! ### What an outcome says of itself -/

/-- Whether the batch of an outcome agrees with its resolution. Patches that are only proposed have no
batch, and a rule makes at most one patch for each diagnostic. -/
structure Accounted (autoApply : Bool) (o : Outcome) : Prop where
  proposed : autoApply = false → o.batch = none
  applied_iff : autoApply = true →
    (o.applied = true ↔ o.resolution = .rule ∨ o.resolution = .generated)
  rolledBack_iff : autoApply = true → (o.rolledBack = true ↔ o.resolution = .failed)
  patches_le : o.resolution = .rule → o.patches.length ≤ o.cluster.size

theorem accounted_of_nothing_made (autoApply : Bool) {o : Outcome} (hbatch : o.batch = none)
    (hres : o.resolution = .unresolved ∨ o.resolution = .skipped) : o.Accounted autoApply := by
  have happlied : o.applied = false := by rw [applied, hbatch]; rfl
  have hback : o.rolledBack = false := by rw [rolledBack, hbatch]; rfl
  rcases hres with h | h
  · exact ⟨fun _ => hbatch, fun _ => by simp [happlied, h], fun _ => by simp [hback, h], by simp [h]⟩
  · exact ⟨fun _ => hbatch, fun _ => by simp [happlied, h], fun _ => by simp [hback, h], by simp [h]⟩

/-! ### What an outcome fixes -/

/-- The number of diagnostics that an outcome fixes. -/
def gain (o : Outcome) : Nat := if o.applied then o.fixedCount else 0

/-- The number of patches that an outcome has brought into the files. -/
def appliedPatches (o : Outcome) : Nat := if o.applied then o.patches.length else 0

theorem fixedAmong_filter (os : List Outcome) :
    fixedAmong (os.filter applied) = (os.map gain).sum := by
  induction os with
  | nil => rfl
  | cons o os ih =>
    rw [List.map_cons, List.sum_cons, gain]
    by_cases ha : o.applied = true
    · rw [List.filter_cons_of_pos ha, fixedAmong, ih, if_pos ha]
    · rw [List.filter_cons_of_neg ha, ih, if_neg ha, Nat.zero_add]

theorem length_flatMap_filter (os : List Outcome) :
    ((os.filter applied).flatMap (·.patches)).length = (os.map appliedPatches).sum := by
  induction os with
  | nil => rfl
  | cons o os ih =>
    rw [List.map_cons, List.sum_cons, appliedPatches]
    by_cases ha : o.applied = true
    · rw [List.filter_cons_of_pos ha, List.flatMap_cons, List.length_append, ih, if_pos ha]
    · rw [List.filter_cons_of_neg ha, ih, if_neg ha, Nat.zero_add]

theorem gain_le_size (o : Outcome) : o.gain ≤ o.cluster.size := by
  have hpos := o.cluster.size_pos
  unfold gain fixedCount
  split
  · split
    · exact Nat.min_le_right _ _
    · exact hpos
  · exact Nat.zero_le _

/-- An outcome fixes its whole cluster exactly where it is applied, and its patches are one for each
diagnostic: the generator is only asked about the first one. -/
theorem gain_eq_size_iff {autoApply : Bool} {o : Outcome} (h : o.Accounted autoApply) :
    o.gain = o.cluster.size ↔ o.applied = true ∧
      (o.resolution = .rule → o.patches.length = o.cluster.size) ∧
      (o.resolution = .generated → o.cluster.size = 1) := by
  have hpos := o.cluster.size_pos
  unfold gain
  by_cases ha : o.applied = true
  · rw [if_pos ha]
    have hauto : autoApply = true := by
      by_contra hoff
      have hnone := h.proposed (by simpa using hoff)
      rw [applied, hnone] at ha
      cases ha
    rcases (h.applied_iff hauto).1 ha with hres | hres
    · have hle := h.patches_le hres
      simp only [fixedCount, hres, ha, true_and, forall_const, reduceCtorEq, false_implies, and_true]
      omega
    · simp only [fixedCount, hres, ha, true_and, forall_const, reduceCtorEq, false_implies]
      omega
  · rw [if_neg ha]
    constructor
    · intro hzero
      omega
    · exact fun hall => absurd hall.1 ha

theorem sum_gain_le (os : List Outcome) :
    (os.map gain).sum ≤ (os.map (·.cluster.size)).sum := by
  induction os with
  | nil => exact Nat.le_refl _
  | cons o os ih =>
    have hone := o.gain_le_size
    simp only [List.map_cons, List.sum_cons]
    omega

/-- All diagnostics are fixed exactly where each outcome fixes its whole cluster. -/
theorem sum_gain_eq_iff (os : List Outcome) :
    (os.map gain).sum = (os.map (·.cluster.size)).sum ↔ ∀ o ∈ os, o.gain = o.cluster.size := by
  induction os with
  | nil => simp
  | cons o os ih =>
    -- No summand is above its size, so that equal sums have equal summands.
    have hone := o.gain_le_size
    have hall := sum_gain_le os
    rw [List.forall_mem_cons, ← ih]
    simp only [List.map_cons, List.sum_cons]
    omega

/-- Every outcome has one of the five resolutions. -/
theorem countP_resolutions (os : List Outcome) :
    os.countP (fun o => o.resolution = .rule) + os.countP (fun o => o.resolution = .generated) +
      (os.countP (fun o => o.resolution = .unresolved) + os.countP (fun o => o.resolution = .failed) +
        os.countP (fun o => o.resolution = .skipped)) = os.length := by
  induction os with
  | nil => rfl
  | cons o os ih =>
    simp only [List.countP_cons, List.length_cons]
    cases o.resolution <;> simp <;> omega

end Outcome

namespace Repair

variable {σ : Type} {r : Repair σ}

/-! ### One cluster -/

/-- Whether an outcome is one of a cluster and agrees with itself. -/
def Accounts (r : Repair σ) (c : Cluster) (o : Outcome) : Prop :=
  o.cluster = c ∧ o.Accounted r.settings.autoApply

theorem accounts_of_nothing_made (r : Repair σ) {o : Outcome} (hbatch : o.batch = none)
    (hres : o.resolution = .unresolved ∨ o.resolution = .skipped) : r.Accounts o.cluster o :=
  ⟨rfl, Outcome.accounted_of_nothing_made _ hbatch hres⟩

theorem accounted_batchOutcome {o : Outcome} {b : Engine.BatchResult}
    (hback : b.rolledBack = !b.success)
    (hres : o.resolution = .rule ∨ o.resolution = .generated)
    (hle : o.resolution = .rule → o.patches.length ≤ o.cluster.size) :
    (batchOutcome o b).Accounted true := by
  unfold batchOutcome
  by_cases hb : b.success = true
  · rw [if_pos hb]
    refine ⟨by simp, fun _ => ?_, fun _ => ?_, hle⟩
    · simp [Outcome.applied, hb, hres]
    · rcases hres with hres | hres <;> simp [Outcome.rolledBack, hback, hb, hres]
  · rw [if_neg hb]
    exact ⟨by simp, fun _ => by simp [Outcome.applied, hb], fun _ => by simp [Outcome.rolledBack, hback, hb],
      by simp⟩

theorem settle_accounts {o o' : Outcome} {s s' : RunState σ} (h : r.settle o s = (s', .ok o'))
    (hbatch : o.batch = none) (hres : o.resolution = .rule ∨ o.resolution = .generated)
    (hle : o.resolution = .rule → o.patches.length ≤ o.cluster.size) : r.Accounts o.cluster o' := by
  unfold settle at h
  by_cases hauto : r.settings.autoApply = true
  · simp only [hauto, Bool.not_true, Bool.false_eq_true, if_false] at h
    split at h
    · cases h
    · split at h
      · cases h
      · next w b hrun =>
        obtain ⟨-, rfl⟩ : _ ∧ batchOutcome o b = o' := by simpa using h
        refine ⟨?_, ?_⟩
        · unfold batchOutcome
          split <;> rfl
        · rw [hauto]
          exact accounted_batchOutcome (Engine.rolledBack_of_applyBatch hrun) hres hle
  · have hoff : r.settings.autoApply = false := by simpa using hauto
    simp only [hoff, Bool.not_false, if_true] at h
    obtain ⟨-, rfl⟩ : _ ∧ o = o' := by simpa using h
    exact ⟨rfl, fun _ => hbatch, by simp [hoff], by simp [hoff], hle⟩

theorem length_fixes_le {rule : Rule} {c : Cluster} {ps : List Patch} (h : rule.fixes c = .ok ps) :
    ps.length ≤ c.size := by
  obtain ⟨-, rfl⟩ := Rule.fixes_eq_ok_iff.1 h
  exact List.length_filterMap_le _ _

theorem byRule_accounts {c : Cluster} {o : Outcome} {s s' : RunState σ}
    (h : r.byRule c s = (s', .ok (some o))) : r.Accounts c o := by
  unfold byRule at h
  split at h
  · cases h
  · simp at h
  · simp only at h
    split at h
    · cases h
    · next hmade =>
      split at h
      · simp at h
      · split at h
        · next hsettle =>
          obtain ⟨rfl, rfl⟩ : _ ∧ _ := by simpa using h
          exact settle_accounts hsettle rfl (.inl rfl) fun _ => length_fixes_le hmade
        · cases h

theorem useProposals_accounts {c : Cluster} {candidates : List Patch} {o : Outcome}
    {s s' : RunState σ} (h : r.useProposals c candidates s = (s', .ok o)) : r.Accounts c o := by
  unfold useProposals at h
  simp only at h
  split at h
  · obtain ⟨-, rfl⟩ : _ ∧ _ := by simpa using h
    exact r.accounts_of_nothing_made rfl (.inl rfl)
  · exact settle_accounts h rfl (.inr rfl) (by simp)

theorem byGenerator_accounts {g : Generator σ} {c : Cluster} {o : Outcome} {s s' : RunState σ}
    (h : r.byGenerator g c s = (s', .ok o)) : r.Accounts c o := by
  unfold byGenerator at h
  split at h
  · cases h
  · simp only at h
    split at h
    · exact useProposals_accounts h
    · cases h
    · obtain ⟨-, rfl⟩ : _ ∧ _ := by simpa using h
      exact r.accounts_of_nothing_made rfl (.inl rfl)

/-! ### All clusters -/

/-- Whether a cluster went through the rules: an outcome that they made accounts for it. -/
def AccountsSorted (r : Repair σ) (c : Cluster) (p : Sorted) : Prop :=
  p.1 = c ∧ ∀ o, p.2 = some o → r.Accounts c o

theorem allByRule_accounts {cs : List Cluster} {sorted : List Sorted} {s s' : RunState σ}
    (h : r.allByRule cs s = (s', .ok sorted)) : List.Forall₂ r.AccountsSorted cs sorted := by
  have hpass := rulePass h
  clear h
  induction hpass with
  | nil s => exact .nil
  | cons turn later ih =>
    refine .cons ⟨rfl, fun o ho => ?_⟩ ih
    obtain rfl := ho
    exact byRule_accounts turn

theorem allByGenerator_accounts {g : Generator σ} {budget excess : Int} {calls : Nat}
    {reported : Bool} {cs : List Cluster} {sorted : List Sorted} {os : List Outcome}
    {s s' : RunState σ} (hsorted : List.Forall₂ r.AccountsSorted cs sorted)
    (h : r.allByGenerator g budget excess calls reported sorted s = (s', .ok os)) :
    List.Forall₂ r.Accounts cs os := by
  have hpass := generatorPass h
  clear h
  induction hpass generalizing cs with
  | nil calls reported s =>
    cases hsorted
    exact .nil
  | kept later ih =>
    cases hsorted with
    | cons hp hrest =>
      obtain ⟨rfl, hfound⟩ := hp
      exact .cons (hfound _ rfl) (ih hrest)
  | skipped spent later ih =>
    cases hsorted with
    | cons hp hrest =>
      obtain ⟨rfl, -⟩ := hp
      exact .cons (r.accounts_of_nothing_made rfl (.inr rfl)) (ih hrest)
  | asked left turn later ih =>
    cases hsorted with
    | cons hp hrest =>
      obtain ⟨rfl, -⟩ := hp
      exact .cons (byGenerator_accounts turn) (ih hrest)

theorem closeAll_accounts {cs : List Cluster} {sorted : List Sorted}
    (hsorted : List.Forall₂ r.AccountsSorted cs sorted) :
    List.Forall₂ r.Accounts cs (closeAll sorted) := by
  induction hsorted with
  | nil => exact .nil
  | @cons c p cs sorted hp hrest ih =>
    obtain ⟨c2, found⟩ := p
    obtain ⟨rfl, hfound⟩ := hp
    refine .cons ?_ ih
    cases found with
    | some o => exact hfound o rfl
    | none => exact r.accounts_of_nothing_made rfl (.inl rfl)

theorem resolveRest_accounts {cs : List Cluster} {sorted : List Sorted} {os : List Outcome}
    {s s' : RunState σ} (hsorted : List.Forall₂ r.AccountsSorted cs sorted)
    (h : r.resolveRest sorted s = (s', .ok os)) : List.Forall₂ r.Accounts cs os := by
  unfold resolveRest at h
  split at h
  · split at h
    · exact allByGenerator_accounts hsorted h
    · obtain ⟨-, rfl⟩ : _ ∧ closeAll sorted = os := by simpa using h
      exact closeAll_accounts hsorted
  · obtain ⟨-, rfl⟩ : _ ∧ closeAll sorted = os := by simpa using h
    exact closeAll_accounts hsorted

/-! ### The run -/

theorem repair_of_run {ds : List Diagnostic} {s s' : RunState σ} {m : Summary}
    (h : r.run ds s = (s', .ok m)) : ∃ s1, r.repair ds s = (s1, .ok m) := by
  unfold run at h
  simp only at h
  split at h
  · cases h
  · next s1 summary hrepair =>
    obtain ⟨-, rfl⟩ : _ ∧ summary = m := by simpa using h
    exact ⟨s1, hrepair⟩

/-- A run that returns has an account for each cluster, and its summary is that of these outcomes. -/
theorem repair_accounts {ds : List Diagnostic} {s s' : RunState σ} {m : Summary}
    (h : r.repair ds s = (s', .ok m)) :
    ∃ os, m = .ofOutcomes (r.settings.selected ds).length os ∧
      List.Forall₂ r.Accounts (Cluster.ofDiagnostics (r.settings.selected ds)) os := by
  unfold repair at h
  simp only at h
  split at h
  · cases h
  · next s1 sorted hrules =>
    split at h
    · cases h
    · next s2 os hrest =>
      obtain ⟨-, rfl⟩ : _ ∧ _ := by simpa using h
      exact ⟨os, rfl, resolveRest_accounts (allByRule_accounts hrules) hrest⟩

theorem map_cluster_of_accounts {cs : List Cluster} {os : List Outcome}
    (h : List.Forall₂ r.Accounts cs os) :
    os.map (·.cluster) = cs ∧ ∀ o ∈ os, o.Accounted r.settings.autoApply := by
  induction h with
  | nil => exact ⟨rfl, fun _ ho => absurd ho List.not_mem_nil⟩
  | cons hone _ ih => exact ⟨by rw [List.map_cons, hone.1, ih.1], List.forall_mem_cons.2 ⟨hone.2, ih.2⟩⟩

theorem code_of_run {ds : List Diagnostic} {s s' : RunState σ} {m : Summary}
    (h : r.run ds s = (s', .ok m)) (opts : Options) {remains : Bool}
    (hend : (Command.repair r s.generator opts ds s.workspace).remains = .ok remains) :
    (Command.repair r s.generator opts ds s.workspace).code = 0 ↔ m.remaining = 0 := by
  have hrun : r.run ds ⟨s.workspace, s.generator⟩ = (s', .ok m) := h
  have hleft : remains = (m.remaining != 0) := by
    unfold Command.repair at hend
    rw [hrun] at hend
    have hrest := Command.remains_of_printThen hend
    split at hrest
    · cases hrest
    · exact (Except.ok.inj hrest).symm
  unfold Command.Ended.code
  rw [hend, hleft]
  by_cases hzero : m.remaining = 0
  · simp [hzero]
  · have hmore : (m.remaining != 0) = true := by simpa using hzero
    simp [hmore, hzero]

/-- The accounts of a run that returns. Each cluster has one outcome, in the order of the clusters, and each
of these is counted once in the sums. What was fixed and what remains make up all diagnostics. Where
patches are applied, an outcome is applied exactly if it was resolved and rolled back exactly if it
failed. Nothing remains, and the exit code is 0, exactly where each cluster is applied with a patch for
each diagnostic; the generator makes patches for the first one only. -/
theorem run_accounts {ds : List Diagnostic} {s s' : RunState σ} {m : Summary}
    (h : r.run ds s = (s', .ok m)) :
    let clusters := Cluster.ofDiagnostics (r.settings.selected ds)
    m.outcomes.map (·.cluster) = clusters ∧
    m.total = (r.settings.selected ds).length ∧ ((clusters.map (·.size)).sum : Nat) = m.total ∧
    m.count .rule + m.count .generated + m.unresolved = clusters.length ∧
    m.errorsFixed + m.remaining = m.total ∧ 0 ≤ m.errorsFixed ∧ 0 ≤ m.remaining ∧
    m.patchesApplied = ((m.outcomes.filter Outcome.applied).map (·.patches.length)).sum ∧
    (r.settings.autoApply = true →
      (∀ o ∈ m.outcomes, o.applied = true ↔ o.resolution = .rule ∨ o.resolution = .generated) ∧
      m.rolledBack = m.count .failed) ∧
    (m.remaining = 0 ↔ ∀ o ∈ m.outcomes, o.applied = true ∧
      (o.resolution = .rule → o.patches.length = o.cluster.size) ∧
      (o.resolution = .generated → o.cluster.size = 1)) ∧
    ∀ opts remains, (Command.repair r s.generator opts ds s.workspace).remains = .ok remains →
      ((Command.repair r s.generator opts ds s.workspace).code = 0 ↔ m.remaining = 0) := by
  obtain ⟨s1, hrepair⟩ := repair_of_run h
  obtain ⟨os, rfl, haccounts⟩ := repair_accounts hrepair
  obtain ⟨hclusters, hall⟩ := map_cluster_of_accounts haccounts
  have hsizes := Cluster.sum_size_ofDiagnostics (r.settings.selected ds)
  have hsum : (os.map (·.cluster.size)).sum = (r.settings.selected ds).length := by
    rw [← hsizes, ← hclusters, List.map_map]
    rfl
  have hgain := Outcome.sum_gain_le os
  have hfixed : (Summary.ofOutcomes (r.settings.selected ds).length os).errorsFixed =
      ((os.map Outcome.gain).sum : Nat) := by
    rw [Summary.ofOutcomes, Outcome.fixedAmong_filter]
  have hremain : (Summary.ofOutcomes (r.settings.selected ds).length os).remaining =
      (r.settings.selected ds).length - ((os.map Outcome.gain).sum : Nat) := by
    rw [Summary.ofOutcomes, Outcome.fixedAmong_filter]
  refine ⟨hclusters, rfl, congrArg Int.ofNat hsizes, ?_, ?_, ?_, ?_, ?_, fun hauto => ⟨?_, ?_⟩, ?_,
    fun opts remains => code_of_run h opts⟩
  · rw [← hclusters, List.length_map]
    exact Outcome.countP_resolutions os
  · have htotal : (Summary.ofOutcomes (r.settings.selected ds).length os).total =
        (r.settings.selected ds).length := rfl
    rw [hfixed, hremain, htotal]
    omega
  · rw [hfixed]
    omega
  · rw [hremain]
    omega
  · simp only [Summary.ofOutcomes, List.length_flatMap]
  · exact fun o ho => (hall o ho).applied_iff hauto
  · refine List.countP_congr fun o ho => ?_
    rw [(hall o ho).rolledBack_iff hauto, decide_eq_true_eq]
  · have hzero : (Summary.ofOutcomes (r.settings.selected ds).length os).remaining = 0 ↔
        (os.map Outcome.gain).sum = (os.map (·.cluster.size)).sum := by
      rw [hremain]
      omega
    rw [hzero, Outcome.sum_gain_eq_iff]
    exact forall₂_congr fun o ho => Outcome.gain_eq_size_iff (hall o ho)

/-- One diagnostic, on a line that a rule knows: it is fixed, and nothing remains. -/
theorem run_accounts_of_known_line :
    let r : Repair Unit := ⟨.default, Rule.builtinRegistry, none, fun _ => .ok []⟩
    let ds : List Diagnostic := [⟨"a.ts", 1, "HttpModule deprecated", .error, Nat.succ_pos _⟩]
    let files := FileTree.empty.put ["a.ts"]
      (Utf8.encode "import \x7b HttpModule \x7d from '@angular/http';\n")
    ∃ s' m, r.run ds ⟨.start files, ()⟩ = (s', .ok m) ∧ m.remaining = 0 ∧ m.errorsFixed = m.total ∧
      ∀ o ∈ m.outcomes, o.applied = true := by
  intro r ds files
  have hremain : (r.run ds ⟨.start files, ()⟩).2.toOption.map Summary.remaining = some 0 := by
    decide +kernel
  cases hrun : r.run ds ⟨.start files, ()⟩ with
  | mk s' result =>
    cases result with
    | error f =>
      rw [hrun] at hremain
      cases hremain
    | ok m =>
      rw [hrun] at hremain
      have hzero : m.remaining = 0 := Option.some.inj hremain
      obtain ⟨-, -, -, -, hbalance, -, -, -, -, hall, -⟩ := run_accounts hrun
      exact ⟨s', m, rfl, hzero, by omega, fun o ho => (hall.1 hzero o ho).1⟩

end Repair

namespace Command

variable {σ : Type}

theorem run_of_repair_code {r : Repair σ} {start : σ} {o : Options} {ds : List Diagnostic}
    {w : Workspace} (h : (repair r start o ds w).code = 0) :
    ∃ s m, r.run ds ⟨w, start⟩ = (s, .ok m) ∧ m.remaining = 0 := by
  have hend := Ended.remains_of_code h
  unfold repair at hend
  split at hend
  · cases hend
  · next s m hrun =>
    have hrest := remains_of_printThen hend
    split at hrest
    · cases hrest
    · exact ⟨s, m, hrun, by simpa using Except.ok.inj hrest⟩

/-- Whether a run of the built-in rules came to an end in a workspace, and nothing remained. -/
def RepairedAll (settings : Settings.Run) (ds : List Diagnostic) (w : Workspace) : Prop :=
  ∃ (τ : Type) (r : Repair τ) (start : τ) (s : RunState τ) (m : Summary), r.settings = settings ∧
    r.rules = Rule.builtinRegistry ∧ r.run ds ⟨w, start⟩ = (s, .ok m) ∧ m.remaining = 0

theorem repairedAll_of_repair {r : Repair σ} {start : σ} {o : Options} {ds : List Diagnostic}
    {w : Workspace} (hrules : r.rules = Rule.builtinRegistry)
    (h : (repair r start o ds w).code = 0) : RepairedAll r.settings ds w := by
  obtain ⟨s, m, hm, hzero⟩ := run_of_repair_code h
  exact ⟨σ, r, start, s, m, rfl, hrules, hm, hzero⟩

theorem repairedAll_of_repairUnder {settings : Settings} {here : Surroundings σ} {o : Options}
    {ds : List Diagnostic} {w : Workspace} (h : (repairUnder settings here o ds w).code = 0) :
    RepairedAll settings.run ds w := by
  -- Whether there is a generator or none, the code is that of a failure or of a run.
  unfold repairUnder at h
  cases hdocs : docsOf w.files o with
  | error f =>
    simp only [hdocs] at h
    split at h
    · cases h
    · split at h
      · split at h
        · cases h
        · cases h
      · cases h
  | ok docs =>
    simp only [hdocs] at h
    split at h
    · exact repairedAll_of_repair rfl h
    · split at h
      · split at h
        · cases h
        · exact repairedAll_of_repair rfl h
      · exact repairedAll_of_repair rfl h

theorem repairedAll_of_work {settings : Settings} {here : Surroundings σ} {o : Options}
    {w : Workspace} (hdry : o.dryRun = false) (h : (work settings here o w).code = 0) :
    ∃ ns ds, DiagnosticFile.load here.depths.json w.files o.diagnostics = (ns, .ok ds) ∧
      RepairedAll settings.run ds
        ((w.noteAll ns).note (.diagnosticsLoaded o.diagnostics.text ds.length)) := by
  unfold work at h
  split at h
  · cases h
  · split at h
    · cases h
    · next ns ds hload =>
      simp only [hdry, Bool.false_eq_true, if_false] at h
      exact ⟨ns, ds, hload, repairedAll_of_repairUnder h⟩

/-- Where the program is not to list clusters only, its exit code 0 means that the settings and the diagnostics
could be read, and that a run on them came to its end with nothing left. -/
theorem repairedAll_of_run {here : Surroundings σ} {o : Options} (hdry : o.dryRun = false)
    (h : (run here o).code = 0) :
    ∃ settings ns ds, ∃ w w' : Workspace, settingsOf here.depths here.environment here.files o = .ok settings ∧
      DiagnosticFile.load here.depths.json w.files o.diagnostics = (ns, .ok ds) ∧ w'.files = w.files ∧
      RepairedAll settings.run ds w' := by
  unfold run at h
  split at h
  · cases h
  · next settings hsettings =>
    simp only at h
    split at h
    · cases h
    · obtain ⟨ns, ds, hload, hall⟩ := repairedAll_of_work hdry h
      refine ⟨settings, ns, ds, _, _, hsettings, hload, ?_, hall⟩
      rfl

end Command

end Mend
