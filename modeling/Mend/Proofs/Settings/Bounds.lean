import Mend.Proofs.Settings.Load
import Mend.Proofs.Settings.Sections

/-!
# Settings within their bounds

What is read from any source is within the bounds of the settings of a run, and so are the settings without
a settings file. The choices of the user are applied to settings that were read: a budget that the user
chooses is at least one, but it has no other bound (`settingsOf_within_bounds`).
-/

namespace Mend

open Schema (Checked)

namespace Settings

/-- Whether the settings of a run are within their bounds. -/
structure Run.Bounded (r : Run) : Prop where
  budget : 1 ≤ r.maxConsultations ∧ r.maxConsultations ≤ 100
  context : 0 ≤ r.contextLines ∧ r.contextLines ≤ 200
  severities : r.severities ≠ []

/-- Whether settings are within their bounds and name a provider that there is. -/
structure Bounded (s : Settings) : Prop where
  run : s.run.Bounded
  provider : s.provider.name = onlyProvider

/-! ### Sections -/

theorem readSeverities_ne_nil {d : Datum} {ss : List Severity} (h : readSeverities d = .ok ss) : ss ≠ [] := by
  obtain ⟨-, hfault⟩ := Checked.test_eq_ok.1 h
  rintro rfl
  cases hfault

theorem Run.bounded_default : Run.default.Bounded := ⟨by decide, by decide, by decide⟩

theorem Run.bounded_of_ofMembers {ms : Schema.Members} {r : Run} (h : Run.ofMembers ms = .ok r) :
    r.Bounded := by
  obtain ⟨-, hbudget, -, -, -, hseverities, hcontext⟩ := Run.ofMembers_eq_ok.1 h
  refine ⟨?_, ?_, ?_⟩
  · exact Schema.optional_spec (p := fun n => 1 ≤ n ∧ n ≤ 100) (by decide) Schema.integerBetween_bounds hbudget
  · exact Schema.optional_spec (p := fun n => 0 ≤ n ∧ n ≤ 200) (by decide) Schema.integerBetween_bounds hcontext
  · exact Schema.optional_spec (p := (· ≠ [])) (by decide) readSeverities_ne_nil hseverities

theorem Run.bounded_of_read {d : Datum} {r : Run} (h : Run.read d = .ok r) : r.Bounded := by
  obtain ⟨fs, -, hmembers⟩ := Schema.record_eq_ok.1 h
  exact Run.bounded_of_ofMembers hmembers

theorem Provider.name_of_read {d : Datum} {p : Provider} (h : Provider.read d = .ok p) :
    p.name = onlyProvider := by
  obtain ⟨fs, -, hmembers⟩ := Schema.record_eq_ok.1 h
  obtain ⟨hname, -⟩ := Provider.ofMembers_eq_ok.1 hmembers
  exact Schema.optional_spec (p := (· = onlyProvider)) rfl
    (fun hchoice => List.mem_singleton.1 (Schema.mem_of_choice hchoice)) hname

/-! ### All settings -/

theorem bounded_of_ofMembers {ms : Schema.Members} {s : Settings} (h : Settings.ofMembers ms = .ok s) :
    s.Bounded := by
  obtain ⟨hrun, hprovider, -, -⟩ := Settings.ofMembers_eq_ok.1 h
  exact ⟨Schema.optional_spec Run.bounded_default Run.bounded_of_read hrun,
    Schema.optional_spec (p := fun p : Provider => p.name = onlyProvider) rfl Provider.name_of_read hprovider⟩

variable {depth : Nat} {depths : Depths} {env : Environment} {files : FileTree} {s : Settings}

theorem bounded_of_fromSources {given : Fields} (h : fromSources depth env files given = .ok s) : s.Bounded := by
  obtain ⟨fs, -, hmembers⟩ := fromSources_eq_ok.1 h
  exact bounded_of_ofMembers hmembers

theorem bounded_of_ofFile {path : Path} (h : ofFile depths env files path = .ok s) : s.Bounded := by
  obtain ⟨t, -, htext⟩ := ofFile_eq_ok.1 h
  obtain ⟨given, -, hdatum, -⟩ := ofText_eq_ok.1 htext
  obtain ⟨fs, -, -, hsources⟩ := ofDatum_eq_ok.1 hdatum
  exact bounded_of_fromSources hsources

theorem bounded_of_withoutFile (h : withoutFile depth env files = .ok s) : s.Bounded := by
  obtain ⟨base, model, hsources, -, rfl⟩ := withoutFile_eq_ok.1 h
  obtain ⟨⟨hbudget, hcontext, hseverities⟩, hprovider⟩ := bounded_of_fromSources hsources
  exact ⟨⟨hbudget, hcontext, hseverities⟩, hprovider⟩

end Settings

namespace Command

/-- Whatever the user asks for and whatever the sources say, the settings of a run are within their bounds,
apart from a budget above a hundred that the user chose; and the settings of the model are there whenever
the generator is on. -/
theorem settingsOf_within_bounds {depths : Settings.Depths} {env : Environment} {files : FileTree} {o : Options}
    {s : Settings}
    (h : settingsOf depths env files o = .ok s) :
    1 ≤ s.run.maxConsultations ∧
      (s.run.maxConsultations ≤ 100 ↔ ∀ n ∈ o.maxPatches, n ≤ 100) ∧
      (0 ≤ s.run.contextLines ∧ s.run.contextLines ≤ 200) ∧
      s.run.severities ≠ [] ∧
      (s.run.useGenerator = true → s.provider.anthropic.isSome = true) := by
  have hchoose : Settings.choose depths env files (choicesOf o) = .ok s := by
    unfold settingsOf at h
    split at h
    · cases h
    · split at h
      · cases h
      · next hchoose =>
        split at h
        · cases h
        · exact hchoose.trans (congrArg Except.ok (Except.ok.inj h))
  obtain ⟨base, hbase, hleast, rfl, hready⟩ := Settings.exists_base_of_choose hchoose
  have hbounded : base.Bounded := by
    rcases hbase with ⟨path, -, hfile⟩ | ⟨-, hwithout⟩
    · exact Settings.bounded_of_ofFile hfile
    · exact Settings.bounded_of_withoutFile hwithout
  obtain ⟨⟨⟨hbudget, hmost⟩, hcontext, hseverities⟩, hprovider⟩ := hbounded
  refine ⟨?_, ?_, hcontext, hseverities, fun hgenerator => hready hgenerator hprovider⟩
  · cases hchosen : o.maxPatches with
    | none => simpa [Settings.Run.under, choicesOf, hchosen] using hbudget
    | some n => simpa [Settings.Run.under, choicesOf, hchosen] using hleast n hchosen
  · cases hchosen : o.maxPatches with
    | none => simpa [Settings.Run.under, choicesOf, hchosen] using hmost
    | some n => simp [Settings.Run.under, choicesOf, hchosen]

/-- A settings file, a variable and the command line each say something about the run. -/
theorem settingsOf_within_bounds_of_all_sources :
    let env : Environment := [("MIGRATION_REPAIR_PIPELINE__CONTEXT_LINES", "9"), ("ANTHROPIC_API_KEY", "key")]
    let files : FileTree := { files := [(["c.yaml"],
      Utf8.encode "pipeline:\n  use_generator: false\n  severities: [warning]\n")] }
    let o : Options :=
      { diagnostics := .ofText "d.json", config := some (.ofText "c.yaml"), maxPatches := some 4 }
    ∃ s, settingsOf ⟨980, 485⟩ env files o = .ok s ∧ s.run.maxConsultations = 4 ∧ s.run.contextLines = 9 ∧
      (s.run.maxConsultations ≤ 100 ↔ ∀ n ∈ o.maxPatches, n ≤ 100) ∧
      (0 ≤ s.run.contextLines ∧ s.run.contextLines ≤ 200) ∧ s.run.severities ≠ [] ∧
      (s.run.useGenerator = true → s.provider.anthropic.isSome = true) := by
  intro env files o
  obtain ⟨s, hs, hvalues⟩ := Settings.exists_ok_of_map
    (show (settingsOf ⟨980, 485⟩ env files o).toOption.map
        (fun s => (s.run.maxConsultations, s.run.contextLines)) = some (4, 9) by decide +kernel)
  obtain ⟨hbudget, hcontext⟩ := Prod.mk.inj hvalues
  obtain ⟨-, hrest⟩ := settingsOf_within_bounds hs
  exact ⟨s, hs, hbudget, hcontext, hrest⟩

/-- A budget of 101 is within no bounds of a settings file, but the command line may ask for it. -/
theorem settingsOf_of_budget_101 : ∃ o s,
    (Options.parse ["--diagnostics", "d.json", "--no-generator", "--max-patches", "101"]).toOption = some o ∧
      settingsOf ⟨980, 485⟩ [] .empty o = .ok s ∧ s.run.maxConsultations = 101 ∧
        ¬ s.run.maxConsultations ≤ 100 := by
  let o : Options := { diagnostics := .ofText "d.json", noGenerator := true, maxPatches := some 101 }
  obtain ⟨s, hs, hbudget⟩ := Settings.exists_ok_of_map
    (show (settingsOf ⟨980, 485⟩ [] .empty o).toOption.map (·.run.maxConsultations) = some 101 by decide +kernel)
  exact ⟨o, s, by decide +kernel, hs, hbudget, by omega⟩

end Command

end Mend
