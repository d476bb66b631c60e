import Mend.Proofs.Settings.Environment
import Mend.Proofs.Settings.Load

/-!
# Settings from variables

A variable whose name is that of a section and that of a setting of it fills this setting where the settings
file leaves it open. What the file says counts before the variable, so that the variable of a setting that
the file gives is without effect (`ofFile_with_variable`).
-/

namespace Mend.Settings

namespace Setting

variable {f : Setting} {depths : Depths} {t : Text} {d : Datum} {before after : Environment} {name : Text}
  {high : Fields}

/-! ### Sections under those of the settings file -/

/-- Whether the members of a settings file give a setting. -/
def GivenIn (f : Setting) (fs : Fields) : Prop :=
  ∃ gs, sectionFields? f.sectionName (SourceRules.standard.givenSections fs) = some gs ∧
    (Datum.member? f.name gs).isSome = true

/-- A section that the environment makes lies under the given one. -/
theorem sectionFields?_over {high' given gs ls : Fields} {section_ : Text}
    (hnone : Datum.member? section_ high = none) (hsome : Datum.member? section_ high' = some (.record ls))
    (hgs : sectionFields? section_ (Datum.membersOver high given) = some gs) :
    sectionFields? section_ given = some gs ∧
      sectionFields? section_ (Datum.membersOver high' given) = some (Datum.membersOver ls gs) := by
  have hgiven : sectionFields? section_ given = some gs := by
    rwa [sectionFields?, Datum.member?_membersOver, hnone] at hgs
  refine ⟨hgiven, sectionFields?_eq_some.2 (.inr ?_)⟩
  rw [Datum.member?_membersOver, hsome]
  rcases sectionFields?_eq_some.1 hgiven with ⟨hmissing, rfl⟩ | ⟨d, hd, hopened⟩
  · rw [hmissing, Datum.membersOver_nil]
    exact ⟨.record ls, rfl, rfl⟩
  · rw [hd]
    exact ⟨_, rfl, by rw [Datum.overlay_of_opened hopened]; rfl⟩

theorem member?_over (d : Datum) (gs : Fields) :
    Datum.member? f.name (Datum.membersOver [(.text f.name, d)] gs) =
      match Datum.member? f.name gs with
      | some given => some (Datum.overlay d given)
      | none => some d := by
  rw [Datum.member?_membersOver, Datum.member?_cons_self]
  cases Datum.member? f.name gs <;> rfl

theorem member?_over_of_ne {other : Text} (hne : other ≠ f.name) (d : Datum) (gs : Fields) :
    Datum.member? other (Datum.membersOver [(.text f.name, d)] gs) = Datum.member? other gs := by
  have hnone : Datum.member? other [(.text f.name, d)] = none :=
    Datum.member?_cons_of_ne (fun heq => hne (Atom.text.inj heq).symm) d []
  rw [Datum.member?_membersOver, hnone]

/-- A variable that concerns the section of a setting is none of an environment that leaves it alone. -/
theorem lookup_insert (hname : Text.lower name = f.key) (halone : f.Untouched (before ++ after)) (n value : Text)
    (h : (before ++ after).lookup n = some value) : (before ++ (name, t) :: after).lookup n = some value := by
  have hne : n ≠ name := by
    rintro rfl
    obtain ⟨l, r, heq, -⟩ := List.lookup_eq_some_iff.1 h
    have hfree := halone (n, value) (heq ▸ List.mem_append_right l (List.mem_cons_self ..))
    rw [hname, f.concerns_own] at hfree
    cases hfree
  rw [List.lookup_append] at h ⊢
  rwa [List.lookup_cons, beq_false_of_ne hne]

/-- What one more variable does to loaded settings, in terms of the section of its setting in the file. -/
theorem exists_section_of_ofFile {files : FileTree} {path : Path} {fs : Fields} {s : Settings}
    (hbase : ofFile depths (before ++ after) files path = .ok s)
    (hgives : FileGives depths.yaml (before ++ after) files path fs)
    (hunreserved : ∀ n ∈ reservedNames, Datum.member? n fs = none)
    (hfile : files.holdsFile variableFile = .ok false) (hname : Text.lower name = f.key)
    (halone : f.Untouched (before ++ after)) (hdatum : f.datum? depths.json t = some d) :
    ∃ gs, sectionFields? f.sectionName (SourceRules.standard.givenSections fs) = some gs ∧
      Schema.optional f.name (f.get defaults) f.reader (.ofFields gs) = .ok (f.get s) ∧
      ∀ y, Ready (f.set y s) → Schema.optional f.name (f.get defaults) f.reader
          (.ofFields (Datum.membersOver [(.text f.name, named f.shape d)] gs)) = .ok y →
        ofFile depths (before ++ (name, t) :: after) files path = .ok (f.set y s) := by
  obtain ⟨hnames, hsources, -⟩ := hgives.ofFile_eq_ok.1 hbase
  obtain ⟨ms, hcollect, hread⟩ := fromSources_eq_ok.1 hsources
  obtain ⟨hown, high, hhigh, rfl⟩ := (collect_eq_ok hfile hunreserved).1 hcollect
  obtain ⟨high', hhigh', hnone, hsome, hother⟩ := exists_environmentSections hname hdatum halone hhigh
  obtain ⟨gs, hgs, hoptional⟩ := readsAs_of_ofMembers hread f
  obtain ⟨hgiven, hgs'⟩ := sectionFields?_over hnone hsome hgs
  refine ⟨gs, hgiven, hoptional, fun y hready hy => ?_⟩
  -- The given members lie over both environments, whose sections differ in the one of the setting only.
  have hread' : Settings.ofMembers (.ofFields (Datum.membersOver high'
      (SourceRules.standard.givenSections fs))) = .ok (f.set y s) := by
    refine ofMembers_set hread (fun other hne => ?_) hgs hgs' (fun other hne => member?_over_of_ne hne _ gs) hy
    rw [Datum.member?_membersOver, Datum.member?_membersOver, hother other hne]
  refine (hgives.mono (lookup_insert hname halone)).ofFile_eq_ok.2 ⟨hnames, ?_, hready⟩
  exact fromSources_eq_ok.2 ⟨_, (collect_eq_ok hfile hunreserved).2 ⟨hown, high', hhigh', rfl⟩, hread'⟩

/-- Settings stay ready under a value of a setting that had its default. -/
theorem ready_set {s : Settings} (hready : Ready s) (hdefault : f.get s = f.get defaults) (x : f.Value) :
    Ready (f.set x s) := by
  intro hgenerator hprovider
  rw [provider_set] at hprovider ⊢
  -- A variable may switch the generator on, but by default it is on already.
  refine hready ?_ hprovider
  cases f with
  | useGenerator => exact hdefault
  | _ => exact hgenerator

end Setting

/-! ### The log file -/

/-- A member of overlaid records that is read from no record is the higher one, if it is there. -/
theorem optional_membersOver {α : Type} {name : Text} {default a b : α} {r : Schema.Reader α} {ls hs : Fields}
    (hflat : ∀ fs a, r (.record fs) ≠ .ok a) (ha : Schema.optional name default r (.ofFields ls) = .ok a)
    (hb : Schema.optional name default r (.ofFields hs) = .ok b) :
    Schema.optional name default r (.ofFields (Datum.membersOver ls hs)) =
      .ok (if (Datum.member? name hs).isSome then b else a) := by
  rcases Schema.optional_eq_ok.1 hb with ⟨hmissing, rfl⟩ | ⟨high, hhigh, hreadHigh⟩
  · have hnone : Datum.member? name hs = none := hmissing
    rw [hnone]
    refine (Schema.optional_congr ?_ _).trans ha
    rw [Schema.Members.ofFields, Schema.Members.ofFields, Datum.member?_membersOver, hnone]
    cases Datum.member? name ls <;> rfl
  · have hsome : Datum.member? name hs = some high := hhigh
    rw [hsome]
    refine (Schema.optional_congr ?_ _).trans hb
    rw [Schema.Members.ofFields, Schema.Members.ofFields, Datum.member?_membersOver, hsome]
    rcases Schema.optional_eq_ok.1 ha with ⟨hmissing, -⟩ | ⟨low, hlow, hreadLow⟩
    · rw [show Datum.member? name ls = none from hmissing]
    · rw [show Datum.member? name ls = some low from hlow]
      have hne : ∀ fs, low ≠ .record fs := fun fs heq => hflat fs a (heq ▸ hreadLow)
      exact congrArg some (Datum.overlay_of_ne_record hne high)

/-- The settings of the log file from two records, one over the other, are those of the higher one where it
gives them. -/
theorem LogFile.read_overlay {ls hs : Fields} {high : Datum} {x y : LogFile}
    (hlow : LogFile.read (.record ls) = .ok x) (hopened : high.opened = .record hs)
    (hhigh : LogFile.read high = .ok y) : LogFile.read (Datum.overlay (.record ls) high) =
      .ok ⟨if (Datum.member? "enabled" hs).isSome then y.enabled else x.enabled,
        if (Datum.member? "path" hs).isSome then y.path else x.path⟩ := by
  obtain ⟨fs, hfs, hhigh⟩ := Schema.record_eq_ok.1 hhigh
  obtain rfl := Datum.record.inj (hopened.symm.trans hfs)
  have hlow : LogFile.ofMembers (.ofFields ls) = .ok x := hlow
  obtain ⟨hlowEnabled, hlowPath⟩ := LogFile.ofMembers_eq_ok.1 hlow
  obtain ⟨hhighEnabled, hhighPath⟩ := LogFile.ofMembers_eq_ok.1 hhigh
  rw [Datum.overlay_of_opened hopened]
  exact LogFile.ofMembers_eq_ok.2
    ⟨optional_membersOver (fun _ _ => nofun) hlowEnabled hhighEnabled,
      optional_membersOver (fun _ _ => nofun) hlowPath hhighPath⟩

/-! ### All settings -/

/-- A variable with a valid value of a setting fills this setting, and no other, where the settings file leaves
it open; where the file gives it, the variable is without effect, but for the group of the log file, whose
members are filled one by one. -/
theorem ofFile_with_variable (f : Setting) {depths : Depths} {before after : Environment} {name t : Text}
    {x : f.Value}
    {files : FileTree} {path : Path} {fs : Fields} {s : Settings}
    (hbase : ofFile depths (before ++ after) files path = .ok s)
    (hgives : FileGives depths.yaml (before ++ after) files path fs)
    (hunreserved : ∀ n ∈ reservedNames, Datum.member? n fs = none)
    (hfile : files.holdsFile variableFile = .ok false) (hname : Text.lower name = f.key)
    (halone : f.Untouched (before ++ after)) (hholds : f.Holds depths.json t x) :
    (¬ f.GivenIn fs → ofFile depths (before ++ (name, t) :: after) files path = .ok (f.set x s)) ∧
      (f.GivenIn fs → f ≠ .logFile → ofFile depths (before ++ (name, t) :: after) files path = .ok s) := by
  obtain ⟨d, hdatum, hx⟩ := hholds
  obtain ⟨gs, hgs, hbaseValue, hset⟩ :=
    Setting.exists_section_of_ofFile hbase hgives hunreserved hfile hname halone hdatum
  have hready : Ready s := (hgives.ofFile_eq_ok.1 hbase).2.2
  constructor
  · intro hopen
    have hmissing : Datum.member? f.name gs = none :=
      Option.not_isSome_iff_eq_none.1 fun hsome => hopen ⟨gs, hgs, hsome⟩
    have hdefault : f.get s = f.get defaults := by
      rcases Schema.optional_eq_ok.1 hbaseValue with ⟨-, hdefault⟩ | ⟨given, hgiven, -⟩
      · exact hdefault
      · cases hmissing.symm.trans hgiven
    refine hset x (Setting.ready_set hready hdefault x) (Schema.optional_eq_ok.2 (.inr ⟨named f.shape d, ?_, hx⟩))
    rw [Schema.Members.ofFields, Setting.member?_over, hmissing]
  · rintro ⟨gs', hgs', hsome⟩ hne
    obtain rfl := Option.some.inj (hgs.symm.trans hgs')
    obtain ⟨given, hgiven⟩ := Option.isSome_iff_exists.1 hsome
    have hvalue := hset (f.get s) (by rwa [Setting.set_get]) ?_
    · rwa [Setting.set_get] at hvalue
    · refine (Schema.optional_congr ?_ _).trans hbaseValue
      rw [Schema.Members.ofFields, Schema.Members.ofFields, Setting.member?_over, hgiven]
      exact congrArg some (Datum.overlay_of_ne_record (Setting.ne_record_of_reads hx hne) given)

/-- The file does not say how many retries there are, and one of two variables does. -/
theorem ofFile_with_variable_of_attempts :
    let files : FileTree := { files := [(["c.yaml"], Utf8.encode "retry:\n  initial_delay: 2")] }
    let path : Path := .ofText "c.yaml"
    let others : Environment := [("MIGRATION_REPAIR_LLM__ANTHROPIC__API_KEY", "key")]
    let attempts : Text × Text := ("MIGRATION_REPAIR_RETRY__MAX_ATTEMPTS", "5")
    ∃ s, ofFile ⟨980, 485⟩ others files path = .ok s ∧ s.retry.maxAttempts = 3 ∧
      ofFile ⟨980, 485⟩ (others ++ [attempts]) files path = .ok (Setting.maxAttempts.set (5 : Int) s) := by
  intro files path others attempts
  obtain ⟨s, hs, hattempts⟩ := exists_ok_of_map
    (show (ofFile ⟨980, 485⟩ (others ++ []) files path).toOption.map (·.retry.maxAttempts) =
      some 3 by decide +kernel)
  let test (fs : Fields) : Bool := (reservedNames.all fun n => (Datum.member? n fs).isNone) &&
    (sectionFields? "retry" (SourceRules.standard.givenSections fs)).all fun gs =>
      (Datum.member? "max_attempts" gs).isNone
  obtain ⟨fs, hgives, htest⟩ := exists_fileGives_of_test
    (show ((textOfFile files path).bind (mappingOfText 485 (others ++ []))).toOption.any (passes test) = true by
      decide +kernel)
  obtain ⟨hunreserved, hopen⟩ := Bool.and_eq_true_iff.1 htest
  have hwith := ofFile_with_variable .maxAttempts hs hgives
    (fun n hn => Option.isNone_iff_eq_none.1 (List.all_eq_true.1 hunreserved n hn)) (by decide +kernel)
    (show Text.lower attempts.1 = Setting.maxAttempts.key by decide +kernel)
    (show Setting.maxAttempts.Untouched (others ++ []) from fun v hv => by
      rw [List.append_nil, List.mem_singleton] at hv
      rw [hv]
      decide +kernel) ⟨.text "5", rfl, rfl⟩
  refine ⟨s, hs, hattempts, hwith.1 ?_⟩
  rintro ⟨gs, hgs, hsome⟩
  rw [show sectionFields? "retry" (SourceRules.standard.givenSections fs) = some gs from hgs] at hopen
  exact absurd hsome (Option.not_isSome_iff_eq_none.2 (Option.isNone_iff_eq_none.1 hopen))

/-- The file gives two attempts, and a variable with five of them does not change that. -/
theorem ofFile_with_variable_of_given_attempts :
    Text.lower "MIGRATION_REPAIR_RETRY__MAX_ATTEMPTS" = Setting.maxAttempts.key ∧
      Setting.maxAttempts.Holds 980 "5" (5 : Int) ∧
      ∃ s, ofFile ⟨980, 485⟩ [("MIGRATION_REPAIR_RETRY__MAX_ATTEMPTS", "5")]
          { files := [(["c.yaml"], Utf8.encode "pipeline:\n  use_generator: false\nretry:\n  max_attempts: 2\n")] }
          (.ofText "c.yaml") = .ok s ∧ s.retry.maxAttempts = 2 :=
  ⟨by decide +kernel, ⟨.text "5", rfl, rfl⟩, exists_ok_of_map (by decide +kernel)⟩

/-- The variable of the log file fills those of its settings that the file leaves open. -/
theorem ofFile_with_log_file_variable {depths : Depths} {before after : Environment} {name t : Text} {x : LogFile}
    {files : FileTree} {path : Path} {fs gs hs : Fields} {given : Datum} {s : Settings}
    (hbase : ofFile depths (before ++ after) files path = .ok s)
    (hgives : FileGives depths.yaml (before ++ after) files path fs)
    (hunreserved : ∀ n ∈ reservedNames, Datum.member? n fs = none)
    (hfile : files.holdsFile variableFile = .ok false) (hname : Text.lower name = Setting.logFile.key)
    (halone : Setting.logFile.Untouched (before ++ after)) (hholds : Setting.logFile.Holds depths.json t x)
    (hgs : sectionFields? "logging" (SourceRules.standard.givenSections fs) = some gs)
    (hgiven : Datum.member? "file" gs = some given) (hopened : given.opened = .record hs) :
    ofFile depths (before ++ (name, t) :: after) files path =
      .ok { s with logging.file :=
        ⟨if (Datum.member? "enabled" hs).isSome then s.logging.file.enabled else x.enabled,
          if (Datum.member? "path" hs).isSome then s.logging.file.path else x.path⟩ } := by
  obtain ⟨d, hdatum, hx⟩ := hholds
  obtain ⟨gs', hgs', hbaseValue, hset⟩ :=
    Setting.exists_section_of_ofFile hbase hgives hunreserved hfile hname halone hdatum
  obtain rfl := Option.some.inj (hgs.symm.trans hgs')
  obtain ⟨ls, hls⟩ : ∃ ls, named Setting.logFile.shape d = .record ls := by
    obtain ⟨v, -, rfl⟩ := Option.map_eq_some_iff.1 hdatum
    obtain ⟨ls, hrecord, -⟩ := Schema.record_eq_ok.1 hx
    exact ⟨ls, by cases v <;> exact hrecord⟩
  have hhigh : LogFile.read given = .ok s.logging.file := by
    rcases Schema.optional_eq_ok.1 hbaseValue with ⟨hmissing, -⟩ | ⟨d', hd', hread⟩
    · cases hgiven.symm.trans hmissing
    · obtain rfl := Option.some.inj (hgiven.symm.trans hd')
      exact hread
  rw [hls] at hx hset
  have hreadBoth := LogFile.read_overlay hx hopened hhigh
  refine hset _ (hgives.ofFile_eq_ok.1 hbase).2.2 (Schema.optional_eq_ok.2 (.inr ⟨_, ?_, hreadBoth⟩))
  have hmember : Datum.member? Setting.logFile.name gs = some given := hgiven
  rw [Schema.Members.ofFields, Setting.member?_over, hmember]

end Mend.Settings
