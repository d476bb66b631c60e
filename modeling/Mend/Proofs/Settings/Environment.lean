import Mathlib.Data.List.Nodup
import Mend.Proofs.Settings.Setting
import Mend.Proofs.Settings.Variables
import Mend.Proofs.Text

/-!
# Settings in an environment

The variable of a setting has the name of the section, a delimiter and the name of the setting behind the
start of all names; the case of its letters does not matter. In an environment where no other variable
concerns the section, it makes a section with this setting alone, and it leaves the other sections as they are
(`exists_environmentSections`).
-/

namespace Mend.Settings

/-- The first field with a name is found where only this name is looked for. -/
theorem find?_of_mem {fields : List (Text × Shape)} {name : Text} {shape : Shape} {p : Text → Bool}
    (hnodup : (fields.map Prod.fst).Nodup) (hmem : (name, shape) ∈ fields)
    (hp : ∀ n ∈ fields.map Prod.fst, p n = decide (n = name)) :
    fields.find? (fun field => p field.1) = some (name, shape) := by
  induction fields with
  | nil => cases hmem
  | cons field fields ih =>
    rw [List.map_cons, List.nodup_cons] at hnodup
    have hfield := hp field.1 (List.mem_cons_self ..)
    rcases List.mem_cons.1 hmem with rfl | hmem
    · rw [List.find?_cons_of_pos (by simpa using hfield)]
    · have hne : field.1 ≠ name := fun heq => hnodup.1 (heq ▸ List.mem_map_of_mem hmem)
      rw [List.find?_cons_of_neg (by simpa [hne] using hfield)]
      exact ih hnodup.2 hmem fun n hn => hp n (List.mem_cons_of_mem _ hn)

/-! ### Names -/

/-- What the names of all variables begin with, in small letters. -/
def keyStart : Text := "migration_repair_"

theorem nodup_sections : (Shape.sections.map Prod.fst).Nodup := by decide +kernel

/-- A section has a variable named after it, and no section goes on behind the name of another one and a
delimiter. -/
theorem sections_apart : ∀ s ∈ Shape.sections,
    SourceRules.standard.nameOf? s.1 = some (keyStart ++ s.1) ∧
      ∀ s' ∈ Shape.sections, s.1 ++ ("__" : Text) <+: s'.1 ++ ("__" : Text) → s.1 = s'.1 := by
  decide +kernel

/-- Each field of a section has a name of its own, in small letters and without a delimiter, which does not
begin as the names of variables do. -/
theorem fields_apart : ∀ s ∈ Shape.sections, (s.2.fields.map Prod.fst).Nodup ∧ ∀ field ∈ s.2.fields,
    Text.lower field.1 = field.1 ∧
      SourceRules.standard.nameOf? field.1 = some (keyStart ++ field.1) ∧
      ¬ keyStart <+: field.1 ∧ splitName "__" field.1.length field.1 = [field.1] := by
  decide +kernel

namespace Setting

/-- The shape of the section of a setting. -/
def sectionShape : Setting → Shape
  | workspaceRoot | maxConsultations | autoApply | useGenerator | strictValidation | severities
  | contextLines => .group
      [("workspace_root", .scalar), ("max_patches_per_run", .scalar), ("auto_apply", .scalar),
        ("use_generator", .scalar), ("strict_validation", .scalar), ("severities", .listing),
        ("context_lines", .scalar)]
  | logLevel | logFormat | logFile => .group
      [("level", .scalar), ("format", .scalar),
        ("file", .group [("enabled", .scalar), ("path", .scalar)])]
  | maxAttempts | initialDelay | maxDelay => .group
      [("max_attempts", .scalar), ("initial_delay", .scalar), ("max_delay", .scalar)]

theorem mem_sections : (f : Setting) → (f.sectionName, f.sectionShape) ∈ Shape.sections
  | workspaceRoot | maxConsultations | autoApply | useGenerator | strictValidation | severities
  | contextLines => .head _
  | logLevel | logFormat | logFile => .tail _ (.tail _ (.head _))
  | maxAttempts | initialDelay | maxDelay => .tail _ (.tail _ (.tail _ (.head _)))

theorem mem_fields : (f : Setting) → (f.name, f.shape) ∈ f.sectionShape.fields
  | workspaceRoot => .head _
  | maxConsultations => .tail _ (.head _)
  | autoApply => .tail _ (.tail _ (.head _))
  | useGenerator => .tail _ (.tail _ (.tail _ (.head _)))
  | strictValidation => .tail _ (.tail _ (.tail _ (.tail _ (.head _))))
  | severities => .tail _ (.tail _ (.tail _ (.tail _ (.tail _ (.head _)))))
  | contextLines => .tail _ (.tail _ (.tail _ (.tail _ (.tail _ (.tail _ (.head _))))))
  | logLevel => .head _
  | logFormat => .tail _ (.head _)
  | logFile => .tail _ (.tail _ (.head _))
  | maxAttempts => .head _
  | initialDelay => .tail _ (.head _)
  | maxDelay => .tail _ (.tail _ (.head _))

/-- The key of the section of a setting. -/
def sectionKey (f : Setting) : Text := keyStart ++ f.sectionName

/-- The name of the variable of a setting, in small letters. -/
def key (f : Setting) : Text := f.sectionKey ++ ("__" : Text) ++ f.name

theorem lower_name (f : Setting) : Text.lower f.name = f.name :=
  ((fields_apart _ f.mem_sections).2 _ f.mem_fields).1

theorem nameOf?_sectionName (f : Setting) : SourceRules.standard.nameOf? f.sectionName = some f.sectionKey :=
  (sections_apart _ f.mem_sections).1

theorem concerns_own (f : Setting) : SourceRules.standard.concerns f.sectionKey f.key = true := by
  have hafter : Text.after? (f.sectionKey ++ SourceRules.standard.delimiter) f.key = some f.name :=
    Text.after?_append _ _
  simp [SourceRules.concerns, hafter]

/-- The variable of a setting concerns no other section. -/
theorem concerns_other (f : Setting) {other : Text} {shape : Shape} (hs : (other, shape) ∈ Shape.sections)
    (hne : other ≠ f.sectionName) : SourceRules.standard.concerns (keyStart ++ other) f.key = false := by
  have hkey : f.key = keyStart ++ (f.sectionName ++ ("__" : Text) ++ f.name) := by
    simp only [key, sectionKey, List.append_assoc]
  refine Bool.eq_false_iff.2 fun hconcerns => hne ?_
  rcases Bool.or_eq_true_iff.1 hconcerns with hsame | hbehind
  · have hother : f.sectionName ++ ("__" : Text) ++ f.name = other :=
      List.append_cancel_left (hkey.symm.trans (beq_iff_eq.1 hsame))
    have hbegins : f.sectionName ++ ("__" : Text) <+: other ++ ("__" : Text) :=
      ⟨f.name ++ ("__" : Text), by rw [← hother]; simp only [List.append_assoc]⟩
    exact ((sections_apart _ f.mem_sections).2 _ hs hbegins).symm
  · obtain ⟨rest, hrest⟩ := Option.isSome_iff_exists.1 hbehind
    have heq : f.sectionName ++ ("__" : Text) ++ f.name = other ++ ("__" : Text) ++ rest := by
      refine List.append_cancel_left (hkey.symm.trans ((Text.eq_append_of_after? hrest).trans ?_))
      simp only [List.append_assoc]
      rfl
    -- Of two keys that a name goes on behind, one begins with the other, delimiter included.
    rcases List.prefix_or_prefix_of_prefix (List.prefix_append _ f.name) ⟨rest, heq.symm⟩ with hle | hle
    · exact ((sections_apart _ f.mem_sections).2 _ hs hle).symm
    · exact (sections_apart _ hs).2 _ f.mem_sections hle

theorem stands_name (f : Setting) : ∀ name ∈ f.sectionShape.fields.map Prod.fst,
    SourceRules.standard.stands f.name name = decide (name = f.name) := by
  intro name hname
  obtain ⟨field, hfield, rfl⟩ := List.mem_map.1 hname
  have hfold : SourceRules.standard.fold f.name = f.name := f.lower_name
  obtain ⟨-, hkey, -⟩ := (fields_apart _ f.mem_sections).2 _ hfield
  obtain ⟨-, -, hstart, -⟩ := (fields_apart _ f.mem_sections).2 _ f.mem_fields
  have hother : some (keyStart ++ field.1) ≠ some f.name := fun heq =>
    hstart ⟨field.1, Option.some.inj heq⟩
  rw [SourceRules.stands, hfold, hkey, decide_eq_false hother, Bool.or_false, decide_eq_decide]
  exact eq_comm

theorem field?_name (f : Setting) : f.sectionShape.field? SourceRules.standard f.name = some f.shape := by
  have hfind := find?_of_mem (fields_apart _ f.mem_sections).1 f.mem_fields f.stands_name
  rw [Shape.field?, hfind]
  rfl

/-! ### What a variable makes -/

/-- The datum that a text is for a setting: JSON for a list or a group, else the text itself. -/
def datum? (f : Setting) (depth : Nat) (t : Text) : Option Datum :=
  if f.shape.isJson then (Json.read depth t).toOption.map Datum.ofJson else some (.text t)

/-- Whether a text is a valid value of a setting. -/
def Holds (f : Setting) (depth : Nat) (t : Text) (x : f.Value) : Prop :=
  ∃ d, f.datum? depth t = some d ∧ f.reader (named f.shape d) = .ok x

variable {f : Setting} {depth : Nat} {t : Text} {d : Datum}

theorem valueFor_of_datum? (h : f.datum? depth t = some d) (error : SourceError) :
    ∃ change, SourceRules.standard.valueFor depth error (some f.shape) (some t) = .ok change ∧
      change none = d := by
  unfold datum? at h
  split at h
  · next hjson =>
    obtain ⟨v, hread, rfl⟩ := Option.map_eq_some_iff.1 h
    have hread : Json.read depth t = .ok v := by
      cases hjson : Json.read depth t with
      | error e => rw [hjson] at hread; cases hread
      | ok w => rw [hjson] at hread; exact congrArg Except.ok (Option.some.inj hread)
    cases t with
    | nil =>
      have hempty : (Json.read depth []).toOption.isSome = false := rfl
      rw [hread] at hempty
      cases hempty
    | cons c t =>
      refine ⟨fun _ => .ofJson v, ?_, rfl⟩
      simp only [SourceRules.valueFor, hjson, if_true, readJson, hread]
  · next hjson =>
    obtain rfl := Option.some.inj h
    have hplain : SourceRules.standard.valueFor depth error (some f.shape) (some t) =
        .ok (SourceRules.standard.plain t) := by
      cases t with
      | nil => rfl
      | cons c t => simp only [SourceRules.valueFor, hjson, Bool.false_eq_true, if_false]
    exact ⟨_, hplain, rfl⟩

theorem sectionDatum_key (h : f.datum? depth t = some d) :
    SourceRules.standard.sectionDatum depth .environment [(f.key, some t)] f.sectionName f.sectionShape =
      .ok (some (.record [(.text f.name, d)])) := by
  obtain ⟨change, hchange, rfl⟩ := valueFor_of_datum? h (.notJson f.sectionName .environment)
  have hlookup : List.lookup f.sectionKey [(f.key, some t)] = none := by
    have hne : f.sectionKey ≠ f.key := fun heq => by
      have hlength := congrArg List.length heq
      simp [key] at hlength
    rw [List.lookup_cons, beq_false_of_ne hne]
    rfl
  have hmembers : SourceRules.standard.memberVariables depth (.notJson f.sectionName .environment)
      (f.sectionKey ++ SourceRules.standard.delimiter) f.sectionShape [(f.key, some t)] [] =
        .ok [(.text f.name, change none)] := by
    have hafter : Text.after? (f.sectionKey ++ SourceRules.standard.delimiter) f.key = some f.name :=
      Text.after?_append _ _
    have hway : splitName SourceRules.standard.delimiter f.name.length f.name = [f.name] :=
      ((fields_apart _ f.mem_sections).2 _ f.mem_fields).2.2.2
    have hmost : SourceRules.standard.mostParts = none := rfl
    simp only [SourceRules.memberVariables, hafter, hmost, hway, List.foldl_cons, List.foldl_nil,
      Option.bind_some, f.field?_name, hchange]
    rfl
  have hdelimiter : SourceRules.standard.delimiter.isEmpty = false := rfl
  simp only [SourceRules.sectionDatum, f.nameOf?_sectionName, hlookup, hdelimiter, hmembers, Except.map]
  rfl

theorem renamed_member (f : Setting) (d : Datum) :
    SourceRules.standard.renamed f.sectionShape (.record [(.text f.name, d)]) =
      .record [(.text f.name, named f.shape d)] := by
  have hfind : f.sectionShape.fields.find? (fun field => field.1 = Text.lower f.name) =
      some (f.name, f.shape) :=
    find?_of_mem (p := fun n => n = Text.lower f.name) (fields_apart _ f.mem_sections).1 f.mem_fields
      fun n _ => by rw [f.lower_name]
  have hcase : SourceRules.standard.caseMatters = false := rfl
  simp only [SourceRules.renamed, hcase, named, namedMembers, hfind]
  rfl

/-- Anything but the group of the log file is no record. -/
theorem ne_record_of_reads {x : f.Value} (h : f.reader d = .ok x) (hne : f ≠ logFile) (fs : Fields) :
    d ≠ .record fs := by
  rintro rfl
  cases f <;> first | exact absurd rfl hne | exact absurd h nofun

/-! ### The sections of an environment -/

/-- Whether no variable of an environment concerns the section of a setting. -/
def Untouched (f : Setting) (env : Environment) : Prop :=
  ∀ v ∈ env, SourceRules.standard.concerns f.sectionKey (Text.lower v.1) = false

variable {before after : Environment} {name : Text} {high : Fields}

/-- With a variable of a setting the environment makes the section of this setting, and the others as
before. -/
theorem exists_environmentSections (hname : Text.lower name = f.key) (hdatum : f.datum? depth t = some d)
    (halone : f.Untouched (before ++ after)) (h : environmentSections depth (before ++ after) = .ok high) :
    ∃ high', environmentSections depth (before ++ (name, t) :: after) = .ok high' ∧
      Datum.member? f.sectionName high = none ∧
      Datum.member? f.sectionName high' = some (.record [(.text f.name, named f.shape d)]) ∧
      ∀ other, other ≠ f.sectionName → Datum.member? other high' = Datum.member? other high := by
  have hown : SourceRules.standard.concerns f.sectionKey (Text.lower name) = true := by
    rw [hname, f.concerns_own]
  have hsection : SourceRules.standard.sectionDatum depth .environment (seen (before ++ (name, t) :: after))
      f.sectionName f.sectionShape = .ok (some (.record [(.text f.name, d)])) := by
    rw [sectionDatum_seen_alone f.nameOf?_sectionName t hown halone, hname, sectionDatum_key hdatum]
  have hother : ∀ other shape, (other, shape) ∈ Shape.sections → other ≠ f.sectionName →
      SourceRules.standard.sectionDatum depth .environment (seen (before ++ (name, t) :: after)) other shape =
        SourceRules.standard.sectionDatum depth .environment (seen (before ++ after)) other shape := by
    intro other shape hs hne
    have hnot := f.concerns_other hs hne
    exact sectionDatum_seen_insert (sections_apart _ hs).1 t (by rw [hname, hnot])
  have hmakes : ∀ s ∈ Shape.sections, ∃ d, SourceRules.standard.sectionDatum depth .environment
      (seen (before ++ (name, t) :: after)) s.1 s.2 = .ok d := by
    rintro ⟨other, shape⟩ hs
    by_cases hsame : other = f.sectionName
    · have hshape := List.inj_on_of_nodup_map nodup_sections hs f.mem_sections hsame
      exact ⟨_, by rw [hshape]; exact hsection⟩
    · obtain ⟨d, hd, -⟩ := SourceRules.member?_sectionsFrom nodup_sections h hs
      exact ⟨d, (hother other shape hs hsame).trans hd⟩
  obtain ⟨high', hhigh'⟩ := SourceRules.exists_sectionsFrom hmakes
  refine ⟨high', hhigh', ?_, ?_, fun other hne => ?_⟩
  · obtain ⟨d', hd', hmember⟩ := SourceRules.member?_sectionsFrom nodup_sections h f.mem_sections
    obtain rfl := Except.ok.inj (hd'.symm.trans (sectionDatum_seen_none f.nameOf?_sectionName halone))
    exact hmember
  · obtain ⟨d', hd', hmember⟩ := SourceRules.member?_sectionsFrom nodup_sections hhigh' f.mem_sections
    obtain rfl := Except.ok.inj (hd'.symm.trans hsection)
    rw [hmember, Option.map_some, f.renamed_member]
  · by_cases hlisted : other ∈ Shape.sections.map Prod.fst
    · obtain ⟨⟨_, shape⟩, hs, rfl⟩ := List.mem_map.1 hlisted
      obtain ⟨d1, hd1, hmember1⟩ := SourceRules.member?_sectionsFrom nodup_sections h hs
      obtain ⟨d2, hd2, hmember2⟩ := SourceRules.member?_sectionsFrom nodup_sections hhigh' hs
      obtain rfl := Except.ok.inj (hd1.symm.trans ((hother _ shape hs hne).symm.trans hd2))
      rw [hmember1, hmember2]
    · rw [SourceRules.member?_sectionsFrom_of_not_mem hhigh' hlisted,
        SourceRules.member?_sectionsFrom_of_not_mem h hlisted]

end Setting

end Mend.Settings
