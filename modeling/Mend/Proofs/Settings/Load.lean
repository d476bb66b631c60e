import Mend.Command
import Mend.Proofs.Schema

/-!
# What loading takes

Settings are loaded exactly where every step of the way succeeds: the file has a text, all references in the
text are filled, its outermost mapping has texts as names, the sources can be collected, every section is
read, and the settings of the model are there if the generator needs them.
-/

namespace Mend

namespace Template

variable {env env' : Environment}

/-- A filled template stays as it is when there are more variables. -/
theorem fill_of_le (hle : ∀ name value, env.lookup name = some value → env'.lookup name = some value)
    {t filled : Text} (h : fill env t = .ok filled) : fill env' t = .ok filled := by
  have hpieces : ∀ (ps : List Piece) (filled : Text), fillPieces env ps = .ok filled →
      fillPieces env' ps = .ok filled := by
    intro ps
    induction ps with
    | nil => exact fun _ h => h
    | cons p ps ih =>
      intro filled h
      cases p with
      | char c =>
        cases hrest : fillPieces env ps with
        | error m => simp [fillPieces, hrest] at h
        | ok rest => simpa [fillPieces, ih rest hrest, hrest] using h
      | reference name =>
        cases hvalue : env.lookup name with
        | none => simp [fillPieces, hvalue] at h
        | some value =>
          cases hrest : fillPieces env ps with
          | error m => simp [fillPieces, hvalue, hrest] at h
          | ok rest => simpa [fillPieces, hvalue, hle name value hvalue, ih rest hrest, hrest] using h
  exact hpieces _ _ h

end Template

namespace Settings

variable {depth : Nat} {depths : Depths} {env : Environment} {files : FileTree} {s : Settings}

theorem exists_ok_of_map {ε α β : Type} {r : Except ε α} {f : α → β} {b : β}
    (h : r.toOption.map f = some b) : ∃ a, r = .ok a ∧ f a = b := by
  cases r with
  | error e => cases h
  | ok a => exact ⟨a, rfl, Option.some.inj h⟩

/-- Whether the settings of the model are there if the generator needs them. -/
def Ready (s : Settings) : Prop :=
  s.run.useGenerator = true → s.provider.name = onlyProvider → s.provider.anthropic.isSome = true

theorem checkModel_eq_ok {t : Settings} : checkModel s = .ok t ↔ s = t ∧ Ready s := by
  unfold checkModel
  split
  · next h =>
    simp only [Bool.and_eq_true, decide_eq_true_eq, Option.isNone_iff_eq_none] at h
    refine ⟨nofun, fun ⟨_, hready⟩ => ?_⟩
    have hmodel := hready h.1.1 h.1.2
    rw [h.2] at hmodel
    cases hmodel
  · next h =>
    rw [Except.ok.injEq]
    refine ⟨fun hst => ⟨hst, fun hgenerator hname => ?_⟩, And.left⟩
    rw [← Option.not_isNone]
    exact Bool.not_eq_true' _ ▸ Bool.eq_false_iff.2 fun hnone => h (by simp [hgenerator, hname, hnone])

theorem fromSources_eq_ok {given : Fields} : fromSources depth env files given = .ok s ↔
    ∃ fs, collect depth env files given = .ok fs ∧ Settings.ofMembers (.ofFields fs) = .ok s := by
  unfold fromSources
  cases collect depth env files given with
  | error e => simp
  | ok fs =>
    simp only [Except.ok.injEq, exists_eq_left']
    cases hread : Settings.ofMembers (.ofFields fs) with
    | error issues => exact ⟨nofun, nofun⟩
    | ok t => exact ⟨fun h => congrArg Schema.Checked.ok (Except.ok.inj h),
        fun h => congrArg Except.ok (Schema.Checked.ok_inj h)⟩

theorem ofDatum_eq_ok {given : Datum} : ofDatum depth env files given = .ok s ↔
    ∃ fs, given.opened = .record fs ∧ fs.all (fun f => f.1.isString) = true ∧
      fromSources depth env files fs = .ok s := by
  unfold ofDatum
  cases given.opened with
  | record fs =>
    simp only [Datum.record.injEq, exists_eq_left']
    by_cases hnames : fs.all (fun f => f.1.isString) = true
    · rw [if_pos hnames]
      cases fromSources depth env files fs <;> simp [hnames]
    · rw [if_neg hnames]
      simp [hnames]
  | _ => simp

theorem ofText_eq_ok {t : Text} : ofText depths env files t = .ok s ↔
    ∃ given, mappingOfText depths.yaml env t = .ok given ∧ ofDatum depths.json env files given = .ok s ∧
      Ready s := by
  unfold ofText
  cases hmapping : mappingOfText depths.yaml env t with
  | error e => simp
  | ok given =>
    cases hdatum : ofDatum depths.json env files given with
    | error e => simp [hdatum]
    | ok r =>
      simp only [checkModel_eq_ok, Except.ok.injEq, exists_eq_left', hdatum]
      exact ⟨fun ⟨h, hr⟩ => ⟨h, h ▸ hr⟩, fun ⟨h, hr⟩ => ⟨h, h ▸ hr⟩⟩

theorem mappingOfText_eq_ok {t : Text} {given : Datum} : mappingOfText depth env t = .ok given ↔
    ∃ yaml, Template.fill env t = .ok yaml ∧ mappingOfYaml depth yaml = .ok given := by
  unfold mappingOfText
  cases Template.fill env t <;> simp

theorem ofFile_eq_ok {path : Path} : ofFile depths env files path = .ok s ↔
    ∃ t, textOfFile files path = .ok t ∧ ofText depths env files t = .ok s := by
  unfold ofFile
  cases textOfFile files path <;> simp

/-- Whether the outermost mapping of a settings file has these members. -/
def FileGives (depth : Nat) (env : Environment) (files : FileTree) (path : Path) (fs : Fields) : Prop :=
  ∃ t given, textOfFile files path = .ok t ∧ mappingOfText depth env t = .ok given ∧ given.opened = .record fs

/-- A file from which settings are loaded gives members. -/
theorem exists_fileGives {path : Path} (h : ofFile depths env files path = .ok s) :
    ∃ fs, FileGives depths.yaml env files path fs := by
  obtain ⟨t, htext, h⟩ := ofFile_eq_ok.1 h
  obtain ⟨given, hgiven, hdatum, -⟩ := ofText_eq_ok.1 h
  obtain ⟨fs, hopened, -⟩ := ofDatum_eq_ok.1 hdatum
  exact ⟨fs, t, given, htext, hgiven, hopened⟩

/-- Whether a datum is a record that passes a test. -/
def passes (test : Fields → Bool) (d : Datum) : Bool :=
  match d.opened with
  | .record fs => test fs
  | _ => false

/-- What a file gives can be examined by a test. -/
theorem exists_fileGives_of_test {path : Path} {test : Fields → Bool}
    (h : ((textOfFile files path).bind (mappingOfText depth env)).toOption.any (passes test) = true) :
    ∃ fs, FileGives depth env files path fs ∧ test fs = true := by
  cases htext : textOfFile files path with
  | error e => rw [htext] at h; cases h
  | ok t =>
    cases hgiven : mappingOfText depth env t with
    | error e => rw [htext, Except.bind, hgiven] at h; cases h
    | ok given =>
      rw [htext, Except.bind, hgiven] at h
      change passes test given = true at h
      unfold passes at h
      split at h
      · next fs hopened => exact ⟨fs, ⟨t, given, htext, hgiven, hopened⟩, h⟩
      · cases h

/-- Settings are loaded from what the file gives. -/
theorem FileGives.ofFile_eq_ok {path : Path} {fs : Fields} (h : FileGives depths.yaml env files path fs) :
    ofFile depths env files path = .ok s ↔
      fs.all (fun f => f.1.isString) = true ∧ fromSources depths.json env files fs = .ok s ∧ Ready s := by
  obtain ⟨t, given, htext, hgiven, hopened⟩ := h
  constructor
  · intro hfile
    obtain ⟨t', htext', hfile⟩ := Settings.ofFile_eq_ok.1 hfile
    obtain rfl := Except.ok.inj (htext.symm.trans htext')
    obtain ⟨given', hgiven', hdatum, hready⟩ := ofText_eq_ok.1 hfile
    obtain rfl := Except.ok.inj (hgiven.symm.trans hgiven')
    obtain ⟨fs', hopened', hnames, hsources⟩ := ofDatum_eq_ok.1 hdatum
    obtain rfl := Datum.record.inj (hopened.symm.trans hopened')
    exact ⟨hnames, hsources, hready⟩
  · rintro ⟨hnames, hsources, hready⟩
    have hdatum := ofDatum_eq_ok.2 ⟨fs, hopened, hnames, hsources⟩
    exact Settings.ofFile_eq_ok.2 ⟨t, htext, ofText_eq_ok.2 ⟨given, hgiven, hdatum, hready⟩⟩

/-- What a file gives stays when there are more variables. -/
theorem FileGives.mono {env' : Environment} {path : Path} {fs : Fields} (h : FileGives depth env files path fs)
    (hle : ∀ name value, env.lookup name = some value → env'.lookup name = some value) :
    FileGives depth env' files path fs := by
  obtain ⟨t, given, htext, hgiven, hopened⟩ := h
  obtain ⟨yaml, hfill, hyaml⟩ := mappingOfText_eq_ok.1 hgiven
  exact ⟨t, given, htext, mappingOfText_eq_ok.2 ⟨yaml, Template.fill_of_le hle hfill, hyaml⟩, hopened⟩

/-- Without a settings file the generator needs the settings of the model, or it is off. -/
theorem withoutFile_eq_ok : withoutFile depth env files = .ok s ↔
    ∃ base model, fromSources depth env files [] = .ok base ∧ modelFrom env base.provider = .ok model ∧
      s = { base with
        provider := { base.provider with anthropic := model }
        run := { base.run with useGenerator := base.run.useGenerator && model.isSome } } := by
  unfold withoutFile
  cases hsources : fromSources depth env files [] with
  | error e => simp
  | ok base =>
    cases hmodel : modelFrom env base.provider with
    | error e => simp [hmodel]
    | ok model => simp [hmodel, eq_comm]

/-- The settings that the user chose are loaded settings under the choices, with a budget of at least one. -/
theorem exists_base_of_choose {c : Choices} (h : choose depths env files c = .ok s) :
    ∃ base, ((∃ path, c.config = some path ∧ ofFile depths env files path = .ok base) ∨
        c.config = none ∧ withoutFile depths.json env files = .ok base) ∧
      (∀ n ∈ c.maxConsultations, 1 ≤ n) ∧ s = { base with run := base.run.under c } ∧ Ready s := by
  unfold choose at h
  split at h
  · cases h
  · next base hbase =>
    have hloaded : (∃ path, c.config = some path ∧ ofFile depths env files path = .ok base) ∨
        c.config = none ∧ withoutFile depths.json env files = .ok base := by
      cases hconfig : c.config with
      | some path => exact .inl ⟨path, rfl, by rw [hconfig] at hbase; exact hbase⟩
      | none => exact .inr ⟨rfl, by rw [hconfig] at hbase; exact hbase⟩
    split at h
    · cases h
    · next hbudget =>
      obtain ⟨rfl, hready⟩ := checkModel_eq_ok.1 h
      refine ⟨base, hloaded, fun n hn => ?_, rfl, hready⟩
      exact Int.not_lt.1 fun hlt => hbudget ((Option.any_eq_true _ _).2 ⟨n, hn, decide_eq_true hlt⟩)

end Settings

end Mend
