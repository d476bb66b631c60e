import Mend.Proofs.Overlay
import Mend.Settings.Source

/-!
# Variables and the sections they concern

A variable concerns a section if its name is the key of the section or goes on behind that key. What the
variables make for a section depends only on those that concern it (`sectionDatum_filter`), so that one more
variable leaves the other sections alone.
-/

namespace Mend

/-! ### Keyed lists -/

namespace Assoc

variable {κ α : Type} [BEq κ] [LawfulBEq κ]

theorem filter_put (p : κ → Bool) (key : κ) (a : α) (es : List (κ × α)) :
    (put key a es).filter (fun e => p e.1) =
      if p key then put key a (es.filter fun e => p e.1) else es.filter fun e => p e.1 := by
  induction es with
  | nil => by_cases hp : p key = true <;> simp [put, hp]
  | cons e es ih =>
    obtain ⟨k, b⟩ := e
    by_cases hk : k = key
    · subst hk
      by_cases hp : p k = true <;> simp [put, hp]
    · by_cases hp : p k = true
      · by_cases hkey : p key = true <;> simp_all [put]
      · by_cases hkey : p key = true <;> simp_all [put]

/-- The entries under some keys are made by what was put under these keys. -/
theorem filter_ofList (p : κ → Bool) (es : List (κ × α)) :
    (ofList es).filter (fun e => p e.1) = ofList (es.filter fun e => p e.1) := by
  -- The entries that were put before are general, as the induction on those to come adds to them.
  have hfold : ∀ done : List (κ × α), (es.foldl (fun done e => put e.1 e.2 done) done).filter (fun e => p e.1) =
      (es.filter fun e => p e.1).foldl (fun done e => put e.1 e.2 done) (done.filter fun e => p e.1) := by
    induction es with
    | nil => exact fun _ => rfl
    | cons e es ih =>
      intro done
      rw [List.foldl_cons, ih, filter_put]
      by_cases hp : p e.1 = true
      · simp only [hp, if_true, List.filter_cons, List.foldl_cons]
      · simp only [hp, if_false, List.filter_cons, Bool.false_eq_true]
  exact hfold []

theorem lookup_filter (p : κ → Bool) {key : κ} (hp : p key = true) (es : List (κ × α)) :
    (es.filter fun e => p e.1).lookup key = es.lookup key := by
  induction es with
  | nil => rfl
  | cons e es ih =>
    obtain ⟨k, b⟩ := e
    by_cases hk : key = k
    · subst hk
      simp [hp]
    · have hother : (key == k) = false := by simpa using hk
      by_cases hpk : p k = true <;> simp [hpk, hother, ih, List.lookup_cons]

end Assoc

namespace Settings

namespace SourceRules

variable {r : SourceRules}

/-! ### Variables of a section -/

/-- Whether a variable with this name is for the section with this key. -/
def concerns (r : SourceRules) (key name : Text) : Bool :=
  name == key || (Text.after? (key ++ r.delimiter) name).isSome

theorem memberVariables_filter {error : SourceError} {start : Text} {shape : Shape} {p : Text → Bool}
    (hp : ∀ name, (Text.after? start name).isSome = true → p name = true) (vs : Variables) (fs : Fields) :
    r.memberVariables depth error start shape (vs.filter fun v => p v.1) fs =
      r.memberVariables depth error start shape vs fs := by
  induction vs generalizing fs with
  | nil => rfl
  | cons v vs ih =>
    obtain ⟨name, value⟩ := v
    cases hafter : Text.after? start name with
    | none =>
      by_cases hname : p name = true
      · simp only [List.filter_cons, hname, if_true, memberVariables, hafter, ih]
      · simp only [List.filter_cons, hname, if_false, Bool.false_eq_true, memberVariables, hafter, ih]
    | some rest =>
      have hname : p name = true := hp name (by rw [hafter]; rfl)
      simp only [List.filter_cons, hname, if_true, memberVariables, hafter, ih]

/-- What the variables make for a section is made by those that concern it. -/
theorem sectionDatum_filter {source : Source} {name key : Text} {shape : Shape} (hkey : r.nameOf? name = some key)
    (vs : Variables) : r.sectionDatum depth source (vs.filter fun v => r.concerns key v.1) name shape =
      r.sectionDatum depth source vs name shape := by
  have hself : r.concerns key key = true := by simp [concerns]
  have hmembers : ∀ fs, r.memberVariables depth (.notJson name source) (key ++ r.delimiter) shape
      (vs.filter fun v => r.concerns key v.1) fs =
        r.memberVariables depth (.notJson name source) (key ++ r.delimiter) shape vs fs :=
    memberVariables_filter (fun n hn => by simp [concerns, hn]) vs
  simp only [sectionDatum, hkey, Assoc.lookup_filter (r.concerns key) hself, hmembers]

/-! ### Sections of a source -/

theorem sectionsFrom_cons_eq_ok {datum : Text → Shape → Except SourceError (Option Datum)} {name : Text}
    {shape : Shape} {rest : List (Text × Shape)} {fs : Fields} :
    r.sectionsFrom datum ((name, shape) :: rest) = .ok fs ↔ ∃ d gs, datum name shape = .ok d ∧
      r.sectionsFrom datum rest = .ok gs ∧
      fs = match d with
        | some d => (.text name, r.renamed shape d) :: gs
        | none => gs := by
  rw [sectionsFrom]
  cases datum name shape with
  | error e => simp
  | ok d =>
    cases r.sectionsFrom datum rest with
    | error e => simp
    | ok gs =>
      simp only [Except.ok.injEq, exists_eq_left', exists_and_left]
      exact eq_comm

/-- A source makes sections if it makes a datum, or none, for each of them. -/
theorem exists_sectionsFrom {datum : Text → Shape → Except SourceError (Option Datum)}
    {sections : List (Text × Shape)} (h : ∀ s ∈ sections, ∃ d, datum s.1 s.2 = .ok d) :
    ∃ fs, r.sectionsFrom datum sections = .ok fs := by
  induction sections with
  | nil => exact ⟨[], rfl⟩
  | cons s sections ih =>
    obtain ⟨d, hd⟩ := h s (List.mem_cons_self ..)
    obtain ⟨gs, hgs⟩ := ih fun s hs => h s (List.mem_cons_of_mem _ hs)
    exact ⟨_, sectionsFrom_cons_eq_ok.2 ⟨d, gs, hd, hgs, rfl⟩⟩

theorem member?_sectionsFrom_of_not_mem {datum : Text → Shape → Except SourceError (Option Datum)}
    {sections : List (Text × Shape)} {fs : Fields} (h : r.sectionsFrom datum sections = .ok fs) {name : Text}
    (hname : name ∉ sections.map Prod.fst) : Datum.member? name fs = none := by
  induction sections generalizing fs with
  | nil =>
    obtain rfl := Except.ok.inj h
    rfl
  | cons s sections ih =>
    obtain ⟨d, gs, -, hgs, rfl⟩ := sectionsFrom_cons_eq_ok.1 h
    rw [List.map_cons, List.mem_cons, not_or] at hname
    have hne : (Atom.text s.1) ≠ .text name := fun heq => hname.1 (Atom.text.inj heq).symm
    cases d with
    | none => exact ih hgs hname.2
    | some d => exact (Datum.member?_cons_of_ne hne _ gs).trans (ih hgs hname.2)

/-- The member of a section is the datum that the source makes for it. -/
theorem member?_sectionsFrom {datum : Text → Shape → Except SourceError (Option Datum)}
    {sections : List (Text × Shape)} (hnames : (sections.map Prod.fst).Nodup) {fs : Fields}
    (h : r.sectionsFrom datum sections = .ok fs) {name : Text} {shape : Shape} (hs : (name, shape) ∈ sections) :
    ∃ d, datum name shape = .ok d ∧ Datum.member? name fs = d.map (r.renamed shape) := by
  induction sections generalizing fs with
  | nil => cases hs
  | cons s sections ih =>
    obtain ⟨d, gs, hd, hgs, rfl⟩ := sectionsFrom_cons_eq_ok.1 h
    rw [List.map_cons, List.nodup_cons] at hnames
    rcases List.mem_cons.1 hs with rfl | hs
    · refine ⟨d, hd, ?_⟩
      cases d with
      | none => exact member?_sectionsFrom_of_not_mem hgs hnames.1
      | some d => exact Datum.member?_cons_self _ gs
    · obtain ⟨d', hd', hmember⟩ := ih hnames.2 hgs hs
      refine ⟨d', hd', ?_⟩
      have hne : (Atom.text s.1) ≠ .text name := fun heq =>
        hnames.1 (Atom.text.inj heq ▸ List.mem_map_of_mem hs)
      cases d with
      | none => exact hmember
      | some d => exact (Datum.member?_cons_of_ne hne _ gs).trans hmember

/-! ### Standard rules -/

/-- The rules for sources where nothing else is said. -/
def standard : SourceRules := {}

/-- A file that uses no reserved name leaves the rules for sources alone. -/
theorem ofFields_of_unreserved {env : Environment} {fs : Fields}
    (h : ∀ name ∈ reservedNames, Datum.member? name fs = none) : ofFields env fs =
      if (Datum.member? ownName fs).isSome then .error (.takenName ownName) else .ok standard := by
  have hreserved : ∀ name ∈ reservedNames, reserved? name fs = none := fun name hname => by
    rw [reserved?, h name hname]
  have hfiles : Datum.member? "_env_file" fs = none := h _ (by decide)
  simp (disch := decide) only [ofFields, readMostParts, readStart, readFiles, readEncoding, readFlag, readText,
    readFolders, hreserved, hfiles]
  split <;> rfl

/-- Without the file of variables there are none from files. -/
theorem fileVariables_of_no_file {env : Environment} {files : FileTree}
    (hfile : files.holdsFile variableFile = .ok false) : fileVariables standard env files = .ok [] := by
  have hnone : variablesOf standard env files variableFile = .ok [] := by
    rw [variablesOf, hfile]
    rfl
  have hfiles : standard.files = [variableFile] := rfl
  rw [fileVariables, hfiles, List.mapM_cons, hnone]
  rfl

end SourceRules

/-- The variables of an environment under the standard rules. -/
def seen (env : Environment) : Variables :=
  SourceRules.standard.variables (env.map fun (name, value) => (name, some value))

theorem filter_seen (p : Text → Bool) (env : Environment) : (seen env).filter (fun v => p v.1) =
    Assoc.ofList ((env.filter fun v => p (Text.lower v.1)).map fun v => (Text.lower v.1, some v.2)) := by
  have hseen : seen env = Assoc.ofList (env.map fun v => (Text.lower v.1, some v.2)) := by
    have hall (vs : Variables) :
        (vs.filter fun v => !(SourceRules.standard.ignoresEmpty && v.2 = some [])) = vs :=
      List.filter_eq_self.2 fun _ _ => rfl
    rw [seen, SourceRules.variables, hall, List.map_map]
    rfl
  rw [hseen, Assoc.filter_ofList, List.filter_map]
  rfl

section Concerned

variable {depth : Nat} {before after env : Environment} {name section_ key : Text} {shape : Shape}

/-- A variable makes nothing for a section that it does not concern. -/
theorem sectionDatum_seen_insert (hkey : SourceRules.standard.nameOf? section_ = some key) (t : Text)
    (h : SourceRules.standard.concerns key (Text.lower name) = false) :
    SourceRules.standard.sectionDatum depth .environment (seen (before ++ (name, t) :: after)) section_ shape =
      SourceRules.standard.sectionDatum depth .environment (seen (before ++ after)) section_ shape := by
  rw [← SourceRules.sectionDatum_filter hkey, ← SourceRules.sectionDatum_filter hkey (seen (before ++ after)),
    filter_seen, filter_seen, List.filter_append, List.filter_append]
  simp only [List.filter_cons, h, if_false, Bool.false_eq_true]

/-- The only variable that concerns a section is the only one that counts for it. -/
theorem sectionDatum_seen_alone (hkey : SourceRules.standard.nameOf? section_ = some key) (t : Text)
    (h : SourceRules.standard.concerns key (Text.lower name) = true)
    (halone : ∀ v ∈ before ++ after, SourceRules.standard.concerns key (Text.lower v.1) = false) :
    SourceRules.standard.sectionDatum depth .environment (seen (before ++ (name, t) :: after)) section_ shape =
      SourceRules.standard.sectionDatum depth .environment [(Text.lower name, some t)] section_ shape := by
  have hbefore : before.filter (fun v => SourceRules.standard.concerns key (Text.lower v.1)) = [] :=
    List.filter_eq_nil_iff.2 fun v hv => Bool.eq_false_iff.1 (halone v (List.mem_append_left _ hv))
  have hafter : after.filter (fun v => SourceRules.standard.concerns key (Text.lower v.1)) = [] :=
    List.filter_eq_nil_iff.2 fun v hv => Bool.eq_false_iff.1 (halone v (List.mem_append_right _ hv))
  rw [← SourceRules.sectionDatum_filter hkey, filter_seen, List.filter_append, hbefore]
  simp only [List.filter_cons, h, if_true, hafter]
  rfl

/-- Without a variable that concerns it a section is not made. -/
theorem sectionDatum_seen_none (hkey : SourceRules.standard.nameOf? section_ = some key)
    (halone : ∀ v ∈ env, SourceRules.standard.concerns key (Text.lower v.1) = false) :
    SourceRules.standard.sectionDatum depth .environment (seen env) section_ shape = .ok none := by
  have hnone : env.filter (fun v => SourceRules.standard.concerns key (Text.lower v.1)) = [] :=
    List.filter_eq_nil_iff.2 fun v hv => Bool.eq_false_iff.1 (halone v hv)
  rw [← SourceRules.sectionDatum_filter hkey, filter_seen, hnone, SourceRules.sectionDatum, hkey]
  rfl

end Concerned

/-- The sections that an environment makes under the standard rules. -/
def environmentSections (depth : Nat) (env : Environment) : Except SourceError Fields :=
  SourceRules.standard.sectionsFrom (SourceRules.standard.sectionDatum depth .environment (seen env)) Shape.sections

/-- Without reserved names and without the file of variables, the sections are the given ones over those of
the environment. -/
theorem collect_eq_ok {depth : Nat} {env : Environment} {files : FileTree} {given ms : Fields}
    (hfile : files.holdsFile variableFile = .ok false)
    (hunreserved : ∀ name ∈ reservedNames, Datum.member? name given = none) :
    collect depth env files given = .ok ms ↔ (Datum.member? ownName given).isSome = false ∧
      ∃ high, environmentSections depth env = .ok high ∧
        ms = Datum.membersOver high (SourceRules.standard.givenSections given) := by
  have hlow : SourceRules.standard.sectionsFrom (SourceRules.standard.sectionDatum depth .file []) Shape.sections =
      .ok [] := rfl
  have hlowest : SourceRules.standard.folderSections depth files = .ok [] := rfl
  unfold collect
  rw [SourceRules.ofFields_of_unreserved hunreserved]
  cases (Datum.member? ownName given).isSome with
  | true => exact ⟨nofun, nofun⟩
  | false =>
    -- The standard rules take the place of those that would be read from the given members.
    change (do
      let own ← SourceRules.standard.fileVariables env files
      let high ← environmentSections depth env
      let low ← SourceRules.standard.sectionsFrom (SourceRules.standard.sectionDatum depth .file own) Shape.sections
      let lowest ← SourceRules.standard.folderSections depth files
      return Datum.membersOver lowest
        (Datum.membersOver low (Datum.membersOver high (SourceRules.standard.givenSections given)))) =
          .ok ms ↔ _
    rw [SourceRules.fileVariables_of_no_file hfile]
    cases environmentSections depth env with
    | error e => simp [bind, Except.bind]
    | ok high =>
      simp only [bind, Except.bind, hlow, hlowest, pure, Except.pure, Datum.membersOver, Except.ok.injEq,
        true_and, exists_eq_left']
      exact eq_comm

end Settings

end Mend
