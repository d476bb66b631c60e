import Mend.Proofs.RuleBatch
import Mend.Proofs.Run.Routing
import Mend.Proofs.Text

/-!
# Which operator the rule for RxJS imports

The rule looks for the member that a message reports as missing. If that is no operator it knows, it takes the
first operator whose name stands anywhere in the message, as a part of another name or of a path too. So it
leaves a diagnostic to the generator only if no operator stands in the message (`operatorImport_fix`).
-/

namespace Mend.Rule

/-! ### Identifiers -/

/-- A class of identifiers, by the characters that begin and continue one. All classes agree within ASCII. -/
structure Identifiers where
  begins : CodePoint → Bool
  continues : CodePoint → Bool
  begins_ascii : ∀ c : CodePoint, c.toNat < 0x80 → begins c = beginsIdentifier c
  continues_ascii : ∀ c : CodePoint, c.toNat < 0x80 → continues c = continuesIdentifier c

namespace Identifiers

/-- The class that the rule goes by. -/
def ofRule : Identifiers := ⟨beginsIdentifier, continuesIdentifier, fun _ _ => rfl, fun _ _ => rfl⟩

def Holds (k : Identifiers) : Text → Prop
  | [] => False
  | c :: m => k.begins c = true ∧ ∀ d ∈ m, k.continues d = true

/-- Whether a text begins by reporting that a member is missing. -/
def Reports (k : Identifiers) (t m : Text) : Prop :=
  k.Holds m ∧ ∃ rest, t = missingExport ++ (" '" : Text) ++ (m ++ .char '\'' :: rest)

/-- Whether a member is the first one that a message reports as missing. -/
def FirstMissing (k : Identifiers) (message m : Text) : Prop :=
  ∃ front t, message = front ++ t ∧ k.Reports t m ∧
    ∀ front' t' m', message = front' ++ t' → k.Reports t' m' → front.length ≤ front'.length

theorem quote_not_mem {k : Identifiers} {m : Text} (h : k.Holds m) : .char '\'' ∉ m := by
  have hbegins : k.begins '\'' = false := k.begins_ascii _ (by decide)
  have hcontinues : k.continues '\'' = false := k.continues_ascii _ (by decide)
  cases m with
  | nil => exact List.not_mem_nil
  | cons c m =>
    intro hmem
    rcases List.mem_cons.1 hmem with rfl | hmem
    · exact absurd h.1 (by simp [hbegins])
    · exact absurd (h.2 _ hmem) (by simp [hcontinues])

theorem Reports.unique {k k' : Identifiers} {t m m' : Text} (h : k.Reports t m) (h' : k'.Reports t m') :
    m = m' := by
  obtain ⟨hm, rest, rfl⟩ := h
  obtain ⟨hm', rest', heq⟩ := h'
  rw [List.append_right_inj] at heq
  exact (Text.append_cons_inj (quote_not_mem hm) (quote_not_mem hm') heq).1

theorem not_reports_nil (k : Identifiers) (m : Text) : ¬ k.Reports [] m := by
  rintro ⟨-, rest, heq⟩
  exact absurd (List.append_eq_nil_iff.1 heq.symm).1 (by decide)

/-- An operator is an identifier of every class. -/
theorem holds_of_mem_operators (k : Identifiers) {op : Text} (h : op ∈ operators) : k.Holds op := by
  have hascii : ∀ op ∈ operators, op ≠ [] ∧ (op.all fun c => c.toNat < 0x80) = true ∧
      (op.take 1).all beginsIdentifier = true ∧ op.tail.all continuesIdentifier = true := by decide
  obtain ⟨hne, hsmall, hhead, htail⟩ := hascii op h
  cases op with
  | nil => exact absurd rfl hne
  | cons c m =>
    have hsmall : ∀ d ∈ c :: m, d.toNat < 0x80 := fun d hd => of_decide_eq_true (List.all_eq_true.1 hsmall d hd)
    refine ⟨?_, fun d hd => ?_⟩
    · rw [k.begins_ascii c (hsmall c List.mem_cons_self)]
      exact List.all_eq_true.1 hhead c List.mem_cons_self
    · rw [k.continues_ascii d (hsmall d (List.mem_cons_of_mem c hd))]
      exact List.all_eq_true.1 htail d hd

end Identifiers

/-! ### The search for the missing member -/

theorem isAlphanum_of_letter {c : CodePoint} (h : ('A' ≤ c ∧ c ≤ 'Z') ∨ ('a' ≤ c ∧ c ≤ 'z')) :
    c.isAlphanum = true := by
  cases c with
  | lone half =>
    -- The letters are below every surrogate.
    have hle : 0xD800 + half.val ≤ 'z'.toNat :=
      h.elim (fun h => Nat.le_trans h.2 (by decide)) fun h => h.2
    exact absurd (Nat.le_trans (Nat.le_add_right _ _) hle) (by decide)
  | char c =>
    have halpha : c.isAlpha = true := by
      rcases h with ⟨ha, hz⟩ | ⟨ha, hz⟩
      · exact Bool.or_eq_true_iff.2 (.inl (decide_eq_true ⟨ha, hz⟩))
      · exact Bool.or_eq_true_iff.2 (.inr (Bool.and_eq_true_iff.2 ⟨decide_eq_true ha, decide_eq_true hz⟩))
    exact Bool.or_eq_true_iff.2 (.inl halpha)

theorem continuesIdentifier_of_begins {c : CodePoint} (h : beginsIdentifier c = true) :
    continuesIdentifier c = true := by
  simp only [beginsIdentifier, Bool.or_eq_true, Bool.and_eq_true, decide_eq_true_eq] at h
  unfold continuesIdentifier Text.isWord
  by_cases hdollar : c = '$'
  · simp [hdollar]
  · have hsmall : c.toNat < 0x80 := by
      rcases h with ((⟨-, hz⟩ | ⟨-, hz⟩) | rfl) | hc
      · exact Nat.lt_of_le_of_lt hz (by decide)
      · exact Nat.lt_of_le_of_lt hz (by decide)
      · decide
      · exact absurd hc hdollar
    rw [if_pos hsmall]
    rcases h with (hletter | rfl) | hc
    · simp [isAlphanum_of_letter hletter]
    · simp
    · exact absurd hc hdollar

theorem memberAt?_eq_some_iff {t m : Text} : memberAt? t = some m ↔ Identifiers.ofRule.Reports t m := by
  unfold memberAt?
  constructor
  · intro h
    obtain ⟨u, hu, h⟩ := Option.bind_eq_some_iff.1 h
    obtain ⟨c, hc, h⟩ := Option.bind_eq_some_iff.1 h
    rw [Text.after?_eq_some_iff] at hu
    obtain ⟨v, rfl⟩ : ∃ v, u = c :: v := by
      cases u with
      | nil => cases hc
      | cons b v => exact ⟨v, congrArg (· :: v) (Option.some.inj hc)⟩
    by_cases hbegins : beginsIdentifier c = true
    · have hcontinues := continuesIdentifier_of_begins hbegins
      rw [if_neg (by simp [hbegins]), List.dropWhile_cons_of_pos hcontinues,
        List.takeWhile_cons_of_pos hcontinues] at h
      split at h
      · next hquote =>
        obtain rfl := Option.some.inj h
        obtain ⟨rest, hrest⟩ : ∃ rest, v.dropWhile continuesIdentifier = .char '\'' :: rest := by
          cases hdrop : v.dropWhile continuesIdentifier with
          | nil => simp [hdrop] at hquote
          | cons b rest => exact ⟨rest, by simpa [hdrop] using hquote⟩
        refine ⟨⟨hbegins, fun d hd => List.mem_takeWhile_imp hd⟩, rest, ?_⟩
        rw [hu, List.cons_append, ← hrest, List.takeWhile_append_dropWhile]
      · cases h
    · rw [if_pos (by simpa using hbegins)] at h
      cases h
  · rintro ⟨hm, rest, rfl⟩
    cases m with
    | nil => exact hm.elim
    | cons c m =>
      obtain ⟨hbegins, hrest⟩ : beginsIdentifier c = true ∧ ∀ d ∈ m, continuesIdentifier d = true := hm
      have hall : ∀ d ∈ c :: m, continuesIdentifier d = true :=
        List.forall_mem_cons.2 ⟨continuesIdentifier_of_begins hbegins, hrest⟩
      obtain ⟨htake, hdrop⟩ := Text.span_append hall
        (Text.forall_head?_cons (c := '\'') (p := continuesIdentifier) (by decide) rest)
      show Option.bind (Text.after? _ _) _ = _
      rw [Text.after?_append, Option.bind_some]
      show (if !beginsIdentifier c then none else _) = _
      rw [if_neg (by simp [hbegins]), hdrop, htake]
      rfl

theorem missingMember?_eq_some_iff {t m : Text} :
    missingMember? t = some m ↔ Identifiers.ofRule.FirstMissing t m := by
  induction t generalizing m with
  | nil =>
    refine iff_of_false (by simp [missingMember?]) ?_
    rintro ⟨front, t, heq, hreports, -⟩
    rw [(List.append_eq_nil_iff.1 heq.symm).2] at hreports
    exact Identifiers.not_reports_nil _ _ hreports
  | cons c t ih =>
    unfold missingMember?
    cases hhere : memberAt? (c :: t) with
    | some m' =>
      have hreports := memberAt?_eq_some_iff.1 hhere
      rw [Option.some_or]
      constructor
      · rintro heq
        obtain rfl := Option.some.inj heq
        exact ⟨[], c :: t, rfl, hreports, fun _ _ _ _ _ => Nat.zero_le _⟩
      · rintro ⟨front, t', heq, hfirst, hleast⟩
        have hnil : front = [] := List.eq_nil_of_length_eq_zero (Nat.le_zero.1 (hleast [] _ _ rfl hreports))
        rw [hnil, List.nil_append] at heq
        rw [← heq] at hfirst
        rw [hreports.unique hfirst]
    | none =>
      have hnone : ∀ m, ¬ Identifiers.ofRule.Reports (c :: t) m := by
        intro m hreports
        rw [memberAt?_eq_some_iff.2 hreports] at hhere
        cases hhere
      rw [Option.none_or, ih]
      constructor
      · rintro ⟨front, t', rfl, hreports, hleast⟩
        refine ⟨c :: front, t', rfl, hreports, fun front' u m' heq hother => ?_⟩
        cases front' with
        | nil =>
          rw [List.nil_append] at heq
          exact absurd (heq ▸ hother) (hnone m')
        | cons b front' => exact Nat.succ_le_succ (hleast front' u m' (List.tail_eq_of_cons_eq heq) hother)
      · rintro ⟨front, t', heq, hreports, hleast⟩
        cases front with
        | nil =>
          rw [List.nil_append] at heq
          exact absurd (heq ▸ hreports) (hnone m)
        | cons b front =>
          refine ⟨front, t', List.tail_eq_of_cons_eq heq, hreports, fun front' u m' hu hother => ?_⟩
          exact Nat.le_of_succ_le_succ (hleast (c :: front') u m' (congrArg (List.cons c) hu) hother)

theorem isSome_missingMember?_append (front : Text) {t m : Text} (h : Identifiers.ofRule.Reports t m) :
    (missingMember? (front ++ t)).isSome = true := by
  induction front with
  | nil =>
    have hfirst : Identifiers.ofRule.FirstMissing t m := ⟨[], t, rfl, h, fun _ _ _ _ _ => Nat.zero_le _⟩
    rw [List.nil_append, missingMember?_eq_some_iff.2 hfirst]
    rfl
  | cons c front ih =>
    rw [List.cons_append, missingMember?, Option.isSome_or, ih, Bool.or_true]

/-- An operator that is the first missing member in one class of identifiers is so in the class of the rule, unless
a name that is none in the first class stands before it. -/
theorem firstMissing_of_mem_operators {k : Identifiers} {message m : Text} (h : k.FirstMissing message m)
    (hm : m ∈ operators) :
    ∃ m', Identifiers.ofRule.FirstMissing message m' ∧ (m' = m ∨ (m' ∉ operators ∧ ¬ k.Holds m')) := by
  obtain ⟨front, t, rfl, hreports, hleast⟩ := h
  have hrule : Identifiers.ofRule.Reports t m := ⟨Identifiers.holds_of_mem_operators _ hm, hreports.2⟩
  obtain ⟨m', hm'⟩ := Option.isSome_iff_exists.1 (isSome_missingMember?_append front hrule)
  have hfirst := missingMember?_eq_some_iff.1 hm'
  refine ⟨m', hfirst, ?_⟩
  obtain ⟨front', t', heq, hreports', hleast'⟩ := hfirst
  by_cases hholds : k.Holds m'
  · -- both searches stop at the same place
    have hlength : front.length = front'.length := Nat.le_antisymm
      (hleast front' t' m' heq ⟨hholds, hreports'.2⟩) (hleast' front t m rfl hrule)
    obtain ⟨-, rfl⟩ := List.append_inj heq hlength
    exact .inl (hreports'.unique hrule)
  · exact .inr ⟨fun hmem => hholds (Identifiers.holds_of_mem_operators k hmem), hholds⟩

/-! ### The patch of an operator -/

def oldImport (op : Text) : Text := "import 'rxjs/add/operator/" ++ op ++ "';"

def newImport (op : Text) : Text := "import \x7b " ++ op ++ " \x7d from 'rxjs/operators';"

/-- The patch that replaces the old import of an operator by the new one. -/
def operatorPatch (d : Diagnostic) (op : Text) : Patch :=
  .replacingLines d.file d.line [oldImport op] [newImport op] ("Update RxJS " ++ op ++ " operator import")

/-- The patch for an operator, or the failure of the rule where the number of the line cannot be printed. -/
def operatorFix (d : Diagnostic) (op : Text) : Except RuleError (Option Patch) :=
  replaceLines d [oldImport op] [newImport op] ("Update RxJS " ++ op ++ " operator import")

theorem operatorFix_of_printable {d : Diagnostic} (hline : (Number.print d.line).isOk = true) (op : Text) :
    operatorFix d op = .ok (some (operatorPatch d op)) :=
  replaceLines_of_printable hline _ _ _

theorem operatorFix_ne_none (d : Diagnostic) (op : Text) : operatorFix d op ≠ .ok none := by
  unfold operatorFix replaceLines
  split <;> simp

theorem fix_operatorImport (d : Diagnostic) :
    operatorImport.fix d = match operator? d with
      | none => .ok none
      | some op => operatorFix d op := rfl

theorem fix_operatorImport_eq_none_iff (d : Diagnostic) :
    operatorImport.fix d = .ok none ↔ operator? d = none := by
  rw [fix_operatorImport]
  cases operator? d with
  | none => simp
  | some op => simp [operatorFix_ne_none]

theorem hunks_operatorPatch {d : Diagnostic} {op : Text} (hop : op ∈ operators) (hfile : .char '\n' ∉ d.file)
    (hline : (Number.print d.line).isOk = true) :
    ∃ h, Diff.hunks (operatorPatch d op).diff = .ok [h] ∧ h.oldStart = d.line ∧ h.removed = [oldImport op] ∧
      h.added = [newImport op] := by
  have hx : ∀ op ∈ operators, Diff.Replacement [oldImport op] [newImport op] := by decide
  have hbody : ∀ op ∈ operators,
      ((Diff.replacementBody [oldImport op] [newImport op]).filter Diff.isRemoval).map Diff.payload =
        [oldImport op] ∧
      ((Diff.replacementBody [oldImport op] [newImport op]).filter Diff.isAddition).map Diff.payload =
        [newImport op] := by decide
  have hhunks := Diff.hunks_replacingLines (hx op hop).legible hfile (Diff.length_of_print hline)
    ("Update RxJS " ++ op ++ " operator import")
  exact ⟨_, hhunks, rfl, hbody op hop⟩

/-! ### Which operator is taken -/

theorem Identifiers.FirstMissing.isInfix {k : Identifiers} {message m : Text} (h : k.FirstMissing message m) :
    m <:+: message := by
  obtain ⟨front, t, hfront, ⟨-, rest, rfl⟩, -⟩ := h
  exact ⟨front ++ (missingExport ++ " '"), .char '\'' :: rest, by simp [hfront]⟩

theorem mentioned_of_operator? {d : Diagnostic} {op : Text} (h : operator? d = some op) : op <:+: d.message := by
  unfold operator? at h
  split at h
  · next found hfound =>
    obtain rfl := Option.some.inj h
    obtain ⟨hmissing, -⟩ := Option.filter_eq_some_iff.1 hfound
    exact (missingMember?_eq_some_iff.1 hmissing).isInfix
  · exact Text.contains_iff.1 (List.find?_some h)

theorem operator?_eq_none_iff {d : Diagnostic} : operator? d = none ↔ ∀ op ∈ operators, ¬ op <:+: d.message := by
  constructor
  · intro h op hop hmentioned
    unfold operator? at h
    split at h
    · cases h
    · exact List.find?_eq_none.1 h op hop (Text.contains_iff.2 hmentioned)
  · intro h
    cases hop : operator? d with
    | none => rfl
    | some op => exact absurd (mentioned_of_operator? hop) (h op (mem_operators_of_operator? hop))

theorem operator?_of_firstMissing {d : Diagnostic} {m : Text} (h : Identifiers.ofRule.FirstMissing d.message m) :
    operator? d = if m ∈ operators then some m else operators.find? (mentions d) := by
  unfold operator?
  rw [missingMember?_eq_some_iff.2 h]
  by_cases hm : m ∈ operators
  · rw [if_pos hm, Option.filter_some_pos (by simpa using hm)]
  · rw [if_neg hm, Option.filter_some_neg (by simpa using hm)]

theorem fixes_operatorImport_eq_nil_iff {c : Cluster} :
    operatorImport.fixes c = .ok [] ↔ ∀ d ∈ c.instances, ∀ op ∈ operators, ¬ op <:+: d.message := by
  rw [fixes_eq_nil_iff]
  refine forall₂_congr fun d _ => ?_
  rw [fix_operatorImport_eq_none_iff, operator?_eq_none_iff]

/-- What the rule makes of a message that reports a member as missing: a patch for an operator that stands in it,
which is the member itself if this is an operator and the rule's search stops there too. -/
theorem operatorImport_fix (k : Identifiers) {d : Diagnostic} {m : Text} (h : k.FirstMissing d.message m) :
    (∀ p, operatorImport.fix d = .ok (some p) →
      ∃ op ∈ operators, op <:+: d.message ∧ p = operatorPatch d op) ∧
    (m ∈ operators → operatorImport.fix d = operatorFix d m ∨
      ∃ m', Identifiers.ofRule.FirstMissing d.message m' ∧ ¬ k.Holds m' ∧
        ∃ op ∈ operators.find? (mentions d), operatorImport.fix d = operatorFix d op) ∧
    (operatorImport.fix d = .ok none ↔ ∀ op ∈ operators, ¬ op <:+: d.message) ∧
    ((Number.print d.line).isOk = true → ∀ op, operatorFix d op = .ok (some (operatorPatch d op))) ∧
    (∀ op ∈ operators, .char '\n' ∉ d.file → (Number.print d.line).isOk = true →
      ∃ hunk, Diff.hunks (operatorPatch d op).diff = .ok [hunk] ∧ hunk.oldStart = d.line ∧
        hunk.removed = [oldImport op] ∧ hunk.added = [newImport op]) ∧
    (∀ {σ : Type} (r : Repair σ) (c : Cluster),
      RuleRegistry.firstAccepting c.representative r.rules.rules = .ok (some operatorImport) →
      (r.isPending c = true ↔ ∀ e ∈ c.instances, ∀ op ∈ operators, ¬ op <:+: e.message)) := by
  refine ⟨?_, ?_, ?_, operatorFix_of_printable, fun op hop => hunks_operatorPatch hop, ?_⟩
  · intro p hp
    obtain ⟨op, hop, hmade⟩ := operator_of_fix hp
    exact ⟨op, mem_operators_of_operator? hop, mentioned_of_operator? hop, patch_of_replaceLines hmade⟩
  · intro hm
    obtain ⟨m', hfirst, hcases⟩ := firstMissing_of_mem_operators h hm
    have htaken := operator?_of_firstMissing hfirst
    rcases hcases with rfl | ⟨hunknown, hholds⟩
    · rw [if_pos hm] at htaken
      exact .inl (by rw [fix_operatorImport, htaken])
    · rw [if_neg hunknown] at htaken
      have hsome : (operators.find? (mentions d)).isSome := List.find?_isSome.2
        ⟨m, hm, Text.contains_iff.2 h.isInfix⟩
      obtain ⟨op, hop⟩ := Option.isSome_iff_exists.1 hsome
      exact .inr ⟨m', hfirst, hholds, op, hop, by rw [fix_operatorImport, htaken, hop]⟩
  · rw [fix_operatorImport_eq_none_iff, operator?_eq_none_iff]
  · intro σ r c hrule
    rw [Repair.isPending_iff, RuleRegistry.fixesFor, hrule, ← fixes_operatorImport_eq_nil_iff]

theorem operatorImport_fix_of_tap :
    let d : Diagnostic := ⟨"a.ts", 1, "Module 'rxjs' has no exported member 'tap'.", .error, Nat.succ_pos _⟩
    Identifiers.ofRule.FirstMissing d.message "tap" ∧
      operatorImport.fix d = .ok (some (operatorPatch d "tap")) := by
  intro d
  have hfirst : Identifiers.ofRule.FirstMissing d.message "tap" := missingMember?_eq_some_iff.1 (by decide)
  obtain ⟨-, hknown, -, hprintable, -⟩ := operatorImport_fix Identifiers.ofRule hfirst
  rcases hknown (by decide) with hfix | ⟨m', ⟨front, t, -, hreports, -⟩, hholds, -⟩
  · exact ⟨hfirst, hfix.trans (hprintable (by decide) _)⟩
  · exact absurd hreports.1 hholds

/-- The member that is missing is no operator, but its name begins with one. -/
theorem operatorImport_fix_of_mapTo :
    let d : Diagnostic := ⟨"a.ts", 1, "Module 'rxjs' has no exported member 'mapTo'.", .error, Nat.succ_pos _⟩
    Identifiers.ofRule.FirstMissing d.message "mapTo" ∧ ("mapTo" : Text) ∉ operators ∧
      operatorImport.fix d = .ok (some (operatorPatch d "map")) := by
  intro d
  have hfirst : Identifiers.ofRule.FirstMissing d.message "mapTo" := missingMember?_eq_some_iff.1 (by decide)
  refine ⟨hfirst, by decide, ?_⟩
  have hmap : operator? d = some "map" := by
    rw [operator?_of_firstMissing hfirst]
    decide
  rw [fix_operatorImport, hmap]
  exact operatorFix_of_printable (by decide) _

end Mend.Rule
