import Mend.Proofs.PatternKey.Rewording

/-!
# What a path leaves in a key

Numbers are masked before paths, and no character of their mask belongs to a path. So a path ends, as far as
the mask for paths goes, at the first digit of a name: the rest of this name stays in the key, with its
numbers masked, and the names after it are a path of their own. A path without digits leaves the mask alone.
Two paths in the same place of a message give the same key if and only if they leave the same.
-/

namespace Mend.PatternKey

/-- A path: names with a slash in front of each. -/
structure PathText where
  names : List Text
  ne_nil : names ≠ []
  name_ne_nil : ∀ n ∈ names, n ≠ []
  name_chars : ∀ n ∈ names, n.all isPathChar = true

/-- Names with a slash in front of each. -/
def slashed (names : List Text) : Text := names.flatMap (.char '/' :: ·)

def PathText.text (p : PathText) : Text := slashed p.names

theorem PathText.isPathChar_of_mem (p : PathText) {n : Text} (hn : n ∈ p.names) :
    ∀ c ∈ n, isPathChar c = true :=
  List.all_eq_true.1 (p.name_chars n hn)

/-- The part of a name before its first digit. -/
def stem (n : Text) : Text := n.takeWhile fun c => !Text.isDigit c

/-- The part of a name from its first digit on. -/
def numbered (n : Text) : Text := n.dropWhile fun c => !Text.isDigit c

/-- What names leave, where the argument tells whether the mask for the names before them goes on. A name
that begins with a digit leaves its slash as well; a name without digits lets the mask go on. -/
def residueFrom : Bool → List Text → Text
  | _, [] => []
  | inside, n :: ns =>
    (if (stem n).isEmpty then [.char '/'] else if inside then [] else pathMask) ++ maskNumbers (numbered n) ++
      residueFrom (numbered n).isEmpty ns

/-- What a path leaves. -/
def PathText.residue (p : PathText) : Text := residueFrom false p.names

/-! ### Characters of paths -/

theorem ne_slash_of_isPathChar {c : CodePoint} (h : isPathChar c = true) : c ≠ '/' := by
  rintro rfl
  exact absurd h (by decide)

theorem isBlank_eq_false_of_isPathChar {c : CodePoint} (h : isPathChar c = true) : Text.isBlank c = false := by
  have hcodes : ∀ n ∈ List.range' 0x09 5 ++ List.range' 0x1C 5 ++ List.range' 0x2000 11 ++
      [0x85, 0xA0, 0x1680, 0x2028, 0x2029, 0x202F, 0x205F, 0x3000], isPathChar (CodePoint.ofNat n) = false := by
    decide +kernel
  cases hc : Text.isBlank c with
  | false => rfl
  | true =>
    have hno := hcodes c.toNat (by
      simp only [Text.isBlank, Bool.or_eq_true, Bool.and_eq_true, decide_eq_true_eq, beq_iff_eq] at hc
      simp only [List.mem_append, List.mem_range'_1, List.mem_cons, List.not_mem_nil, or_false]
      omega)
    rw [CodePoint.ofNat_toNat, h] at hno
    cases hno

/-! ### Numbers -/

theorem maskNumbersFrom_append {u : Text} (hu : ∀ c ∈ u.head?, Text.isDigit c = false) (inside : Bool)
    (t : Text) :
    maskNumbersFrom inside (t ++ u) = maskNumbersFrom inside t ++ maskNumbers u := by
  induction t generalizing inside with
  | nil =>
    cases u with
    | nil => rfl
    | cons c u =>
      have hc : Text.isDigit c = false := hu c rfl
      simp [maskNumbers, maskNumbersFrom, hc]
  | cons c t ih =>
    rw [List.cons_append, maskNumbersFrom, maskNumbersFrom, ih true, ih false]
    split
    · split
      · rfl
      · rw [List.append_assoc]
    · rfl

/-! ### Paths -/

/-- Whether no path goes on into a text. -/
def EndsPath (t : Text) : Prop := ∀ c ∈ t.head?, c ≠ '/' ∧ isPathChar c = false

theorem maskPathsFrom_of_endsPath {t : Text} (ht : EndsPath t) (inside : Bool) :
    maskPathsFrom inside t = maskPaths t := by
  cases t with
  | nil => rfl
  | cons c t =>
    obtain ⟨hslash, hchar⟩ := ht c rfl
    simp [maskPaths, maskPathsFrom, hslash, hchar]

theorem beginsName_append {t : Text} (ht : EndsPath t) (s : Text) : beginsName (s ++ t) = beginsName s := by
  cases s with
  | nil =>
    cases t with
    | nil => rfl
    | cons c t => exact (ht c rfl).2
  | cons c s => rfl

theorem maskPathsFrom_append {t : Text} (ht : EndsPath t) (inside : Bool) (s : Text) :
    maskPathsFrom inside (s ++ t) = maskPathsFrom inside s ++ maskPaths t := by
  induction s generalizing inside with
  | nil => exact maskPathsFrom_of_endsPath ht inside
  | cons c s ih =>
    rw [List.cons_append, maskPathsFrom, maskPathsFrom, beginsName_append ht, ih true, ih false]
    split
    · split
      · rfl
      · rw [List.append_assoc]
    · split
      · rfl
      · rfl

theorem maskPaths_append_of_no_slash {s : Text} (hs : .char '/' ∉ s) (t : Text) :
    maskPaths (s ++ t) = s ++ maskPaths t := by
  refine Text.append_of_keeps (fun c hc u => ?_) (fun c hc => ne_of_mem_of_not_mem hc hs) t
  simp [maskPaths, maskPathsFrom, hc]

theorem maskPathsFrom_names {s : Text} (hs : ∀ c ∈ s, isPathChar c = true) (t : Text) :
    maskPathsFrom true (s ++ t) = maskPathsFrom true t := by
  induction s with
  | nil => rfl
  | cons c s ih =>
    obtain ⟨hc, hs⟩ := List.forall_mem_cons.1 hs
    have hslash := ne_slash_of_isPathChar hc
    rw [List.cons_append, maskPathsFrom, if_neg (by simp [hslash]), if_pos (by simp [hc]), ih hs]

/-! ### Names -/

theorem stem_append_numbered (n : Text) : stem n ++ numbered n = n := List.takeWhile_append_dropWhile

theorem no_digit_of_mem_stem {n : Text} {c : CodePoint} (hc : c ∈ stem n) : Text.isDigit c = false := by
  simpa using List.all_eq_true.1 List.all_takeWhile c hc

theorem isDigit_of_head_numbered {n : Text} : ∀ c ∈ (numbered n).head?, Text.isDigit c = true := by
  intro c hc
  simpa using Text.head?_dropWhile (fun c => !Text.isDigit c) n c hc

theorem numbered_eq_nil_iff {n : Text} : numbered n = [] ↔ ∀ c ∈ n, Text.isDigit c = false := by
  rw [numbered, List.dropWhile_eq_nil_iff]
  simp

theorem maskNumbers_name (n : Text) : maskNumbers n = stem n ++ maskNumbers (numbered n) := by
  rw [← maskNumbers_append_of_no_digit fun c hc => no_digit_of_mem_stem hc, stem_append_numbered]

theorem exists_maskNumbers_numbered {n : Text} (h : numbered n ≠ []) :
    ∃ rest, maskNumbers (numbered n) = numberMask ++ rest := by
  obtain ⟨c, t, ht⟩ := List.exists_cons_of_ne_nil h
  have hc : Text.isDigit c = true := isDigit_of_head_numbered c (by rw [ht]; rfl)
  refine ⟨maskNumbersFrom true t, ?_⟩
  rw [ht, maskNumbers, maskNumbersFrom, if_pos hc]
  rfl

theorem maskNumbers_slashed (n : Text) (ns : List Text) :
    maskNumbers (slashed (n :: ns)) =
      .char '/' :: (stem n ++ (maskNumbers (numbered n) ++ maskNumbers (slashed ns))) := by
  have hhead : ∀ c ∈ (slashed ns).head?, Text.isDigit c = false := by
    cases ns with
    | nil => exact nofun
    | cons m ms => exact Text.forall_head?_cons (by decide) _
  have hcons : slashed (n :: ns) = [.char '/'] ++ (n ++ slashed ns) := rfl
  have hslash : ∀ c ∈ [.char '/'], Text.isDigit c = false := List.forall_mem_singleton.2 (by decide)
  rw [hcons, maskNumbers_append_of_no_digit hslash, maskNumbers, maskNumbersFrom_append hhead]
  rw [show maskNumbersFrom false n = maskNumbers n from rfl, maskNumbers_name n, List.append_assoc]
  rfl

section Name

variable {n : Text} (hn : n ≠ []) (hchars : ∀ c ∈ n, isPathChar c = true)

include hchars

theorem slash_not_mem_maskNumbers : .char '/' ∉ maskNumbers (numbered n) := by
  intro hmem
  rcases (masked_maskNumbers (numbered n)).mem_or_mem hmem with hmem | hmem
  · exact ne_slash_of_isPathChar (hchars _ ((List.dropWhile_suffix _).subset hmem)) rfl
  · exact absurd hmem (by decide)

/-- The mask for a number ends a path, and from there on a name has no slash. -/
theorem maskPathsFrom_numbered (hnum : numbered n ≠ []) (inside : Bool) (t : Text) :
    maskPathsFrom inside (maskNumbers (numbered n) ++ t) = maskNumbers (numbered n) ++ maskPaths t := by
  have hends : EndsPath (maskNumbers (numbered n) ++ t) := by
    obtain ⟨rest, hrest⟩ := exists_maskNumbers_numbered hnum
    rw [hrest]
    intro c hc
    obtain rfl : '<' = c := Option.some.inj hc
    decide
  rw [maskPathsFrom_of_endsPath hends, maskPaths_append_of_no_slash (slash_not_mem_maskNumbers hchars)]

theorem maskPathsFrom_slash_stem (hstem : stem n ≠ []) (inside : Bool) (t : Text) :
    maskPathsFrom inside (.char '/' :: (stem n ++ (maskNumbers (numbered n) ++ t))) =
      (if inside then [] else pathMask) ++ maskNumbers (numbered n) ++ maskPathsFrom (numbered n).isEmpty t := by
  have hs : ∀ c ∈ stem n, isPathChar c = true := fun c hc => hchars c ((List.takeWhile_prefix _).subset hc)
  have hbegins : ∀ u : Text, beginsName (stem n ++ u) = true := by
    obtain ⟨c, s, hcons⟩ := List.exists_cons_of_ne_nil hstem
    intro u
    rw [hcons] at hs ⊢
    exact hs c List.mem_cons_self
  have hname : maskPathsFrom true (stem n ++ (maskNumbers (numbered n) ++ t)) =
      maskNumbers (numbered n) ++ maskPathsFrom (numbered n).isEmpty t := by
    rw [maskPathsFrom_names hs]
    cases hnum : numbered n with
    | nil => rfl
    | cons c u =>
      have hne : numbered n ≠ [] := hnum ▸ List.cons_ne_nil c u
      rw [← hnum, maskPathsFrom_numbered hchars hne, hnum]
      rfl
  rw [maskPathsFrom, if_pos (by simp [hbegins]), hname]
  cases inside with
  | false => simp
  | true => simp

include hn

theorem maskPathsFrom_slash_number (hstem : stem n = []) (inside : Bool) (t : Text) :
    maskPathsFrom inside (.char '/' :: (maskNumbers (numbered n) ++ t)) =
      .char '/' :: (maskNumbers (numbered n) ++ maskPathsFrom (numbered n).isEmpty t) := by
  have hnum : numbered n ≠ [] := by
    intro hnil
    exact hn (by rw [← stem_append_numbered n, hstem, hnil, List.nil_append])
  have hbegins : beginsName (maskNumbers (numbered n) ++ t) = false := by
    obtain ⟨rest, hrest⟩ := exists_maskNumbers_numbered hnum
    rw [hrest]
    rfl
  have hchar : isPathChar '/' = false := by decide
  rw [maskPathsFrom, if_neg (by simp [hbegins]), if_neg (by simp [hchar]), maskPathsFrom_numbered hchars hnum,
    List.isEmpty_eq_false_iff.2 hnum]
  rfl

end Name

/-- By induction on the names; the state of the pass tells whether the mask for the names before goes on. -/
theorem maskPathsFrom_slashed {ns : List Text} (hne : ∀ n ∈ ns, n ≠ [])
    (hchars : ∀ n ∈ ns, ∀ c ∈ n, isPathChar c = true) (inside : Bool) :
    maskPathsFrom inside (maskNumbers (slashed ns)) = residueFrom inside ns := by
  induction ns generalizing inside with
  | nil => rfl
  | cons n ns ih =>
    obtain ⟨hn, hne⟩ := List.forall_mem_cons.1 hne
    obtain ⟨hc, hchars⟩ := List.forall_mem_cons.1 hchars
    have ih := ih hne hchars (numbered n).isEmpty
    rw [maskNumbers_slashed, residueFrom, ← ih]
    by_cases hstem : stem n = []
    · rw [hstem, List.nil_append, maskPathsFrom_slash_number hn hc hstem]
      rfl
    · rw [maskPathsFrom_slash_stem hc hstem, List.isEmpty_eq_false_iff.2 hstem]
      rfl

theorem PathText.maskPaths_eq (p : PathText) : maskPaths (maskNumbers p.text) = p.residue :=
  maskPathsFrom_slashed p.name_ne_nil (fun _ => p.isPathChar_of_mem) false

/-! ### Digits -/

theorem residueFrom_of_no_digit {ns : List Text} (hne : ∀ n ∈ ns, n ≠ [])
    (h : ∀ n ∈ ns, ∀ c ∈ n, Text.isDigit c = false) (inside : Bool) :
    residueFrom inside ns = if inside || ns.isEmpty then [] else pathMask := by
  induction ns generalizing inside with
  | nil => simp [residueFrom]
  | cons n ns ih =>
    obtain ⟨hn, hne⟩ := List.forall_mem_cons.1 hne
    obtain ⟨hc, h⟩ := List.forall_mem_cons.1 h
    have hnum : numbered n = [] := numbered_eq_nil_iff.2 hc
    have hstem : stem n ≠ [] := by
      intro hnil
      exact hn (by rw [← stem_append_numbered n, hnil, hnum, List.nil_append])
    rw [residueFrom, hnum, List.isEmpty_eq_false_iff.2 hstem, List.isEmpty_nil, ih hne h true]
    simp [maskNumbers, maskNumbersFrom]

/-- The mask for a number has a letter that the mask for a path does not have. -/
theorem mem_residueFrom_of_digit {ns : List Text} {n : Text} (hn : n ∈ ns) {c : CodePoint} (hc : c ∈ n)
    (hdigit : Text.isDigit c = true) (inside : Bool) : .char 'N' ∈ residueFrom inside ns := by
  induction ns generalizing inside with
  | nil => cases hn
  | cons m ms ih =>
    rw [residueFrom]
    rcases List.mem_cons.1 hn with rfl | hn
    · have hnum : numbered n ≠ [] := by
        intro hnil
        have hno := numbered_eq_nil_iff.1 hnil c hc
        rw [hdigit] at hno
        cases hno
      obtain ⟨rest, hrest⟩ := exists_maskNumbers_numbered hnum
      have hletter : .char 'N' ∈ numberMask ++ rest := List.mem_append_left rest (by decide)
      rw [hrest]
      exact List.mem_append_left _ (List.mem_append_right _ hletter)
    · exact List.mem_append_right _ (ih hn _)

theorem PathText.mem_text {p : PathText} {c : CodePoint} (hc : c ∈ p.text) : c = '/' ∨ ∃ n ∈ p.names, c ∈ n := by
  obtain ⟨n, hn, hmem⟩ := List.mem_flatMap.1 hc
  exact (List.mem_cons.1 hmem).imp_right fun hin => ⟨n, hn, hin⟩

/-- A path leaves the mask alone if and only if it has no digit. -/
theorem PathText.residue_eq_pathMask_iff (p : PathText) :
    p.residue = pathMask ↔ ∀ c ∈ p.text, Text.isDigit c = false := by
  constructor
  · intro h c hc
    rcases p.mem_text hc with rfl | ⟨n, hn, hmem⟩
    · decide
    · cases hdigit : Text.isDigit c with
      | false => rfl
      | true =>
        have hletter := mem_residueFrom_of_digit hn hmem hdigit false
        rw [show residueFrom false p.names = pathMask from h] at hletter
        exact absurd hletter (by decide)
  · intro h
    have hnames : ∀ n ∈ p.names, ∀ c ∈ n, Text.isDigit c = false := by
      intro n hn c hc
      exact h c (List.mem_flatMap.2 ⟨n, hn, List.mem_cons_of_mem _ hc⟩)
    rw [PathText.residue, residueFrom_of_no_digit p.name_ne_nil hnames, List.isEmpty_eq_false_iff.2 p.ne_nil]
    rfl

/-! ### Paths in messages -/

theorem PathText.quoteFree (p : PathText) : QuoteFree p.text := by
  intro c hc
  rcases p.mem_text hc with rfl | ⟨n, hn, hmem⟩
  · decide
  · exact isQuote_eq_false (by decide) (by decide) (p.isPathChar_of_mem hn c hmem)

theorem PathText.head?_text (p : PathText) : p.text.head? = some '/' := by
  obtain ⟨n, ns, hns⟩ := List.exists_cons_of_ne_nil p.ne_nil
  rw [PathText.text, hns]
  rfl

theorem PathText.residue_ne_nil (p : PathText) : p.residue ≠ [] := by
  obtain ⟨n, ns, hns⟩ := List.exists_cons_of_ne_nil p.ne_nil
  have hmask : pathMask ≠ [] := by decide
  rw [PathText.residue, hns, residueFrom, List.append_assoc, if_neg Bool.false_ne_true]
  refine List.append_ne_nil_of_left_ne_nil ?_ _
  split
  · exact List.cons_ne_nil _ _
  · exact hmask

theorem PathText.residue_solid (p : PathText) : ∀ c ∈ p.residue, Text.isBlank c = false := by
  have hmasks : ∀ c ∈ numberMask ++ pathMask, Text.isBlank c = false := Text.forall_mem_of_any (by decide)
  intro c hc
  rw [← p.maskPaths_eq] at hc
  rcases (masked_maskPaths _).mem_or_mem hc with hc | hc
  · rcases (masked_maskNumbers _).mem_or_mem hc with hc | hc
    · rcases p.mem_text hc with rfl | ⟨n, hn, hmem⟩
      · decide
      · exact isBlank_eq_false_of_isPathChar (p.isPathChar_of_mem hn c hmem)
    · exact hmasks c (List.mem_append_left _ hc)
  · exact hmasks c (List.mem_append_right _ hc)

section Around

variable {a b : Text} (ha : a = [] ∨ a.getLast? = some ' ') (hb : b = [] ∨ b.head? = some ' ')

include ha in
theorem maskPaths_append_spaced (t : Text) :
    maskPaths (maskNumbers a ++ t) = maskPaths (maskNumbers a) ++ maskPaths t := by
  rcases ha with rfl | ha
  · rfl
  · obtain ⟨front, rfl⟩ := List.getLast?_eq_some_iff.1 ha
    have hspace : maskNumbers (front ++ [.char ' ']) = maskNumbers front ++ [.char ' '] :=
      maskNumbersFrom_append (Text.forall_head?_cons (by decide) []) false front
    have hends : ∀ u : Text, maskPaths (maskNumbers front ++ .char ' ' :: u) =
        maskPaths (maskNumbers front) ++ .char ' ' :: maskPaths u := by
      intro u
      refine maskPathsFrom_append ?_ false (maskNumbers front)
      intro c hc
      obtain rfl : ' ' = c := by simpa using hc
      decide
    rw [hspace, List.append_assoc, List.singleton_append, hends, hends, List.append_assoc]
    rfl

include hb in
theorem endsPath_maskNumbers : EndsPath (maskNumbers b) := by
  rcases hb with rfl | hb
  · exact nofun
  · obtain ⟨rest, rfl⟩ := List.head?_eq_some_iff.1 hb
    have hspace : maskNumbers (.char ' ' :: rest) = .char ' ' :: maskNumbers rest :=
      maskNumbers_append_of_no_digit (List.forall_mem_singleton.2 (by decide)) rest
    intro c hc
    obtain rfl : ' ' = c := by simpa [hspace] using hc
    decide

include ha hb in
/-- The key of a message with a path: what the path leaves between what the two sides of it leave. -/
theorem ofMessage_around (p : PathText) (hqa : QuoteFree a) (hqb : QuoteFree b) :
    ofMessage (a ++ p.text ++ b) = (maskPaths (maskNumbers a)).dropWhile Text.isBlank ++
      (p.residue ++ Text.dropEndWhile Text.isBlank (maskPaths (maskNumbers b))) := by
  have hfree : QuoteFree (a ++ p.text ++ b) :=
    List.forall_mem_append.2 ⟨List.forall_mem_append.2 ⟨hqa, p.quoteFree⟩, hqb⟩
  have hslash : ∀ c ∈ (p.text ++ b).head?, Text.isDigit c = false := by
    obtain ⟨rest, hrest⟩ := List.head?_eq_some_iff.1 p.head?_text
    rw [hrest]
    exact Text.forall_head?_cons (by decide) _
  have hspace : ∀ c ∈ b.head?, Text.isDigit c = false := by
    rcases hb with rfl | hb
    · exact nofun
    · obtain ⟨rest, rfl⟩ := List.head?_eq_some_iff.1 hb
      exact Text.forall_head?_cons (by decide) rest
  have hnumbers : maskNumbers (a ++ p.text ++ b) = maskNumbers a ++ (maskNumbers p.text ++ maskNumbers b) := by
    rw [List.append_assoc, maskNumbers, maskNumbersFrom_append hslash, maskNumbers, maskNumbersFrom_append hspace]
    rfl
  have hpaths : maskPaths (maskNumbers p.text ++ maskNumbers b) = p.residue ++ maskPaths (maskNumbers b) := by
    rw [maskPaths, maskPathsFrom_append (endsPath_maskNumbers hb), ← p.maskPaths_eq]
    rfl
  rw [ofMessage, maskNames_of_quoteFree hfree, hnumbers, maskPaths_append_spaced ha, hpaths]
  refine Text.trimBy_around _ _ p.residue_ne_nil ?_ ?_
  · intro c hc
    exact p.residue_solid c (List.mem_of_mem_head? hc)
  · intro c hc
    exact p.residue_solid c (List.mem_of_mem_getLast? hc)

end Around

/-- Messages that differ in a path alone have the same key, and are put into one cluster, if and only if the
paths leave the same. A path without digits leaves the mask alone, and any other path leaves something else. -/
theorem paths_share_cluster_iff {a b : Text} (hqa : QuoteFree a) (ha : a = [] ∨ a.getLast? = some ' ')
    (hqb : QuoteFree b) (hb : b = [] ∨ b.head? = some ' ') (p q : PathText) :
    (ofMessage (a ++ p.text ++ b) = ofMessage (a ++ q.text ++ b) ↔ p.residue = q.residue) ∧
    (∀ (ds : List Diagnostic) (d e : Diagnostic), d ∈ ds → e ∈ ds → d.message = a ++ p.text ++ b →
      e.message = a ++ q.text ++ b → (Cluster.Together ds d e ↔ p.residue = q.residue)) ∧
    ∀ r : PathText, r.residue = pathMask ↔ ∀ c ∈ r.text, Text.isDigit c = false := by
  have hkeys : ofMessage (a ++ p.text ++ b) = ofMessage (a ++ q.text ++ b) ↔ p.residue = q.residue := by
    rw [ofMessage_around ha hb p hqa hqb, ofMessage_around ha hb q hqa hqb, List.append_cancel_left_eq,
      List.append_cancel_right_eq]
  refine ⟨hkeys, ?_, PathText.residue_eq_pathMask_iff⟩
  intro ds d e hd he hdm hem
  rw [Cluster.together_iff hd he, Diagnostic.key, Diagnostic.key, hdm, hem]
  exact hkeys

/-- Two paths with digits in their second names. Both leave two masks for paths and one for a number. -/
theorem paths_share_cluster_of_two_versions :
    let p : PathText := ⟨["src", "v1", "app"], by decide, by decide, by decide⟩
    let q : PathText := ⟨["lib", "ng-22", "core.ts"], by decide, by decide, by decide⟩
    let d : Diagnostic := ⟨"a.ts", 1, "Cannot read /src/v1/app now", .error, Nat.le_refl 1⟩
    let e : Diagnostic := ⟨"a.ts", 2, "Cannot read /lib/ng-22/core.ts now", .error, Nat.le_succ 1⟩
    p.residue = "<PATH><NUM><PATH>" ∧ q.residue = "<PATH><NUM><PATH>" ∧
      ofMessage d.message = ofMessage e.message ∧ Cluster.Together [d, e] d e := by
  intro p q d e
  have hresidue : p.residue = q.residue := by decide
  obtain ⟨hkeys, htogether, -⟩ := paths_share_cluster_iff (a := "Cannot read ") (b := " now")
    (by decide) (by decide) (by decide) (by decide) p q
  exact ⟨by decide, by decide, hkeys.2 hresidue,
    (htogether [d, e] d e List.mem_cons_self (List.mem_cons_of_mem _ List.mem_cons_self) rfl rfl).2 hresidue⟩

/-- The digit of a name splits a cluster: messages that differ in a path alone have two keys. -/
theorem path_with_digit_splits_cluster :
    let d : Diagnostic := ⟨"a.ts", 1, "Cannot read /src/v1/app", .error, Nat.le_refl 1⟩
    let e : Diagnostic := ⟨"a.ts", 2, "Cannot read /src/app", .error, Nat.le_succ 1⟩
    ofMessage d.message = "Cannot read <PATH><NUM><PATH>" ∧ ofMessage e.message = "Cannot read <PATH>" ∧
      ¬ Cluster.Together [d, e] d e := by
  intro d e
  have hd : ofMessage d.message = "Cannot read <PATH><NUM><PATH>" := by decide
  have he : ofMessage e.message = "Cannot read <PATH>" := by decide
  refine ⟨hd, he, ?_⟩
  rw [Cluster.together_iff List.mem_cons_self (List.mem_cons_of_mem _ List.mem_cons_self), Diagnostic.key,
    Diagnostic.key, hd, he]
  decide

end Mend.PatternKey
