import Mend.Proofs.Diff.Bounds
import Mend.Proofs.Engine.Batch

/-!
# Answers about a patch

The engine answers whether it has applied a patch: then one file has a new text, otherwise no file has
changed. It has no answer where a path cannot be looked up, because of a folder that may not be searched
or a name that is too long, and where a numeral has too many digits, a position is one that no list can
have, or the new text has no bytes (`Raises`). Only the last is found out after the file was opened for
writing, so that the file is left empty. Short paths through open folders and manageable hunks meet none
of them.
-/

namespace Mend.Engine

open Diff (Hunk)

/-! ### Revising a text -/

/-- Whether the leading context of a patch stands in a text. -/
def Fits (content : Text) (p : Patch) : Prop := ∃ ns, validate content p = .ok (ns, true)

theorem hunks_of_fits {content : Text} {p : Patch} (h : Fits content p) :
    ∃ hs, Diff.hunks p.diff = .ok hs := by
  obtain ⟨ns, hv⟩ := h
  unfold validate at hv
  cases hd : Diff.hunks p.diff with
  | error e => simp [hd] at hv
  | ok hs => exact ⟨hs, rfl⟩

theorem validate_eq_error {content : Text} {p : Patch} {e : Number.NumeralError} :
    validate content p = .error e ↔ Diff.hunks p.diff = .error e := by
  unfold validate
  cases Diff.hunks p.diff with
  | error k => simp
  | ok hs => simp

/-- What a diff makes of a text, as the engine tells it. -/
def verdictOf : Except Diff.ApplyError Text → Except (Refusal ⊕ Fault) Text
  | .ok new => writable new
  | .error (.misfit m) => .error (.inl (.misfit m))
  | .error (.numeral e) => .error (.inr (.numeral e))
  | .error .positionTooLarge => .error (.inr .positionTooLarge)

/-- A text is revised in three steps: the diff is read, its context is compared, and it is applied. -/
theorem revise_cases (strict : Bool) (content : Text) (p : Patch) :
    (∃ e, Diff.hunks p.diff = .error e ∧
      (revise strict content p).2 = .error (.inr (.numeral e))) ∨
    ((∃ hs, Diff.hunks p.diff = .ok hs) ∧ ¬ Fits content p ∧
      (revise strict content p).2 = .error (.inl .stale)) ∨
    (Fits content p ∧
      (revise strict content p).2 = verdictOf (Diff.apply (isStrict strict p) content p.diff)) := by
  unfold revise
  cases hv : validate content p with
  | error e => exact .inl ⟨e, validate_eq_error.1 hv, rfl⟩
  | ok found =>
    obtain ⟨ns, fits⟩ := found
    have hread : ∃ hs, Diff.hunks p.diff = .ok hs := by
      cases hd : Diff.hunks p.diff with
      | error e => rw [validate_eq_error.2 hd] at hv; cases hv
      | ok hs => exact ⟨hs, rfl⟩
    cases fits with
    | false => exact .inr (.inl ⟨hread, fun ⟨ms, hm⟩ => by simp [hv] at hm, rfl⟩)
    | true =>
      refine .inr (.inr ⟨⟨ns, hv⟩, ?_⟩)
      simp only
      split <;> simp_all [verdictOf]

theorem revise_eq_ok {strict : Bool} {content new : Text} {p : Patch} :
    (revise strict content p).2 = .ok new ↔
      Fits content p ∧ Diff.apply (isStrict strict p) content p.diff = .ok new ∧ Utf8.Encodable new := by
  rcases revise_cases strict content p with ⟨e, hd, hr⟩ | ⟨-, hfits, hr⟩ | ⟨hfits, hr⟩
  · have hnot : ¬ Fits content p := fun hf => by
      obtain ⟨hs, hok⟩ := hunks_of_fits hf
      rw [hd] at hok
      cases hok
    simp [hr, hnot]
  · simp [hr, hfits]
  · rw [hr]
    cases Diff.apply (isStrict strict p) content p.diff with
    | ok t =>
      simp only [verdictOf, writable_eq_ok, hfits, true_and, Except.ok.injEq]
      exact and_congr_right fun h => by rw [h]
    | error e => cases e <;> simp [verdictOf]

theorem writable_eq_fault {t : Text} {f : Fault} :
    writable t = .error (.inr f) ↔ ∃ e, f = .encoding e ∧ Utf8.problem? t = some e := by
  unfold writable
  cases Utf8.problem? t with
  | none => simp
  | some e => simp [eq_comm]

/-- Why a text has no revised text and no refusal either. -/
def Unrevisable (strict : Bool) (content : Text) (p : Patch) : Fault → Prop
  | .file _ => False
  | .numeral e => Diff.hunks p.diff = .error e ∨
      (Fits content p ∧ Diff.apply (isStrict strict p) content p.diff = .error (.numeral e))
  | .positionTooLarge =>
      Fits content p ∧ Diff.apply (isStrict strict p) content p.diff = .error .positionTooLarge
  | .encoding e =>
      Fits content p ∧ ∃ new, Diff.apply (isStrict strict p) content p.diff = .ok new ∧
        Utf8.problem? new = some e

theorem revise_eq_fault {strict : Bool} {content : Text} {p : Patch} {f : Fault} :
    (revise strict content p).2 = .error (.inr f) ↔ Unrevisable strict content p f := by
  rcases revise_cases strict content p with ⟨e, hd, hr⟩ | ⟨⟨hs, hd⟩, hfits, hr⟩ | ⟨hfits, hr⟩
  · have hnot : ¬ Fits content p := fun hf => by
      obtain ⟨hs, hok⟩ := hunks_of_fits hf
      rw [hd] at hok
      cases hok
    cases f <;> simp [hr, Unrevisable, hd, hnot]
  · cases f <;> simp [hr, Unrevisable, hd, hfits]
  · obtain ⟨hs, hd⟩ := hunks_of_fits hfits
    rw [hr]
    unfold Unrevisable
    generalize Diff.apply (isStrict strict p) content p.diff = result
    cases result with
    | ok t => cases f <;> simp [verdictOf, writable_eq_fault, hd, hfits]
    | error e => cases e <;> cases f <;> simp [verdictOf, hd, hfits]

/-- Manageable hunks leave no text of a file without an answer. -/
theorem revise_ne_fault (strict : Bool) {p : Patch} {hs : List Hunk}
    (hd : Diff.hunks p.diff = .ok hs) (hb : ∀ h ∈ hs, h.IsManageable) {content : Text}
    (hcontent : Utf8.Encodable content) (f : Fault) : (revise strict content p).2 ≠ .error (.inr f) := by
  rw [Ne, revise_eq_fault]
  have hanswer := Diff.apply_answers (isStrict strict p) hd (fun h hh => (hb h hh).1) content
  cases f with
  | file e => exact id
  | numeral e =>
    rintro (hr | ⟨-, he⟩)
    · rw [hd] at hr
      cases hr
    · obtain ⟨m, hm⟩ := hanswer _ he
      cases hm
  | positionTooLarge =>
    rintro ⟨-, he⟩
    obtain ⟨m, hm⟩ := hanswer _ he
    cases hm
  | encoding e =>
    rintro ⟨-, new, hnew, he⟩
    have hwritten := Diff.encodable_of_apply hd hcontent (fun h hh => (hb h hh).2) hnew
    rw [Utf8.problem?_eq_none_iff.2 hwritten] at he
    cases he

/-! ### Patching a file -/

/-- Whether a path leads to a file of which a patch makes a new text that can be written. -/
structure Accepts (strict : Bool) (t : FileTree) (path : Path) (p : Patch) (names : List Text)
    (content new : Text) : Prop where
  found : t.textAt? path = some (names, content)
  fits : Fits content p
  made : Diff.apply (isStrict strict p) content p.diff = .ok new
  encodable : Utf8.Encodable new

/-- What keeps the engine from an answer: a path that cannot be looked up, or a file with a text that
cannot be revised. -/
inductive Raises (strict : Bool) (t : FileTree) (path : Path) (p : Patch) : Fault → Prop
  | path {problem : FileProblem} (h : t.locate path = .error problem)
      (unknown : problem.isAbsence = false) : Raises strict t path p (.file ⟨problem, path.text⟩)
  | text {names : List Text} {content : Text} {f : Fault}
      (found : t.textAt? path = some (names, content)) (h : Unrevisable strict content p f) :
      Raises strict t path p f

theorem patchFile_of_text {strict : Bool} {t : FileTree} {path : Path} {names : List Text}
    {content : Text} (h : t.textAt? path = some (names, content)) (p : Patch) :
    (patchFile strict t path p).2 = match (revise strict content p).2 with
      | .ok new => .written (t.put names (Utf8.encode new))
      | .error (.inl r) => .refused r
      | .error (.inr f) => .raised (afterFault t names f) f := by
  obtain ⟨ho, ht⟩ := FileTree.textAt?_eq_some.1 h
  have hprobe := FileTree.probe_of_locate ho.located (FileTree.content?_of_text? ht)
  unfold patchFile
  simp only [hprobe, ho.unsealed, Bool.false_eq_true, if_false,
    Utf8.decode_encode (FileTree.encodable_of_text? ht)]
  rcases revise strict content p with ⟨ns, (r | f) | new⟩ <;> rfl

theorem patchFile_of_no_text (strict : Bool) {t : FileTree} {path : Path}
    (h : t.textAt? path = none) (p : Patch) :
    (∃ e, t.probe path = .error e ∧ (patchFile strict t path p).2 = .raised t (.file e)) ∨
    (∃ node, t.probe path = .ok node) ∧ ∃ r, (patchFile strict t path p).2 = .refused r := by
  unfold patchFile
  cases hp : t.probe path with
  | error e => exact .inl ⟨e, rfl, rfl⟩
  | ok node =>
    refine .inr ⟨⟨node, rfl⟩, ?_⟩
    cases node with
    | none => exact ⟨_, rfl⟩
    | some node =>
      cases node with
      | folder => exact ⟨_, rfl⟩
      | file names bytes =>
        cases hs : t.isSealed names with
        | true => exact ⟨_, by simp only [hs, if_true]; rfl⟩
        | false =>
          cases hd : Utf8.decode bytes with
          | error e => exact ⟨_, by simp only [hs, hd, Bool.false_eq_true, if_false]; rfl⟩
          | ok content =>
            have hbytes := (FileTree.content?_of_probe hp).2
            simp [FileTree.textAt?, hp, hs, FileTree.text?, hbytes, hd, Except.toOption] at h

theorem patchFile_eq_raised {strict : Bool} {t : FileTree} {path : Path} {p : Patch} {f : Fault} :
    (∃ u, (patchFile strict t path p).2 = .raised u f) ↔ Raises strict t path p f := by
  cases ht : t.textAt? path with
  | some found =>
    obtain ⟨names, content⟩ := found
    obtain ⟨ho, -⟩ := FileTree.textAt?_eq_some.1 ht
    have hraises : Raises strict t path p f ↔ Unrevisable strict content p f := by
      constructor
      · rintro (⟨hl, -⟩ | ⟨hfound, h⟩)
        · rw [ho.located] at hl
          cases hl
        · obtain ⟨rfl, rfl⟩ : names = _ ∧ content = _ := by simpa [ht] using hfound
          exact h
      · exact .text ht
    rw [hraises, ← revise_eq_fault, patchFile_of_text ht]
    rcases (revise strict content p).2 with (r | g) | new <;> simp [eq_comm]
  | none =>
    have hraises : Raises strict t path p f ↔ ∃ e, t.probe path = .error e ∧ f = .file e := by
      constructor
      · rintro (⟨hl, ha⟩ | ⟨hfound, -⟩)
        · exact ⟨_, FileTree.probe_eq_error.2 ⟨_, hl, ha, rfl⟩, rfl⟩
        · rw [ht] at hfound
          cases hfound
      · rintro ⟨e, he, rfl⟩
        obtain ⟨problem, hl, ha, rfl⟩ := FileTree.probe_eq_error.1 he
        exact .path hl ha
    rw [hraises]
    rcases patchFile_of_no_text strict ht p with ⟨e, he, hr⟩ | ⟨⟨node, hn⟩, r, hr⟩
    · simp [hr, he, eq_comm]
    · simp [hr, hn]

theorem patchFile_eq_written {strict : Bool} {t u : FileTree} {path : Path} {p : Patch} :
    (patchFile strict t path p).2 = .written u ↔
      ∃ names content new, Accepts strict t path p names content new ∧
        u = t.put names (Utf8.encode new) := by
  cases ht : t.textAt? path with
  | some found =>
    obtain ⟨names, content⟩ := found
    rw [patchFile_of_text ht]
    constructor
    · intro h
      cases hr : (revise strict content p).2 with
      | error e => rcases e with r | g <;> simp [hr] at h
      | ok new =>
        rw [hr] at h
        obtain ⟨hfits, hmade, hnew⟩ := revise_eq_ok.1 hr
        exact ⟨names, content, new, ⟨ht, hfits, hmade, hnew⟩, by simpa [eq_comm] using h⟩
    · rintro ⟨names2, content2, new, ⟨hfound, hfits, hmade, hnew⟩, rfl⟩
      obtain ⟨rfl, rfl⟩ : names = names2 ∧ content = content2 := by simpa [ht] using hfound
      rw [revise_eq_ok.2 ⟨hfits, hmade, hnew⟩]
  | none =>
    have hnot : ¬ ∃ names content new, Accepts strict t path p names content new ∧
        u = t.put names (Utf8.encode new) := by
      rintro ⟨names, content, new, ha, -⟩
      rw [ha.found] at ht
      cases ht
    rcases patchFile_of_no_text strict ht p with ⟨e, -, hr⟩ | ⟨-, r, hr⟩
    · simp only [hr, hnot]
      simp
    · simp only [hr, hnot]
      simp

/-- What a fault leaves of the files: as they were, or with the file empty whose new text has no bytes. -/
theorem files_of_raised {strict : Bool} {t u : FileTree} {path : Path} {p : Patch} {f : Fault}
    (h : (patchFile strict t path p).2 = .raised u f) :
    ((∀ e, f ≠ .encoding e) ∧ u = t) ∨
      ∃ e names content, f = .encoding e ∧ t.textAt? path = some (names, content) ∧ u = t.put names .empty := by
  cases ht : t.textAt? path with
  | some found =>
    obtain ⟨names, content⟩ := found
    rw [patchFile_of_text ht] at h
    rcases hr : (revise strict content p).2 with (r | g) | new
    · rw [hr] at h
      cases h
    · rw [hr] at h
      obtain ⟨rfl, rfl⟩ := Verdict.raised.inj h
      cases g with
      | encoding e => exact .inr ⟨e, names, content, rfl, rfl, rfl⟩
      | file | numeral | positionTooLarge => exact .inl ⟨nofun, rfl⟩
    · rw [hr] at h
      cases h
  | none =>
    rcases patchFile_of_no_text strict ht p with ⟨e, -, hr⟩ | ⟨-, r, hr⟩
    · obtain ⟨rfl, rfl⟩ := Verdict.raised.inj (hr.symm.trans h)
      exact .inl ⟨nofun, rfl⟩
    · rw [hr] at h
      cases h

/-! ### Applying a patch -/

/-- The ways in which the application of a patch ends, with what they make of the files. -/
theorem apply_cases (strict : Bool) (w : Workspace) (path : Text) (p : Patch) :
    (∃ w' names content new, apply strict w path p = (w', .ok true) ∧
      Accepts strict w.files (Path.ofText path) p names content new ∧
      w'.files = w.files.put names (Utf8.encode new)) ∨
    (∃ w', apply strict w path p = (w', .ok false) ∧ w'.files = w.files) ∨
    ∃ w' f, apply strict w path p = (w', .error f) ∧ Raises strict w.files (Path.ofText path) p f ∧
      (((∀ e, f ≠ .encoding e) ∧ w'.files = w.files) ∨ ∃ e names content, f = .encoding e ∧
        w.files.textAt? (Path.ofText path) = some (names, content) ∧ w'.files = w.files.put names .empty) := by
  have happ := apply_spec strict w path p
  cases hv : (patchFile strict w.files (Path.ofText path) p).2 with
  | written u =>
    rw [hv] at happ
    obtain ⟨w', hw, hfiles⟩ := happ
    obtain ⟨names, content, new, ha, rfl⟩ := patchFile_eq_written.1 hv
    exact .inl ⟨w', names, content, new, hw, ha, hfiles⟩
  | refused r =>
    rw [hv] at happ
    exact .inr (.inl happ)
  | raised u f =>
    rw [hv] at happ
    obtain ⟨w', hw, rfl⟩ := happ
    exact .inr (.inr ⟨w', f, hw, patchFile_eq_raised.1 ⟨_, hv⟩, files_of_raised hv⟩)

theorem apply_of_accepts {strict : Bool} {w : Workspace} {path : Text} {p : Patch}
    {names : List Text} {content new : Text}
    (h : Accepts strict w.files (Path.ofText path) p names content new) :
    ∃ w', apply strict w path p = (w', .ok true) ∧
      w'.files = w.files.put names (Utf8.encode new) :=
  apply_of_text h.found (revise_eq_ok.2 ⟨h.fits, h.made, h.encodable⟩)

theorem apply_of_raises {strict : Bool} {w : Workspace} {path : Text} {p : Patch} {f : Fault}
    (h : Raises strict w.files (Path.ofText path) p f) :
    (apply strict w path p).2 = .error f := by
  have happ := apply_spec strict w path p
  obtain ⟨u, hu⟩ := patchFile_eq_raised.2 h
  rw [hu] at happ
  obtain ⟨w', hw, -⟩ := happ
  rw [hw]

/-- A path that can be looked up and manageable hunks leave nothing without an answer. -/
theorem not_raises {strict : Bool} {t : FileTree} {path : Path} {p : Patch} {hs : List Hunk}
    (hpath : ∃ node, t.probe path = .ok node) (hd : Diff.hunks p.diff = .ok hs)
    (hb : ∀ h ∈ hs, h.IsManageable) (f : Fault) : ¬ Raises strict t path p f := by
  rintro (⟨hl, ha⟩ | ⟨found, h⟩)
  · have := (t.exists_probe_iff path).1 hpath _ hl
    simp [ha] at this
  · have hcontent := FileTree.encodable_of_text? (FileTree.textAt?_eq_some.1 found).2
    exact revise_ne_fault strict hd hb hcontent f (revise_eq_fault.2 h)

/-- Applying a patch to the file at a path has an answer unless the path cannot be looked up, a limit is met
or the new text cannot be encoded; a short path where every folder may be searched and manageable hunks are
no such case. The answer is yes exactly where the leading context fits and the diff can be applied. Then that
file has the text that the diff makes of its old text, and all others are as they were. In every other case no
file changes, except that a file whose new text cannot be encoded is empty. -/
theorem apply_total_and_atomic (strict : Bool) (w : Workspace) (path : Text) (p : Patch) :
    let target := Path.ofText path
    let run := apply strict w path p
    (∀ f, run.2 = .error f ↔ Raises strict w.files target p f) ∧
    (∀ hs, w.files.IsOpen → target.IsShort → Diff.hunks p.diff = .ok hs → (∀ h ∈ hs, h.IsManageable) →
      ∃ b, run.2 = .ok b) ∧
    (run.2 = .ok true ↔
      ∃ names content new, Accepts strict w.files target p names content new) ∧
    (∀ names content new, Accepts strict w.files target p names content new →
      run.1.files.text? names = some new ∧ w.files.SameNames run.1.files ∧
        ∀ other ≠ names, run.1.files.content? other = w.files.content? other) ∧
    (run.2 ≠ .ok true → (∀ e, run.2 ≠ .error (.encoding e)) → run.1.files = w.files) ∧
    (∀ e, run.2 = .error (.encoding e) → ∃ names content, w.files.textAt? target = some (names, content) ∧
      run.1.files = w.files.put names .empty) := by
  intro target run
  have hraise : ∀ f, run.2 = .error f ↔ Raises strict w.files target p f := by
    intro f
    refine ⟨fun hf => ?_, apply_of_raises⟩
    rcases apply_cases strict w path p with ⟨w', -, -, -, hw, -⟩ | ⟨w', hw, -⟩ | ⟨w', g, hw, hg, -⟩
    · simp [run, hw] at hf
    · simp [run, hw] at hf
    · obtain rfl : g = f := by simpa [run, hw] using hf
      exact hg
  refine ⟨hraise, ?_, ⟨?_, ?_⟩, ?_, ?_, ?_⟩
  · intro hs hopen hshort hd hb
    cases hr : run.2 with
    | ok b => exact ⟨b, rfl⟩
    | error f =>
      exact absurd ((hraise f).1 hr) (not_raises (FileTree.exists_probe_of_isShort hopen hshort) hd hb f)
  · intro hr
    rcases apply_cases strict w path p with ⟨w', names, content, new, -, ha, -⟩ | ⟨w', hw, -⟩ |
      ⟨w', f, hw, -⟩
    · exact ⟨names, content, new, ha⟩
    · simp [run, hw] at hr
    · simp [run, hw] at hr
  · rintro ⟨names, content, new, ha⟩
    obtain ⟨w', hw, -⟩ := apply_of_accepts ha
    simp only [run, hw]
  · intro names content new ha
    obtain ⟨w', hw, hfiles⟩ := apply_of_accepts ha
    have htext := (FileTree.textAt?_eq_some.1 ha.found).2
    simp only [run, hw, hfiles]
    refine ⟨by simp [FileTree.text?_put ha.encodable], FileTree.sameNames_put_text htext _, ?_⟩
    intro other hother
    rw [FileTree.content?_put, if_neg hother]
  · intro hr hno
    rcases apply_cases strict w path p with ⟨w', -, -, -, hw, -⟩ | ⟨w', hw, hfiles⟩ |
      ⟨w', f, hw, -, ⟨-, hfiles⟩ | ⟨e, -, -, rfl, -⟩⟩
    · simp [run, hw] at hr
    · simp only [run, hw, hfiles]
    · simp only [run, hw, hfiles]
    · exact absurd (by simp only [run, hw]) (hno e)
  · intro e hr
    rcases apply_cases strict w path p with ⟨w', -, -, -, hw, -⟩ | ⟨w', hw, -⟩ |
      ⟨w', f, hw, -, ⟨hno, -⟩ | ⟨-, names, content, -, hfound, hfiles⟩⟩
    · simp [run, hw] at hr
    · simp [run, hw] at hr
    · obtain rfl : f = .encoding e := by simpa [run, hw] using hr
      exact absurd rfl (hno e)
    · exact ⟨names, content, hfound, by simp only [run, hw, hfiles]⟩

/-- The removal of a line that another one stands for: a lenient engine answers, and the file has the
new text. -/
theorem apply_total_and_atomic_of_context :
    let p : Patch := ⟨"@@ -1,2 +1,2 @@\n one\n-zwei\n+drei", "", "a.ts", .generated⟩
    let w := Workspace.start { files := [(["a.ts"], Utf8.encode "one\ntwo\n")] }
    (∃ b, (apply false w "a.ts" p).2 = .ok b) ∧
      (apply false w "a.ts" p).1.files.text? ["a.ts"] = some "one\ndrei\n" := by
  intro p w
  obtain ⟨-, hanswer, -, hfiles, -⟩ := apply_total_and_atomic false w "a.ts" p
  have hd : Diff.hunks p.diff = .ok [⟨1, 2, 1, 2, [" one", "-zwei", "+drei"]⟩] := by decide
  have ha : Accepts false w.files (Path.ofText "a.ts") p ["a.ts"] "one\ntwo\n" "one\ndrei\n" :=
    ⟨by decide, ⟨[], by decide⟩, by decide, by decide⟩
  exact ⟨hanswer _ (by decide) ⟨by decide, by decide⟩ hd (by decide), (hfiles _ _ _ ha).1⟩

/-- A line that is to be put at a position of twenty digits: the engine gives no answer. -/
theorem apply_raises_at_large_position :
    let p : Patch := ⟨"@@ -9999999999999999999,0 +1,1 @@\n+x\n", "", "a.ts", .manual⟩
    let w := Workspace.start { files := [(["a.ts"], Utf8.encode "one\n")] }
    (apply false w "a.ts" p).2 = .error .positionTooLarge ∧
      ¬ ∃ b, (apply false w "a.ts" p).2 = .ok b := by
  intro p w
  have hrun : (apply false w "a.ts" p).2 = .error .positionTooLarge := by decide
  exact ⟨hrun, by rw [hrun]; simp⟩

end Mend.Engine
