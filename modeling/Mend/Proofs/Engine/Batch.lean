import Mend.Engine
import Mend.Proofs.FileTree

/-!
# Batches as runs

An accepted patch reads one text and writes one text (`patchFile_spec`). A batch is a run of such
steps on the tree of files (`Applied`), and so is a rollback in which no revert is refused: the run
of the reversed patches, the last one first (`applied_of_rollback`). Where each accepted patch is
undone by its reverse, every revert finds the text that its patch has left, so that a batch is
applied as a whole or not at all (`applyBatch_cases`).
-/

namespace Mend.Engine

/-! ### One patch -/

theorem writable_eq_ok {t new : Text} : writable t = .ok new ↔ t = new ∧ Utf8.Encodable t := by
  unfold writable
  cases hp : Utf8.problem? t with
  | none => simp [Utf8.problem?_eq_none_iff.1 hp]
  | some e =>
    have hnot : ¬ Utf8.Encodable t := fun h => by simp [Utf8.problem?_eq_none_iff.2 h] at hp
    simp [hnot]

/-- A patch makes only texts that can be written. -/
theorem encodable_of_revise {strict : Bool} {content new : Text} {p : Patch}
    (h : (revise strict content p).2 = .ok new) : Utf8.Encodable new := by
  unfold revise at h
  split at h
  · cases h
  · cases h
  · split at h
    · obtain ⟨rfl, hnew⟩ := writable_eq_ok.1 h
      exact hnew
    · cases h
    · cases h
    · cases h

/-- What the verdict on a patch tells about the file that the path leads to. -/
theorem patchFile_spec (strict : Bool) (t : FileTree) (path : Path) (p : Patch) :
    match (patchFile strict t path p).2 with
    | .written u => ∃ names content new, t.textAt? path = some (names, content) ∧
        (revise strict content p).2 = .ok new ∧ u = t.put names (Utf8.encode new)
    | .refused _ => ∀ names content, t.textAt? path = some (names, content) →
        ∃ r, (revise strict content p).2 = .error (.inl r)
    | .raised u f => ((¬ ∃ node, t.probe path = .ok node) ∧ u = t) ∨ ∃ names content,
        t.textAt? path = some (names, content) ∧ (revise strict content p).2 = .error (.inr f) ∧
          u = afterFault t names f := by
  unfold patchFile
  cases hp : t.probe path with
  | error e => simp
  | ok node =>
    cases node with
    | none => simp [FileTree.textAt?, hp]
    | some node =>
      cases node with
      | folder => simp [FileTree.textAt?, hp]
      | file names bytes =>
        have hbytes := (FileTree.content?_of_probe hp).2
        cases hs : t.isSealed names with
        | true => simp [FileTree.textAt?, hp, hs]
        | false =>
          cases hd : Utf8.decode bytes with
          | error e => simp [FileTree.textAt?, FileTree.text?, hp, hs, hbytes, hd, Except.toOption]
          | ok content =>
            have htext : t.textAt? path = some (names, content) := by
              simp [FileTree.textAt?, FileTree.text?, hp, hs, hbytes, hd, Except.toOption]
            cases hr : revise strict content p with
            | mk ns result =>
              simp only [hs, hd, hr, htext, Bool.false_eq_true, if_false]
              cases result with
              | ok new => exact ⟨names, content, new, rfl, by rw [hr], rfl⟩
              | error e =>
                cases e with
                | inl r =>
                  intro found c hfound
                  obtain ⟨rfl, rfl⟩ : names = found ∧ content = c := by simpa using hfound
                  exact ⟨r, by rw [hr]⟩
                | inr f => exact .inr ⟨names, content, rfl, by rw [hr], rfl⟩

/-- Applying a patch to a file is what the verdict says, besides what is noted and counted. -/
theorem apply_spec (strict : Bool) (w : Workspace) (path : Text) (p : Patch) :
    match (patchFile strict w.files (Path.ofText path) p).2 with
    | .written u => ∃ w', apply strict w path p = (w', .ok true) ∧ w'.files = u
    | .refused _ => ∃ w', apply strict w path p = (w', .ok false) ∧ w'.files = w.files
    | .raised u f => ∃ w', apply strict w path p = (w', .error f) ∧ w'.files = u := by
  cases hp : patchFile strict w.files (Path.ofText path) p with
  | mk ns verdict =>
    cases verdict with
    | written u => exact ⟨_, by simp only [apply, hp]; rfl, by simp⟩
    | refused r => exact ⟨_, by simp only [apply, hp]; rfl, by simp⟩
    | raised u f => exact ⟨_, by simp only [apply, hp]; rfl, by simp⟩

theorem apply_of_text {strict : Bool} {w : Workspace} {path : Text} {p : Patch}
    {names : List Text} {content new : Text}
    (ht : w.files.textAt? (Path.ofText path) = some (names, content))
    (hr : (revise strict content p).2 = .ok new) :
    ∃ w', apply strict w path p = (w', .ok true) ∧
      w'.files = w.files.put names (Utf8.encode new) := by
  have hspec := patchFile_spec strict w.files (Path.ofText path) p
  have happ := apply_spec strict w path p
  cases hv : (patchFile strict w.files (Path.ofText path) p).2 with
  | written u =>
    rw [hv] at hspec happ
    obtain ⟨names2, content2, new2, ht2, hr2, rfl⟩ := hspec
    obtain ⟨rfl, rfl⟩ : names = names2 ∧ content = content2 := by simpa [ht] using ht2
    obtain rfl : new = new2 := by simpa [hr] using hr2
    exact happ
  | refused r =>
    rw [hv] at hspec
    obtain ⟨r, he⟩ := hspec names content ht
    rw [hr] at he
    cases he
  | raised u f =>
    rw [hv] at hspec
    rcases hspec with ⟨hnode, -⟩ | ⟨names2, content2, ht2, he, -⟩
    · obtain ⟨ho, hc⟩ := FileTree.textAt?_eq_some.1 ht
      exact absurd ⟨_, FileTree.probe_of_locate ho.located (FileTree.content?_of_text? hc)⟩ hnode
    · obtain ⟨rfl, rfl⟩ : names = names2 ∧ content = content2 := by simpa [ht] using ht2
      rw [hr] at he
      cases he

/-! ### Runs -/

/-- A run of items, all of them accepted, from one tree to another. -/
inductive Applied (strict : Bool) : FileTree → List Item → FileTree → Prop
  | nil (t : FileTree) : Applied strict t [] t
  | cons {t u : FileTree} {item : Item} {items : List Item} {names : List Text}
      {content new : Text} (found : t.textAt? (Path.ofText item.path) = some (names, content))
      (revised : (revise strict content item.patch).2 = .ok new)
      (rest : Applied strict (t.put names (Utf8.encode new)) items u) :
      Applied strict t (item :: items) u

theorem Applied.append {strict : Bool} {t u v : FileTree} {items more : List Item}
    (h : Applied strict t items u) (k : Applied strict u more v) :
    Applied strict t (items ++ more) v := by
  induction h with
  | nil t => exact k
  | cons found revised rest ih => exact .cons found revised (ih k)

theorem Applied.sameNames {strict : Bool} {t u : FileTree} {items : List Item}
    (h : Applied strict t items u) : t.SameNames u := by
  induction h with
  | nil t => exact .refl t
  | cons found revised rest ih =>
    exact (FileTree.sameNames_put_text (FileTree.textAt?_eq_some.1 found).2 _).trans ih

theorem applied_cons_of_apply {strict : Bool} {w w' : Workspace} {item : Item}
    (h : apply strict w item.path item.patch = (w', .ok true)) {items : List Item} {u : FileTree}
    (hrest : Applied strict w'.files items u) : Applied strict w.files (item :: items) u := by
  have hspec := patchFile_spec strict w.files (Path.ofText item.path) item.patch
  have happ := apply_spec strict w item.path item.patch
  cases hv : (patchFile strict w.files (Path.ofText item.path) item.patch).2 with
  | written t =>
    rw [hv] at hspec happ
    obtain ⟨names, content, new, found, revised, rfl⟩ := hspec
    obtain ⟨w2, hw2, hfiles⟩ := happ
    obtain rfl : w' = w2 := by simpa [h] using hw2
    exact .cons found revised (hfiles ▸ hrest)
  | refused r =>
    rw [hv] at happ
    obtain ⟨w2, hw2, -⟩ := happ
    simp [h] at hw2
  | raised u f =>
    rw [hv] at happ
    obtain ⟨w2, hw2, -⟩ := happ
    simp [h] at hw2

/-- The items of a batch up to the first one that is refused. -/
def accepted (strict : Bool) : FileTree → List Item → List Item
  | _, [] => []
  | t, item :: items =>
    match (patchFile strict t (Path.ofText item.path) item.patch).2 with
    | .written u => item :: accepted strict u items
    | _ => []

theorem mem_of_mem_accepted {strict : Bool} {t : FileTree} {items : List Item} {item : Item}
    (h : item ∈ accepted strict t items) : item ∈ items := by
  induction items generalizing t with
  | nil => exact h
  | cons first items ih =>
    unfold accepted at h
    split at h
    · rcases List.mem_cons.1 h with rfl | h
      · exact List.mem_cons_self
      · exact List.mem_cons_of_mem _ (ih h)
    · exact absurd h List.not_mem_nil

/-- A batch that comes to an answer runs its accepted items; it is stopped by the item after them. -/
theorem applied_of_applyItems {strict : Bool} {w w' : Workspace} {before items done : List Item}
    {failed : Option Item}
    (h : applyItems strict before items w = (w', .ok (done, failed))) :
    done = (accepted strict w.files items).reverse ++ before ∧
      Applied strict w.files (accepted strict w.files items) w'.files := by
  induction items generalizing before w with
  | nil =>
    obtain ⟨rfl, rfl, rfl⟩ : w = w' ∧ before = done ∧ none = failed := by
      simpa [applyItems] using h
    exact ⟨rfl, .nil _⟩
  | cons item items ih =>
    have happ := apply_spec strict w item.path item.patch
    rw [accepted]
    cases hv : (patchFile strict w.files (Path.ofText item.path) item.patch).2 with
    | written u =>
      rw [hv] at happ
      obtain ⟨w1, hw1, rfl⟩ := happ
      simp only [applyItems, hw1] at h
      obtain ⟨hdone, hrun⟩ := ih h
      refine ⟨?_, applied_cons_of_apply hw1 hrun⟩
      rw [hdone, List.reverse_cons, List.append_assoc]
      rfl
    | refused r =>
      rw [hv] at happ
      obtain ⟨w1, hw1, hfiles⟩ := happ
      obtain ⟨rfl, rfl, rfl⟩ : w1 = w' ∧ before = done ∧ some item = failed := by
        simpa [applyItems, hw1] using h
      exact ⟨rfl, hfiles ▸ .nil _⟩
    | raised u f =>
      rw [hv] at happ
      obtain ⟨w1, hw1, -⟩ := happ
      simp [applyItems, hw1] at h

theorem applyBatch_of_applyItems {strict : Bool} {w w' : Workspace} {items : List Item}
    (h : applyItems strict [] items (w.note (.applyingBatch items.length)) =
      (w', .ok (items.reverse ++ [], none))) :
    applyBatch strict w items =
      (w'.note (.batchApplied items.length), .ok ⟨items.length, false, none, none, []⟩) := by
  simp only [applyBatch, h, List.append_nil, List.length_reverse]

def Item.reversed (item : Item) : Item := ⟨item.path, Engine.reversed item.patch⟩

theorem revertItems_cons_eq_nil {strict : Bool} {w w' : Workspace} {item : Item}
    {items : List Item} (h : revertItems strict (item :: items) w = (w', .ok [])) :
    ∃ w1, revert strict w item.path item.patch = (w1, .ok true) ∧
      revertItems strict items w1 = (w', .ok []) := by
  unfold revertItems at h
  split at h
  · next w1 hw1 => exact ⟨w1, hw1, h⟩
  · split at h
    · simp at h
    · simp at h
  · simp at h

/-- A rollback without a refused revert is a run of the reversed items. -/
theorem applied_of_revertItems {strict : Bool} {w w' : Workspace} {items : List Item}
    (h : revertItems strict items w = (w', .ok [])) :
    Applied strict w.files (items.map Item.reversed) w'.files := by
  induction items generalizing w with
  | nil =>
    obtain rfl : w = w' := by simpa [revertItems] using h
    exact .nil _
  | cons item items ih =>
    obtain ⟨w1, hw1, hrest⟩ := revertItems_cons_eq_nil h
    exact @applied_cons_of_apply strict (w.note (.reverting item.path)) w1 item.reversed hw1 _ _
      (ih hrest)

/-- A failed batch with a clean rollback is the run of the accepted items and of their reverses, the
last one first. -/
theorem applied_of_rollback {strict : Bool} {w w' : Workspace} {items : List Item}
    {b : BatchResult} (h : applyBatch strict w items = (w', .ok b)) (hfail : b.success = false)
    (hclean : b.rollbackClean = true) :
    Applied strict w.files (accepted strict w.files items ++
      (accepted strict w.files items).reverse.map Item.reversed) w'.files := by
  unfold applyBatch at h
  cases hrun : applyItems strict [] items (w.note (.applyingBatch items.length)) with
  | mk w1 result =>
    rw [hrun] at h
    cases result with
    | error f => simp at h
    | ok found =>
      obtain ⟨done, failed⟩ := found
      obtain ⟨hdone, hforth⟩ := applied_of_applyItems hrun
      rw [Workspace.files_note] at hdone hforth
      cases failed with
      | none =>
        obtain ⟨-, hb⟩ := Prod.mk.inj h
        rw [← Except.ok.inj hb] at hfail
        cases hfail
      | some item =>
        simp only [rollBack] at h
        cases hrev : revertItems strict done
            (w1.note (.batchFailed (failureReason item) done.length)) with
        | mk w2 result =>
          rw [hrev] at h
          cases result with
          | error f => simp at h
          | ok failures =>
            obtain ⟨rfl, rfl⟩ : _ ∧ _ := by simpa using h
            obtain rfl : failures = [] := by simpa [BatchResult.rollbackClean] using hclean
            have hback := applied_of_revertItems hrev
            rw [hdone, List.append_nil] at hback
            exact hforth.append (by simpa using hback)

/-! ### Batches of patches that can be undone -/

/-- A patch that does no harm to good texts: applying it has an answer, makes good texts, and is undone
by the reversed patch. -/
structure Undoable (strict : Bool) (Good : Text → Prop) (p : Patch) : Prop where
  answers : ∀ content, Utf8.Encodable content → Good content →
    ∀ f, (revise strict content p).2 ≠ .error (.inr f)
  good : ∀ content new, Utf8.Encodable content → Good content → (revise strict content p).2 = .ok new → Good new
  undone : ∀ content new, Utf8.Encodable content → Good content →
    (revise strict content p).2 = .ok new → (revise strict new (reversed p)).2 = .ok content

/-- Whether every file that has a text has a good one. -/
def AllTexts (Good : Text → Prop) (t : FileTree) : Prop :=
  ∀ names content, t.text? names = some content → Good content

section Undoing

variable {strict : Bool} {Good : Text → Prop} {items : List Item}

theorem AllTexts.put {t : FileTree} (h : AllTexts Good t) {new : Text} (hwritten : Utf8.Encodable new)
    (hnew : Good new) (names : List Text) : AllTexts Good (t.put names (Utf8.encode new)) := by
  intro other content hc
  rw [FileTree.text?_put hwritten] at hc
  by_cases he : other = names
  · obtain rfl : new = content := by simpa [he] using hc
    exact hnew
  · exact h other content (by simpa [he] using hc)

/-- The invariant of a batch: all texts stay good and all paths can still be looked up, so that each
item is either accepted or refused. -/
theorem exists_applyItems {w : Workspace} (before : List Item)
    (hpath : ∀ item ∈ items, ∃ node, w.files.probe (Path.ofText item.path) = .ok node)
    (hgood : AllTexts Good w.files)
    (hanswer : ∀ item ∈ items, ∀ content, Utf8.Encodable content → Good content →
      ∀ f, (revise strict content item.patch).2 ≠ .error (.inr f))
    (hkept : ∀ item ∈ items, ∀ content new, Utf8.Encodable content → Good content →
      (revise strict content item.patch).2 = .ok new → Good new) :
    ∃ w' done failed, applyItems strict before items w = (w', .ok (done, failed)) ∧
      (failed = none → accepted strict w.files items = items) := by
  induction items generalizing w before with
  | nil => exact ⟨w, before, none, rfl, fun _ => rfl⟩
  | cons item items ih =>
    have hspec := patchFile_spec strict w.files (Path.ofText item.path) item.patch
    have happ := apply_spec strict w item.path item.patch
    obtain ⟨hone, hanswers⟩ := List.forall_mem_cons.1 hanswer
    obtain ⟨hgood1, hkeeps⟩ := List.forall_mem_cons.1 hkept
    rw [accepted]
    cases hv : (patchFile strict w.files (Path.ofText item.path) item.patch).2 with
    | written u =>
      rw [hv] at hspec happ
      obtain ⟨names, content, new, found, revised, hu⟩ := hspec
      obtain ⟨w1, hw1, rfl⟩ := happ
      have htext := (FileTree.textAt?_eq_some.1 found).2
      have hsame : w.files.SameNames w1.files := hu ▸ FileTree.sameNames_put_text htext _
      have hnew := hgood1 content new (FileTree.encodable_of_text? htext) (hgood names content htext) revised
      obtain ⟨w2, done, failed, hrun, hall⟩ := @ih w1 (item :: before)
        (fun k hk => hsame.exists_probe (hpath k (List.mem_cons_of_mem _ hk)))
        (hu ▸ hgood.put (encodable_of_revise revised) hnew names) hanswers hkeeps
      exact ⟨w2, done, failed, by simp only [applyItems, hw1, hrun],
        fun hf => congrArg (item :: ·) (hall hf)⟩
    | refused r =>
      rw [hv] at happ
      obtain ⟨w1, hw1, -⟩ := happ
      exact ⟨w1, before, some item, by simp only [applyItems, hw1], by simp⟩
    | raised u f =>
      -- The paths can be looked up and the diffs can be read, so that nothing is raised.
      rw [hv] at hspec
      rcases hspec with ⟨hnode, -⟩ | ⟨names, content, found, he, -⟩
      · exact absurd (hpath item List.mem_cons_self) hnode
      · have htext := (FileTree.textAt?_eq_some.1 found).2
        exact absurd he (hone content (FileTree.encodable_of_text? htext) (hgood names content htext) f)

theorem revertItems_append {w w' : Workspace} (h : revertItems strict items w = (w', .ok []))
    (more : List Item) : revertItems strict (items ++ more) w = revertItems strict more w' := by
  induction items generalizing w with
  | nil =>
    obtain rfl : w = w' := by simpa [revertItems] using h
    rfl
  | cons item items ih =>
    obtain ⟨w1, hw1, hrest⟩ := revertItems_cons_eq_nil h
    rw [List.cons_append, revertItems, hw1]
    exact ih hrest

/-- The invariant of a rollback: when the later items are reverted, the tree is the one that the item
has left, so that its reverse finds the text that it has written. -/
theorem exists_revertItems {t u : FileTree} (hrun : Applied strict t items u)
    (hgood : AllTexts Good t) (hundo : ∀ item ∈ items, Undoable strict Good item.patch)
    {w : Workspace} (hw : w.files = u) :
    ∃ w', revertItems strict items.reverse w = (w', .ok []) ∧ w'.files = t := by
  induction hrun with
  | nil t => exact ⟨w, rfl, hw⟩
  | @cons t u item items names content new found revised rest ih =>
    obtain ⟨ho, htext⟩ := FileTree.textAt?_eq_some.1 found
    have hitem := hundo item List.mem_cons_self
    have hread := FileTree.encodable_of_text? htext
    have hcontent := hgood names content htext
    have hwritten := encodable_of_revise revised
    obtain ⟨w1, hw1, hfiles⟩ := ih (hgood.put hwritten (hitem.good content new hread hcontent revised) names)
      (fun k hk => hundo k (List.mem_cons_of_mem _ hk)) hw
    have hsame : t.SameNames w1.files := hfiles ▸ FileTree.sameNames_put_text htext _
    have hleft : w1.files.text? names = some new := by simp [hfiles, FileTree.text?_put hwritten]
    have hfound : w1.files.textAt? (Path.ofText item.path) = some (names, new) :=
      FileTree.textAt?_eq_some.2 ⟨hsame.opens ho, hleft⟩
    obtain ⟨w2, hw2, hback⟩ := @apply_of_text strict (w1.note (.reverting item.path)) item.path
      (reversed item.patch) names new content hfound
      (hitem.undone content new hread hcontent revised)
    refine ⟨w2, ?_, ?_⟩
    · rw [List.reverse_cons, revertItems_append hw1, revertItems, revert, hw2]
      rfl
    · rw [hback, Workspace.files_note, hfiles]
      exact FileTree.put_put_text htext _

/-- A batch of patches that can be undone is applied as a whole, or it is refused and leaves the files
as they were. -/
theorem applyBatch_cases {w : Workspace}
    (hpath : ∀ item ∈ items, ∃ node, w.files.probe (Path.ofText item.path) = .ok node)
    (hgood : AllTexts Good w.files) (hundo : ∀ item ∈ items, Undoable strict Good item.patch) :
    ∃ w' b, applyBatch strict w items = (w', .ok b) ∧
      ((b.success = true ∧ b.appliedCount = items.length ∧ Applied strict w.files items w'.files) ∨
        (b.success = false ∧ b.rollbackClean = true ∧ b.appliedCount = 0 ∧ w'.files = w.files)) := by
  obtain ⟨w1, done, failed, hrun, hall⟩ :=
    @exists_applyItems strict Good items (w.note (.applyingBatch items.length)) [] hpath hgood
      (fun k hk => (hundo k hk).answers) fun k hk => (hundo k hk).good
  obtain ⟨hdone, hforth⟩ := applied_of_applyItems hrun
  rw [Workspace.files_note] at hdone hforth hall
  rw [List.append_nil] at hdone
  subst hdone
  cases failed with
  | none =>
    rw [hall rfl] at hrun hforth
    refine ⟨_, _, by simp only [applyBatch, hrun]; rfl, .inl ⟨rfl, ?_, ?_⟩⟩
    · exact List.length_reverse
    · exact hforth
  | some item =>
    obtain ⟨w2, hw2, hback⟩ := @exists_revertItems strict Good _ _ _ hforth hgood
      (fun k hk => hundo k (mem_of_mem_accepted hk)) (w1.note (.batchFailed (failureReason item)
        (accepted strict w.files items).reverse.length)) rfl
    refine ⟨_, _, by simp only [applyBatch, hrun, rollBack, hw2]; rfl, .inr ⟨rfl, rfl, rfl, ?_⟩⟩
    exact hback

end Undoing

end Mend.Engine
