import Mend.Proofs.Engine.Answer

/-!
# What a batch reads and writes

A batch reads and writes the files that its paths lead to. So it does the same in two workspaces that
agree on these files, and it leaves all other files alone (`applyBatch_parallel`). Both facts are shown
together: each step takes workspaces that agree to workspaces that agree.
-/

namespace Mend.FileTree

/-! ### Leading to a file -/

/-- Whether a path leads to the file with these names. -/
def LeadsTo (t : FileTree) (p : Path) (names : List Text) : Prop :=
  t.locate p = .ok names ∧ (t.content? names).isSome

theorem SameNames.symm {t u : FileTree} (h : SameNames t u) : SameNames u t :=
  ⟨h.folders.symm, h.home.symm, h.sealed.symm, h.names.symm⟩

theorem SameNames.leadsTo {t u : FileTree} (h : SameNames t u) (p : Path) (names : List Text) :
    t.LeadsTo p names ↔ u.LeadsTo p names := by
  rw [LeadsTo, LeadsTo, h.locate, h.isSome_content?]

theorem leadsTo_of_text {t : FileTree} {p : Path} {names : List Text} {content : Text}
    (h : t.textAt? p = some (names, content)) : t.LeadsTo p names := by
  obtain ⟨ho, ht⟩ := textAt?_eq_some.1 h
  exact ⟨ho.located, by rw [content?_of_text? ht]; rfl⟩

/-! ### Trees that agree, and changes that are confined -/

/-- Two trees with the same names in which the files with some of them hold the same. -/
structure AgreeOn (S : List Text → Prop) (t u : FileTree) : Prop where
  sameNames : t.SameNames u
  content : ∀ names, S names → t.content? names = u.content? names

/-- A change of a tree that leaves all files alone but those with some names. -/
structure Confined (S : List Text → Prop) (t u : FileTree) : Prop where
  sameNames : t.SameNames u
  content : ∀ names, ¬ S names → u.content? names = t.content? names

section

variable {S : List Text → Prop} {t u v : FileTree}

theorem AgreeOn.refl (S : List Text → Prop) (t : FileTree) : AgreeOn S t t :=
  ⟨.refl t, fun _ _ => rfl⟩

theorem AgreeOn.symm (h : AgreeOn S t u) : AgreeOn S u t :=
  ⟨h.sameNames.symm, fun names hn => (h.content names hn).symm⟩

theorem Confined.refl (S : List Text → Prop) (t : FileTree) : Confined S t t :=
  ⟨.refl t, fun _ _ => rfl⟩

theorem Confined.trans (h : Confined S t u) (k : Confined S u v) : Confined S t v :=
  ⟨h.sameNames.trans k.sameNames,
    fun names hn => (k.content names hn).trans (h.content names hn)⟩

/-- Two trees that agree on some files still do after a change of each, if they agree on what was changed. -/
theorem AgreeOn.of_confined {T : List Text → Prop} {t' u' : FileTree} (h : AgreeOn T t u)
    (hagree : AgreeOn S t' u') (ht : Confined S t t') (hu : Confined S u u') : AgreeOn T t' u' := by
  refine ⟨hagree.sameNames, fun names hn => ?_⟩
  by_cases hin : S names
  · exact hagree.content names hin
  · rw [ht.content names hin, hu.content names hin, h.content names hn]

theorem AgreeOn.trans_confined (h : AgreeOn (fun names => ¬ S names) t u) (hu : Confined S u v) :
    AgreeOn (fun names => ¬ S names) t v :=
  ⟨h.sameNames.trans hu.sameNames, fun names hn =>
    (h.content names hn).trans (hu.content names hn).symm⟩

theorem Confined.put {names : List Text} {content : Text} (hin : S names)
    (h : t.text? names = some content) (bytes : ByteArray) : Confined S t (t.put names bytes) := by
  refine ⟨sameNames_put_text h bytes, fun other hother => ?_⟩
  rw [content?_put, if_neg]
  rintro rfl
  exact hother hin

theorem AgreeOn.put {names : List Text} {content : Text} (h : AgreeOn S t u)
    (ht : t.text? names = some content) (hu : u.text? names = some content) (bytes : ByteArray) :
    AgreeOn S (t.put names bytes) (u.put names bytes) := by
  refine ⟨((sameNames_put_text ht bytes).symm.trans h.sameNames).trans (sameNames_put_text hu bytes),
    fun other hother => ?_⟩
  rw [content?_put, content?_put, h.content other hother]

/-- A path that leads nowhere but to files on which two trees agree finds the same text in both. -/
theorem AgreeOn.textAt? (h : AgreeOn S t u) {p : Path} (hp : ∀ names, t.LeadsTo p names → S names) :
    t.textAt? p = u.textAt? p := by
  have hone : ∀ {t u : FileTree}, AgreeOn S t u → (∀ names, t.LeadsTo p names → S names) →
      ∀ found, t.textAt? p = some found → u.textAt? p = some found := by
    intro t u h hp ⟨names, content⟩ hfound
    obtain ⟨ho, ht⟩ := textAt?_eq_some.1 hfound
    have hin := hp names (leadsTo_of_text hfound)
    have hu : u.text? names = some content := by
      rw [text?_eq_some, ← h.content names hin, ← text?_eq_some]
      exact ht
    exact textAt?_eq_some.2 ⟨h.sameNames.opens ho, hu⟩
  have hback : ∀ names, u.LeadsTo p names → S names := fun names hn =>
    hp names ((h.sameNames.leadsTo p names).2 hn)
  ext found
  exact ⟨hone h hp found, hone h.symm hback found⟩

end

end Mend.FileTree

namespace Mend.Engine

open FileTree (AgreeOn Confined)

variable {S : List Text → Prop}

/-- Two steps that begin with two trees of files and give the same result: they end in workspaces which
agree on some files, and each one leaves all other files alone. -/
structure Parallel {α : Type} (S : List Text → Prop) (t u : FileTree) (x y : Workspace × α) :
    Prop where
  result : x.2 = y.2
  agree : AgreeOn S x.1.files y.1.files
  left : Confined S t x.1.files
  right : Confined S u y.1.files

/-- Whether the paths of some items lead to files with some names only. -/
def Within (S : List Text → Prop) (t : FileTree) (items : List Item) : Prop :=
  ∀ item ∈ items, ∀ names, t.LeadsTo (Path.ofText item.path) names → S names

theorem Within.of_sameNames {t u : FileTree} {items : List Item} (h : Within S t items)
    (hsame : t.SameNames u) : Within S u items := fun item hitem names hn =>
  h item hitem names ((hsame.leadsTo _ names).2 hn)

theorem Within.tail {t : FileTree} {item : Item} {items : List Item}
    (h : Within S t (item :: items)) : Within S t items := fun k hk =>
  h k (List.mem_cons_of_mem _ hk)

section

variable {w v : Workspace}

theorem Parallel.of_same_files {α : Type} (h : AgreeOn S w.files v.files) {w' v' : Workspace}
    (hw : w'.files = w.files) (hv : v'.files = v.files) (a : α) :
    Parallel S w.files v.files (w', a) (v', a) where
  result := rfl
  agree := by rw [hw, hv]; exact h
  left := by rw [hw]; exact .refl S _
  right := by rw [hv]; exact .refl S _

/-- From where two steps ended in parallel, two more steps in parallel. -/
theorem Parallel.trans {α β : Type} {t u : FileTree} {x y : Workspace × α} (h : Parallel S t u x y)
    {x' y' : Workspace × β} (k : Parallel S x.1.files y.1.files x' y') : Parallel S t u x' y' :=
  ⟨k.result, k.agree, h.left.trans k.left, h.right.trans k.right⟩

/-- A patch is accepted in two trees alike if they agree on the file that its path leads to. -/
theorem Accepts.of_agreeOn {strict : Bool} {t u : FileTree} {path : Path} {p : Patch}
    {names : List Text} {content new : Text} (h : AgreeOn S t u)
    (hp : ∀ names, t.LeadsTo path names → S names)
    (ha : Accepts strict t path p names content new) :
    Accepts strict u path p names content new :=
  ⟨(h.textAt? hp).symm.trans ha.found, ha.fits, ha.made, ha.encodable⟩

theorem Raises.of_agreeOn {strict : Bool} {t u : FileTree} {path : Path} {p : Patch} {f : Fault}
    (h : AgreeOn S t u) (hp : ∀ names, t.LeadsTo path names → S names)
    (hr : Raises strict t path p f) : Raises strict u path p f := by
  rcases hr with ⟨hl, ha⟩ | ⟨hfound, hun⟩
  · exact .path ((h.sameNames.locate path).symm.trans hl) ha
  · exact .text ((h.textAt? hp).symm.trans hfound) hun

theorem apply_parallel (strict : Bool) (h : AgreeOn S w.files v.files) {path : Text} (p : Patch)
    (hp : ∀ names, w.files.LeadsTo (Path.ofText path) names → S names) :
    Parallel S w.files v.files (apply strict w path p) (apply strict v path p) := by
  have hq : ∀ names, v.files.LeadsTo (Path.ofText path) names → S names := fun names hn =>
    hp names ((h.sameNames.leadsTo _ names).2 hn)
  rcases apply_cases strict w path p with ⟨w', names, content, new, hw, ha, hwfiles⟩ |
    ⟨w', hw, hwfiles⟩ | ⟨w', f, hw, hf, hwfiles⟩
  · have hb := ha.of_agreeOn h hp
    obtain ⟨v', hv, hvfiles⟩ := apply_of_accepts hb
    have hin := hp names (FileTree.leadsTo_of_text ha.found)
    have htw := (FileTree.textAt?_eq_some.1 ha.found).2
    have htv := (FileTree.textAt?_eq_some.1 hb.found).2
    rw [hw, hv]
    exact ⟨rfl, by rw [hwfiles, hvfiles]; exact h.put htw htv _,
      by rw [hwfiles]; exact .put hin htw _, by rw [hvfiles]; exact .put hin htv _⟩
  · -- The other application is refused as well: in the two other cases the first one would not be.
    rcases apply_cases strict v path p with ⟨v', names, content, new, -, ha, -⟩ |
      ⟨v', hv, hvfiles⟩ | ⟨v', f, -, hf, -⟩
    · obtain ⟨u, hu, -⟩ := apply_of_accepts (ha.of_agreeOn h.symm hq)
      simp [hw] at hu
    · rw [hw, hv]
      exact .of_same_files h hwfiles hvfiles _
    · have he := apply_of_raises (hf.of_agreeOn h.symm hq)
      simp [hw] at he
  · have he := apply_of_raises (hf.of_agreeOn h hp)
    rcases apply_cases strict v path p with ⟨v', -, -, -, hv, -⟩ | ⟨v', hv, -⟩ |
      ⟨v', g, hv, -, hvfiles⟩
    · simp [hv] at he
    · simp [hv] at he
    · obtain rfl : g = f := by simpa [hv] using he
      rw [hw, hv]
      rcases hwfiles with ⟨hno, hwfiles⟩ | ⟨e, names, content, rfl, hfound, hwfiles⟩
      · rcases hvfiles with ⟨-, hvfiles⟩ | ⟨e, -, -, rfl, -⟩
        · exact .of_same_files h hwfiles hvfiles _
        · exact absurd rfl (hno e)
      · rcases hvfiles with ⟨hno, -⟩ | ⟨-, names', content', -, hthere, hvfiles⟩
        · exact absurd rfl (hno e)
        · -- The text has no bytes in either workspace, and the same file is left empty.
          rw [← h.textAt? hp, hfound] at hthere
          obtain ⟨rfl, rfl⟩ : names = names' ∧ content = content' := by simpa using hthere
          have hin := hp names (FileTree.leadsTo_of_text hfound)
          have htw := (FileTree.textAt?_eq_some.1 hfound).2
          have htv := (FileTree.textAt?_eq_some.1 ((h.textAt? hp).symm.trans hfound)).2
          exact ⟨rfl, by rw [hwfiles, hvfiles]; exact h.put htw htv _,
            by rw [hwfiles]; exact .put hin htw _, by rw [hvfiles]; exact .put hin htv _⟩

/-! ### Batches -/

theorem applyItems_parallel (strict : Bool) {items : List Item} (h : AgreeOn S w.files v.files)
    (hin : Within S w.files items) (before : List Item) :
    Parallel S w.files v.files (applyItems strict before items w) (applyItems strict before items v) := by
  induction items generalizing w v before with
  | nil => exact .of_same_files h rfl rfl _
  | cons item items ih =>
    have hone := apply_parallel strict h item.patch (hin item List.mem_cons_self)
    unfold applyItems
    cases hw : apply strict w item.path item.patch with
    | mk w1 a =>
      cases hv : apply strict v item.path item.patch with
      | mk v1 b =>
        rw [hw, hv] at hone
        obtain rfl : a = b := hone.result
        rcases a with f | _ | _
        · exact ⟨rfl, hone.agree, hone.left, hone.right⟩
        · exact ⟨rfl, hone.agree, hone.left, hone.right⟩
        · exact hone.trans (ih hone.agree (hin.tail.of_sameNames hone.left.sameNames) _)

theorem revertItems_parallel (strict : Bool) {items : List Item} (h : AgreeOn S w.files v.files)
    (hin : Within S w.files items) :
    Parallel S w.files v.files (revertItems strict items w) (revertItems strict items v) := by
  induction items generalizing w v with
  | nil => exact .of_same_files h rfl rfl _
  | cons item items ih =>
    have hone : Parallel S w.files v.files (revert strict w item.path item.patch)
        (revert strict v item.path item.patch) :=
      @apply_parallel S (w.note (.reverting item.path)) (v.note (.reverting item.path)) strict h
        item.path (reversed item.patch) (hin item List.mem_cons_self)
    unfold revertItems
    cases hw : revert strict w item.path item.patch with
    | mk w1 a =>
      cases hv : revert strict v item.path item.patch with
      | mk v1 b =>
        rw [hw, hv] at hone
        obtain rfl : a = b := hone.result
        have hrest := hin.tail.of_sameNames hone.left.sameNames
        rcases a with f | _ | _
        · exact ⟨rfl, hone.agree, hone.left, hone.right⟩
        · have hnext := @ih (w1.note (.rollbackFailed item.path)) (v1.note (.rollbackFailed item.path))
            hone.agree hrest
          simp only
          cases hw2 : revertItems strict items (w1.note (.rollbackFailed item.path)) with
          | mk w2 c =>
            cases hv2 : revertItems strict items (v1.note (.rollbackFailed item.path)) with
            | mk v2 d =>
              rw [hw2, hv2] at hnext
              obtain rfl : c = d := hnext.result
              have hboth := hone.trans hnext
              cases c with
              | error f => exact ⟨rfl, hboth.agree, hboth.left, hboth.right⟩
              | ok failures => exact ⟨rfl, hboth.agree, hboth.left, hboth.right⟩
        · exact hone.trans (ih hone.agree hrest)

theorem files_rollBack_count (w : Workspace) (failures : List Item) :
    (if failures.isEmpty then w.count .batchesRolledBack [] 1
      else (w.count .batchesRolledBack [] 1).count .rollbackFailures [] failures.length).files =
      w.files := by
  split <;> rfl

theorem rollBack_parallel (strict : Bool) {applied : List Item} (failed : Item)
    (h : AgreeOn S w.files v.files) (hin : Within S w.files applied) :
    Parallel S w.files v.files (rollBack strict applied failed w) (rollBack strict applied failed v) := by
  unfold rollBack
  generalize hn : Notice.batchFailed (failureReason failed) applied.length = n
  have hrevert := @revertItems_parallel S (w.note n) (v.note n) strict applied h hin
  simp only [hn]
  cases hw : revertItems strict applied (w.note n) with
  | mk w1 a =>
    cases hv : revertItems strict applied (v.note n) with
    | mk v1 b =>
      rw [hw, hv] at hrevert
      obtain rfl : a = b := hrevert.result
      cases a with
      | error f => exact ⟨rfl, hrevert.agree, hrevert.left, hrevert.right⟩
      | ok failures =>
        refine ⟨rfl, ?_, ?_, ?_⟩
        · simpa only [Workspace.files_note, files_rollBack_count] using hrevert.agree
        · simpa only [Workspace.files_note, files_rollBack_count] using hrevert.left
        · simpa only [Workspace.files_note, files_rollBack_count] using hrevert.right

/-- A batch gives the same answer in two workspaces that agree on the files its paths lead to, makes the
same of these files, and leaves all other files alone. -/
theorem applyBatch_parallel (strict : Bool) {items : List Item} (h : AgreeOn S w.files v.files)
    (hin : Within S w.files items) :
    Parallel S w.files v.files (applyBatch strict w items) (applyBatch strict v items) := by
  unfold applyBatch
  generalize Notice.applyingBatch items.length = n
  have hforth := @applyItems_parallel S (w.note n) (v.note n) strict items h hin []
  cases hw : applyItems strict [] items (w.note n) with
  | mk w1 a =>
    cases hv : applyItems strict [] items (v.note n) with
    | mk v1 b =>
      rw [hw, hv] at hforth
      obtain rfl : a = b := hforth.result
      rcases a with f | ⟨applied, failed⟩
      · exact ⟨rfl, hforth.agree, hforth.left, hforth.right⟩
      · cases failed with
        | none => exact ⟨rfl, hforth.agree, hforth.left, hforth.right⟩
        | some failed =>
          have hdone : Within S w1.files applied := by
            obtain ⟨rfl, -⟩ := applied_of_applyItems hw
            intro item hitem
            rw [List.append_nil, List.mem_reverse] at hitem
            exact hin.of_sameNames hforth.left.sameNames item (mem_of_mem_accepted hitem)
          exact hforth.trans (rollBack_parallel strict failed hforth.agree hdone)

theorem sameNames_applyBatch (strict : Bool) (w : Workspace) (items : List Item) :
    w.files.SameNames (applyBatch strict w items).1.files :=
  (applyBatch_parallel strict (.refl (fun _ => True) w.files) fun _ _ _ _ => trivial).left.sameNames

end

end Mend.Engine
