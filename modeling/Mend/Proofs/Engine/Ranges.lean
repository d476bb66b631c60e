import Mend.Proofs.Diff.Ranges
import Mend.Proofs.Engine.Context
import Mend.Proofs.Engine.Frame

/-!
# Batches of edits

The items of a batch are applied one after the other, each to the text that those before it have left. Where
each of them replaces one range of lines, and where no item shifts a later one, every item is applied, and
the files have all ranges replaced at once (`exists_applyBatch_of_edits`). What is tracked from one item to
the next is a tree that is already edited (`Edited`).
-/

namespace Mend.Engine

open Diff (Edit replaceRanges)

/-! ### The edit of an item -/

/-- The file that an item is for and the edit that it makes. -/
def Item.site? (t : FileTree) (item : Item) : Option (List Text × Edit) :=
  match t.textAt? (Path.ofText item.path), Diff.edit? item.patch.diff with
  | some (names, _), some e => some (names, e)
  | _, _ => none

def editsOn (t : FileTree) (names : List Text) (items : List Item) : List Edit :=
  items.filterMap fun item => (item.site? t).bind fun s => if s.1 = names then some s.2 else none

/-- Whether an item replaces a range of lines in a text. -/
structure Item.Replaces (t : FileTree) (item : Item) (names : List Text) (content : Text) (e : Edit) :
    Prop where
  target : t.textAt? (Path.ofText item.path) = some (names, content)
  edit : Diff.edit? item.patch.diff = some e
  finds : e.Matches (Text.lines content)

def Item.Apart (t : FileTree) (a b : Item) : Prop :=
  ∀ s ∈ a.site? t, ∀ u ∈ b.site? t, s.1 = u.1 → s.2.Apart u.2

/-- Whether an item does not shift the lines of another one. -/
def Item.Spares (t : FileTree) (a b : Item) : Prop :=
  ∀ s ∈ a.site? t, ∀ u ∈ b.site? t, s.1 = u.1 → s.2.start < u.2.start → s.2.KeepsCount

instance (t : FileTree) (a b : Item) : Decidable (a.Apart t b) :=
  inferInstanceAs (Decidable (∀ s ∈ a.site? t, ∀ u ∈ b.site? t, s.1 = u.1 → s.2.Apart u.2))

instance (t : FileTree) (a b : Item) : Decidable (a.Spares t b) :=
  inferInstanceAs (Decidable (∀ s ∈ a.site? t, ∀ u ∈ b.site? t, s.1 = u.1 → s.2.start < u.2.start →
    s.2.new.length = s.2.old.length))

/-- Whether the lines that an item puts in place of others can be written. -/
def Item.IsWritable (item : Item) : Prop := ∀ e ∈ Diff.edit? item.patch.diff, ∀ l ∈ e.new, Utf8.Encodable l

/-- Whether items replace ranges of lines that do not overlap. -/
structure ReplaceRanges (t : FileTree) (items : List Item) : Prop where
  found : ∀ item ∈ items, ∃ names content e, item.Replaces t names content e
  apart : items.Pairwise (Item.Apart t)

instance (t : FileTree) (item : Item) :
    Decidable (∃ names content e, item.Replaces t names content e) :=
  decidable_of_iff (∃ x ∈ t.textAt? (Path.ofText item.path), ∃ e ∈ Diff.edit? item.patch.diff,
      e.Matches (Text.lines x.2))
    ⟨fun ⟨x, hx, e, he, hm⟩ => ⟨x.1, x.2, e, hx, he, hm⟩,
      fun ⟨names, content, e, h⟩ => ⟨(names, content), h.target, e, h.edit, h.finds⟩⟩

instance (t : FileTree) (items : List Item) : Decidable (ReplaceRanges t items) :=
  decidable_of_iff ((∀ item ∈ items, ∃ names content e, item.Replaces t names content e) ∧
      items.Pairwise (Item.Apart t))
    ⟨fun ⟨hfound, hapart⟩ => ⟨hfound, hapart⟩, fun h => ⟨h.found, h.apart⟩⟩

variable {t u : FileTree} {item : Item} {items done : List Item} {names : List Text} {content : Text}
  {e : Edit}

theorem Item.Apart.symm {a b : Item} (h : a.Apart t b) : b.Apart t a :=
  fun s hs u hu hsame => (h u hu s hs hsame.symm).symm

theorem Item.Replaces.site?_eq (h : item.Replaces t names content e) : item.site? t = some (names, e) := by
  simp only [Item.site?, h.target, h.edit]

theorem edit?_of_site? (h : item.site? t = some (names, e)) : Diff.edit? item.patch.diff = some e := by
  unfold Item.site? at h
  split at h
  · next he =>
    obtain ⟨-, rfl⟩ := Prod.mk.inj (Option.some.inj h)
    exact he
  · cases h

theorem ReplaceRanges.perm (h : ReplaceRanges t items) (hperm : items.Perm done) : ReplaceRanges t done :=
  ⟨fun item hitem => h.found item (hperm.mem_iff.2 hitem),
    (hperm.pairwise_iff fun hab => hab.symm).1 h.apart⟩

theorem ReplaceRanges.sublist (h : ReplaceRanges t items) (hsub : done.Sublist items) :
    ReplaceRanges t done :=
  ⟨fun item hitem => h.found item (hsub.subset hitem), h.apart.sublist hsub⟩

theorem editsOn_cons (h : item.site? t = some (names, e)) (other : List Text) (items : List Item) :
    editsOn t other (item :: items) =
      if names = other then e :: editsOn t other items else editsOn t other items := by
  unfold editsOn
  by_cases hsame : names = other
  · simp [h, hsame]
  · simp [h, hsame]

theorem mem_editsOn : e ∈ editsOn t names items ↔ ∃ item ∈ items, item.site? t = some (names, e) := by
  unfold editsOn
  rw [List.mem_filterMap]
  refine exists_congr fun item => and_congr_right fun _ => ?_
  cases item.site? t with
  | none => simp
  | some s =>
    obtain ⟨found, f⟩ := s
    by_cases hsame : found = names
    · simp [hsame]
    · simp [hsame]

theorem pairwise_editsOn (h : items.Pairwise (Item.Apart t)) (names : List Text) :
    (editsOn t names items).Pairwise Edit.Apart := by
  refine h.filterMap _ fun a b hab e he f hf => ?_
  obtain ⟨s, hs, hse⟩ := Option.bind_eq_some_iff.1 he
  obtain ⟨u, hu, huf⟩ := Option.bind_eq_some_iff.1 hf
  obtain ⟨hsn, hse⟩ := Option.ite_none_right_eq_some.1 hse
  obtain ⟨hun, huf⟩ := Option.ite_none_right_eq_some.1 huf
  obtain rfl := Option.some.inj hse
  obtain rfl := Option.some.inj huf
  exact hab s hs u hu (hsn.trans hun.symm)

theorem ReplaceRanges.matches_of_mem (h : ReplaceRanges t items) (ht : t.text? names = some content)
    (he : e ∈ editsOn t names items) :
    e.Matches (Text.lines content) ∧ ∀ l ∈ e.new, .char '\n' ∉ l := by
  obtain ⟨item, hitem, hsite⟩ := mem_editsOn.1 he
  obtain ⟨found, there, f, hf⟩ := h.found item hitem
  obtain ⟨rfl, rfl⟩ : found = names ∧ f = e := by simpa [hf.site?_eq] using hsite
  obtain rfl : there = content := by simpa [(FileTree.textAt?_eq_some.1 hf.target).2] using ht
  exact ⟨hf.finds, fun l => Diff.newline_not_mem_of_edit? hf.edit⟩

/-! ### One edit -/

theorem encodable_applied (hcontent : Utf8.Encodable content) (hnew : ∀ l ∈ e.new, Utf8.Encodable l) :
    Utf8.Encodable (Text.ofLines (e.applied (Text.lines content))) := by
  have hold : ∀ l ∈ Text.lines content, Utf8.Encodable l := fun l hl => Utf8.encodable_of_mem_lines hcontent hl
  rw [Utf8.encodable_ofLines_iff, Edit.applied, List.forall_mem_append, List.forall_mem_append]
  exact ⟨⟨fun l hl => hold l (List.mem_of_mem_take hl), hnew⟩, fun l hl => hold l (List.mem_of_mem_drop hl)⟩

theorem fits_of_edit? {p : Patch} (hp : Diff.edit? p.diff = some e) (he : e.Matches (Text.lines content)) :
    Fits content p := by
  obtain ⟨k, hk, rfl⟩ := Diff.exists_hunk_of_edit? hp
  exact fits_of_found hk (List.forall_mem_singleton.2 he.start_pos) (List.forall_mem_singleton.2 he.found)

/-- A patch with a single hunk whose lines are there, and whose new ones can be written, is applied, in both
modes. -/
theorem revise_of_edit? {p : Patch} (hp : Diff.edit? p.diff = some e) (he : e.Matches (Text.lines content))
    (hcontent : Utf8.Encodable content) (hnew : ∀ l ∈ e.new, Utf8.Encodable l) (strict : Bool) :
    (revise strict content p).2 = .ok (Text.ofLines (e.applied (Text.lines content))) :=
  revise_eq_ok.2 ⟨fits_of_edit? hp he, Diff.apply_of_edit? hp he _, encodable_applied hcontent hnew⟩

/-! ### Trees that are edited -/

/-- Whether a tree is another one with the ranges of items replaced at once. -/
structure Edited (t u : FileTree) (items : List Item) : Prop where
  sameNames : t.SameNames u
  text : ∀ names content, t.text? names = some content →
    u.text? names = some (Text.ofLines (replaceRanges (editsOn t names items) (Text.lines content)))
  other : ∀ names, t.text? names = none → u.content? names = t.content? names

theorem Edited.nil (t : FileTree) : Edited t t [] := by
  refine ⟨.refl t, fun names content ht => ?_, fun _ _ => rfl⟩
  have hnone : editsOn t names [] = [] := rfl
  rw [hnone, Diff.replaceRanges_nil, Text.ofLines_lines, ht]

theorem Edited.perm (h : Edited t u items) (hperm : items.Perm done)
    (hapart : items.Pairwise (Item.Apart t)) : Edited t u done := by
  refine ⟨h.sameNames, fun names content ht => ?_, h.other⟩
  have hedits : (editsOn t names items).Perm (editsOn t names done) := hperm.filterMap _
  rw [h.text names content ht, Diff.replaceRanges_perm hedits (pairwise_editsOn hapart names)]

/-- An item that those before it do not shift is applied, and its range is then replaced with theirs. -/
theorem Edited.apply {w : Workspace} (h : Edited t w.files done) (hrep : ReplaceRanges t (item :: done))
    (hspares : ∀ a ∈ done, a.Spares t item) (hwritable : item.IsWritable) (strict : Bool) :
    ∃ w', apply strict w item.path item.patch = (w', .ok true) ∧ Edited t w'.files (item :: done) := by
  obtain ⟨names, content, e, hitem⟩ := hrep.found item List.mem_cons_self
  obtain ⟨hopens, htext⟩ := FileTree.textAt?_eq_some.1 hitem.target
  have hcons := editsOn_cons hitem.site?_eq
  have hdone := hrep.sublist (List.sublist_cons_self item done)
  have hapart := pairwise_editsOn hrep.apart names
  rw [hcons names, if_pos rfl] at hapart
  obtain ⟨hfinds, hmade⟩ := hitem.finds.replaceRanges (fun f hf => (hdone.matches_of_mem htext hf).1) hapart
    fun f hf hlt => by
      obtain ⟨a, ha, hsite⟩ := mem_editsOn.1 hf
      exact hspares a ha _ hsite _ hitem.site?_eq rfl hlt
  -- the text can be cut into the lines again: there is the one that the item looks for
  have hlines : Text.lines (Text.ofLines (replaceRanges (editsOn t names done) (Text.lines content))) =
      replaceRanges (editsOn t names done) (Text.lines content) := by
    refine Diff.lines_ofLines (fun hnil => ?_) fun l hl => ?_
    · rw [hnil] at hfinds
      exact hfinds.some_line (by simpa using hfinds.found)
    · rcases Diff.mem_of_mem_replaceFrom hl with hl | ⟨f, hf, hl⟩
      · exact Diff.newline_not_mem_of_mem_lines hl
      · exact (hdone.matches_of_mem htext hf).2 l hl
  have hthere : w.files.textAt? (Path.ofText item.path) = some (names,
      Text.ofLines (replaceRanges (editsOn t names done) (Text.lines content))) :=
    FileTree.textAt?_eq_some.2 ⟨h.sameNames.opens hopens, h.text names content htext⟩
  rw [← hlines] at hfinds
  have hread := FileTree.encodable_of_text? (h.text names content htext)
  have hwritten := encodable_applied hread (hwritable e hitem.edit)
  obtain ⟨w', happ, hfiles⟩ :=
    apply_of_text hthere (revise_of_edit? hitem.edit hfinds hread (hwritable e hitem.edit) strict)
  rw [hlines, hmade] at hfiles hwritten
  refine ⟨w', happ, ?_, fun other there hother => ?_, fun other hother => ?_⟩
  · rw [hfiles]
    exact h.sameNames.trans (FileTree.sameNames_put_text (h.text names content htext) _)
  · rw [hfiles, FileTree.text?_put hwritten, hcons other]
    by_cases hsame : other = names
    · subst hsame
      obtain rfl : there = content := by simpa [htext] using hother.symm
      rw [if_pos rfl, if_pos rfl]
    · rw [if_neg hsame, if_neg fun hs => hsame hs.symm]
      exact h.text other there hother
  · have hne : other ≠ names := fun hsame => by simp [hsame, htext] at hother
    rw [hfiles, FileTree.content?_put, if_neg hne, h.other other hother]

theorem Edited.applyItems {w : Workspace} (before : List Item) (h : Edited t w.files done)
    (hrep : ReplaceRanges t (done ++ items)) (hdone : ∀ a ∈ done, ∀ b ∈ items, a.Spares t b)
    (hitems : items.Pairwise (Item.Spares t)) (hwritable : ∀ item ∈ items, item.IsWritable) (strict : Bool) :
    ∃ w', applyItems strict before items w = (w', .ok (items.reverse ++ before, none)) ∧
      Edited t w'.files (items.reverse ++ done) := by
  induction items generalizing w done before with
  | nil => exact ⟨w, rfl, h⟩
  | cons item items ih =>
    obtain ⟨hfirst, hrest⟩ := List.pairwise_cons.1 hitems
    obtain ⟨hone, hothers⟩ := List.forall_mem_cons.1 hwritable
    have hmiddle : ReplaceRanges t (item :: done ++ items) := hrep.perm List.perm_middle
    obtain ⟨w1, happ, h1⟩ := h.apply (hmiddle.sublist (List.sublist_append_left _ _))
      (fun a ha => hdone a ha item List.mem_cons_self) hone strict
    obtain ⟨w2, hrun, h2⟩ := ih (item :: before) h1 hmiddle
      (List.forall_mem_cons.2 ⟨hfirst, fun a ha b hb => hdone a ha b (List.mem_cons_of_mem _ hb)⟩) hrest hothers
    refine ⟨w2, ?_, ?_⟩
    · rw [Engine.applyItems, happ]
      simpa using hrun
    · simpa using h2

/-- A batch of items that are not shifted by what was done before, nor by each other, is applied as a whole. -/
theorem Edited.applyBatch {w : Workspace} (h : Edited t w.files done)
    (hrep : ReplaceRanges t (done ++ items)) (hdone : ∀ a ∈ done, ∀ b ∈ items, a.Spares t b)
    (hitems : items.Pairwise (Item.Spares t)) (hwritable : ∀ item ∈ items, item.IsWritable) (strict : Bool) :
    ∃ w', applyBatch strict w items = (w', .ok ⟨items.length, false, none, none, []⟩) ∧
      Edited t w'.files (done ++ items) := by
  obtain ⟨w', hrun, h'⟩ := @Edited.applyItems t items done (w.note (.applyingBatch items.length)) [] h
    hrep hdone hitems hwritable strict
  have hperm : (items.reverse ++ done).Perm (done ++ items) :=
    ((List.reverse_perm items).append_right done).trans List.perm_append_comm
  exact ⟨_, applyBatch_of_applyItems hrun, h'.perm hperm (hrep.perm hperm.symm).apart⟩

end Mend.Engine
