import Mathlib.Data.List.Permutation
import Mend.Proofs.Diff.Encodable
import Mend.Proofs.Diff.Weave
import Mend.Proofs.Engine.Context
import Mend.Proofs.RuleBatch

/-!
# Batches of patches with several hunks

The patches of a batch are put in order by their first hunks, those for later lines first. A patch with a single
hunk then finds its lines where the old text has them. The other hunks of a patch can stand below hunks of a
patch that is applied before it, and then they are looked for at lines that may have moved. Where what is added
and removed above each hunk adds up to nothing (`Patch.Unshifted`), the batch is applied, and the file has all
windows refilled at once (`applyBatch_replaces_windows`).
-/

namespace Mend

open Diff (Hunk WindowsFrom WindowsWithin refillAll totalGrowth growthAbove)

namespace Patch

/-- The hunks of a patch; none if its diff cannot be read. -/
def hunks (p : Patch) : List Hunk := (Diff.hunks p.diff).toOption.getD []

/-- Whether the hunks of a patch follow each other in a text and find their lines there. A patch without hunks
is blank. -/
structure StandsIn (p : Patch) (ls : List Text) : Prop where
  read : Diff.hunks p.diff = .ok p.hunks
  blank : p.hunks = [] → p.diff.all Text.isBlank = true
  windows : WindowsWithin p.hunks ls.length
  fits : ∀ h ∈ p.hunks, h.Fits ls

def Apart (p q : Patch) : Prop := ∀ g ∈ p.hunks, ∀ h ∈ q.hunks, g.Apart h

instance (p q : Patch) : Decidable (p.Apart q) :=
  inferInstanceAs (Decidable (∀ g ∈ p.hunks, ∀ h ∈ q.hunks, g.Apart h))

/-- Whether all hunks of one patch begin above those of the other. -/
def Uncrossed (p q : Patch) : Prop :=
  (∀ g ∈ p.hunks, ∀ h ∈ q.hunks, g.oldStart < h.oldStart) ∨
    ∀ g ∈ p.hunks, ∀ h ∈ q.hunks, h.oldStart < g.oldStart

/-- Whether patches that are applied one after the other, after the hunks `done`, do not move each other's hunks.
The text that they are for has `size` lines. One line has to be left, as no text has no lines. -/
def Unshifted (size : Nat) : List Hunk → List Patch → Prop
  | _, [] => True
  | done, p :: ps =>
    (∀ h ∈ p.hunks, 0 < size + totalGrowth done ∧ growthAbove done h = 0) ∧
      Unshifted size (done ++ p.hunks) ps

variable {p : Patch} {ps qs : List Patch} {ls : List Text} {size : Nat} {done gs : List Hunk}

theorem Apart.symm {p q : Patch} (h : p.Apart q) : q.Apart p := fun g hg k hk => (h k hk g hg).symm

theorem Uncrossed.symm {p q : Patch} (h : p.Uncrossed q) : q.Uncrossed p :=
  (Or.symm h).imp (fun h g hg k hk => h k hk g hg) fun h g hg k hk => h k hk g hg

theorem firstLine_eq (h : Diff.hunks p.diff = .ok p.hunks) :
    p.firstLine = .ok ((p.hunks.head?.map Hunk.oldStart).getD 0) := by
  simp only [firstLine, h]

theorem StandsIn.pairwise (h : p.StandsIn ls) : p.hunks.Pairwise Hunk.Apart :=
  (Diff.pairwise_of_ordered h.windows.apart).imp Or.inl

theorem StandsIn.within (h : p.StandsIn ls) :
    ∀ k ∈ p.hunks, 1 ≤ k.oldStart ∧ k.oldStart - 1 + k.width ≤ ls.length :=
  fun k hk => ⟨h.windows.start_pos k hk, h.windows.windowsFrom_zero.end_le k hk⟩

/-- Of two patches that are not crossed, the one that comes first in a batch is the lower one. -/
theorem Uncrossed.lt_of_le {q : Patch} (h : p.Uncrossed q) (hp : Diff.hunks p.diff = .ok p.hunks)
    (hq : Diff.hunks q.diff = .ok q.hunks)
    (hle : ∀ m n, p.firstLine = .ok m → q.firstLine = .ok n → n ≤ m) :
    ∀ g ∈ p.hunks, ∀ k ∈ q.hunks, k.oldStart < g.oldStart := by
  rcases h with h | h
  · intro g hg k hk
    have hfirst := hle _ _ (firstLine_eq hp) (firstLine_eq hq)
    obtain ⟨a, as, has⟩ := List.exists_cons_of_ne_nil (List.ne_nil_of_mem hg)
    obtain ⟨b, bs, hbs⟩ := List.exists_cons_of_ne_nil (List.ne_nil_of_mem hk)
    have hab := h a (has ▸ List.mem_cons_self) b (hbs ▸ List.mem_cons_self)
    rw [has, hbs] at hfirst
    exact absurd hab (Nat.not_lt.2 hfirst)
  · exact h

/-! ### Patches that are not shifted -/

theorem Unshifted.perm (h : Unshifted size done ps) (hperm : done.Perm gs) : Unshifted size gs ps := by
  induction ps generalizing done gs with
  | nil => trivial
  | cons p ps ih =>
    refine ⟨fun k hk => ?_, ih h.2 (hperm.append_right p.hunks)⟩
    rw [← Diff.totalGrowth_perm hperm, ← Diff.growthAbove_perm hperm]
    exact h.1 k hk

/-- Hunks that keep the number of lines move nothing. -/
theorem unshifted_of_growth (hsize : 0 < size) (hdone : ∀ g ∈ done, g.growth = 0)
    (hps : ∀ p ∈ ps, ∀ h ∈ p.hunks, h.growth = 0) : Unshifted size done ps := by
  induction ps generalizing done with
  | nil => trivial
  | cons p ps ih =>
    obtain ⟨hp, hps⟩ := List.forall_mem_cons.1 hps
    refine ⟨fun h _ => ?_, ih (fun g hg => ?_) hps⟩
    · rw [Diff.totalGrowth_of_growth hdone]
      exact ⟨by omega, Diff.totalGrowth_of_growth fun g hg => hdone g (List.mem_of_mem_filter hg)⟩
    · exact (List.mem_append.1 hg).elim (hdone g) (hp g)

/-- Hunks below another one move nothing of it, and leave the lines above them. -/
theorem unshifted_of_descending (hsize : 0 < ls.length) (hstands : ∀ p ∈ ps, p.StandsIn ls)
    (hdone : ∀ g ∈ done, g.oldStart - 1 + g.width ≤ ls.length) (hapart : done.Pairwise Hunk.Apart)
    (hbelow : ∀ p ∈ ps, ∀ h ∈ p.hunks, ∀ g ∈ done, h.oldStart < g.oldStart ∧ g.Apart h)
    (hps : ps.Pairwise fun p q => ∀ g ∈ p.hunks, ∀ h ∈ q.hunks, h.oldStart < g.oldStart ∧ g.Apart h) :
    Unshifted ls.length done ps := by
  induction ps generalizing done with
  | nil => trivial
  | cons p ps ih =>
    obtain ⟨hp, hstands⟩ := List.forall_mem_cons.1 hstands
    obtain ⟨hfirst, hbelow⟩ := List.forall_mem_cons.1 hbelow
    obtain ⟨hnext, hps⟩ := List.pairwise_cons.1 hps
    refine ⟨fun h hh => ⟨?_, ?_⟩, ih hstands ?_ ?_ ?_ hps⟩
    · -- the lines down to that of `h` stand above all that was done before
      have hpos := (hp.within h hh).1
      have hleft := Diff.le_add_totalGrowth (Nat.min_le_right h.oldStart ls.length)
        (fun g hg => ⟨Nat.lt_of_le_of_lt (Nat.min_le_left _ _) (hfirst h hh g hg).1, hdone g hg⟩) hapart
      omega
    · refine Diff.growthAbove_of_below fun g hg => ?_
      obtain ⟨hlt, hgh⟩ := hfirst h hh g hg
      unfold Hunk.Apart at hgh
      omega
    · exact fun g hg => (List.mem_append.1 hg).elim (hdone g) fun hg => (hp.within g hg).2
    · exact List.pairwise_append.2 ⟨hapart, hp.pairwise, fun g hg h hh => (hfirst h hh g hg).2⟩
    · exact fun q hq h hh g hg =>
        (List.mem_append.1 hg).elim (hbelow q hq h hh g) fun hg => hnext q hq g hg h hh

end Patch

namespace Engine

/-! ### Files with refilled windows -/

/-- Whether a tree is another one with the windows of hunks refilled at once in one file. -/
structure Refilled (t u : FileTree) (names : List Text) (ls : List Text) (all : List Hunk) : Prop where
  windows : WindowsWithin all ls.length
  legible : ∀ g ∈ all, ∀ b ∈ g.body, .char '\n' ∉ b
  text : u.text? names = some (Text.ofLines (refillAll ls 0 all))
  other : ∀ other, other ≠ names → u.content? other = t.content? other
  sameNames : t.SameNames u

/-- A patch is applied to a text in which windows are refilled already, and refills its own windows, too. -/
theorem exists_revise {content : Text} {p : Patch} {done : List Hunk}
    (hp : p.StandsIn (Text.lines content)) (hwindows : WindowsWithin done (Text.lines content).length)
    (hlegible : ∀ g ∈ done, ∀ b ∈ g.body, .char '\n' ∉ b) (hapart : ∀ h ∈ p.hunks, ∀ g ∈ done, h.Apart g)
    (hunshifted : ∀ h ∈ p.hunks,
      0 < ((Text.lines content).length : Int) + totalGrowth done ∧ growthAbove done h = 0)
    (hold : Utf8.Encodable (Text.ofLines (refillAll (Text.lines content) 0 done)))
    (hwritable : ∀ h ∈ p.hunks, h.IsEncodable) :
    ∃ all, all.Perm (done ++ p.hunks) ∧ WindowsWithin all (Text.lines content).length ∧ ∀ strict,
      (revise strict (Text.ofLines (refillAll (Text.lines content) 0 done)) p).2 =
        .ok (Text.ofLines (refillAll (Text.lines content) 0 all)) := by
  by_cases hnone : p.hunks = []
  · have hread := hp.read
    rw [hnone] at hread
    refine ⟨done, by rw [hnone, List.append_nil], hwindows, fun strict => revise_eq_ok.2 ⟨?_, ?_, hold⟩⟩
    · exact (fits_iff hread).2 (List.forall_mem_nil _)
    · simp only [Diff.apply, hread, hp.blank hnone, if_true]
  · have hfrom := hwindows.windowsFrom_zero
    have hlines : Text.lines (Text.ofLines (refillAll (Text.lines content) 0 done)) =
        refillAll (Text.lines content) 0 done := by
      refine Diff.lines_ofLines (fun hnil => ?_) (Diff.newline_not_mem_refillAll hfrom
        (fun l hl => Diff.newline_not_mem_of_mem_lines hl) hlegible)
      obtain ⟨h, hh⟩ := List.exists_mem_of_ne_nil _ hnone
      have hlen := Diff.length_refillAll hfrom
      have hleft := (hunshifted h hh).1
      rw [hnil, List.length_nil] at hlen
      omega
    obtain ⟨all, hperm, hall, hfound, hrun⟩ := @Diff.exists_weave (Text.lines content) 0 p.hunks done []
      hp.windows.windowsFrom_zero hfrom hapart hp.fits fun h hh => by
        rw [(hunshifted h hh).2]
        rfl
    have hmade : ∀ strict, Diff.apply strict (Text.ofLines (refillAll (Text.lines content) 0 done)) p.diff =
        .ok (Text.ofLines (refillAll (Text.lines content) 0 all)) := fun strict => by
      rw [Diff.apply_of_hunks hp.read hnone, hlines]
      exact congrArg (Except.map Text.ofLines) (hrun strict)
    exact ⟨all, hperm, hall.within, fun strict => revise_eq_ok.2
      ⟨fits_of_found hp.read hp.windows.start_pos (by rwa [hlines]), hmade _,
        Diff.encodable_of_apply hp.read hold hwritable (hmade strict)⟩⟩

section

variable {t : FileTree} {w : Workspace} {names : List Text} {content : Text} {item : Item} {items : List Item}
  {done : List Hunk}

theorem Refilled.nil (htext : t.text? names = some content) : Refilled t t names (Text.lines content) [] where
  windows := ⟨List.forall_mem_nil _, .nil, nofun⟩
  legible := List.forall_mem_nil _
  text := by rw [refillAll, List.drop_zero, Text.ofLines_lines, htext]
  other _ _ := rfl
  sameNames := .refl t

theorem Refilled.apply (h : Refilled t w.files names (Text.lines content) done)
    (hfound : t.textAt? (Path.ofText item.path) = some (names, content))
    (hp : item.patch.StandsIn (Text.lines content)) (hapart : ∀ h ∈ item.patch.hunks, ∀ g ∈ done, h.Apart g)
    (hunshifted : ∀ h ∈ item.patch.hunks,
      0 < ((Text.lines content).length : Int) + totalGrowth done ∧ growthAbove done h = 0)
    (hwritable : ∀ h ∈ item.patch.hunks, h.IsEncodable) (strict : Bool) :
    ∃ w' all, apply strict w item.path item.patch = (w', .ok true) ∧ all.Perm (done ++ item.patch.hunks) ∧
      Refilled t w'.files names (Text.lines content) all := by
  obtain ⟨all, hperm, hwindows, hrevised⟩ := exists_revise hp h.windows h.legible hapart hunshifted
    (FileTree.encodable_of_text? h.text) hwritable
  have hopens := (FileTree.textAt?_eq_some.1 hfound).1
  have hthere : w.files.textAt? (Path.ofText item.path) =
      some (names, Text.ofLines (refillAll (Text.lines content) 0 done)) :=
    FileTree.textAt?_eq_some.2 ⟨h.sameNames.opens hopens, h.text⟩
  obtain ⟨w', happ, hfiles⟩ := apply_of_text hthere (hrevised strict)
  refine ⟨w', all, happ, hperm, hwindows, fun g hg => ?_, ?_, fun other hother => ?_, ?_⟩
  · rcases List.mem_append.1 (hperm.mem_iff.1 hg) with hg | hg
    · exact h.legible g hg
    · exact Diff.newline_not_mem_body hp.read g hg
  · rw [hfiles, FileTree.text?_put (revise_eq_ok.1 (hrevised strict)).2.2, if_pos rfl]
  · rw [hfiles, FileTree.content?_put, if_neg hother, h.other other hother]
  · rw [hfiles]
    exact h.sameNames.trans (FileTree.sameNames_put_text h.text _)

/-- What a run of items carries from one to the next: the windows of the hunks so far are refilled. -/
theorem Refilled.applyItems (h : Refilled t w.files names (Text.lines content) done) (before : List Item)
    (hitems : ∀ item ∈ items, t.textAt? (Path.ofText item.path) = some (names, content) ∧
      item.patch.StandsIn (Text.lines content))
    (hdone : ∀ item ∈ items, ∀ h ∈ item.patch.hunks, ∀ g ∈ done, h.Apart g)
    (hapart : (items.map Item.patch).Pairwise Patch.Apart)
    (hunshifted : Patch.Unshifted (Text.lines content).length done (items.map Item.patch))
    (hwritable : ∀ item ∈ items, ∀ h ∈ item.patch.hunks, h.IsEncodable) (strict : Bool) :
    ∃ w' all, applyItems strict before items w = (w', .ok (items.reverse ++ before, none)) ∧
      all.Perm (done ++ (items.map Item.patch).flatMap Patch.hunks) ∧
      Refilled t w'.files names (Text.lines content) all := by
  induction items generalizing w done before with
  | nil => exact ⟨w, done, rfl, by simp, h⟩
  | cons item items ih =>
    obtain ⟨⟨hfound, hp⟩, hitems⟩ := List.forall_mem_cons.1 hitems
    obtain ⟨hfirst, hdone⟩ := List.forall_mem_cons.1 hdone
    obtain ⟨hnext, hapart⟩ := List.pairwise_cons.1 hapart
    obtain ⟨hnow, hlater⟩ := hunshifted
    obtain ⟨hone, hothers⟩ := List.forall_mem_cons.1 hwritable
    obtain ⟨w1, mid, happ, hmid, h1⟩ := h.apply hfound hp hfirst hnow hone strict
    have hmiddle : ∀ k ∈ items, ∀ a ∈ k.patch.hunks, ∀ g ∈ mid, a.Apart g := by
      intro k hk a ha g hg
      rcases List.mem_append.1 (hmid.mem_iff.1 hg) with hg | hg
      · exact hdone k hk a ha g hg
      · exact (hnext k.patch (List.mem_map_of_mem hk) g hg a ha).symm
    obtain ⟨w2, all, hrun, hall, h2⟩ :=
      ih h1 (item :: before) hitems hmiddle hapart (hlater.perm hmid.symm) hothers
    refine ⟨w2, all, ?_, ?_, h2⟩
    · simp only [Engine.applyItems, happ, hrun, List.reverse_cons, List.append_assoc, List.singleton_append]
    · rw [List.map_cons, List.flatMap_cons, ← List.append_assoc]
      exact hall.trans (hmid.append_right _)

end

end Engine

namespace Repair

open Engine (Refilled)

variable {σ : Type}

/-- Patches whose hunks stand in the text of one file and do not overlap. If those that come first in the order of
the batch do not move the hunks of the later ones, and the lines that are added can be written, the batch is
applied, by a strict engine and by a lenient one, and the file has all windows refilled at once, in their places in
the old text. No hunk is moved where of any two
patches one begins below all of the other, or where all hunks keep the number of lines. -/
theorem applyBatch_replaces_windows (r : Repair σ) {w : Workspace} {names : List Text} {content : Text}
    {ps : List Patch} (htext : w.files.text? names = some content)
    (hfound : ∀ p ∈ ps, w.files.textAt? (Path.ofText (r.itemOf p).path) = some (names, content))
    (hstands : ∀ p ∈ ps, p.StandsIn (Text.lines content)) (hapart : ps.Pairwise Patch.Apart) :
    let ls := Text.lines content
    ∃ qs, Patch.bottomUp ps = .ok qs ∧ r.itemsOf ps = .ok (qs.map r.itemOf) ∧
      (Patch.Unshifted ls.length [] qs → (∀ p ∈ ps, ∀ h ∈ p.hunks, h.IsEncodable) → ∀ strict, ∃ w' all,
        Engine.applyBatch strict w (qs.map r.itemOf) = (w', .ok ⟨ps.length, false, none, none, []⟩) ∧
        all.Perm (ps.flatMap Patch.hunks) ∧ Refilled w.files w'.files names ls all) ∧
      (ps.Pairwise Patch.Uncrossed ∨ (∀ p ∈ ps, ∀ h ∈ p.hunks, h.growth = 0) →
        Patch.Unshifted ls.length [] qs) := by
  intro ls
  obtain ⟨qs, hqs⟩ := Patch.exists_bottomUp fun p hp => ⟨_, Patch.firstLine_eq (hstands p hp).read⟩
  have hperm := Patch.perm_of_bottomUp hqs
  have hstands' : ∀ p ∈ qs, p.StandsIn ls := fun p hp => hstands p (hperm.mem_iff.1 hp)
  have hapart' : qs.Pairwise Patch.Apart := (hperm.pairwise_iff fun h => h.symm).2 hapart
  have hsize : 0 < ls.length := List.length_pos_iff.2 (Diff.lines_ne_nil content)
  refine ⟨qs, hqs, itemsOf_eq_ok.2 ⟨qs, hqs, rfl⟩, fun hunshifted hwritable strict => ?_, fun hcase => ?_⟩
  · have hmap : (qs.map r.itemOf).map Engine.Item.patch = qs := by
      rw [List.map_map]
      exact List.map_id' qs
    obtain ⟨w', all, hrun, hall, hafter⟩ :=
      @Refilled.applyItems w.files (w.note (.applyingBatch (qs.map r.itemOf).length)) names content
        (qs.map r.itemOf) [] (.nil htext) [] (List.forall_mem_map.2 fun p hp =>
          ⟨hfound p (hperm.mem_iff.1 hp), hstands' p hp⟩)
        (fun _ _ _ _ => List.forall_mem_nil _) (by rwa [hmap]) (by rwa [hmap])
        (List.forall_mem_map.2 fun p hp => hwritable p (hperm.mem_iff.1 hp)) strict
    rw [hmap, List.nil_append] at hall
    have hlen : (qs.map r.itemOf).length = ps.length := by rw [List.length_map, hperm.length_eq]
    have hbatch := Engine.applyBatch_of_applyItems hrun
    rw [hlen] at hbatch
    exact ⟨_, all, hbatch, hall.trans (hperm.flatMap_right _), hafter⟩
  · rcases hcase with huncrossed | hgrowth
    · refine Patch.unshifted_of_descending hsize hstands' (List.forall_mem_nil _) .nil
        (fun _ _ _ _ => List.forall_mem_nil _) ?_
      have hqs' : qs.Pairwise Patch.Uncrossed := (hperm.pairwise_iff fun h => h.symm).2 huncrossed
      refine (((Patch.pairwise_of_bottomUp hqs).and hqs').and hapart').imp_of_mem
        fun {p q} hp hq hpq g hg h hh => ⟨?_, hpq.2 g hg h hh⟩
      exact hpq.1.2.lt_of_le (hstands' p hp).read (hstands' q hq).read hpq.1.1 g hg h hh
    · exact Patch.unshifted_of_growth hsize (List.forall_mem_nil _) fun p hp => hgrowth p (hperm.mem_iff.1 hp)

/-- The second patch has a hunk above that of the first one and a hunk below it, which it does not move. -/
theorem applyBatch_replaces_windows_of_crossed_patches :
    let r : Repair Unit := ⟨.default, Rule.builtinRegistry, none, fun _ => .ok []⟩
    let inner : Patch := ⟨"@@ -2,2 +2,2 @@\n b\n-c\n+C", "", "a.ts", .generated⟩
    let outer : Patch := ⟨"@@ -1 +1 @@\n-a\n+A\n@@ -5 +5,2 @@\n-e\n+E\n+F", "", "a.ts", .generated⟩
    let w : Workspace := .start { files := [(["a.ts"], Utf8.encode "a\nb\nc\nd\ne")] }
    ∀ strict, ∃ w',
      Engine.applyBatch strict w ([inner, outer].map r.itemOf) = (w', .ok ⟨2, false, none, none, []⟩) ∧
        w'.files.text? ["a.ts"] = some ("A\nb\nC\nd\nE\nF" : Text) := by
  intro r inner outer w strict
  let ls : List Text := ["a", "b", "c", "d", "e"]
  have hinner : inner.StandsIn ls := ⟨by decide, by decide, ⟨by decide, by decide, by decide⟩, by decide⟩
  have houter : outer.StandsIn ls := ⟨by decide, by decide, ⟨by decide, by decide, by decide⟩, by decide⟩
  obtain ⟨qs, hqs, -, hrun, -⟩ := @applyBatch_replaces_windows Unit r w ["a.ts"] "a\nb\nc\nd\ne"
    [inner, outer] (by decide) (by decide)
    (List.forall_mem_cons.2 ⟨hinner, List.forall_mem_singleton.2 houter⟩) (by decide)
  have hlines : Patch.withFirstLines [inner, outer] = .ok [(2, inner), (1, outer)] := by decide
  obtain rfl := Except.ok.inj ((Patch.bottomUp_of_pairwise hlines (by decide)).symm.trans hqs)
  obtain ⟨w', all, hw', hperm, hafter⟩ := hrun ⟨by decide, by decide, trivial⟩ (by decide) strict
  have hall : ∀ all ∈ ([inner, outer].flatMap Patch.hunks).permutations',
      all.IsChain (fun h k => h.oldStart + h.width ≤ k.oldStart) →
        Text.ofLines (refillAll ls 0 all) = "A\nb\nC\nd\nE\nF" := by
    decide
  refine ⟨w', hw', hafter.text.trans (congrArg some ?_)⟩
  exact hall all (List.mem_permutations'.2 hperm) hafter.windows.apart

/-- The second patch has a hunk below that of the first one, which adds a line above it. A lenient engine removes
the line `d` in the place of `e`, and the batch is a success. A strict one refuses the patch. -/
theorem applyBatch_moves_lower_hunk :
    let r : Repair Unit := ⟨.default, Rule.builtinRegistry, none, fun _ => .ok []⟩
    let inner : Patch := ⟨"@@ -3 +3,2 @@\n-c\n+C\n+D", "", "a.ts", .generated⟩
    let outer : Patch := ⟨"@@ -1 +1 @@\n-a\n+A\n@@ -5 +5 @@\n-e\n+E", "", "a.ts", .generated⟩
    let ls : List Text := ["a", "b", "c", "d", "e"]
    let w : Workspace := .start { files := [(["a.ts"], Utf8.encode (Text.ofLines ls))] }
    let items : List Engine.Item := [⟨"a.ts", inner⟩, ⟨"a.ts", outer⟩]
    (∀ p ∈ [inner, outer], p.StandsIn ls) ∧ [inner, outer].Pairwise Patch.Apart ∧
      r.itemsOf [inner, outer] = .ok items ∧
      (∀ all : List Hunk, all.Perm ([inner, outer].flatMap Patch.hunks) → WindowsWithin all ls.length →
        Text.ofLines (refillAll ls 0 all) = "A\nb\nC\nD\nd\nE") ∧
      (Engine.applyBatch false w items).2 = .ok ⟨2, false, none, none, []⟩ ∧
      (Engine.applyBatch false w items).1.files.text? ["a.ts"] = some ("A\nb\nC\nD\nE\ne" : Text) ∧
      (Engine.applyBatch true w items).2 =
        .ok ⟨0, true, some "Failed to apply patch to a.ts", some ⟨"a.ts", outer⟩, []⟩ := by
  intro r inner outer ls w items
  have hinner : inner.StandsIn ls := ⟨by decide, by decide, ⟨by decide, by decide, by decide⟩, by decide⟩
  have houter : outer.StandsIn ls := ⟨by decide, by decide, ⟨by decide, by decide, by decide⟩, by decide⟩
  have hlines : Patch.withFirstLines [inner, outer] = .ok [(3, inner), (1, outer)] := by decide
  have hall : ∀ all ∈ ([inner, outer].flatMap Patch.hunks).permutations',
      all.IsChain (fun h k => h.oldStart + h.width ≤ k.oldStart) →
        Text.ofLines (refillAll ls 0 all) = "A\nb\nC\nD\nd\nE" := by
    decide
  refine ⟨List.forall_mem_cons.2 ⟨hinner, List.forall_mem_singleton.2 houter⟩, by decide, ?_,
    fun all hperm hw => hall all (List.mem_permutations'.2 hperm) hw.apart, by decide, by decide, by decide⟩
  rw [itemsOf, Patch.bottomUp_of_pairwise hlines (by decide)]
  rfl

end Repair

end Mend
