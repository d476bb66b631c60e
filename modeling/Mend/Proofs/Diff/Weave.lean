import Mend.Proofs.Diff.Undo

/-!
# Hunks woven into hunks

Hunks that name lines of a text can be applied to it after others have been. Their windows then lie where those
others have moved them, which is their old place if what the others add and remove above it adds up to nothing
(`growthAbove`). In this case the outcome is the same as if all hunks were applied at once (`exists_weave`).
-/

namespace Mend.Diff

/-! ### Windows that do not overlap -/

def Hunk.Apart (g h : Hunk) : Prop :=
  g.oldStart + g.width ≤ h.oldStart ∨ h.oldStart + h.width ≤ g.oldStart

instance (g h : Hunk) : Decidable (g.Apart h) :=
  inferInstanceAs (Decidable (_ ∨ _))

theorem Hunk.Apart.symm {g h : Hunk} (hgh : g.Apart h) : h.Apart g := Or.symm hgh

section

variable {size m n : Nat} {h : Hunk} {gs hs up down : List Hunk}

theorem WindowsFrom.start_lt (hw : WindowsFrom size n hs) : ∀ h ∈ hs, n < h.oldStart := by
  induction hs generalizing n with
  | nil => exact List.forall_mem_nil _
  | cons h hs ih =>
    obtain ⟨hn, hrest⟩ := hw
    refine List.forall_mem_cons.2 ⟨hn, fun k hk => ?_⟩
    have hlater := ih hrest k hk
    omega

theorem WindowsFrom.mono (hw : WindowsFrom size n hs) (hm : m ≤ n) : WindowsFrom size m hs := by
  cases hs with
  | nil => exact Nat.le_trans hm hw
  | cons h hs => exact ⟨Nat.lt_of_le_of_lt hm hw.1, hw.2⟩

theorem WindowsFrom.append (hup : WindowsFrom m n up) (hdown : WindowsFrom size m down) :
    WindowsFrom size n (up ++ down) := by
  induction up generalizing n with
  | nil => exact hdown.mono hup
  | cons g up ih => exact ⟨hup.1, ih hup.2⟩

theorem WindowsFrom.within (hw : WindowsFrom size n hs) : WindowsWithin hs size := by
  induction hs generalizing n with
  | nil => exact ⟨List.forall_mem_nil _, .nil, nofun⟩
  | cons h hs ih =>
    have hend := hw.end_le
    obtain ⟨hn, hrest⟩ := hw
    have hstart := hrest.start_lt
    obtain ⟨hpos, hapart, -⟩ := ih hrest
    refine ⟨List.forall_mem_cons.2 ⟨by omega, hpos⟩, ?_, fun k hk => ?_⟩
    · cases hs with
      | nil => exact .singleton h
      | cons k ks =>
        have hk := hstart k List.mem_cons_self
        exact List.isChain_cons_cons.2 ⟨by omega, hapart⟩
    · exact hend k (List.mem_of_mem_getLast? hk)

theorem WindowsFrom.below (hw : WindowsFrom size (h.oldStart - 1 + h.width) hs) :
    ∀ g ∈ hs, h.oldStart + h.width ≤ g.oldStart := fun g hg => by
  have hstart := hw.start_lt g hg
  omega

/-- Hunks that do not overlap a window end above it or begin below it. -/
theorem WindowsFrom.exists_split (hw : WindowsFrom size n gs) (hn : n < h.oldStart)
    (hin : h.oldStart - 1 + h.width ≤ size) (hapart : ∀ g ∈ gs, h.Apart g) :
    ∃ up down, gs = up ++ down ∧ WindowsFrom (h.oldStart - 1) n up ∧
      WindowsFrom size (h.oldStart - 1 + h.width) down ∧ ∀ g ∈ up, g.oldStart < h.oldStart + h.width := by
  induction gs generalizing n with
  | nil => exact ⟨[], [], rfl, Nat.le_sub_one_of_lt hn, hin, List.forall_mem_nil _⟩
  | cons g gs ih =>
    obtain ⟨hg, hrest⟩ := hw
    obtain ⟨hfirst, hlater⟩ := List.forall_mem_cons.1 hapart
    by_cases hbelow : h.oldStart + h.width ≤ g.oldStart
    · exact ⟨[], g :: gs, rfl, Nat.le_sub_one_of_lt hn, ⟨by omega, hrest⟩, List.forall_mem_nil _⟩
    · have habove : g.oldStart + g.width ≤ h.oldStart := hfirst.resolve_left hbelow
      obtain ⟨up, down, rfl, hup, hdown, hlow⟩ := ih hrest (by omega) hlater
      exact ⟨g :: up, down, rfl, ⟨hg, hup⟩, hdown, List.forall_mem_cons.2 ⟨by omega, hlow⟩⟩

/-- Hunks with windows that do not overlap can be put in order. -/
theorem exists_windowsFrom (hn : n ≤ size)
    (hin : ∀ h ∈ hs, n < h.oldStart ∧ h.oldStart - 1 + h.width ≤ size) (hapart : hs.Pairwise Hunk.Apart) :
    ∃ all, all.Perm hs ∧ WindowsFrom size n all := by
  induction hs with
  | nil => exact ⟨[], .refl [], hn⟩
  | cons h hs ih =>
    obtain ⟨hfirst, hin⟩ := List.forall_mem_cons.1 hin
    obtain ⟨hothers, hapart⟩ := List.pairwise_cons.1 hapart
    obtain ⟨all, hperm, hw⟩ := ih hin hapart
    obtain ⟨up, down, rfl, hup, hdown, -⟩ :=
      hw.exists_split hfirst.1 hfirst.2 fun g hg => hothers g (hperm.mem_iff.1 hg)
    exact ⟨up ++ h :: down, List.perm_middle.trans (hperm.cons h), hup.append ⟨by omega, hdown⟩⟩

end

/-! ### What hunks add and remove -/

theorem totalGrowth_append (gs hs : List Hunk) :
    totalGrowth (gs ++ hs) = totalGrowth gs + totalGrowth hs := by
  induction gs with
  | nil => simp [totalGrowth]
  | cons g gs ih =>
    rw [List.cons_append, totalGrowth, totalGrowth, ih]
    omega

theorem totalGrowth_perm {gs hs : List Hunk} (h : gs.Perm hs) : totalGrowth gs = totalGrowth hs := by
  induction h with
  | nil => rfl
  | cons g _ ih => rw [totalGrowth, totalGrowth, ih]
  | swap g h hs =>
    simp only [totalGrowth]
    omega
  | trans _ _ ihgs ihhs => rw [ihgs, ihhs]

theorem totalGrowth_of_growth {gs : List Hunk} (h : ∀ g ∈ gs, g.growth = 0) : totalGrowth gs = 0 := by
  induction gs with
  | nil => rfl
  | cons g gs ih =>
    obtain ⟨hg, hgs⟩ := List.forall_mem_cons.1 h
    rw [totalGrowth, hg, ih hgs, Int.add_zero]

/-- Hunks below the first `n` lines of a text leave these lines. -/
theorem le_add_totalGrowth {ls : List Text} {n : Nat} {gs : List Hunk} (hn : n ≤ ls.length)
    (hin : ∀ g ∈ gs, n < g.oldStart ∧ g.oldStart - 1 + g.width ≤ ls.length)
    (hapart : gs.Pairwise Hunk.Apart) : (n : Int) ≤ ls.length + totalGrowth gs := by
  obtain ⟨all, hperm, hw⟩ := exists_windowsFrom hn hin hapart
  have hlen := length_refillAll hw
  rw [totalGrowth_perm hperm] at hlen
  omega

/-- What hunks add less what they remove above the end of the window of another one. -/
def growthAbove (gs : List Hunk) (h : Hunk) : Int :=
  totalGrowth (gs.filter fun g => g.oldStart < h.oldStart + h.width)

theorem growthAbove_append (gs hs : List Hunk) (h : Hunk) :
    growthAbove (gs ++ hs) h = growthAbove gs h + growthAbove hs h := by
  rw [growthAbove, List.filter_append, totalGrowth_append]
  rfl

theorem growthAbove_perm {gs hs : List Hunk} (hperm : gs.Perm hs) (h : Hunk) :
    growthAbove gs h = growthAbove hs h := totalGrowth_perm (hperm.filter _)

theorem growthAbove_of_above {gs : List Hunk} {h : Hunk}
    (hgs : ∀ g ∈ gs, g.oldStart < h.oldStart + h.width) : growthAbove gs h = totalGrowth gs := by
  rw [growthAbove, List.filter_eq_self.2 fun g hg => decide_eq_true (hgs g hg)]

theorem growthAbove_of_below {gs : List Hunk} {h : Hunk}
    (hgs : ∀ g ∈ gs, h.oldStart + h.width ≤ g.oldStart) : growthAbove gs h = 0 := by
  rw [growthAbove, List.filter_eq_nil_iff.2 fun g hg => by simpa using hgs g hg]
  rfl

/-! ### Refilled texts -/

section

variable {ls : List Text} {m n : Nat} {h : Hunk} {hs gs up down : List Hunk}

theorem refillAll_hunks_append (hup : WindowsFrom m n up) (hm : m ≤ ls.length)
    (hdown : WindowsFrom ls.length m down) :
    refillAll ls n (up ++ down) = refillAll (ls.take m) n up ++ refillAll ls m down := by
  induction up generalizing n with
  | nil =>
    have hn : n ≤ m := hup
    cases down with
    | nil =>
      have hlines : ls = ls.take m ++ ls.drop m := (List.take_append_drop m ls).symm
      simp only [List.nil_append, refillAll]
      conv => lhs; rw [hlines]
      rw [List.drop_append_of_le_length (by rw [List.length_take]; omega)]
    | cons g down =>
      have hg : m < g.oldStart := hdown.1
      have htake : (ls.take (g.oldStart - 1)).take m = ls.take m := by
        rw [List.take_take, Nat.min_eq_left (by omega)]
      have hgap : (ls.take (g.oldStart - 1)).drop n =
          (ls.take m).drop n ++ (ls.take (g.oldStart - 1)).drop m := by
        conv => lhs; rw [← List.take_append_drop m (ls.take (g.oldStart - 1)), htake]
        rw [List.drop_append_of_le_length (by rw [List.length_take]; omega)]
      simp only [List.nil_append, refillAll, hgap, List.append_assoc]
  | cons g up ih =>
    obtain ⟨hg, hup⟩ := hup
    have hle := hup.le
    have hwindow : g.window (ls.take m) = g.window ls := by
      rw [Hunk.window, Hunk.window, List.drop_take, List.take_take, Nat.min_eq_left (by omega)]
    have hgap : (ls.take m).take (g.oldStart - 1) = ls.take (g.oldStart - 1) := by
      rw [List.take_take, Nat.min_eq_left (by omega)]
    simp only [List.cons_append, refillAll, ih hup, hwindow, hgap, List.append_assoc]

theorem refillAll_window_append (hin : h.oldStart - 1 + h.width ≤ ls.length)
    (hdown : WindowsFrom ls.length (h.oldStart - 1 + h.width) down) :
    refillAll ls (h.oldStart - 1) down = h.window ls ++ refillAll ls (h.oldStart - 1 + h.width) down := by
  have hwindow : refillAll (ls.take (h.oldStart - 1 + h.width)) (h.oldStart - 1) [] = h.window ls := by
    rw [refillAll, List.drop_take, Nat.add_sub_cancel_left, Hunk.window]
  have hcut := @refillAll_hunks_append ls _ (h.oldStart - 1) [] down (Nat.le_add_right _ _) hin hdown
  rwa [List.nil_append, hwindow] at hcut

theorem refillAll_cons_self (ls : List Text) (h : Hunk) (down : List Hunk) :
    refillAll ls (h.oldStart - 1) (h :: down) =
      refill h.body (h.window ls) ++ refillAll ls (h.oldStart - 1 + h.width) down := by
  rw [refillAll, List.drop_eq_nil_iff.2 (List.length_take_le _ _), List.nil_append]

/-- A hunk comes to the lines of its window, with as many lines above them as it names. -/
theorem applyHunk_of_window {above : List Text} (hpos : 1 ≤ h.oldStart)
    (hin : h.oldStart - 1 + h.width ≤ ls.length) (hfit : h.Fits ls) (habove : h.oldStart - 1 = above.length)
    (strict : Bool) (rest : List Text) :
    applyHunk strict h (above ++ (h.window ls ++ rest)) =
      .ok (above ++ (refill h.body (h.window ls) ++ rest)) := by
  have hlen : (h.window ls).length = (expected h.body).length := by
    rw [length_window hin, length_expected]
  rw [← refill_append h.body _ _ hlen]
  refine applyHunk_of_found (by omega) (by rw [List.length_append]; omega) fun _ => ?_
  rw [← show h.window ls = expected h.body from hfit]
  exact List.prefix_append _ _

/-- Of hunks on both sides of a window, those above it add and remove what stands above its end. -/
theorem growthAbove_split (hlow : ∀ g ∈ up, g.oldStart < h.oldStart + h.width)
    (hdown : WindowsFrom ls.length (h.oldStart - 1 + h.width) down) :
    growthAbove (up ++ down) h = totalGrowth up := by
  rw [growthAbove_append, growthAbove_of_above hlow, growthAbove_of_below hdown.below, Int.add_zero]

/-- The lines down to a place, refilled by hunks that leave the number of them as it was. -/
theorem length_append_refillAll_take {above : List Text} (hm : m ≤ ls.length) (hup : WindowsFrom m n up)
    (hshift : (above.length : Int) + totalGrowth up = n) :
    (above ++ refillAll (ls.take m) n up).length = m := by
  have htake : (ls.take m).length = m := List.length_take_of_le hm
  have hlines := @length_refillAll (ls.take m) n up (by rwa [htake])
  rw [List.length_append]
  omega

/-- Hunks that others do not move are not moved by the ones of them below a window either, behind that window. -/
theorem length_append_growthAbove {above before : List Text}
    (hrest : WindowsFrom ls.length (h.oldStart - 1 + h.width) hs)
    (hin : h.oldStart - 1 + h.width ≤ ls.length) (hlow : ∀ g ∈ up, g.oldStart < h.oldStart + h.width)
    (hbefore : before.length = h.oldStart - 1) (hgrown : (above.length : Int) + totalGrowth up = n)
    (hshift : ∀ k ∈ hs, (above.length : Int) + growthAbove (up ++ down) k = n) :
    ∀ k ∈ hs, ((before ++ h.window ls).length : Int) + growthAbove down k = (h.oldStart - 1 + h.width : Nat) := by
  intro k hk
  have habove : ∀ g ∈ up, g.oldStart < k.oldStart + k.width := fun g hg => by
    have hg := hlow g hg
    have hk := hrest.start_lt k hk
    omega
  have hunmoved := hshift k hk
  rw [growthAbove_append, growthAbove_of_above habove] at hunmoved
  rw [List.length_append, length_window hin]
  omega

/-- Hunks are applied to lines that are refilled already, after the first `n` old ones, which `above` stands
for. If the others do not move them, they find their windows and the outcome has all windows refilled. -/
theorem exists_weave {above : List Text} (hhs : WindowsFrom ls.length n hs)
    (hgs : WindowsFrom ls.length n gs) (hapart : ∀ h ∈ hs, ∀ g ∈ gs, h.Apart g)
    (hfits : ∀ h ∈ hs, h.Fits ls) (hshift : ∀ h ∈ hs, (above.length : Int) + growthAbove gs h = n) :
    ∃ all, all.Perm (gs ++ hs) ∧ WindowsFrom ls.length n all ∧
      (∀ h ∈ hs, expected h.body <+: (above ++ refillAll ls n gs).drop (h.oldStart - 1)) ∧
      ∀ strict, applyHunks strict hs (above ++ refillAll ls n gs) = .ok (above ++ refillAll ls n all) := by
  induction hs generalizing n gs above with
  | nil => exact ⟨gs, by simp, hgs, List.forall_mem_nil _, fun _ => rfl⟩
  | cons h hs ih =>
    obtain ⟨hn, hrest⟩ := hhs
    obtain ⟨hfirst, hapart⟩ := List.forall_mem_cons.1 hapart
    obtain ⟨hfit, hfits⟩ := List.forall_mem_cons.1 hfits
    obtain ⟨hgrown, hshift⟩ := List.forall_mem_cons.1 hshift
    have hin := hrest.le
    have hstart : h.oldStart - 1 ≤ ls.length := Nat.le_trans (Nat.le_add_right _ _) hin
    obtain ⟨up, down, rfl, hup, hdown, hlow⟩ := hgs.exists_split hn hin hfirst
    rw [growthAbove_split hlow hdown] at hgrown
    -- what the hunks above the window have made of the lines above it
    obtain ⟨before, hbefore⟩ :
        ∃ before, before = above ++ refillAll (ls.take (h.oldStart - 1)) n up := ⟨_, rfl⟩
    have hlen : before.length = h.oldStart - 1 := hbefore ▸ length_append_refillAll_take hstart hup hgrown
    obtain ⟨all, hperm, hall, hfound, hrun⟩ := ih hrest hdown
      (fun k hk g hg => hapart k hk g (List.mem_append_right _ hg)) hfits
      (length_append_growthAbove hrest hin hlow hlen hgrown hshift)
    have hall' : WindowsFrom ls.length (h.oldStart - 1) (h :: all) := ⟨by omega, hall⟩
    rw [List.append_assoc] at hfound hrun
    rw [refillAll_hunks_append hup hstart (hdown.mono (Nat.le_add_right _ _)), refillAll_window_append hin hdown,
      ← List.append_assoc, ← hbefore]
    refine ⟨up ++ h :: all, ?_, hup.append hall', List.forall_mem_cons.2 ⟨?_, hfound⟩, fun strict => ?_⟩
    · calc up ++ h :: all
        _ |>.Perm (up ++ h :: (down ++ hs)) := (hperm.cons h).append_left up
        _ |>.Perm (up ++ (down ++ h :: hs)) := List.perm_middle.symm.append_left up
        _ |>.Perm (up ++ down ++ h :: hs) := .of_eq (List.append_assoc _ _ _).symm
    · rw [← hlen, List.drop_left, ← show h.window ls = expected h.body from hfit]
      exact List.prefix_append _ _
    · have hone := applyHunk_of_window (by omega) hin hfit hlen.symm strict
        (refillAll ls (h.oldStart - 1 + h.width) all)
      rw [refillAll_hunks_append hup hstart hall', refillAll_cons_self, ← List.append_assoc above, ← hbefore,
        ← hone]
      simp only [applyHunks, hrun, List.append_assoc before]

end

end Mend.Diff
