import Mend.Proofs.Diff.Reversal

/-!
# What a replay makes of the lines

A body may be replayed where its window is not in the text, or only in part. What its lines then do is told step
by step (`Replayed`): the lines above the position stay, each line of the result was there or is added by the body,
and their number is that of the old lines, with those that are added and without those that are removed. So a text
that is made by a diff has the lines that its hunks have left, unless none is left (`applyHunks_eq_lines`).
-/

namespace Mend.Diff

/-! ### One body -/

/-- Whether the replay of a body from a position makes `result` of some lines. -/
inductive Replayed (result : List Text) : Nat → List Text → List Text → Prop
  | nil (position : Nat) : Replayed result position [] result
  | removal {position : Nat} {b : Text} {body ls : List Text} (kind_eq : kind b = .removal)
      (lt : position < ls.length) (rest : Replayed result position body (ls.eraseIdx position)) :
      Replayed result position (b :: body) ls
  | addition {position : Nat} {b : Text} {body ls : List Text} (kind_eq : kind b = .addition)
      (rest : Replayed result (position + 1) body (insertAt position (payload b) ls)) :
      Replayed result position (b :: body) ls
  | context {position : Nat} {b : Text} {body ls : List Text} (kind_eq : kind b = .context)
      (rest : Replayed result (position + 1) body ls) : Replayed result position (b :: body) ls
  | other {position : Nat} {b : Text} {body ls : List Text} (kind_eq : kind b = .other)
      (rest : Replayed result position body ls) : Replayed result position (b :: body) ls

section

variable {position i : Nat} {body ls result : List Text}

theorem replayed (happ : replay position body ls = .ok result) : Replayed result position body ls := by
  induction body generalizing position ls with
  | nil =>
    obtain rfl : ls = result := Except.ok.inj happ
    exact .nil position
  | cons b body ih =>
    unfold replay at happ
    cases hk : kind b with
    | removal =>
      simp only [hk] at happ
      split at happ
      · next hlt => exact .removal hk hlt (ih happ)
      · cases happ
    | addition =>
      simp only [hk] at happ
      split at happ
      · exact .addition hk (ih happ)
      · cases happ
    | context =>
      simp only [hk] at happ
      exact .context hk (ih happ)
    | other =>
      simp only [hk] at happ
      exact .other hk (ih happ)

theorem length_insertAt (position : Nat) (l : Text) (ls : List Text) :
    (insertAt position l ls).length = ls.length + 1 := by
  rw [insertAt, List.length_append, List.length_cons, List.length_take, List.length_drop]
  omega

theorem mem_insertAt {l k : Text} (hk : k ∈ insertAt position l ls) : k = l ∨ k ∈ ls := by
  rcases List.mem_append.1 hk with htake | hrest
  · exact .inr (List.mem_of_mem_take htake)
  · exact (List.mem_cons.1 hrest).imp_right List.mem_of_mem_drop

namespace Replayed

theorem getElem?_eq (hr : Replayed result position body ls) (hi : i < position) (hin : i < ls.length) :
    result[i]? = ls[i]? := by
  induction hr with
  | nil position => rfl
  | @removal position b body ls hk hlt _ ih =>
    have hleft : i < (ls.eraseIdx position).length := by
      rw [List.length_eraseIdx_of_lt hlt]
      omega
    rw [ih hi hleft, List.getElem?_eraseIdx_of_lt hi]
  | @addition position b body ls hk _ ih =>
    have htake : i < (ls.take position).length := by
      rw [List.length_take]
      omega
    have hkept : (insertAt position (payload b) ls)[i]? = ls[i]? := by
      rw [insertAt, List.getElem?_append_left htake, List.getElem?_take_of_lt hi]
    rw [ih (by omega) (by rw [length_insertAt]; omega), hkept]
  | context hk _ ih => exact ih (by omega) hin
  | other hk _ ih => exact ih hi hin

theorem length_add_removed (hr : Replayed result position body ls) :
    result.length + (body.filter isRemoval).length = ls.length + (body.filter isAddition).length := by
  induction hr with
  | nil position => rfl
  | removal hk hlt _ ih =>
    rw [List.length_eraseIdx_of_lt hlt] at ih
    simp [isAddition_eq, isRemoval_eq, hk] at ih ⊢
    omega
  | addition hk _ ih =>
    rw [length_insertAt] at ih
    simp [isAddition_eq, isRemoval_eq, hk] at ih ⊢
    omega
  | context hk _ ih => simpa [isAddition_eq, isRemoval_eq, hk] using ih
  | other hk _ ih => simpa [isAddition_eq, isRemoval_eq, hk] using ih

/-- What holds of the old lines and of those that a body adds holds of the lines that it makes. -/
theorem forall_mem {p : Text → Prop} (hr : Replayed result position body ls) (hls : ∀ l ∈ ls, p l)
    (hbody : ∀ b ∈ body, isAddition b = true → p (payload b)) : ∀ l ∈ result, p l := by
  induction hr with
  | nil position => exact hls
  | removal hk hlt _ ih =>
    exact ih (fun l hl => hls l (List.mem_of_mem_eraseIdx hl)) (List.forall_mem_cons.1 hbody).2
  | addition hk _ ih =>
    obtain ⟨hb, hbody⟩ := List.forall_mem_cons.1 hbody
    refine ih (fun l hl => ?_) hbody
    rcases mem_insertAt hl with rfl | hl
    · exact hb (by simp [isAddition_eq, hk])
    · exact hls l hl
  | context hk _ ih => exact ih hls (List.forall_mem_cons.1 hbody).2
  | other hk _ ih => exact ih hls (List.forall_mem_cons.1 hbody).2

end Replayed

end

/-! ### One hunk -/

theorem oldStart_pos_of_applyHunk {strict : Bool} {h : Hunk} {ls result : List Text}
    (happ : applyHunk strict h ls = .ok result) : 1 ≤ h.oldStart := by
  unfold applyHunk at happ
  split at happ
  · cases happ
  · split at happ
    · cases happ
    · next position hp => omega

theorem replay_of_applyHunk {strict : Bool} {h : Hunk} {ls result : List Text}
    (happ : applyHunk strict h ls = .ok result) : replay (h.oldStart - 1) h.body ls = .ok result := by
  unfold applyHunk at happ
  split at happ
  · cases happ
  · split at happ
    · cases happ
    · next position hstart =>
      rw [hstart]
      exact happ

theorem replayed_of_applyHunk {strict : Bool} {h : Hunk} {ls result : List Text}
    (happ : applyHunk strict h ls = .ok result) : Replayed result (h.oldStart - 1) h.body ls :=
  replayed (replay_of_applyHunk happ)

/-! ### All hunks -/

theorem applyHunks_cons_eq_ok {strict : Bool} {h : Hunk} {hs : List Hunk} {ls result : List Text}
    (happ : applyHunks strict (h :: hs) ls = .ok result) :
    ∃ mid, applyHunks strict hs ls = .ok mid ∧ applyHunk strict h mid = .ok result := by
  unfold applyHunks at happ
  split at happ
  · cases happ
  · next mid hmid => exact ⟨mid, hmid, happ⟩

section

variable {strict : Bool} {hs : List Hunk} {ls result : List Text} (happ : applyHunks strict hs ls = .ok result)

include happ

theorem getElem?_of_applyHunks {i : Nat} (hbefore : ∀ h ∈ hs, i < h.oldStart - 1) (hin : i < ls.length) :
    result[i]? = ls[i]? := by
  induction hs generalizing result with
  | nil =>
    obtain rfl : ls = result := Except.ok.inj happ
    rfl
  | cons h hs ih =>
    obtain ⟨mid, hmid, hone⟩ := applyHunks_cons_eq_ok happ
    have hrest := ih hmid fun k hk => hbefore k (List.mem_cons_of_mem _ hk)
    have hleft : i < mid.length := by
      by_contra hout
      rw [List.getElem?_eq_none (by omega), List.getElem?_eq_getElem hin] at hrest
      cases hrest
    rw [(replayed_of_applyHunk hone).getElem?_eq (hbefore h List.mem_cons_self) hleft, hrest]

theorem length_of_applyHunks : (result.length : Int) = ls.length + totalGrowth hs := by
  induction hs generalizing result with
  | nil =>
    obtain rfl : ls = result := Except.ok.inj happ
    exact (Int.add_zero _).symm
  | cons h hs ih =>
    obtain ⟨mid, hmid, hone⟩ := applyHunks_cons_eq_ok happ
    have hrest := ih hmid
    have hlen := (replayed_of_applyHunk hone).length_add_removed
    simp only [totalGrowth, Hunk.growth, Hunk.added, Hunk.removed, List.length_map]
    omega

theorem forall_mem_applyHunks {p : Text → Prop} (hls : ∀ l ∈ ls, p l) (hadded : ∀ h ∈ hs, ∀ l ∈ h.added, p l) :
    ∀ l ∈ result, p l := by
  induction hs generalizing result with
  | nil =>
    obtain rfl : ls = result := Except.ok.inj happ
    exact hls
  | cons h hs ih =>
    obtain ⟨mid, hmid, hone⟩ := applyHunks_cons_eq_ok happ
    obtain ⟨hh, hadded⟩ := List.forall_mem_cons.1 hadded
    exact (replayed_of_applyHunk hone).forall_mem (ih hmid hadded) fun b hb hkind =>
      hh _ (List.mem_map_of_mem (List.mem_filter.2 ⟨hb, hkind⟩))

theorem newline_not_mem_applyHunks (hls : ∀ l ∈ ls, .char '\n' ∉ l)
    (hbody : ∀ h ∈ hs, ∀ b ∈ h.body, .char '\n' ∉ b) :
    ∀ l ∈ result, .char '\n' ∉ l := by
  refine forall_mem_applyHunks happ hls fun h hh l hl => ?_
  obtain ⟨b, hb, rfl⟩ := List.mem_map.1 hl
  exact newline_not_mem_payload (hbody h hh b (List.mem_of_mem_filter hb))

end

/-! ### Texts -/

theorem mem_of_mem_cutLines {ls : List Text} {b : Text} :
    (b ∈ (cutLines ls).1 → b ∈ ls) ∧ ∀ s ∈ (cutLines ls).2, b ∈ s.body → b ∈ ls := by
  induction ls with
  | nil => simp [cutLines]
  | cons l ls ih =>
    rw [cutLines_cons, consLine]
    obtain ⟨ih1, ih2⟩ := ih
    cases Header.parse? l with
    | none =>
      refine ⟨fun hb => ?_, fun s hs hb => List.mem_cons_of_mem _ (ih2 s hs hb)⟩
      rcases List.mem_cons.1 hb with rfl | hb
      · exact List.mem_cons_self
      · exact List.mem_cons_of_mem _ (ih1 hb)
    | some header =>
      refine ⟨fun hb => absurd hb List.not_mem_nil, fun s hs hb => ?_⟩
      rcases List.mem_cons.1 hs with rfl | hs
      · exact List.mem_cons_of_mem _ (ih1 hb)
      · exact List.mem_cons_of_mem _ (ih2 s hs hb)

theorem exists_section_of_hunksOf {ss : List Section} {hs : List Hunk} (h : hunksOf ss = .ok hs) :
    ∀ k ∈ hs, ∃ s ∈ ss, k.body = s.body := by
  induction ss generalizing hs with
  | nil =>
    obtain rfl := Except.ok.inj h
    simp
  | cons s ss ih =>
    obtain ⟨g, gs, rfl, hg, hgs⟩ := hunksOf_cons h
    intro k hk
    rcases List.mem_cons.1 hk with rfl | hk
    · exact ⟨s, List.mem_cons_self, (Section.hunk_spec hg).2.2.2.2⟩
    · obtain ⟨t, ht, hb⟩ := ih hgs k hk
      exact ⟨t, List.mem_cons_of_mem _ ht, hb⟩

theorem newline_not_mem_body {diff : Text} {hs : List Hunk} (hd : hunks diff = .ok hs) :
    ∀ h ∈ hs, ∀ b ∈ h.body, .char '\n' ∉ b := by
  intro h hh b hb
  obtain ⟨s, hs, hbody⟩ := exists_section_of_hunksOf hd h hh
  rw [hbody] at hb
  exact newline_not_mem_of_mem_lines (mem_of_mem_cutLines.2 s hs hb)

section

variable {strict : Bool} {content diff result : Text} {hs : List Hunk}

theorem applyHunks_of_apply (hd : hunks diff = .ok hs) (hne : hs ≠ [])
    (happ : apply strict content diff = .ok result) :
    ∃ ls, applyHunks strict hs (Text.lines content) = .ok ls ∧ result = Text.ofLines ls := by
  rw [apply_of_hunks hd hne] at happ
  cases hls : applyHunks strict hs (Text.lines content) with
  | error e =>
    rw [hls] at happ
    cases happ
  | ok ls =>
    rw [hls] at happ
    exact ⟨ls, rfl, (Except.ok.inj happ).symm⟩

theorem applyHunks_eq_lines (hd : hunks diff = .ok hs) (hne : hs ≠ [])
    (happ : apply strict content diff = .ok result)
    (hkeeps : 1 ≤ ((Text.lines content).length : Int) + totalGrowth hs) :
    applyHunks strict hs (Text.lines content) = .ok (Text.lines result) := by
  obtain ⟨ls, hls, rfl⟩ := applyHunks_of_apply hd hne happ
  have hlen := length_of_applyHunks hls
  have hsome : ls ≠ [] := fun hnil => by
    rw [hnil, List.length_nil] at hlen
    omega
  rw [lines_ofLines hsome (newline_not_mem_applyHunks hls (fun l => newline_not_mem_of_mem_lines)
    (newline_not_mem_body hd)), hls]

end

end Mend.Diff
