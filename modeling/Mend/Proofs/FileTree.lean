import Mend.FileTree

/-!
# Rewriting files in place

Writing to a file that is there changes what it holds and nothing else: the names of all files and
the folders stay, so every path leads to the same place as before (`SameNames.locate`). Texts are read
from such places and written back to them.
-/

namespace Mend

/-- Whether a path and each of its names are short enough to be looked up in any tree. -/
structure Path.IsShort (p : Path) : Prop where
  text_le : (Utf8.nameBytes p.text).length ≤ FileTree.maxPathSize
  name_le : ∀ n ∈ p.names, (Utf8.nameBytes n).length ≤ FileTree.maxNameSize

/-- Whether a file can have the path: it can be encoded, and there is no zero in it. -/
structure Path.IsValid (p : Path) : Prop where
  nameable : Utf8.nameProblem? p.text = none
  no_zero : .char '\x00' ∉ p.text

instance (p : Path) : Decidable p.IsValid :=
  decidable_of_iff (Utf8.nameProblem? p.text = none ∧ .char '\x00' ∉ p.text)
    ⟨fun ⟨hnameable, hzero⟩ => ⟨hnameable, hzero⟩, fun h => ⟨h.nameable, h.no_zero⟩⟩

namespace FileTree

/-! ### Trees with the same names -/

/-- Two trees that differ at most in what their files hold. -/
structure SameNames (t u : FileTree) : Prop where
  folders : t.folders = u.folders
  home : t.home = u.home
  sealed : t.sealed = u.sealed
  names : t.files.map Prod.fst = u.files.map Prod.fst

theorem SameNames.refl (t : FileTree) : SameNames t t := ⟨rfl, rfl, rfl, rfl⟩

theorem SameNames.trans {t u v : FileTree} (h : SameNames t u) (k : SameNames u v) :
    SameNames t v :=
  ⟨h.folders.trans k.folders, h.home.trans k.home, h.sealed.trans k.sealed, h.names.trans k.names⟩

theorem sameNames_put {t : FileTree} {names : List Text} {bytes : ByteArray}
    (h : t.content? names = some bytes) (new : ByteArray) : SameNames t (t.put names new) := by
  have hkeys := Assoc.map_fst_put names t.files new
  rw [if_pos (Assoc.mem_of_lookup names t.files h)] at hkeys
  exact ⟨rfl, rfl, rfl, hkeys.symm⟩

theorem content?_isSome (t : FileTree) (names : List Text) :
    (t.content? names).isSome = (t.files.map Prod.fst).any (names == ·) := by
  rw [Bool.eq_iff_iff, content?, List.lookup_isSome_iff, List.any_map, List.any_eq_true]
  rfl

section

variable {t u : FileTree} (h : SameNames t u)

include h

theorem SameNames.isSome_content? (names : List Text) :
    (t.content? names).isSome = (u.content? names).isSome := by
  rw [content?_isSome, content?_isSome, h.names]

theorem SameNames.isFolder (names : List Text) : t.isFolder names = u.isFolder names := by
  have hfolder : ∀ v : FileTree, v.isFolder names = (names.isEmpty ||
      v.folders.any (names.isPrefixOf ·) || (v.files.map Prod.fst).any fun f =>
        names.isPrefixOf f && decide (names.length < f.length)) := fun v => by
    rw [FileTree.isFolder, List.any_map]
    rfl
  rw [hfolder, hfolder, h.names, h.folders]

theorem SameNames.isSealed (names : List Text) : t.isSealed names = u.isSealed names := by
  rw [FileTree.isSealed, FileTree.isSealed, h.sealed]

theorem SameNames.step (names : List Text) (name : Text) : t.step names name = u.step names name := by
  simp only [FileTree.step, h.isFolder, h.isSealed, h.isSome_content?]

theorem SameNames.walk (names more : List Text) : t.walk names more = u.walk names more := by
  induction more generalizing names with
  | nil => rfl
  | cons n ns ih => simp only [FileTree.walk, h.step, ih]

theorem SameNames.locate (p : Path) : t.locate p = u.locate p := by
  simp only [FileTree.locate, FileTree.beginning, h.home, h.walk]

end

/-! ### What a path leads to -/

theorem content?_of_probe {t : FileTree} {p : Path} {names : List Text} {bytes : ByteArray}
    (h : t.probe p = .ok (some (.file names bytes))) :
    t.locate p = .ok names ∧ t.content? names = some bytes := by
  unfold probe lookup at h
  cases hl : t.locate p with
  | error e => cases e <;> simp [hl, FileProblem.isAbsence] at h
  | ok found =>
    rw [hl] at h
    cases hc : t.content? found with
    | none =>
      by_cases hf : t.isFolder found = true
      · simp [nodeAt, hc, hf] at h
      · simp [nodeAt, hc, hf, FileProblem.isAbsence] at h
    | some b =>
      obtain ⟨rfl, rfl⟩ : found = names ∧ b = bytes := by simpa [nodeAt, hc] using h
      exact ⟨rfl, hc⟩

theorem probe_of_locate {t : FileTree} {p : Path} {names : List Text} {bytes : ByteArray}
    (hl : t.locate p = .ok names) (hc : t.content? names = some bytes) :
    t.probe p = .ok (some (.file names bytes)) := by
  simp only [probe, lookup, hl, nodeAt, hc]

theorem nodeAt_cases (t : FileTree) (names : List Text) :
    (∃ node, t.nodeAt names = .ok node) ∨ t.nodeAt names = .error .notFound := by
  cases hc : t.content? names with
  | some bytes => exact .inl ⟨.file names bytes, by simp only [nodeAt, hc]⟩
  | none =>
    by_cases hf : t.isFolder names = true
    · exact .inl ⟨.folder, by simp only [nodeAt, hc, if_pos hf]⟩
    · exact .inr (by simp only [nodeAt, hc, if_neg hf])

theorem probe_eq_error {t : FileTree} {p : Path} {e : FileError} :
    t.probe p = .error e ↔
      ∃ problem, t.locate p = .error problem ∧ problem.isAbsence = false ∧ e = ⟨problem, p.text⟩ := by
  unfold probe lookup
  cases hl : t.locate p with
  | error problem =>
    cases ha : problem.isAbsence with
    | true => simp [ha]
    | false => simpa [ha] using eq_comm
  | ok names =>
    rcases t.nodeAt_cases names with ⟨node, hn⟩ | hn
    · simp [hn]
    · simp [hn, FileProblem.isAbsence]

theorem exists_probe_iff (t : FileTree) (p : Path) :
    (∃ node, t.probe p = .ok node) ↔
      ∀ problem, t.locate p = .error problem → problem.isAbsence = true := by
  cases hp : t.probe p with
  | ok node =>
    refine ⟨fun _ problem hl => ?_, fun _ => ⟨node, rfl⟩⟩
    cases ha : problem.isAbsence with
    | true => rfl
    | false =>
      rw [probe_eq_error.2 ⟨problem, hl, ha, rfl⟩] at hp
      cases hp
  | error e =>
    obtain ⟨problem, hl, ha, -⟩ := probe_eq_error.1 hp
    simp [hl, ha]

theorem exists_probe_iff_isOk (t : FileTree) (p : Path) :
    (∃ node, t.probe p = .ok node) ↔ (t.probe p).isOk = true := by
  cases t.probe p <;> simp [Except.isOk, Except.toBool]

/-- What can be wrong with a step, other than that it leads nowhere. -/
theorem step_eq_error {t : FileTree} {names : List Text} {name : Text} {problem : FileProblem}
    (h : t.step names name = .error problem) :
    problem = .notFolder ∨ problem = .notFound ∨
      (problem = .forbidden ∧ t.isFolder names = true ∧ t.isSealed names = true) ∨
      (problem = .nameTooLong ∧ maxNameSize < (Utf8.nameBytes name).length) := by
  unfold step at h
  split at h
  · obtain rfl := Except.error.inj h
    split
    · exact .inl rfl
    · exact .inr (.inl rfl)
  · next hfolder =>
    split at h
    · next hsealed =>
      exact .inr (.inr (.inl ⟨(Except.error.inj h).symm, by simpa using hfolder, hsealed⟩))
    · split at h
      · cases h
      · split at h
        · next hlong => exact .inr (.inr (.inr ⟨(Except.error.inj h).symm, hlong⟩))
        · cases h

/-- A walk is stopped where one of its steps is. -/
theorem exists_step_of_walk {t : FileTree} {names more : List Text} {problem : FileProblem}
    (h : t.walk names more = .error problem) :
    ∃ before, ∃ n ∈ more, t.step before n = .error problem := by
  induction more generalizing names with
  | nil => cases h
  | cons n ns ih =>
    unfold walk at h
    cases hs : t.step names n with
    | ok next =>
      rw [hs] at h
      obtain ⟨before, m, hm, hstep⟩ := ih h
      exact ⟨before, m, List.mem_cons_of_mem _ hm, hstep⟩
    | error e =>
      rw [hs] at h
      obtain rfl := Except.error.inj h
      exact ⟨names, n, List.mem_cons_self, hs⟩

/-- What can be wrong with a path in any tree. -/
theorem pathProblem?_eq_some {p : Path} {problem : FileProblem} (h : pathProblem? p = some problem) :
    (problem.isInvalidPath = true ∧ ¬ p.IsValid) ∨
      (problem = .nameTooLong ∧ maxPathSize < (Utf8.nameBytes p.text).length) := by
  unfold pathProblem? at h
  split at h
  · next e he =>
    obtain rfl := Option.some.inj h
    exact .inl ⟨rfl, fun hvalid => by simp [hvalid.nameable] at he⟩
  · split at h
    · next hzero =>
      obtain rfl := Option.some.inj h
      exact .inl ⟨rfl, fun hvalid => hvalid.no_zero (List.elem_iff.1 hzero)⟩
    · split at h
      · next hlong => exact .inr ⟨(Option.some.inj h).symm, hlong⟩
      · cases h

theorem isAbsence_of_isInvalidPath {problem : FileProblem} (h : problem.isInvalidPath = true) :
    problem.isAbsence = true := by
  cases problem with
  | nulCharacter => rfl
  | unencodable e => rfl
  | _ => cases h

/-- Whether every folder may be searched. -/
def IsOpen (t : FileTree) : Prop := ∀ names ∈ t.sealed, t.isFolder names = false

instance (t : FileTree) : Decidable t.IsOpen := inferInstanceAs (Decidable (∀ _ ∈ t.sealed, _))

/-- A short path can be looked up where every folder may be searched. -/
theorem exists_probe_of_isShort {t : FileTree} {p : Path} (hopen : t.IsOpen) (h : p.IsShort) :
    ∃ node, t.probe p = .ok node := by
  refine (t.exists_probe_iff p).2 fun problem hl => ?_
  unfold locate at hl
  split at hl
  · next found hfound =>
    obtain rfl := Except.error.inj hl
    rcases pathProblem?_eq_some hfound with ⟨hinvalid, -⟩ | ⟨-, hlong⟩
    · exact isAbsence_of_isInvalidPath hinvalid
    · have hle := h.text_le
      omega
  · obtain ⟨before, n, hn, hstep⟩ := exists_step_of_walk hl
    rcases step_eq_error hstep with rfl | rfl | ⟨rfl, hfolder, hsealed⟩ | ⟨rfl, hlong⟩
    · rfl
    · rfl
    · rw [hopen before (List.elem_iff.1 hsealed)] at hfolder
      cases hfolder
    · have hname := h.name_le n hn
      omega

theorem isInvalidPath_of_walk {t : FileTree} {names more : List Text} {problem : FileProblem}
    (h : t.walk names more = .error problem) : problem.isInvalidPath = false := by
  obtain ⟨before, n, -, hstep⟩ := exists_step_of_walk h
  rcases step_eq_error hstep with rfl | rfl | ⟨rfl, -⟩ | ⟨rfl, -⟩ <;> rfl

/-- Only a path that no file can have is refused because of that. -/
theorem isInvalidPath_of_read {t : FileTree} {p : Path} {e : FileError} (hvalid : p.IsValid)
    (h : t.read p = .error e) : e.problem.isInvalidPath = false := by
  have hlocate : ∀ problem, t.locate p = .error problem → problem.isInvalidPath = false := by
    intro problem hl
    unfold locate at hl
    split at hl
    · next found hfound =>
      obtain rfl := Except.error.inj hl
      rcases pathProblem?_eq_some hfound with ⟨-, hnot⟩ | ⟨rfl, -⟩
      · exact absurd hvalid hnot
      · rfl
    · exact isInvalidPath_of_walk hl
  unfold read lookup at h
  cases hl : t.locate p with
  | error problem =>
    rw [hl] at h
    obtain rfl : (⟨problem, p.text⟩ : FileError) = e := by simpa using h
    exact hlocate problem hl
  | ok place =>
    rw [hl] at h
    rcases t.nodeAt_cases place with ⟨node, hn⟩ | hn
    · cases node with
      | folder =>
        obtain rfl : (⟨.isFolder, p.text⟩ : FileError) = e := by simpa [hn] using h
        rfl
      | file names bytes =>
        simp only [hn] at h
        split at h
        · obtain rfl := Except.error.inj h
          rfl
        · cases h
    · obtain rfl : (⟨.notFound, p.text⟩ : FileError) = e := by simpa [hn] using h
      rfl

/-- Whether a path can be looked up does not depend on what the files hold. -/
theorem SameNames.exists_probe {t u : FileTree} (h : SameNames t u) {p : Path}
    (hp : ∃ node, t.probe p = .ok node) : ∃ node, u.probe p = .ok node := by
  rw [exists_probe_iff] at hp ⊢
  rw [← h.locate]
  exact hp

/-! ### Texts -/

/-- The text of the file with these names, if it has one. -/
def text? (t : FileTree) (names : List Text) : Option Text :=
  (t.content? names).bind fun bytes => (Utf8.decode bytes).toOption

/-- Whether a path leads to these names and what has them may be opened. -/
structure Opens (t : FileTree) (p : Path) (names : List Text) : Prop where
  located : t.locate p = .ok names
  unsealed : t.isSealed names = false

theorem SameNames.opens {t u : FileTree} (h : SameNames t u) {p : Path} {names : List Text}
    (ho : t.Opens p names) : u.Opens p names :=
  ⟨(h.locate p).symm.trans ho.located, (h.isSealed names).symm.trans ho.unsealed⟩

/-- The file that a path leads to and its text, if it has one that may be read. -/
def textAt? (t : FileTree) (p : Path) : Option (List Text × Text) :=
  match t.probe p with
  | .ok (some (.file names _)) => if t.isSealed names then none else (t.text? names).map (names, ·)
  | _ => none

theorem text?_eq_some {t : FileTree} {names : List Text} {content : Text} :
    t.text? names = some content ↔
      t.content? names = some (Utf8.encode content) ∧ Utf8.Encodable content := by
  unfold text?
  constructor
  · intro h
    obtain ⟨bytes, hb, hd⟩ := Option.bind_eq_some_iff.1 h
    cases hdec : Utf8.decode bytes with
    | error e => simp [hdec, Except.toOption] at hd
    | ok c =>
      obtain rfl : c = content := by simpa [hdec, Except.toOption] using hd
      rw [hb, Utf8.encode_of_decode hdec]
      exact ⟨rfl, Utf8.encodable_of_decode hdec⟩
  · rintro ⟨h, hcontent⟩
    simp [h, Utf8.decode_encode hcontent, Except.toOption]

theorem encodable_of_text? {t : FileTree} {names : List Text} {content : Text}
    (h : t.text? names = some content) : Utf8.Encodable content := (text?_eq_some.1 h).2

theorem content?_of_text? {t : FileTree} {names : List Text} {content : Text}
    (h : t.text? names = some content) : t.content? names = some (Utf8.encode content) :=
  (text?_eq_some.1 h).1

theorem text?_put {content : Text} (hcontent : Utf8.Encodable content) (t : FileTree)
    (names other : List Text) :
    (t.put names (Utf8.encode content)).text? other =
      if other = names then some content else t.text? other := by
  unfold text?
  rw [content?_put]
  by_cases h : other = names
  · simp [h, Utf8.decode_encode hcontent, Except.toOption]
  · simp [h]

theorem textAt?_eq_some {t : FileTree} {p : Path} {names : List Text} {content : Text} :
    t.textAt? p = some (names, content) ↔ t.Opens p names ∧ t.text? names = some content := by
  constructor
  · intro h
    unfold textAt? at h
    split at h
    · next found bytes hp =>
      cases hs : t.isSealed found with
      | true => simp [hs] at h
      | false =>
        obtain ⟨hc, rfl⟩ : t.text? found = some content ∧ found = names := by simpa [hs] using h
        exact ⟨⟨(content?_of_probe hp).1, hs⟩, hc⟩
    · cases h
  · rintro ⟨ho, hc⟩
    have hprobe := probe_of_locate ho.located (content?_of_text? hc)
    simp [textAt?, hprobe, ho.unsealed, hc]

/-- Writing back the text that a file had before brings back the tree. -/
theorem put_put_text {t : FileTree} {names : List Text} {content : Text}
    (h : t.text? names = some content) (bytes : ByteArray) :
    (t.put names bytes).put names (Utf8.encode content) = t := by
  have hfiles : Assoc.put names (Utf8.encode content) t.files = t.files :=
    Assoc.put_of_lookup names t.files (content?_of_text? h)
  simp only [put, Assoc.put_put, hfiles]

theorem sameNames_put_text {t : FileTree} {names : List Text} {content : Text}
    (h : t.text? names = some content) (bytes : ByteArray) :
    SameNames t (t.put names bytes) :=
  sameNames_put (content?_of_text? h) bytes

end FileTree

end Mend
