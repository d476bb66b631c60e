import Mend.Schema

/-!
# What readers accept

A reader accepts a datum under conditions that can be told part by part: a function and its argument, a test
and the value before it, a record and its members. What all readers of the members of a record guarantee
holds of the record that is read.
-/

namespace Mend.Schema

variable {α β : Type}

namespace Checked

theorem ok_inj {a b : α} (h : Checked.ok a = .ok b) : a = b := Except.ok.inj h

theorem fail_ne_ok {d : Datum} {f : Fault} {a : α} : (Checked.fail d f : Checked α) ≠ .ok a := nofun

theorem apply_eq_ok {f : Checked (α → β)} {x : Checked α} {b : β} :
    f.apply x = .ok b ↔ ∃ g, f = .ok g ∧ ∃ a, x = .ok a ∧ g a = b := by
  constructor
  · intro h
    cases f with
    | error e => cases x <;> cases h
    | ok g =>
      cases x with
      | error e => cases h
      | ok a => exact ⟨g, rfl, a, rfl, ok_inj h⟩
  · rintro ⟨g, rfl, a, rfl, rfl⟩
    rfl

/-! A chain of arguments is followed from its end: what is asked of the value of a chain is asked of its
function at the arguments. -/

theorem eq_ok_iff {x : Checked α} {a : α} : x = .ok a ↔ ∃ b, x = .ok b ∧ b = a :=
  (exists_eq_right (p := (x = .ok ·))).symm

theorem exists_ok {a : α} {p : α → Prop} : (∃ b, Checked.ok a = .ok b ∧ p b) ↔ p a := by
  constructor
  · rintro ⟨b, hb, hp⟩
    exact ok_inj hb ▸ hp
  · exact fun hp => ⟨a, rfl, hp⟩

theorem exists_apply {f : Checked (α → β)} {x : Checked α} {p : β → Prop} :
    (∃ b, f.apply x = .ok b ∧ p b) ↔ ∃ g, f = .ok g ∧ ∃ a, x = .ok a ∧ p (g a) := by
  constructor
  · rintro ⟨b, happly, hp⟩
    obtain ⟨g, hg, a, ha, rfl⟩ := apply_eq_ok.1 happly
    exact ⟨g, hg, a, ha, hp⟩
  · rintro ⟨g, hg, a, ha, hp⟩
    exact ⟨g a, apply_eq_ok.2 ⟨g, hg, a, ha, rfl⟩, hp⟩

theorem test_ok {d : Datum} {a : α} {fault? : α → Option Fault} : test d (.ok a) fault? =
    match fault? a with
    | none => .ok a
    | some f => fail d f := rfl

theorem test_eq_ok {d : Datum} {x : Checked α} {fault? : α → Option Fault} {a : α} :
    test d x fault? = .ok a ↔ x = .ok a ∧ fault? a = none := by
  cases x with
  | error e => exact ⟨nofun, nofun⟩
  | ok b =>
    change test d (.ok b) fault? = .ok a ↔ Checked.ok b = .ok a ∧ _
    rw [test_ok]
    constructor
    · intro h
      cases hfault : fault? b with
      | none =>
        rw [hfault] at h
        obtain rfl := ok_inj h
        exact ⟨rfl, hfault⟩
      | some f =>
        rw [hfault] at h
        exact absurd h fail_ne_ok
    · rintro ⟨h, hfault⟩
      obtain rfl := ok_inj h
      rw [hfault]

theorem under_eq_ok {s : Step} {x : Checked α} {a : α} : x.under s = .ok a ↔ x = .ok a := by
  cases x with
  | ok b => exact Iff.rfl
  | error e => exact ⟨nofun, nofun⟩

end Checked

/-! ### Records -/

variable {ms : Members} {name : Text} {r : Reader α} {a : α}

theorem record_eq_ok {model : Text} {r : Members → Checked α} {d : Datum} :
    record model r d = .ok a ↔ ∃ fs, d.opened = .record fs ∧ r ⟨d, fs⟩ = .ok a := by
  cases hopened : d.opened with
  | record fs => simp [record, hopened]
  | _ => simp [record, hopened, Checked.fail_ne_ok]

theorem optional_eq_ok {default : α} : optional name default r ms = .ok a ↔
    (Datum.member? name ms.fields = none ∧ a = default) ∨
      ∃ d, Datum.member? name ms.fields = some d ∧ r d = .ok a := by
  unfold optional
  cases hmember : Datum.member? name ms.fields with
  | none => simpa using ⟨fun h => (Checked.ok_inj h).symm, fun h => by rw [h]⟩
  | some d => simp [Checked.under_eq_ok]

/-- A member is read alike wherever it is the same. -/
theorem optional_congr {ms' : Members} (h : Datum.member? name ms'.fields = Datum.member? name ms.fields)
    (default : α) : optional name default r ms' = optional name default r ms := by
  unfold optional
  rw [h]

/-- What the default and all values that are read have in common. -/
theorem optional_spec {p : α → Prop} {default : α} (hdefault : p default)
    (hread : ∀ {d a}, r d = .ok a → p a) (h : optional name default r ms = .ok a) : p a := by
  rcases optional_eq_ok.1 h with ⟨-, rfl⟩ | ⟨d, -, hd⟩
  · exact hdefault
  · exact hread hd

/-! ### Bounds -/

theorem integerBetween_bounds {least most : Int} {d : Datum} {n : Int}
    (h : integerBetween least (some most) d = .ok n) : least ≤ n ∧ n ≤ most := by
  obtain ⟨-, hfault⟩ := Checked.test_eq_ok.1 h
  simp only [Option.any_some, decide_eq_true_eq] at hfault
  split at hfault
  · cases hfault
  · split at hfault
    · cases hfault
    · omega

theorem mem_of_choice {choices : List Text} {d : Datum} {t : Text} (h : choice choices d = .ok t) :
    t ∈ choices := by
  unfold choice at h
  split at h
  · next u =>
    split at h
    · exact absurd h Checked.fail_ne_ok
    · split at h
      · next hmem =>
        obtain rfl := Checked.ok_inj h
        exact List.mem_of_elem_eq_true hmem
      · exact absurd h Checked.fail_ne_ok
  · exact absurd h Checked.fail_ne_ok

end Mend.Schema
