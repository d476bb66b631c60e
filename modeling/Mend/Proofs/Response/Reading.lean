import Mend.Proofs.Json.Limits
import Mend.Response

/-!
# The reading of a response

A response is read by the first stage that finds something in it. What can be found wrong with the payload
leads to the second stage; a payload beyond the limits of reading is no problem of the payload but ends the
reading (`read_staged`). A moderate payload is never beyond them.
-/

namespace Mend.Response

/-- Whether the payload of a response lists these patches. -/
def Lists (depth : Nat) (t : Text) (ps : List Patch) : Prop :=
  ∃ p v es, payload? t = some p ∧ Json.read depth p = .ok v ∧ readEntries (Datum.ofJson v) = .ok es ∧
    ps = es.map Entry.patch

/-- Whether a response has no payload that counts, by the problem with it. -/
inductive Lacks (depth : Nat) (t : Text) : PayloadProblem → Prop
  | absent (hpayload : payload? t = none) : Lacks depth t .absent
  | malformed {p : Text} {trouble : Json.Trouble} {place : Json.Place} (hpayload : payload? t = some p)
      (hread : Json.read depth p = .error (.malformed trouble place)) :
        Lacks depth t (.malformed (.malformed trouble place))
  | invalid {p : Text} {v : Json.Value} {issues : List Schema.Issue} (hpayload : payload? t = some p)
      (hread : Json.read depth p = .ok v) (hentries : readEntries (Datum.ofJson v) = .error issues) :
      Lacks depth t (.invalid issues.length)

/-- Whether the payload of a response goes beyond what can be read. -/
def Exceeds (depth : Nat) (t : Text) (e : Json.ReadError) : Prop :=
  ∃ p, payload? t = some p ∧ Json.read depth p = .error e ∧ ∀ trouble place, e ≠ .malformed trouble place

variable {depth : Nat} {t : Text}

/-! ### The first stage -/

theorem strict_of_lists {ps : List Patch} (h : Lists depth t ps) : strict depth t = .ok (.ok ps) := by
  obtain ⟨p, v, es, hpayload, hread, hentries, rfl⟩ := h
  simp only [strict, hpayload, readPayload, hread, hentries]
  rfl

theorem strict_of_lacks {problem : PayloadProblem} (h : Lacks depth t problem) :
    strict depth t = .ok (.error problem) := by
  cases h with
  | absent hpayload => simp only [strict, hpayload]
  | malformed hpayload hread => simp only [strict, hpayload, readPayload, hread]
  | invalid hpayload hread hentries => simp only [strict, hpayload, readPayload, hread, hentries]

theorem strict_of_exceeds {e : Json.ReadError} (h : Exceeds depth t e) : strict depth t = .error e := by
  obtain ⟨p, hpayload, hread, hne⟩ := h
  cases e with
  | malformed trouble place => exact absurd rfl (hne trouble place)
  | numeral error => simp only [strict, hpayload, readPayload, hread]
  | listTooDeep => simp only [strict, hpayload, readPayload, hread]
  | objectTooDeep => simp only [strict, hpayload, readPayload, hread]

/-- There is no other response. -/
theorem lists_or_lacks_or_exceeds (depth : Nat) (t : Text) :
    (∃ ps, Lists depth t ps) ∨ (∃ problem, Lacks depth t problem) ∨ ∃ e, Exceeds depth t e := by
  cases hpayload : payload? t with
  | none => exact .inr (.inl ⟨_, .absent hpayload⟩)
  | some p =>
    cases hread : Json.read depth p with
    | ok v =>
      cases hentries : readEntries (Datum.ofJson v) with
      | ok es => exact .inl ⟨_, p, v, es, hpayload, hread, hentries, rfl⟩
      | error issues => exact .inr (.inl ⟨_, .invalid hpayload hread hentries⟩)
    | error e =>
      cases e with
      | malformed trouble place => exact .inr (.inl ⟨_, .malformed hpayload hread⟩)
      | numeral error => exact .inr (.inr ⟨_, p, hpayload, hread, by simp⟩)
      | listTooDeep => exact .inr (.inr ⟨_, p, hpayload, hread, by simp⟩)
      | objectTooDeep => exact .inr (.inr ⟨_, p, hpayload, hread, by simp⟩)

/-- What goes beyond the limits has a numeral that is too long or opens too many brackets. -/
theorem Exceeds.not_moderate {e : Json.ReadError} (h : Exceeds depth t e) :
    ∃ p, payload? t = some p ∧ ¬ Json.Moderate depth p := by
  obtain ⟨p, hpayload, hread, hne⟩ := h
  refine ⟨p, hpayload, fun hmoderate => ?_⟩
  obtain ⟨trouble, place, he⟩ := hmoderate.malformed hread
  exact hne trouble place he

/-! ### Both stages -/

theorem read_of_lists {ps : List Patch} (h : Lists depth t ps) :
    read depth t = .ok (.parsed ps.length, .payload ps) := by
  simp only [read, ofPayload, strict_of_lists h, Reading.patches]

theorem read_of_lacks_of_nil {problem : PayloadProblem} (h : Lacks depth t problem)
    (hblocks : blocks "diff" false t = []) :
    read depth t = .ok (.unparseable problem.message (t.take previewSize), .nothing problem.message) := by
  simp only [read, ofPayload, strict_of_lacks h, ofDiffs, hblocks]

theorem read_of_lacks_of_cons {problem : PayloadProblem} {d : Text} {ds : List Text} (h : Lacks depth t problem)
    (hblocks : blocks "diff" false t = d :: ds) :
    read depth t = .ok (.fellBack problem.message (ds.length + 1), .diffs (patchesOf (d :: ds))) := by
  have hlength : (patchesOf (d :: ds)).length = ds.length + 1 := by simp [patchesOf]
  simp only [read, ofPayload, strict_of_lacks h, ofDiffs, hblocks, Reading.patches, hlength]

theorem read_of_exceeds {e : Json.ReadError} (h : Exceeds depth t e) : read depth t = .error e := by
  simp only [read, ofPayload, strict_of_exceeds h]

/-- Every response falls into one of three classes. One whose payload lists patches gives those; one without
a payload that counts gives its fenced diffs, or, if it has none, the problem with the payload; and the
reading of one whose payload goes beyond the limits fails. -/
theorem read_staged (depth : Nat) (t : Text) :
    ((∃ ps, Lists depth t ps) ∨ (∃ problem, Lacks depth t problem) ∨ ∃ e, Exceeds depth t e) ∧
    (∀ ps, Lists depth t ps → read depth t = .ok (.parsed ps.length, .payload ps)) ∧
    (∀ problem, Lacks depth t problem →
      (blocks "diff" false t = [] →
        read depth t = .ok (.unparseable problem.message (t.take previewSize), .nothing problem.message)) ∧
      ∀ d ds, blocks "diff" false t = d :: ds →
        read depth t = .ok (.fellBack problem.message (ds.length + 1), .diffs (patchesOf (d :: ds)))) ∧
    ∀ e, Exceeds depth t e → read depth t = .error e ∧ ∃ p, payload? t = some p ∧ ¬ Json.Moderate depth p :=
  ⟨lists_or_lacks_or_exceeds depth t, fun _ h => read_of_lists h,
    fun _ h => ⟨fun hblocks => read_of_lacks_of_nil h hblocks,
      fun _ _ hblocks => read_of_lacks_of_cons h hblocks⟩,
    fun _ h => ⟨read_of_exceeds h, h.not_moderate⟩⟩

theorem eq_error_of_map {r : Except Json.ReadError (Exchange × Reading)} {e : Json.ReadError}
    (h : r.map (fun _ => ()) = .error e) : r = .error e := by
  cases r with
  | ok reading => cases h
  | error e => exact congrArg Except.error (Except.error.inj h)

/-- A bare payload that lists no patches and holds a numeral of 4301 digits. -/
theorem read_of_long_numeral :
    read 980 (("\x7b\"patches\": [], \"note\": " : Text) ++ List.replicate 4301 (CodePoint.char '9') ++
        ("\x7d" : Text)) =
      .error (.numeral (.readingTooLong 4301)) :=
  eq_error_of_map (by decide +kernel)

end Mend.Response
