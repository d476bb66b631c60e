import Mathlib.Data.List.Forall2
import Mend.Failure
import Mend.Proofs.Json.Nesting
import Mend.Proofs.Text

/-!
# Files of records

A JSON file of diagnostics is taken as a whole or refused for its first item that is no record. The refusal
says that the file is not valid (`FailureKind.invalid`), with two exceptions: an item that cannot be searched for
names as an object can, and a line that is infinite (`DiagnosticRecord.Alien`).
-/

namespace Mend

/-! ### Reading all items of a list -/

section MapM

variable {α β ε : Type} {f : α → Except ε β}

theorem mapM_eq_ok_iff {items : List α} {results : List β} :
    items.mapM f = .ok results ↔ List.Forall₂ (fun a b => f a = .ok b) items results := by
  induction items generalizing results with
  | nil =>
    rw [List.mapM_nil, List.forall₂_nil_left_iff]
    constructor
    · intro h
      exact (Except.ok.inj h).symm
    · rintro rfl
      rfl
  | cons a items ih =>
    rw [List.mapM_cons, List.forall₂_cons_left_iff]
    constructor
    · intro h
      cases ha : f a with
      | error e =>
        rw [ha] at h
        cases h
      | ok b =>
        cases hrest : items.mapM f with
        | error e =>
          rw [ha, hrest] at h
          cases h
        | ok bs =>
          rw [ha, hrest] at h
          exact ⟨b, bs, rfl, ih.1 hrest, (Except.ok.inj h).symm⟩
    · rintro ⟨b, bs, hb, hbs, rfl⟩
      rw [hb, ih.2 hbs]
      rfl

theorem mapM_eq_error_iff {items : List α} {e : ε} :
    items.mapM f = .error e ↔
      ∃ front a rest, items = front ++ a :: rest ∧ (∀ b ∈ front, ∃ c, f b = .ok c) ∧ f a = .error e := by
  induction items with
  | nil =>
    refine iff_of_false nofun ?_
    rintro ⟨front, a, rest, heq, -⟩
    simp at heq
  | cons a items ih =>
    rw [List.mapM_cons]
    constructor
    · intro h
      cases ha : f a with
      | error e' =>
        rw [ha] at h
        obtain rfl : e' = e := Except.error.inj h
        exact ⟨[], a, items, rfl, List.forall_mem_nil _, ha⟩
      | ok b =>
        cases hrest : items.mapM f with
        | error e' =>
          rw [ha, hrest] at h
          obtain rfl : e' = e := Except.error.inj h
          obtain ⟨front, a', rest, heq, hfront, ha'⟩ := ih.1 hrest
          refine ⟨a :: front, a', rest, congrArg (List.cons a) heq, ?_, ha'⟩
          exact List.forall_mem_cons.2 ⟨⟨b, ha⟩, hfront⟩
        | ok bs =>
          rw [ha, hrest] at h
          cases h
    · rintro ⟨front, a', rest, heq, hfront, ha'⟩
      cases front with
      | nil =>
        obtain ⟨rfl, -⟩ := List.cons_eq_cons.1 heq
        rw [ha']
        rfl
      | cons b front =>
        obtain ⟨rfl, htail⟩ := List.cons_eq_cons.1 heq
        obtain ⟨⟨c, hc⟩, hfront⟩ := List.forall_mem_cons.1 hfront
        rw [hc, ih.2 ⟨front, a', rest, htail, hfront, ha'⟩]
        rfl

end MapM

namespace DiagnosticRecord

open Json (Value)

/-! ### Records -/

/-- Whether an item is the record of a diagnostic: an object with a file that has a name, a message, and a line
that can be read or is left out. -/
inductive Describes : Value → Diagnostic → Prop
  | object {ms : List (Text × Value)} {file : Text} {message : Value} {line : Int}
      (hfile : firstGiven? ms fileNames = some (.text file)) (hnamed : file ≠ [])
      (hmessage : firstGiven? ms messageNames = some message)
      (hline : lineOf ((firstGiven? ms lineNames).getD (.int 1)) = .ok line) :
      Describes (.object ms) (.atLine (file) line message.plain (severityOf ms))

theorem Describes.file_ne_nil {v : Value} {d : Diagnostic} (h : Describes v d) : d.file ≠ [] := by
  cases h with
  | object hfile hnamed hmessage hline => exact hnamed

theorem forall_file_ne_nil {items : List Value} {ds : List Diagnostic} (h : List.Forall₂ Describes items ds) :
    ∀ d ∈ ds, d.file ≠ [] := by
  induction h with
  | nil => exact List.forall_mem_nil _
  | cons hd _ ih => exact List.forall_mem_cons.2 ⟨hd.file_ne_nil, ih⟩

/-! ### Items that are no objects -/

/-- The values that have no parts. -/
def isAtom : Value → Bool
  | .null | .bool _ | .int _ | .float _ => true
  | _ => false

/-- The values that cannot be a name. -/
def isCompound : Value → Bool
  | .list _ | .object _ => true
  | _ => false

def IsPair (v : Value) : Prop := ∃ k w, partsOf? v = some [k, w] ∧ isCompound k = false

/-- Whether an item ends the reading of pairs otherwise than by its length: it has no parts, or it is a pair whose
first part cannot be a name. -/
def Spoils (v : Value) : Prop := isAtom v = true ∨ ∃ k w, partsOf? v = some [k, w] ∧ isCompound k = true

/-- Whether the items up to one that spoils their reading are pairs. -/
def Spoiled (items : List Value) : Prop :=
  ∃ front v rest, items = front ++ v :: rest ∧ (∀ u ∈ front, IsPair u) ∧ Spoils v

/-- Whether an item is refused otherwise than as not valid. An object is so only for a line that is infinite; a
text and a list if a name can be found in them, and a list also for an item that spoils its pairs; all values
without parts are. -/
def Alien : Value → Prop
  | .object ms => (∃ file, firstGiven? ms fileNames = some (.text file) ∧ file ≠ []) ∧
      (∃ message, firstGiven? ms messageNames = some message) ∧
      ∃ x, firstGiven? ms lineNames = some (.float x) ∧ Number.truncate? x = none ∧ x.isNaN = false
  | .text s => ∃ name ∈ allNames, name <:+: s
  | .list items => (∃ name ∈ allNames, Value.text name ∈ items) ∨ Spoiled items
  | _ => True

theorem failureKind_cases (e : RecordError) : e.failureKind = .invalid ∨ e.failureKind = .other := by
  cases e with
  | noFile | noMessage | badLine | pairOfLength => exact .inl rfl
  | infiniteLine | noNames | textWithName | listWithName | notAPair | compoundName => exact .inr rfl

theorem partsOf?_eq_none_iff {v : Value} : partsOf? v = none ↔ isAtom v = true := by
  cases v with
  | null | bool | int | float => simp [partsOf?, isAtom]
  | text s => cases s <;> simp [partsOf?, isAtom]
  | list | object => simp [partsOf?, isAtom]

theorem not_spoils_of_isPair {v : Value} (h : IsPair v) : ¬ Spoils v := by
  obtain ⟨k, w, hparts, hname⟩ := h
  rintro (hatom | ⟨k', w', hparts', hcompound⟩)
  · rw [partsOf?_eq_none_iff.2 hatom] at hparts
    cases hparts
  · rw [hparts] at hparts'
    obtain ⟨rfl, -⟩ := List.cons_eq_cons.1 (Option.some.inj hparts')
    rw [hname] at hcompound
    cases hcompound

theorem spoiled_cons_iff {v : Value} {items : List Value} :
    Spoiled (v :: items) ↔ Spoils v ∨ (IsPair v ∧ Spoiled items) := by
  constructor
  · rintro ⟨front, u, rest, heq, hfront, hu⟩
    cases front with
    | nil =>
      obtain ⟨rfl, -⟩ := List.cons_eq_cons.1 heq
      exact .inl hu
    | cons w front =>
      obtain ⟨rfl, htail⟩ := List.cons_eq_cons.1 heq
      obtain ⟨hv, hfront⟩ := List.forall_mem_cons.1 hfront
      exact .inr ⟨hv, front, u, rest, htail, hfront, hu⟩
  · rintro (hv | ⟨hv, front, u, rest, rfl, hfront, hu⟩)
    · exact ⟨[], v, items, rfl, List.forall_mem_nil _, hv⟩
    · exact ⟨v :: front, u, rest, rfl, List.forall_mem_cons.2 ⟨hv, hfront⟩, hu⟩

/-- The reading of pairs goes on behind a pair. Where it ends, the kind of the error says whether an item spoils
the rest or has another number of parts. -/
theorem pairsFrom_cons (index : Nat) (done : List (Value × Value)) (v : Value) (items : List Value) :
    (IsPair v ∧ ∃ done', pairsFrom index done (v :: items) = pairsFrom (index + 1) done' items) ∨
    (¬ IsPair v ∧ ∃ e, pairsFrom index done (v :: items) = .error e ∧ (e.failureKind = .other ↔ Spoils v)) := by
  cases hparts : partsOf? v with
  | none =>
    have hpair : ¬ IsPair v := by
      rintro ⟨k, w, h, -⟩
      rw [hparts] at h
      cases h
    refine .inr ⟨hpair, .notAPair index, by simp only [pairsFrom, hparts], iff_of_true rfl ?_⟩
    exact .inl (partsOf?_eq_none_iff.1 hparts)
  | some parts =>
    have hatom : isAtom v = false := by
      rw [← Bool.not_eq_true, ← partsOf?_eq_none_iff, hparts]
      exact Option.some_ne_none parts
    by_cases htwo : ∃ k w, parts = [k, w]
    · obtain ⟨k, w, rfl⟩ := htwo
      cases hk : isCompound k with
      | false =>
        refine .inl ⟨⟨k, w, hparts, hk⟩, insertPair k w done, ?_⟩
        cases k with
        | list | object => cases hk
        | null | bool | int | float | text => simp only [pairsFrom, hparts]
      | true =>
        have hpair : ¬ IsPair v := fun h => not_spoils_of_isPair h (.inr ⟨k, w, hparts, hk⟩)
        have hspoils : Spoils v := .inr ⟨k, w, hparts, hk⟩
        refine .inr ⟨hpair, ?_⟩
        cases k with
        | list => exact ⟨.compoundName "list", by simp only [pairsFrom, hparts], iff_of_true rfl hspoils⟩
        | object => exact ⟨.compoundName "dict", by simp only [pairsFrom, hparts], iff_of_true rfl hspoils⟩
        | null | bool | int | float | text => cases hk
    · have hno : ∀ k w, partsOf? v ≠ some [k, w] := fun k w h =>
        htwo ⟨k, w, Option.some.inj (hparts.symm.trans h)⟩
      refine .inr ⟨fun ⟨k, w, h, _⟩ => hno k w h, .pairOfLength index parts.length, ?_, iff_of_false nofun ?_⟩
      · match parts with
        | [] => simp only [pairsFrom, hparts]
        | [_] => simp only [pairsFrom, hparts]
        | [k, w] => exact absurd ⟨k, w, rfl⟩ htwo
        | _ :: _ :: _ :: _ => simp only [pairsFrom, hparts]
      · rintro (h | ⟨k, w, h, -⟩)
        · rw [hatom] at h
          cases h
        · exact hno k w h

theorem refusePairs_other_iff {items : List Value} :
    (refusePairs items).failureKind = .other ↔ Spoiled items := by
  have hall : ∀ index done, (∃ e, pairsFrom index done items = .error e ∧ e.failureKind = .other) ↔
      Spoiled items := by
    induction items with
    | nil =>
      intro index done
      refine iff_of_false (by simp [pairsFrom]) ?_
      rintro ⟨front, v, rest, heq, -⟩
      simp at heq
    | cons v items ih =>
      intro index done
      rw [spoiled_cons_iff]
      rcases pairsFrom_cons index done v items with ⟨hpair, done', hnext⟩ | ⟨hpair, e, hend, hkind⟩
      · rw [hnext, ih]
        simp [hpair, not_spoils_of_isPair hpair]
      · rw [hend]
        simp [hpair, hkind]
  rw [← hall 0 []]
  unfold refusePairs
  cases hpairs : pairsFrom 0 [] items with
  | ok ps => simp [RecordError.failureKind]
  | error e => simp

/-- The characters of a text are items with one part. -/
theorem failureKind_refusePairs_chars (t : Text) :
    (refusePairs (t.map fun c => .text [c])).failureKind = .invalid := by
  refine (failureKind_cases _).resolve_right fun hother => ?_
  cases t with
  | nil =>
    obtain ⟨front, v, rest, heq, -⟩ := refusePairs_other_iff.1 hother
    simp at heq
  | cons c t =>
    rcases spoiled_cons_iff.1 (refusePairs_other_iff.1 hother) with hspoils | ⟨hpair, -⟩
    · rcases hspoils with hatom | ⟨k, w, hparts, -⟩
      · cases hatom
      · simp [partsOf?] at hparts
    · obtain ⟨k, w, hparts, -⟩ := hpair
      simp [partsOf?] at hparts

theorem sameName_text_iff {v : Value} {name : Text} : sameName v (.text name) = true ↔ v = .text name := by
  cases v with
  | null | bool | int | float | list | object => simp [sameName, sameName.numeric?]
  | text s => simp [sameName]

/-! ### Objects -/

theorem lineOf_other_iff {v : Value} {e : RecordError} (h : lineOf v = .error e) :
    e.failureKind = .other ↔ ∃ x, v = .float x ∧ Number.truncate? x = none ∧ x.isNaN = false := by
  unfold lineOf at h
  split at h
  · cases h
  · cases h
  · next x =>
    split at h
    · cases h
    · next hnone =>
      by_cases hnan : x.isNaN = true
      · rw [if_pos hnan] at h
        obtain rfl := Except.error.inj h
        refine iff_of_false nofun ?_
        rintro ⟨y, hy, -, hother⟩
        obtain rfl := Value.float.inj hy
        rw [hnan] at hother
        cases hother
      · rw [if_neg hnan] at h
        obtain rfl := Except.error.inj h
        exact iff_of_true rfl ⟨x, rfl, hnone, Bool.eq_false_iff.2 hnan⟩
  · split at h
    · cases h
    · obtain rfl := Except.error.inj h
      simp [RecordError.failureKind]
  · next hfloat _ =>
    obtain rfl := Except.error.inj h
    refine iff_of_false nofun ?_
    rintro ⟨x, rfl, -⟩
    exact hfloat x rfl

theorem ofItem_of_describes {v : Value} {d : Diagnostic} (h : Describes v d) : ofItem v = .ok d := by
  cases h with
  | object hfile hnamed hmessage hline =>
    simp [ofItem, ofObject, hfile, hmessage, hline, hnamed]

theorem ofItem_object_cases (ms : List (Text × Value)) :
    (∃ d, ofItem (.object ms) = .ok d ∧ Describes (.object ms) d ∧ ¬ Alien (.object ms)) ∨
      ∃ e, ofItem (.object ms) = .error e ∧ (e.failureKind = .other ↔ Alien (.object ms)) := by
  by_cases hnames : ∃ file, firstGiven? ms fileNames = some (.text file) ∧ file ≠ []
  · obtain ⟨file, hfile, hnamed⟩ := hnames
    cases hmessage : firstGiven? ms messageNames with
    | none =>
      refine .inr ⟨.noMessage (Value.object ms).display, ?_, iff_of_false nofun ?_⟩
      · simp [ofItem, ofObject, hfile, hmessage, hnamed]
      · rintro ⟨-, ⟨message, hgiven⟩, -⟩
        rw [hmessage] at hgiven
        cases hgiven
    | some message =>
      have hfloat : ∀ x, (firstGiven? ms lineNames).getD (.int 1) = .float x ↔
          firstGiven? ms lineNames = some (.float x) := by
        intro x
        cases firstGiven? ms lineNames <;> simp
      cases hline : lineOf ((firstGiven? ms lineNames).getD (.int 1)) with
      | ok line =>
        have hdescribes := Describes.object hfile hnamed hmessage hline
        refine .inl ⟨_, ofItem_of_describes hdescribes, hdescribes, ?_⟩
        rintro ⟨-, -, x, hgiven, hinfinite, -⟩
        rw [(hfloat x).2 hgiven] at hline
        simp [lineOf, hinfinite] at hline
      | error e =>
        refine .inr ⟨e, by simp [ofItem, ofObject, hfile, hmessage, hline, hnamed], ?_⟩
        rw [lineOf_other_iff hline]
        simp only [hfloat]
        exact ⟨fun hx => ⟨⟨file, hfile, hnamed⟩, ⟨message, hmessage⟩, hx⟩, fun h => h.2.2⟩
  · refine .inr ⟨.noFile (Value.object ms).display, ?_, iff_of_false nofun fun h => hnames h.1⟩
    show ofObject ms = _
    unfold ofObject
    split
    · next file hfile =>
      have hempty : file = [] := not_not.1 fun hne => hnames ⟨file, hfile, hne⟩
      simp [hempty]
    · rfl

/-- An item is the record of a diagnostic, which is then read from it, or it is refused, and the kind of the
refusal tells the alien ones from the others. -/
theorem ofItem_cases (v : Value) :
    (∃ d, ofItem v = .ok d ∧ Describes v d ∧ ¬ Alien v) ∨
      ∃ e, ofItem v = .error e ∧ (e.failureKind = .other ↔ Alien v) := by
  cases v with
  | null | bool | int | float => exact .inr ⟨_, rfl, iff_of_true rfl trivial⟩
  | text s =>
    right
    by_cases hnames : (allNames.any (Text.contains s)) = true
    · refine ⟨.textWithName, by rw [ofItem, if_pos hnames], iff_of_true rfl ?_⟩
      obtain ⟨name, hname, hcontains⟩ := List.any_eq_true.1 hnames
      exact ⟨name, hname, Text.contains_iff.1 hcontains⟩
    · refine ⟨_, by rw [ofItem, if_neg hnames], iff_of_false ?_ ?_⟩
      · rw [failureKind_refusePairs_chars]
        nofun
      · rintro ⟨name, hname, hinfix⟩
        exact hnames (List.any_eq_true.2 ⟨name, hname, Text.contains_iff.2 hinfix⟩)
  | list items =>
    right
    have hnames : (items.any fun v => allNames.any fun n => sameName v (.text n)) = true ↔
        ∃ name ∈ allNames, Value.text name ∈ items := by
      simp only [List.any_eq_true, sameName_text_iff]
      constructor
      · rintro ⟨v, hv, name, hname, rfl⟩
        exact ⟨name, hname, hv⟩
      · rintro ⟨name, hname, hv⟩
        exact ⟨_, hv, name, hname, rfl⟩
    by_cases hfound : ∃ name ∈ allNames, Value.text name ∈ items
    · exact ⟨.listWithName, by rw [ofItem, if_pos (hnames.2 hfound)], iff_of_true rfl (.inl hfound)⟩
    · refine ⟨_, by rw [ofItem, if_neg (mt hnames.1 hfound)], refusePairs_other_iff.trans ?_⟩
      exact (or_iff_right hfound).symm
  | object ms => exact ofItem_object_cases ms

theorem ofItem_eq_ok_iff {v : Value} {d : Diagnostic} : ofItem v = .ok d ↔ Describes v d := by
  constructor
  · intro h
    rcases ofItem_cases v with ⟨d', hread, hdescribes, -⟩ | ⟨e, hrefused, -⟩
    · obtain rfl := Except.ok.inj (hread.symm.trans h)
      exact hdescribes
    · rw [hrefused] at h
      cases h
  · exact ofItem_of_describes

theorem other_of_ofItem {v : Value} {e : RecordError} (h : ofItem v = .error e) :
    e.failureKind = .other ↔ Alien v := by
  rcases ofItem_cases v with ⟨d, hread, -⟩ | ⟨e', hrefused, hkind⟩
  · rw [hread] at h
    cases h
  · obtain rfl := Except.error.inj (hrefused.symm.trans h)
    exact hkind

theorem exists_refusal {v : Value} (h : Alien v) : ∃ e, ofItem v = .error e ∧ e.failureKind = .other := by
  rcases ofItem_cases v with ⟨d, -, -, halien⟩ | ⟨e, hrefused, hkind⟩
  · exact absurd h halien
  · exact ⟨e, hrefused, hkind.2 h⟩

end DiagnosticRecord

namespace DiagnosticFile

open Json (Value)
open DiagnosticRecord (Describes Alien)

variable {depth : Nat}

theorem load_eq_ofJson {files : FileTree} {path : Path} {t : Text} (hread : TextFile.read files path = .ok t)
    (hname : namesJson path = true) : (load depth files path).2 = ofJson depth t := by
  have hholds : files.holds path = .ok true := by
    unfold TextFile.read TextFile.readIn FileTree.read at hread
    unfold FileTree.holds FileTree.probe
    cases hlookup : files.lookup path with
    | error e => simp [hlookup] at hread
    | ok node => rfl
  simp only [load, hholds, hread, hname, if_true]

theorem ofJson_eq_ok_iff {t : Text} {ds : List Diagnostic} :
    ofJson depth t = .ok ds ↔ ∃ items, Json.read depth t = .ok (.list items) ∧
      List.Forall₂ Describes items ds := by
  have hitems : ∀ items, (items.mapM DiagnosticRecord.ofItem).mapError LoadError.record = .ok ds ↔
      List.Forall₂ Describes items ds := by
    intro items
    have hall : items.mapM DiagnosticRecord.ofItem = .ok ds ↔ List.Forall₂ Describes items ds := by
      simp only [mapM_eq_ok_iff, DiagnosticRecord.ofItem_eq_ok_iff]
    rw [← hall]
    cases items.mapM DiagnosticRecord.ofItem <;> simp [Except.mapError]
  unfold ofJson
  cases hread : Json.read depth t with
  | error e => simp
  | ok v =>
    cases v with
    | list items => simp [hitems]
    | null | bool | int | float | text | object => simp

/-- A text that is refused otherwise than as not valid is a list with an alien item behind records. -/
theorem ofJson_other_iff {t : Text} (hdepth : Json.nesting t ≤ depth) :
    (∃ e, ofJson depth t = .error e ∧ e.failureKind ≠ .invalid) ↔
      ∃ front v rest, Json.read depth t = .ok (.list (front ++ v :: rest)) ∧ (∀ u ∈ front, ∃ d, Describes u d) ∧
        Alien v := by
  constructor
  · rintro ⟨e, hrefused, hkind⟩
    unfold ofJson at hrefused
    split at hrefused
    · next error hread =>
      obtain rfl := Except.error.inj hrefused
      -- only a text that is nested too deep is unreadable otherwise than as malformed
      cases error with
      | malformed | numeral => exact absurd rfl hkind
      | listTooDeep => exact absurd (Json.lt_nesting_of_read (.inl hread)) (Nat.not_lt.2 hdepth)
      | objectTooDeep => exact absurd (Json.lt_nesting_of_read (.inr hread)) (Nat.not_lt.2 hdepth)
    · next items hread =>
      cases hitems : items.mapM DiagnosticRecord.ofItem with
      | ok ds =>
        rw [hitems] at hrefused
        cases hrefused
      | error error =>
        rw [hitems] at hrefused
        obtain rfl := Except.error.inj hrefused
        obtain ⟨front, v, rest, rfl, hfront, hv⟩ := mapM_eq_error_iff.1 hitems
        have hother : error.failureKind = .other :=
          (DiagnosticRecord.failureKind_cases error).resolve_left hkind
        refine ⟨front, v, rest, hread, fun u hu => ?_, (DiagnosticRecord.other_of_ofItem hv).1 hother⟩
        obtain ⟨d, hd⟩ := hfront u hu
        exact ⟨d, DiagnosticRecord.ofItem_eq_ok_iff.1 hd⟩
    · obtain rfl := Except.error.inj hrefused
      exact absurd rfl hkind
  · rintro ⟨front, v, rest, hread, hfront, halien⟩
    obtain ⟨e, hv, hkind⟩ := DiagnosticRecord.exists_refusal halien
    have hitems : (front ++ v :: rest).mapM DiagnosticRecord.ofItem = .error e := by
      refine mapM_eq_error_iff.2 ⟨front, v, rest, rfl, fun u hu => ?_, hv⟩
      obtain ⟨d, hd⟩ := hfront u hu
      exact ⟨d, DiagnosticRecord.ofItem_of_describes hd⟩
    refine ⟨.record e, by simp only [ofJson, hread, hitems, Except.mapError], ?_⟩
    show e.failureKind ≠ .invalid
    rw [hkind]
    nofun

/-- What loading a JSON file comes to: the diagnostics of a list of records, or a refusal, which says that the file
is not valid unless an alien item stands behind records. -/
theorem load_json_outcome {files : FileTree} {path : Path} {t : Text} (hread : TextFile.read files path = .ok t)
    (hname : namesJson path = true) (hdepth : Json.nesting t ≤ depth) :
    (∀ ds, (load depth files path).2 = .ok ds ↔
      ∃ items, Json.read depth t = .ok (.list items) ∧ List.Forall₂ Describes items ds) ∧
    (∀ ds, (load depth files path).2 = .ok ds → ∀ d ∈ ds, d.file ≠ [] ∧ 1 ≤ d.line) ∧
    ((∃ e, (load depth files path).2 = .error e ∧ e.failureKind ≠ .invalid) ↔
      ∃ front v rest, Json.read depth t = .ok (.list (front ++ v :: rest)) ∧ (∀ u ∈ front, ∃ d, Describes u d) ∧
        Alien v) := by
  rw [load_eq_ofJson hread hname]
  refine ⟨fun ds => ofJson_eq_ok_iff, fun ds hds d hd => ⟨?_, d.line_pos⟩, ofJson_other_iff hdepth⟩
  obtain ⟨items, -, hitems⟩ := ofJson_eq_ok_iff.1 hds
  exact DiagnosticRecord.forall_file_ne_nil hitems d hd

/-- The records of two diagnostics, of which the second one names no line. -/
def twoRecords : Text :=
  "[\x7b\"file\":\"a.ts\",\"line\":3,\"message\":\"m\"\x7d,\x7b\"text\":[],\"filePath\":\"b\"\x7d]"

theorem load_json_outcome_of_two_records :
    let files := FileTree.empty.put ["d.json"] (Utf8.encode twoRecords)
    ∃ ds, (load 980 files (Path.ofText "d.json")).2 = .ok ds ∧ ds.length = 2 ∧ ∀ d ∈ ds, d.file ≠ [] ∧
      1 ≤ d.line := by
  intro files
  have hread : TextFile.read files (Path.ofText "d.json") = .ok twoRecords := by decide +kernel
  have hdepth : Json.nesting twoRecords ≤ 980 := by decide +kernel
  obtain ⟨-, hsound, -⟩ := load_json_outcome hread (by decide +kernel) hdepth
  have hlength : (load 980 files (Path.ofText "d.json")).2.toOption.map List.length = some 2 := by decide +kernel
  cases hload : (load 980 files (Path.ofText "d.json")).2 with
  | error e =>
    rw [hload] at hlength
    cases hlength
  | ok ds =>
    rw [hload] at hlength
    exact ⟨ds, rfl, Option.some.inj hlength, hsound ds hload⟩

/-- The item of a list that is a number ends the loading with an error that is not about validity. -/
theorem load_json_of_number :
    let files := FileTree.empty.put ["d.json"] (Utf8.encode "[1]")
    TextFile.read files (Path.ofText "d.json") = .ok "[1]" ∧ Json.nesting "[1]" ≤ 980 ∧
      (load 980 files (Path.ofText "d.json")).2 = .error (.record (.noNames "int")) ∧
      (LoadError.record (.noNames "int")).failureKind = .other := by
  intro files
  exact ⟨by decide +kernel, by decide +kernel, by decide +kernel, rfl⟩

end DiagnosticFile

end Mend
