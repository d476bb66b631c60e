import Mend.Proofs.Json.Shape
import Mend.Proofs.Response.Fence
import Mend.Response

/-!
# Payloads are found whole

The search for a payload knows nothing of JSON. It finds the whole text all the same: a line feed in
the text of a value is not followed by backquotes, so that no closing line begins there, and backquotes
in it are not followed by a line feed, so that no block opens there. What is left out at the ends of a
fenced text are blanks.
-/

namespace Mend

/-! ### Backquotes in the text of a value -/

namespace Json

theorem Shielded.suffix_cases {t : Text} (h : Shielded t) {c : CodePoint} {s : Text} (hs : c :: s <:+ t)
    (hquote : c ≠ '"') : (c ≠ '`' ∧ Shielded s) ∨
      ∃ body rest, s = body ++ .char '"' :: rest ∧ ∀ d ∈ c :: body, 0x1F < d.toNat := by
  induction h with
  | nil => exact absurd (List.suffix_nil.1 hs) (List.cons_ne_nil _ _)
  | plain hc rest ih =>
    rcases List.suffix_cons_iff.1 hs with heq | hs
    · obtain ⟨rfl, rfl⟩ := List.cons.inj heq
      exact .inl ⟨hc, rest⟩
    · exact ih hs
  | quoted hbody rest ih =>
    rcases List.suffix_cons_iff.1 hs with heq | hs
    · exact absurd (List.cons.inj heq).1 hquote
    · rcases Text.suffix_append_cases hs with hs | ⟨u, hne, hu, heq⟩
      · rcases List.suffix_cons_iff.1 hs with heq | hs
        · exact absurd (List.cons.inj heq).1 hquote
        · exact ih hs
      · cases u with
        | nil => exact absurd rfl hne
        | cons d u =>
          obtain ⟨rfl, rfl⟩ := List.cons.inj heq
          exact .inr ⟨u, _, rfl, fun e he => hbody e (hu.subset he)⟩

theorem Shielded.head?_dropWhile {t : Text} (h : Shielded t) :
    ∀ c ∈ (t.dropWhile Text.isBlank).head?, c ≠ '`' := by
  induction h with
  | nil => simp
  | @plain c t hc rest ih =>
    rw [List.dropWhile_cons]
    split
    · exact ih
    · simpa using hc
  | quoted hbody rest ih =>
    rw [List.dropWhile_cons_of_neg (by decide)]
    simp

end Json

namespace Response

open Json (Shielded)

/-- No closing line begins in the text of a value. -/
theorem closing?_of_shielded {core s t : Text} (h : Shielded core)
    (hlast : ∀ c ∈ core.getLast?, Text.isBlank c = false) (hs : s <:+ core) (hne : s ≠ []) :
    closing? true (s ++ t) = none := by
  cases s with
  | nil => exact absurd rfl hne
  | cons c s =>
    by_cases hc : c = '\n'
    · subst hc
      -- No string holds a line feed, so that what follows this one is shielded as well.
      obtain ⟨-, hshielded⟩ | ⟨body, rest, -, hbody⟩ := h.suffix_cases hs (by decide)
      · obtain ⟨d, after, hdrop⟩ : ∃ d after, s.dropWhile Text.isBlank = d :: after := by
          refine List.exists_cons_of_ne_nil fun hnil => ?_
          obtain ⟨front, rfl⟩ := hs
          rw [List.getLast?_append_of_ne_nil _ hne, List.getLast?_eq_some_getLast hne] at hlast
          have hblank : ∀ e ∈ .char '\n' :: s, Text.isBlank e = true :=
            List.forall_mem_cons.2 ⟨by decide, List.dropWhile_eq_nil_iff.1 hnil⟩
          exact absurd (hblank _ (List.getLast_mem hne)) (by simp [hlast])
        have hd : d ≠ '`' := hshielded.head?_dropWhile d (by rw [hdrop]; rfl)
        have htext : (s ++ t).dropWhile Text.isBlank = d :: (after ++ t) := by
          rw [List.dropWhile_append, hdrop]
          rfl
        have hstep : closing? true (.char '\n' :: s ++ t) =
            Text.after? fence ((s ++ t).dropWhile Text.isBlank) := rfl
        rw [hstep, htext]
        exact if_neg (Ne.symm hd)
      · exact absurd (hbody '\n' (List.mem_cons_self ..)) (by decide)
    · exact closing?_of_ne hc

/-- No block opens in the text of a value. -/
theorem blockAt?_of_shielded {word core s t : Text} {indented : Bool} (h : Shielded core)
    (hword : .char '"' ∉ fence ++ word) (hs : s <:+ core) (hne : s ≠ []) :
    blockAt? word indented (s ++ t) = none := by
  cases s with
  | nil => exact absurd rfl hne
  | cons c s =>
    cases hafter : Text.after? (fence ++ word) (c :: s ++ t) with
    | none => exact blockAt?_eq_none hafter
    | some rest =>
      have htext := Text.eq_append_of_after? hafter
      obtain rfl : c = '`' := (List.cons.inj htext).1
      obtain ⟨hc, -⟩ | ⟨body, after, rfl, hbody⟩ := h.suffix_cases hs (by decide)
      · exact absurd rfl hc
      · -- The opening ends before the quote that ends the string, and no line feed stands between the two.
        have hsplit : .char '`' :: body ++ .char '"' :: (after ++ t) = fence ++ word ++ rest := by
          rw [← htext]
          simp
        obtain ⟨gap, hgap, rfl⟩ := Text.append_eq_append_cons hword hsplit
        have hno : .char '\n' ∉ gap := fun hmem =>
          absurd (hbody '\n' (hgap ▸ List.mem_append_right _ hmem)) (by decide)
        have hfeeds : afterLineFeeds (gap ++ .char '"' :: (after ++ t)) = [] :=
          afterLineFeeds_eq_nil hno (by simp [Text.isBlank])
        simp only [blockAt?, hafter, hfeeds, List.findSome?_nil]

/-! ### Fenced payloads -/

theorem exists_last_lineFeed (t : Text) : ∃ front back, .char '\n' :: t = front ++ .char '\n' :: back ∧
    .char '\n' ∉ back := by
  obtain ⟨back, front, hsplit, hback⟩ :=
    List.eq_append_cons_of_mem (List.mem_reverse.2 (List.mem_cons_self (a := .char '\n') (l := t)))
  refine ⟨front.reverse, back.reverse, ?_, by simpa using hback⟩
  have hrev := congrArg List.reverse hsplit
  simpa using hrev

/-- The white space behind a value in a fence, up to its first line feed. -/
theorem exists_first_lineFeed (t : Text) :
    ∃ front back, t ++ [.char '\n'] = front ++ .char '\n' :: back ∧ .char '\n' ∉ front ∧ front <+: t := by
  obtain ⟨front, back, hsplit, hfront⟩ :=
    List.eq_append_cons_of_mem (List.mem_append_right t (List.mem_singleton_self (CodePoint.char '\n')))
  refine ⟨front, back, hsplit, hfront, ?_⟩
  have hcut : front <+: t ++ [.char '\n'] := by
    rw [hsplit]
    exact List.prefix_append _ _
  refine List.prefix_of_prefix_length_le hcut (List.prefix_append _ _) ?_
  have hlength := congrArg List.length hsplit
  simp only [List.length_append, List.length_cons, List.length_nil] at hlength
  omega

/-- The block of a fenced JSON text is that text without some blanks at its ends. -/
theorem blockAt?_fenced {depth : Nat} (word : Text) {json : Text} {v : Json.Value}
    (hread : Json.read depth json = .ok v)
    (back : Text) :
    ∃ block, blockAt? word true (fence ++ word ++ .char '\n' :: (json ++ .char '\n' :: (fence ++ back))) =
      some (block, back) ∧ Json.read depth block = .ok v := by
  obtain ⟨lead, core, trail, rfl, hlead, htrail, hcore⟩ := Json.exists_valueText_of_read hread
  -- The opening takes the blanks up to their last line feed; the closing line takes those behind the value
  -- from their first one on.
  obtain ⟨before, gap, hopen, hgap⟩ := exists_last_lineFeed lead
  obtain ⟨rest, after, hclose, hrest, hcut⟩ := exists_first_lineFeed trail
  have hblanks : ∀ c ∈ before ++ .char '\n' :: gap, Json.isBlank c = true := by
    rw [← hopen]
    exact List.forall_mem_cons.2 ⟨by decide, hlead⟩
  have hafter : ∀ c ∈ after, Text.isBlank c = true := by
    have hall : ∀ c ∈ rest ++ .char '\n' :: after, Json.isBlank c = true := by
      rw [← hclose]
      exact List.forall_mem_append.2 ⟨htrail, List.forall_mem_singleton.2 (by decide)⟩
    exact fun c hc => Json.isBlank_of_jsonBlank
      (hall c (List.mem_append_right _ (List.mem_cons_of_mem _ hc)))
  have hhead : ∀ c ∈ (core ++ (rest ++ .char '\n' :: (after ++ (fence ++ back)))).head?,
      Text.isBlank c = false := by
    rw [List.head?_append_of_ne_nil _ hcore.ne_nil]
    exact hcore.head
  have hline : closing? true (.char '\n' :: (after ++ (fence ++ back))) = some back := by
    have hskip : (after ++ (fence ++ back)).dropWhile Text.isBlank = fence ++ back :=
      (Text.span_append hafter (by simp [fence, Text.isBlank])).2
    have hstep : closing? true (.char '\n' :: (after ++ (fence ++ back))) =
        Text.after? fence ((after ++ (fence ++ back)).dropWhile Text.isBlank) := rfl
    rw [hstep, hskip, Text.after?_append]
  have hblock : untilClosing? true (gap ++ (core ++ (rest ++ .char '\n' :: (after ++ (fence ++ back))))) =
      some (gap ++ (core ++ rest), back) := by
    rw [untilClosing?_append_of_not_mem hgap,
      untilClosing?_append fun s hs hne => closing?_of_shielded hcore.shielded hcore.last hs hne,
      untilClosing?_append_of_not_mem hrest, untilClosing?_of_closing? hline]
    simp
  have htext : .char '\n' :: (lead ++ (core ++ trail) ++ .char '\n' :: (fence ++ back)) =
      before ++ .char '\n' :: (gap ++ (core ++ (rest ++ .char '\n' :: (after ++ (fence ++ back))))) :=
    calc .char '\n' :: (lead ++ (core ++ trail) ++ .char '\n' :: (fence ++ back))
        = (.char '\n' :: lead) ++ (core ++ ((trail ++ [.char '\n']) ++ (fence ++ back))) := by simp
      _ = _ := by rw [hopen, hclose]; simp
  refine ⟨gap ++ (core ++ rest), ?_, ?_⟩
  · rw [htext]
    exact blockAt?_opening (fun c hc => Json.isBlank_of_jsonBlank (hblanks c (List.mem_append_left _ hc)))
      hgap hhead hblock
  · exact hcore.read_eq
      (fun c hc => hblanks c (List.mem_append_right _ (List.mem_cons_of_mem _ hc)))
      (fun c hc => htrail c (hcut.subset hc)) hcut

/-! ### Bare payloads -/

theorem bareObject?_append {front inner back : Text} (hfront : .char '{' ∉ front) (hback : .char '}' ∉ back)
    (hinner : patchesWord <:+: inner) :
    bareObject? (front ++ (.char '{' :: (inner ++ [.char '}']) ++ back)) =
      some (.char '{' :: (inner ++ [.char '}'])) := by
  have hstart : List.dropWhile (· != .char '{') (front ++ (.char '{' :: (inner ++ [.char '}']) ++ back)) =
      .char '{' :: (inner ++ [.char '}']) ++ back :=
    (Text.span_append (fun c hc => bne_iff_ne.2 (ne_of_mem_of_not_mem hc hfront)) (by simp)).2
  have hend : Text.dropEndWhile (· != .char '}') (.char '{' :: (inner ++ [.char '}']) ++ back) =
    .char '{' :: (inner ++ [.char '}']) :=
    Text.dropEndWhile_append (fun c hc => bne_iff_ne.2 (ne_of_mem_of_not_mem hc hback))
      (by rw [← List.cons_append, List.getLast?_concat]; simp)
  have hmiddle : Text.contains ((.char '{' :: (inner ++ [.char '}'])).drop 1).dropLast patchesWord = true := by
    rw [List.drop_one, List.tail_cons, List.dropLast_concat]
    exact Text.contains_iff.2 hinner
  simp only [bareObject?, hstart, hend, hmiddle, if_true]

theorem isInfix_inner {word inner : Text} {first last : CodePoint} (hne : word ≠ []) (hfirst : first ∉ word)
    (hlast : last ∉ word) (h : word <:+: first :: (inner ++ [last])) : word <:+: inner := by
  rcases List.infix_cons_iff.1 h with hpre | h
  · obtain ⟨c, word, rfl⟩ := List.exists_cons_of_ne_nil hne
    exact absurd (List.mem_cons_self ..) ((List.cons_prefix_cons.1 hpre).1 ▸ hfirst)
  · rcases List.infix_concat_iff.1 h with hsuf | h
    · rcases List.suffix_concat_iff.1 hsuf with hnil | ⟨u, rfl, -⟩
      · exact absurd hnil hne
      · exact absurd (List.mem_append_right u (List.mem_singleton_self last)) hlast
    · exact h

/-- The text of an object without blanks at its ends reaches from one brace to another. -/
theorem exists_braces_of_read {depth : Nat} {json : Text} {ms : List (Text × Json.Value)}
    (hread : Json.read depth json = .ok (.object ms)) (htrim : Text.trim json = json) :
    Shielded json ∧ ∃ inner, json = .char '{' :: (inner ++ [.char '}']) := by
  obtain ⟨lead, core, trail, hjson, hlead, htrail, hcore⟩ := Json.exists_valueText_of_read hread
  have hwhole : json = core := by
    rw [← htrim, hjson]
    exact Text.trimBy_append (fun c hc => Json.isBlank_of_jsonBlank (hlead c hc))
      (fun c hc => Json.isBlank_of_jsonBlank (htrail c hc)) hcore.ne_nil hcore.head hcore.last
  refine ⟨hwhole ▸ hcore.shielded, ?_⟩
  obtain ⟨hhead, hlast⟩ := hcore.braces ms rfl
  obtain ⟨rest, rfl⟩ := List.head?_eq_some_iff.1 hhead
  cases List.eq_nil_or_concat rest with
  | inl hnil =>
    rw [hnil] at hlast
    cases hlast
  | inr hrest =>
    obtain ⟨inner, c, rfl⟩ := hrest
    rw [List.concat_eq_append, ← List.cons_append, List.getLast?_concat] at hlast
    obtain rfl : c = '}' := Option.some.inj hlast
    exact ⟨inner, by rw [hwhole, List.concat_eq_append]⟩

/-- A bare object is found whole. -/
theorem payload?_bare {depth : Nat} {json front back : Text} {ms : List (Text × Json.Value)}
    (hread : Json.read depth json = .ok (.object ms)) (htrim : Text.trim json = json)
    (hword : patchesWord <:+: json) (hfront : ¬ fence ++ ("json" : Text) <:+: front)
    (hback : ¬ fence ++ ("json" : Text) <:+: back) (hopen : .char '{' ∉ front) (hclose : .char '}' ∉ back) :
    payload? (front ++ (json ++ back)) = some json := by
  obtain ⟨hshielded, inner, rfl⟩ := exists_braces_of_read hread htrim
  have hnone : firstBlock? "json" true (front ++ (.char '{' :: (inner ++ [.char '}']) ++ back)) = none := by
    have hbefore : ∀ s, s <:+ front → s ≠ [] →
        blockAt? "json" true (s ++ (.char '{' :: (inner ++ [.char '}']) ++ back)) = none := fun s hs hne =>
      blockAt?_before_char (c := '{') (by decide) hfront hs hne
    rw [firstBlock?_append hbefore,
      firstBlock?_append fun s hs hne => blockAt?_of_shielded hshielded (by decide) hs hne]
    exact firstBlock?_eq_none hback
  have hinner : patchesWord <:+: inner := isInfix_inner (by decide) (by decide) (by decide) hword
  rw [payload?, hnone, bareObject?_append hopen hclose hinner]
  rfl

/-! ### Payloads in a response -/

/-- What a JSON value gives as a payload: its patches where it follows the schema, or else the number of
its issues. -/
def judged (v : Json.Value) : Reading :=
  match readEntries (Datum.ofJson v) with
  | .ok es => .payload (es.map Entry.patch)
  | .error issues => .nothing (PayloadProblem.invalid issues.length).message

theorem ofPayload_of_read {depth : Nat} {t json : Text} {v : Json.Value} (hpayload : payload? t = some json)
    (hread : Json.read depth json = .ok v) : ofPayload depth t = .ok (judged v) := by
  simp only [ofPayload, strict, hpayload, readPayload, hread, judged]
  cases readEntries (Datum.ofJson v) <;> rfl

/-- A JSON text in a fence counts as a whole, whatever its strings hold and whatever follows the fence.
So does a bare object that holds the word for patches. -/
theorem ofPayload_whole {depth : Nat} {json : Text} {v : Json.Value} (hread : Json.read depth json = .ok v)
    {front : Text} (hfront : ¬ ("```json" : Text) <:+: front) (back : Text) :
    ofPayload depth (front ++ ("```json\n" : Text) ++ json ++ ("\n```" : Text) ++ back) = .ok (judged v) ∧
      ((∃ ms, v = .object ms) → Text.trim json = json → ("\"patches\"" : Text) <:+: json →
        ¬ ("```json" : Text) <:+: back → .char '{' ∉ front → .char '}' ∉ back →
          ofPayload depth (front ++ json ++ back) = .ok (judged v)) := by
  constructor
  · obtain ⟨block, hblock, hagain⟩ := blockAt?_fenced "json" hread back
    have htext : front ++ ("```json\n" : Text) ++ json ++ ("\n```" : Text) ++ back =
        front ++ (fence ++ ("json" : Text) ++ .char '\n' :: (json ++ .char '\n' :: (fence ++ back))) := by
      simp [fence]
    have hborder : Borderless (fence ++ ("json" : Text)) := borderless_of_drop (by decide)
    have hfound : firstBlock? "json" true
        (front ++ (fence ++ ("json" : Text) ++ .char '\n' :: (json ++ .char '\n' :: (fence ++ back)))) =
          some block := by
      rw [firstBlock?_append fun s hs hne => blockAt?_before_opening hborder hfront hs hne]
      exact firstBlock?_of_blockAt? hblock
    rw [htext]
    exact ofPayload_of_read (by rw [payload?, hfound]; rfl) hagain
  · rintro ⟨ms, rfl⟩ htrim hword hback hopen hclose
    rw [List.append_assoc]
    exact ofPayload_of_read (payload?_bare hread htrim hword hfront hback hopen hclose) hread

theorem exists_object_of_kind {r : Except Json.ReadError Json.Value}
    (h : r.map Json.Value.kind = .ok "dict") : ∃ ms, r = .ok (.object ms) := by
  rcases r with e | v
  · cases h
  · have hkind : v.kind = ("dict" : Text) := Except.ok.inj h
    cases v with
    | object ms => exact ⟨ms, rfl⟩
    | null => exact absurd hkind (by decide)
    | bool b => exact absurd hkind (by decide : ("bool" : Text) ≠ "dict")
    | int n => exact absurd hkind (by decide : ("int" : Text) ≠ "dict")
    | float x => exact absurd hkind (by decide : ("float" : Text) ≠ "dict")
    | text s => exact absurd hkind (by decide : ("str" : Text) ≠ "dict")
    | list items => exact absurd hkind (by decide : ("list" : Text) ≠ "dict")

/-- The fence, the braces and the word for patches in the diff of this payload are passed over. -/
theorem ofPayload_whole_of_fence_in_string :
    let diff : Text := "\x7d ```json\n\x7b \"patches\"\n```"
    let json : Text :=
      "\x7b\"patches\": [\x7b\"diff\": \"\x7d ```json\\n\x7b \\\"patches\\\"\\n```\", \"filePath\": \"a.ts\"\x7d]\x7d"
    let front : Text := "Patch: `"
    let back : Text := "`.\n```"
    ofPayload 980 (front ++ ("```json\n" : Text) ++ json ++ ("\n```" : Text) ++ back) =
        .ok (.payload [⟨diff, defaultDescription, "a.ts", .generated⟩]) ∧
      ofPayload 980 (front ++ json ++ back) =
        .ok (.payload [⟨diff, defaultDescription, "a.ts", .generated⟩]) := by
  intro diff json front back
  have hkind : (Json.read 980 json).map Json.Value.kind = .ok "dict" := by decide +kernel
  obtain ⟨ms, hread⟩ := exists_object_of_kind hkind
  have hgives : (Json.read 980 json).map judged =
    .ok (.payload [⟨diff, defaultDescription, "a.ts", .generated⟩]) := by
    decide +kernel
  rw [hread] at hgives
  have hjudged : judged (.object ms) = .payload [⟨diff, defaultDescription, "a.ts", .generated⟩] :=
    Except.ok.inj hgives
  have hfront : ¬ ("```json" : Text) <:+: front := by decide +kernel
  obtain ⟨hfenced, hbare⟩ := ofPayload_whole hread hfront back
  rw [hjudged] at hfenced hbare
  exact ⟨hfenced, hbare ⟨ms, rfl⟩ (by decide +kernel) (by decide +kernel) (by decide +kernel)
    (by decide) (by decide)⟩

end Response

end Mend
