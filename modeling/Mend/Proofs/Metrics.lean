import Mathlib.Data.List.Nodup
import Mend.Metrics
import Mend.Proofs.Text
import Mend.Text.Digit

/-!
# Label sets in the export

However a process counts, its counters are written out with one sample for each label set that was counted
under. Label sets without double quotes are told apart by their text, and the samples stand on a line each if no
label holds a line feed (`prometheus_samples`). The export escapes neither of the two, and a quote in a value can
pass for the end of the value (`labelText_of_quotes`).
-/

namespace Mend.Number

/-! ### The text of a value -/

/-- Whether a character can stand in a number that is written out. -/
def isFigure (c : CodePoint) : Bool := Text.isDigit c || c.passes ['.', '-', '+', 'e', 'n', 'a', 'i', 'f'].elem

theorem digits_shortestFrom (d : Dyadic) (e : Int) (k n : Nat) :
    ∀ c ∈ (d.shortestFrom e k n).digits, Text.isDigit c = true := by
  fun_induction Dyadic.shortestFrom d e k n with
  | case1 n => exact fun c hc => Text.isDigit_of_mem_ofNat hc
  | case2 k n v hv ds =>
    intro c hc
    have hds : c ∈ ds := (List.dropWhile_suffix _).subset (List.mem_reverse.1 hc) |> List.mem_reverse.1
    exact Text.isDigit_of_mem_ofNat hds
  | case3 k n hv ih => exact ih

theorem figures_of_digits {t : Text} (h : ∀ c ∈ t, Text.isDigit c = true) : ∀ c ∈ t, isFigure c = true := by
  intro c hc
  rw [isFigure, h c hc, Bool.true_or]

theorem figures_of_all {t : Text} (h : t.all isFigure = true) : ∀ c ∈ t, isFigure c = true := List.all_eq_true.1 h

theorem figures_replicate (n : Nat) : ∀ c ∈ List.replicate n (.char '0'), isFigure c = true := by
  intro c hc
  rw [(List.mem_replicate.1 hc).2]
  decide

theorem figures_render {d : Decimal} (h : ∀ c ∈ d.digits, Text.isDigit c = true) :
    ∀ c ∈ d.render, isFigure c = true := by
  have hdigits := figures_of_digits h
  have htake : ∀ n, ∀ c ∈ d.digits.take n, isFigure c = true := fun n c hc => hdigits c (List.mem_of_mem_take hc)
  have hdrop : ∀ n, ∀ c ∈ d.digits.drop n, isFigure c = true := fun n c hc => hdigits c (List.mem_of_mem_drop hc)
  unfold Decimal.render
  dsimp only
  split
  · split
    · simp only [List.forall_mem_append]
      exact ⟨⟨figures_of_all (by decide), figures_replicate _⟩, hdigits⟩
    · split
      · simp only [List.forall_mem_append]
        exact ⟨⟨hdigits, figures_replicate _⟩, figures_of_all (by decide)⟩
      · simp only [List.forall_mem_append]
        exact ⟨⟨htake _, figures_of_all (by decide)⟩, hdrop _⟩
  · have hfraction : ∀ c ∈ (if d.digits.length ≤ 1 then [] else .char '.' :: d.digits.drop 1),
        isFigure c = true := by
      split
      · exact List.forall_mem_nil _
      · exact List.forall_mem_cons.2 ⟨by decide, hdrop 1⟩
    have hsign : ∀ c ∈ ((if d.exponent < 0 then "-" else "+" : String) : Text), isFigure c = true := by
      split
      · exact figures_of_all (by decide)
      · exact figures_of_all (by decide)
    have hsize : ∀ c ∈ Text.ofNat d.exponent.natAbs, isFigure c = true :=
      figures_of_digits fun c hc => Text.isDigit_of_mem_ofNat hc
    simp only [List.forall_mem_append]
    exact ⟨⟨⟨⟨⟨htake 1, hfraction⟩, figures_of_all (by decide)⟩, hsign⟩, figures_replicate _⟩, hsize⟩

theorem figures_ofInt (n : Int) : ∀ c ∈ Text.ofInt n, isFigure c = true := by
  have hdigits : ∀ k : Nat, ∀ c ∈ Text.ofNat k, isFigure c = true := fun k =>
    figures_of_digits fun c hc => Text.isDigit_of_mem_ofNat hc
  cases n with
  | ofNat k => exact hdigits k
  | negSucc k => exact List.forall_mem_cons.2 ⟨by decide, hdigits (k + 1)⟩

theorem figures_floatText (x : Float) : ∀ c ∈ floatText x, isFigure c = true := by
  unfold floatText
  cases classify x with
  | nan => exact figures_of_all (by decide)
  | infinite negative => cases negative <;> exact figures_of_all (by decide)
  | zero negative => cases negative <;> exact figures_of_all (by decide)
  | finite negative d =>
    have hrender := figures_render (digits_shortestFrom d d.tenExponent 17 0)
    cases negative with
    | false => exact hrender
    | true => exact List.forall_mem_cons.2 ⟨by decide, hrender⟩

theorem figures_text (q : Quantity) : ∀ c ∈ q.text, isFigure c = true := by
  cases q with
  | whole n => exact figures_ofInt n
  | real x => exact figures_floatText x

end Mend.Number

namespace Mend.Metrics

/-! ### Label sets -/

/-- Whether no name and no value of a label set holds a character. -/
def Labels.Without (c : CodePoint) (l : Labels) : Prop := ∀ x ∈ l, c ∉ x.1 ∧ c ∉ x.2

instance (c : CodePoint) (l : Labels) : Decidable (l.Without c) := inferInstanceAs (Decidable (∀ x ∈ l, _))

theorem ofList_perm (ls : List (Text × Text)) : (Labels.ofList ls).Perm ls := List.mergeSort_perm ls _

theorem without_ofList {c : CodePoint} {ls : List (Text × Text)} :
    (Labels.ofList ls).Without c ↔ ∀ x ∈ ls, c ∉ x.1 ∧ c ∉ x.2 :=
  forall_congr' fun _ => imp_congr_left (ofList_perm ls).mem_iff

theorem pairwise_ofList (ls : List (Text × Text)) :
    (Labels.ofList ls).Pairwise fun a b => Text.atMost a.1 b.1 = true :=
  @List.pairwise_mergeSort _ (fun a b => Text.atMost a.1 b.1) (fun _ _ _ => Text.atMost_trans)
    (fun a b => Text.atMost_total a.1 b.1) ls

theorem ofList_of_pairwise {ls : List (Text × Text)} (h : ls.Pairwise fun a b => Text.atMost a.1 b.1 = true) :
    Labels.ofList ls = ls :=
  List.mergeSort_of_pairwise h

/-- Two lists of labels with different names make one label set if they differ in their order only. -/
theorem ofList_eq_ofList_iff {ls ls' : List (Text × Text)} (h : (ls.map Prod.fst).Nodup) :
    Labels.ofList ls = Labels.ofList ls' ↔ ls.Perm ls' := by
  constructor
  · intro heq
    exact (ofList_perm ls).symm.trans (heq ▸ ofList_perm ls')
  · intro hperm
    have hall : (Labels.ofList ls).Perm (Labels.ofList ls') :=
      (ofList_perm ls).trans (hperm.trans (ofList_perm ls').symm)
    refine hall.eq_of_pairwise (fun a b ha hb hab hba => ?_) (pairwise_ofList ls) (pairwise_ofList ls')
    have ha : a ∈ ls := (ofList_perm ls).mem_iff.1 ha
    have hb : b ∈ ls := hperm.mem_iff.2 ((ofList_perm ls').mem_iff.1 hb)
    exact List.inj_on_of_nodup_map h ha hb (Text.atMost_antisymm hab hba)

/-! ### The text of a label set -/

/-- A label with what stands behind it. -/
def labelThen (x : Text × Text) (rest : Text) : Text := x.1 ++ .char '=' :: .char '"' :: (x.2 ++ .char '"' :: rest)

/-- The end of a label set: the labels that are left and the closing brace. -/
def labelsEnd : Labels → Text
  | [] => [.char '\x7d']
  | x :: l => .char ',' :: labelThen x (labelsEnd l)

theorem labelThen_append (x : Text × Text) (s t : Text) : labelThen x s ++ t = labelThen x (s ++ t) := by
  simp [labelThen]

theorem labelText_cons (x : Text × Text) (l : Labels) :
    Registry.labelText (x :: l) = .char '\x7b' :: labelThen x (labelsEnd l) := by
  show .char '\x7b' :: (Text.joinOn ',' ((x :: l).map fun x => x.1 ++ "=\"" ++ x.2 ++ "\"") ++ [.char '\x7d']) = _
  congr 1
  induction l generalizing x with
  | nil => simp [labelThen, labelsEnd]
  | cons y l ih =>
    have hrest := congrArg (List.cons (CodePoint.char ',')) (ih y)
    rw [List.map_cons] at hrest
    rw [List.map_cons, List.map_cons, Text.joinOn_cons_cons, List.append_assoc, List.cons_append, hrest]
    simp [labelThen, labelsEnd]

theorem labelThen_inj {x y : Text × Text} {s t : Text} (hx : .char '"' ∉ x.1 ∧ .char '"' ∉ x.2)
    (hy : .char '"' ∉ y.1 ∧ .char '"' ∉ y.2) (h : labelThen x s = labelThen y t) : x = y ∧ s = t := by
  have hequals : ∀ u r : Text, u ++ .char '=' :: .char '"' :: r = (u ++ [.char '=']) ++ .char '"' :: r :=
    fun u r => by simp
  have hname : ∀ {u : Text}, .char '"' ∉ u → .char '"' ∉ u ++ [.char '='] := fun hu hmem =>
    (List.mem_append.1 hmem).elim hu (by decide)
  unfold labelThen at h
  rw [hequals, hequals] at h
  obtain ⟨hfirst, hrest⟩ := Text.append_cons_inj (hname hx.1) (hname hy.1) h
  obtain ⟨hsecond, hrest⟩ := Text.append_cons_inj hx.2 hy.2 hrest
  exact ⟨Prod.ext (List.append_cancel_right hfirst) hsecond, hrest⟩

theorem labelsEnd_append_inj {l l' : Labels} (h : l.Without '"') (h' : l'.Without '"') {s t : Text}
    (heq : labelsEnd l ++ s = labelsEnd l' ++ t) : l = l' ∧ s = t := by
  induction l generalizing l' with
  | nil =>
    cases l' with
    | nil => exact ⟨rfl, List.tail_eq_of_cons_eq heq⟩
    | cons y l' => exact absurd (List.head_eq_of_cons_eq heq) (by decide)
  | cons x l ih =>
    cases l' with
    | nil => exact absurd (List.head_eq_of_cons_eq heq) (by decide)
    | cons y l' =>
      obtain ⟨hx, hl⟩ := List.forall_mem_cons.1 h
      obtain ⟨hy, hl'⟩ := List.forall_mem_cons.1 h'
      have htail : labelThen x (labelsEnd l) ++ s = labelThen y (labelsEnd l') ++ t := List.tail_eq_of_cons_eq heq
      rw [labelThen_append, labelThen_append] at htail
      obtain ⟨rfl, hrest⟩ := labelThen_inj hx hy htail
      obtain ⟨rfl, hst⟩ := ih hl hl' hrest
      exact ⟨rfl, hst⟩

/-- The text of a label set without double quotes ends where it is followed by anything but a brace. -/
theorem labelText_append_inj {l l' : Labels} (h : l.Without '"') (h' : l'.Without '"') {s t : Text}
    (hs : s.head? ≠ some '\x7b') (ht : t.head? ≠ some '\x7b')
    (heq : Registry.labelText l ++ s = Registry.labelText l' ++ t) : l = l' ∧ s = t := by
  cases l with
  | nil =>
    cases l' with
    | nil => exact ⟨rfl, heq⟩
    | cons y l' =>
      rw [labelText_cons] at heq
      exact absurd (congrArg List.head? heq) hs
  | cons x l =>
    rw [labelText_cons] at heq
    cases l' with
    | nil => exact absurd (congrArg List.head? heq).symm ht
    | cons y l' =>
      rw [labelText_cons] at heq
      -- behind the first brace both texts read as the end of a set that begins with a comma
      exact labelsEnd_append_inj h h' (congrArg (List.cons (CodePoint.char ',')) (List.tail_eq_of_cons_eq heq))

/-! ### Counting -/

/-- The label sets that a counter has sums for. -/
def Counter.labelSets (c : Counter Number.Quantity) : List Labels := c.sums.map Prod.fst

theorem labelSets_inc (c : Counter Number.Quantity) (amount : Number.Quantity) (labels : Labels) :
    (c.inc amount labels).1.labelSets =
      if amount.less (.whole 0) ∨ labels ∈ c.labelSets then c.labelSets else c.labelSets ++ [labels] := by
  have hzero : Number.Arithmetic.less amount Number.Arithmetic.zero = amount.less (.whole 0) := rfl
  unfold Counter.inc Counter.labelSets
  rw [hzero]
  split
  · next hless => rw [if_pos (.inl hless)]
  · next hless =>
    have hmap : ∀ s, (Assoc.put labels s c.sums).map Prod.fst =
        if amount.less (.whole 0) ∨ labels ∈ c.sums.map Prod.fst then c.sums.map Prod.fst
        else c.sums.map Prod.fst ++ [labels] := by
      intro s
      simp only [hless, Bool.false_eq_true, false_or]
      exact Assoc.map_fst_put labels c.sums s
    dsimp only
    split
    · exact hmap _
    · exact hmap _

theorem mem_labelSets_inc {c : Counter Number.Quantity} {amount : Number.Quantity} {labels l : Labels} :
    l ∈ (c.inc amount labels).1.labelSets ↔
      l ∈ c.labelSets ∨ (amount.less (.whole 0) = false ∧ labels = l) := by
  rw [labelSets_inc]
  cases hless : amount.less (.whole 0) with
  | true => simp
  | false =>
    by_cases hmem : labels ∈ c.labelSets
    · simp only [hmem, or_true, if_true, true_and]
      exact ⟨.inl, fun h => h.elim id fun heq => heq ▸ hmem⟩
    · simp [hmem, eq_comm]

theorem nodup_labelSets_inc {c : Counter Number.Quantity} (h : c.labelSets.Nodup)
    (amount : Number.Quantity) (labels : Labels) :
    (c.inc amount labels).1.labelSets.Nodup := by
  rw [labelSets_inc]
  split
  · exact h
  · next hnot =>
    rw [List.nodup_append]
    refine ⟨h, List.nodup_singleton _, fun a ha b hb hab => ?_⟩
    rw [List.mem_singleton.1 hb] at hab
    exact hnot (.inr (hab ▸ ha))

/-- An increment of a counter of the registry. -/
structure Increment where
  counter : CounterName
  amount : Number.Quantity
  labels : List (Text × Text)

/-- Whether an increment counts under a label set. One that is refused as negative does not. -/
def Increment.CountsUnder (i : Increment) (n : CounterName) (l : Labels) : Prop :=
  i.counter = n ∧ i.amount.less (.whole 0) = false ∧ Labels.ofList i.labels = l

/-- The registry after some increments. -/
def Registry.incAll (r : Registry Number.Quantity) (is : List Increment) :
    Registry Number.Quantity :=
  is.foldl (fun r i => (r.inc i.counter i.amount (Labels.ofList i.labels)).1) r

theorem labelSets_registry_inc (r : Registry Number.Quantity) (i : Increment) (n : CounterName) :
    ((r.inc i.counter i.amount (Labels.ofList i.labels)).1.counters n).labelSets =
      if n = i.counter then ((r.counters i.counter).inc i.amount (Labels.ofList i.labels)).1.labelSets
      else (r.counters n).labelSets := by
  show (if n = i.counter then ((r.counters i.counter).inc i.amount (Labels.ofList i.labels)).1
    else r.counters n).labelSets = _
  split <;> rfl

theorem mem_labelSets_incAll {r : Registry Number.Quantity} {is : List Increment} {n : CounterName} {l : Labels} :
    l ∈ ((r.incAll is).counters n).labelSets ↔
      l ∈ (r.counters n).labelSets ∨ ∃ i ∈ is, i.CountsUnder n l := by
  induction is generalizing r with
  | nil => simp [Registry.incAll]
  | cons i is ih =>
    have hstep : l ∈ ((r.inc i.counter i.amount (Labels.ofList i.labels)).1.counters n).labelSets ↔
        l ∈ (r.counters n).labelSets ∨ i.CountsUnder n l := by
      rw [labelSets_registry_inc]
      by_cases hn : n = i.counter
      · rw [if_pos hn, mem_labelSets_inc, hn]
        simp [Increment.CountsUnder]
      · rw [if_neg hn]
        exact ⟨.inl, fun h => h.resolve_right fun hcounts => hn hcounts.1.symm⟩
    show l ∈ (((r.inc i.counter i.amount (Labels.ofList i.labels)).1.incAll is).counters n).labelSets ↔ _
    rw [ih, hstep, or_assoc, List.exists_mem_cons_iff]

theorem nodup_labelSets_incAll {r : Registry Number.Quantity} (h : ∀ n, (r.counters n).labelSets.Nodup)
    (is : List Increment)
    (n : CounterName) : ((r.incAll is).counters n).labelSets.Nodup := by
  induction is generalizing r with
  | nil => exact h n
  | cons i is ih =>
    refine ih fun n => ?_
    rw [labelSets_registry_inc]
    split
    · exact nodup_labelSets_inc (h _) _ _
    · exact h n

/-! ### The lines of the export -/

theorem mem_all (n : CounterName) : n ∈ CounterName.all := by cases n <;> decide

/-- Whether a character can stand in a metric: it neither ends the metric nor the line. -/
def isMetricChar (c : CodePoint) : Bool := c != ' ' && c != '\x7b' && c != '\n'

theorem metric_form (n : CounterName) :
    n.metric.head? = some 'm' ∧ n.metric.all isMetricChar = true ∧ .char '\n' ∉ n.help := by
  have hall : ∀ n ∈ CounterName.all,
      n.metric.head? = some 'm' ∧ n.metric.all isMetricChar = true ∧ .char '\n' ∉ n.help := by decide +kernel
  exact hall n (mem_all n)

theorem newline_not_mem_metric (n : CounterName) : .char '\n' ∉ n.metric := fun hmem =>
  absurd (List.all_eq_true.1 (metric_form n).2.1 _ hmem) (by decide)

/-- What the sample line of a label set begins with. -/
def sampleHead (n : CounterName) (l : Labels) : Text := n.metric ++ (Registry.labelText l ++ [.char ' '])

theorem sampleLine_eq (n : CounterName) (l : Labels) (x : Number.Quantity) :
    Registry.sampleLine n (l, x) = sampleHead n l ++ x.text := by
  simp [Registry.sampleLine, sampleHead]

theorem newline_not_mem_labelsEnd {l : Labels} : .char '\n' ∉ labelsEnd l ↔ l.Without '\n' := by
  induction l with
  | nil => exact iff_of_true (by decide) (List.forall_mem_nil _)
  | cons x l ih =>
    unfold Labels.Without at ih ⊢
    rw [List.forall_mem_cons, ← ih]
    simp [labelsEnd, labelThen, and_assoc]

theorem newline_not_mem_labelText {l : Labels} : .char '\n' ∉ Registry.labelText l ↔ l.Without '\n' := by
  cases l with
  | nil => exact iff_of_true List.not_mem_nil (List.forall_mem_nil _)
  | cons x l =>
    rw [labelText_cons, ← newline_not_mem_labelsEnd]
    simp [labelsEnd]

theorem newline_not_mem_sampleLine {n : CounterName} {l : Labels} {x : Number.Quantity} :
    .char '\n' ∉ Registry.sampleLine n (l, x) ↔ l.Without '\n' := by
  have hvalue : .char '\n' ∉ x.text := fun h => absurd (Number.figures_text x _ h) (by decide)
  rw [sampleLine_eq, sampleHead, ← newline_not_mem_labelText]
  simp [newline_not_mem_metric n, hvalue]

/-- The lines of the export are those that were written, unless a label holds a line feed. -/
theorem lines_prometheus_iff {r : Registry Number.Quantity} :
    Text.lines r.prometheus = CounterName.all.flatMap r.counterLines ↔
      ∀ n, ∀ l ∈ (r.counters n).labelSets, l.Without '\n' := by
  constructor
  · intro heq n l hl
    obtain ⟨⟨l, x⟩, hmem, rfl⟩ := List.mem_map.1 hl
    have hline : Registry.sampleLine n (l, x) ∈ CounterName.all.flatMap r.counterLines :=
      List.mem_flatMap.2 ⟨n, mem_all n, List.mem_cons_of_mem _ (List.mem_cons_of_mem _ (List.mem_map_of_mem hmem))⟩
    rw [← heq] at hline
    exact newline_not_mem_sampleLine.1 (Text.not_mem_of_mem_splitOn _ _ _ hline)
  · intro hfeed
    refine Text.splitOn_joinOn '\n' (List.cons_ne_nil _ _) fun line hline => ?_
    obtain ⟨n, -, hline⟩ := List.mem_flatMap.1 hline
    have hmetric := newline_not_mem_metric n
    rcases List.mem_cons.1 hline with rfl | hline
    · simp only [List.mem_append, not_or]
      exact ⟨⟨⟨by decide, hmetric⟩, by decide⟩, (metric_form n).2.2⟩
    · rcases List.mem_cons.1 hline with rfl | hline
      · simp only [List.mem_append, not_or]
        exact ⟨⟨by decide, hmetric⟩, by decide⟩
      · obtain ⟨⟨l, x⟩, hmem, rfl⟩ := List.mem_map.1 hline
        exact newline_not_mem_sampleLine.2 (hfeed n l (List.mem_map_of_mem hmem))

/-! ### Samples -/

theorem sampleHead_append_inj {n m : CounterName} {l l' : Labels} (h : l.Without '"') (h' : l'.Without '"')
    {s t : Text} (heq : sampleHead n l ++ s = sampleHead m l' ++ t) : n = m ∧ l = l' := by
  have hends : ∀ (l : Labels) (s : Text), ∀ c ∈ (Registry.labelText l ++ .char ' ' :: s).head?,
      isMetricChar c = false := by
    intro l s
    cases l with
    | nil => exact Text.forall_head?_cons (p := isMetricChar) (by decide) s
    | cons x l =>
      rw [labelText_cons]
      exact Text.forall_head?_cons (p := isMetricChar) (by decide) _
  have hparts : ∀ (n : CounterName) (l : Labels) (s : Text),
      sampleHead n l ++ s = n.metric ++ (Registry.labelText l ++ .char ' ' :: s) :=
        fun n l s => by simp [sampleHead]
  rw [hparts, hparts] at heq
  have hn := Text.span_append (List.all_eq_true.1 (metric_form n).2.1) (hends l s)
  have hm := Text.span_append (List.all_eq_true.1 (metric_form m).2.1) (hends l' t)
  have hmetric : n.metric = m.metric := by rw [← hn.1, heq, hm.1]
  have htexts : Registry.labelText l ++ .char ' ' :: s = Registry.labelText l' ++ .char ' ' :: t := by
    rw [← hn.2, heq, hm.2]
  have hnodup : (CounterName.all.map fun n => n.metric.map CodePoint.toNat).Nodup := by decide +kernel
  exact ⟨List.inj_on_of_nodup_map hnodup (mem_all n) (mem_all m) (congrArg _ hmetric),
    (labelText_append_inj h h' (by simp) (by simp) htexts).1⟩

/-- The number of lines in the export that are samples of a counter under a label set. -/
def samples (r : Registry Number.Quantity) (n : CounterName) (l : Labels) : Nat :=
  (Text.lines r.prometheus).countP fun line => Text.startsWith line (sampleHead n l)

theorem startsWith_sampleLine {n m : CounterName} {l l' : Labels} {x : Number.Quantity} (hl : l.Without '"')
    (hl' : l'.Without '"') :
    Text.startsWith (Registry.sampleLine m (l', x)) (sampleHead n l) = true ↔ m = n ∧ l' = l := by
  rw [Text.startsWith, List.isPrefixOf_iff_prefix, sampleLine_eq]
  constructor
  · rintro ⟨s, hs⟩
    obtain ⟨hname, hlabels⟩ := sampleHead_append_inj hl hl' hs
    exact ⟨hname.symm, hlabels.symm⟩
  · rintro ⟨rfl, rfl⟩
    exact List.prefix_append _ _

theorem countP_counterLines (r : Registry Number.Quantity) (n m : CounterName) {l : Labels} (hl : l.Without '"')
    (hquote : ∀ l ∈ (r.counters m).labelSets, l.Without '"') :
    (r.counterLines m).countP (fun line => Text.startsWith line (sampleHead n l)) =
      if m = n then (r.counters n).labelSets.count l else 0 := by
  have hheader : ∀ t : Text, t.head? = some '#' → ¬ Text.startsWith t (sampleHead n l) = true := by
    intro t ht hstarts
    rw [Text.startsWith, List.isPrefixOf_iff_prefix] at hstarts
    obtain ⟨s, hs⟩ := hstarts
    have hhead : (sampleHead n l ++ s).head? = some 'm' := by
      simp [sampleHead, List.head?_append, (metric_form n).1]
    rw [hs, ht] at hhead
    exact absurd hhead (by decide)
  have hsamples : ((r.counters m).sums.map (Registry.sampleLine m)).countP
      (fun line => Text.startsWith line (sampleHead n l)) =
      (r.counters m).labelSets.countP fun l' => decide (m = n) && l' == l := by
    rw [Counter.labelSets, List.countP_map, List.countP_map]
    refine List.countP_congr fun s hs => ?_
    have hs : s.1 ∈ (r.counters m).labelSets := List.mem_map_of_mem hs
    show Text.startsWith (Registry.sampleLine m (s.1, s.2)) (sampleHead n l) = true ↔ _
    rw [startsWith_sampleLine hl (hquote _ hs)]
    simp
  unfold Registry.counterLines
  rw [List.countP_cons_of_neg (p := fun line => Text.startsWith line (sampleHead n l)) (hheader _ rfl),
    List.countP_cons_of_neg (p := fun line => Text.startsWith line (sampleHead n l)) (hheader _ rfl), hsamples]
  by_cases hm : m = n
  · rw [if_pos hm, hm]
    simp [List.count]
  · rw [if_neg hm]
    simp [hm]

theorem samples_eq {r : Registry Number.Quantity} (hfeed : ∀ n, ∀ l ∈ (r.counters n).labelSets, l.Without '\n')
    (hquote : ∀ n, ∀ l ∈ (r.counters n).labelSets, l.Without '"') (n : CounterName) {l : Labels}
    (hl : l.Without '"') : samples r n l = (r.counters n).labelSets.count l := by
  have hcounts := List.map_congr_left fun m (_ : m ∈ CounterName.all) => countP_counterLines r n m hl (hquote m)
  rw [samples, lines_prometheus_iff.2 hfeed, List.countP_flatMap]
  refine (congrArg List.sum hcounts).trans ?_
  cases n <;> simp [CounterName.all]

/-! ### The export of a process -/

/-- Whether an increment is not refused and no label of it holds a character. -/
def Increment.CountsWithout (c : CodePoint) (i : Increment) : Prop :=
  i.amount.less (.whole 0) = false → ∀ x ∈ i.labels, c ∉ x.1 ∧ c ∉ x.2

instance (c : CodePoint) (i : Increment) : Decidable (i.CountsWithout c) :=
  inferInstanceAs (Decidable (_ → ∀ x ∈ i.labels, _))

theorem without_labelSets_incAll (c : CodePoint) (is : List Increment) :
    (∀ n, ∀ l ∈ ((Registry.empty.incAll is).counters n).labelSets, l.Without c) ↔
      ∀ i ∈ is, i.CountsWithout c := by
  have hnone : ∀ n l, l ∉ (Registry.empty.counters n).labelSets := fun n l => List.not_mem_nil
  simp only [mem_labelSets_incAll, hnone, false_or]
  constructor
  · intro h i hi hcounts
    exact without_ofList.1 (h i.counter _ ⟨i, hi, rfl, hcounts, rfl⟩)
  · rintro h n l ⟨i, hi, -, hcounts, rfl⟩
    exact without_ofList.2 (h i hi hcounts)

/-- A value that holds the end of a label and the begin of the next one is written like two labels. -/
theorem labelText_of_quotes (xs ys : Labels) (k a k' b : Text) :
    Registry.labelText (xs ++ (k, a ++ .char '"' :: .char ',' :: (k' ++ .char '=' :: .char '"' :: b)) :: ys) =
      Registry.labelText (xs ++ (k, a) :: (k', b) :: ys) := by
  have hpair : ∀ rest, labelThen (k, a ++ .char '"' :: .char ',' :: (k' ++ .char '=' :: .char '"' :: b)) rest =
      labelThen (k, a) (.char ',' :: labelThen (k', b) rest) := fun rest => by simp [labelThen]
  have hend : ∀ xs,
      labelsEnd (xs ++ (k, a ++ .char '"' :: .char ',' :: (k' ++ .char '=' :: .char '"' :: b)) :: ys) =
        labelsEnd (xs ++ (k, a) :: (k', b) :: ys) := by
    intro xs
    induction xs with
    | nil => exact congrArg (List.cons (CodePoint.char ',')) (hpair _)
    | cons x xs ih => exact congrArg (fun rest => .char ',' :: labelThen x rest) ih
  cases xs with
  | nil =>
    rw [List.nil_append, List.nil_append, labelText_cons, labelText_cons, hpair]
    rfl
  | cons x xs => rw [List.cons_append, List.cons_append, labelText_cons, labelText_cons, hend]

/-- What is exported after some increments: which label sets the counters have sums for, when the lines are those
that were written, how many of them are samples of a label set, and which label sets have one text. -/
theorem prometheus_samples (is : List Increment) :
    let r := Registry.empty.incAll is
    (∀ n, (r.counters n).labelSets.Nodup ∧
      ∀ l, l ∈ (r.counters n).labelSets ↔ ∃ i ∈ is, i.CountsUnder n l) ∧
    (Text.lines r.prometheus = CounterName.all.flatMap r.counterLines ↔ ∀ i ∈ is, i.CountsWithout '\n') ∧
    ((∀ i ∈ is, i.CountsWithout '\n' ∧ i.CountsWithout '"') → ∀ n (l : Labels), l.Without '"' →
      samples r n l ≤ 1 ∧ (samples r n l = 1 ↔ ∃ i ∈ is, i.CountsUnder n l)) ∧
    (∀ ls ls' : List (Text × Text), (ls.map Prod.fst).Nodup → (∀ x ∈ ls, .char '"' ∉ x.1 ∧ .char '"' ∉ x.2) →
      (∀ x ∈ ls', .char '"' ∉ x.1 ∧ .char '"' ∉ x.2) →
      (Registry.labelText (Labels.ofList ls) = Registry.labelText (Labels.ofList ls') ↔ ls.Perm ls')) := by
  intro r
  have hnodup : ∀ n, (r.counters n).labelSets.Nodup :=
    nodup_labelSets_incAll (r := .empty) (fun _ => List.nodup_nil) is
  have hmem : ∀ n l, l ∈ (r.counters n).labelSets ↔ ∃ i ∈ is, i.CountsUnder n l := fun n l =>
    mem_labelSets_incAll.trans (or_iff_right List.not_mem_nil)
  refine ⟨fun n => ⟨hnodup n, hmem n⟩, ?_, ?_, ?_⟩
  · exact lines_prometheus_iff.trans (without_labelSets_incAll '\n' is)
  · intro hplain n l hl
    have hfeed := (without_labelSets_incAll '\n' is).2 fun i hi => (hplain i hi).1
    have hquote := (without_labelSets_incAll '"' is).2 fun i hi => (hplain i hi).2
    rw [samples_eq hfeed hquote n hl]
    refine ⟨List.nodup_iff_count_le_one.1 (hnodup n) l, ?_⟩
    constructor
    · intro hone
      exact (hmem n l).1 (List.count_pos_iff.1 (hone ▸ Nat.one_pos))
    · intro hcounts
      exact List.count_eq_one_of_mem (hnodup n) ((hmem n l).2 hcounts)
  · intro ls ls' hnames hls hls'
    constructor
    · intro htext
      have happend := congrArg (· ++ ([] : Text)) htext
      have hsets := labelText_append_inj (without_ofList.2 hls) (without_ofList.2 hls') (by decide)
        (by decide) happend
      exact (ofList_eq_ofList_iff hnames).1 hsets.1
    · intro hperm
      rw [(ofList_eq_ofList_iff hnames).2 hperm]

/-- Two matches of one rule and a match of another one. -/
def threeMatches : List Increment :=
  [⟨.ruleMatches, .whole 1, [("rule", "rxjs-operators")]⟩, ⟨.ruleMatches, .whole 1, [("rule", "http-module")]⟩,
    ⟨.ruleMatches, .whole 1, [("rule", "rxjs-operators")]⟩]

theorem prometheus_samples_of_threeMatches :
    let r := Registry.empty.incAll threeMatches
    samples r .ruleMatches [("rule", "rxjs-operators")] = 1 ∧ samples r .ruleMatches [("rule", "other")] = 0 := by
  intro r
  have hplain : ∀ i ∈ threeMatches, i.CountsWithout '\n' ∧ i.CountsWithout '"' := by decide
  have hsamples := (prometheus_samples threeMatches).2.2.1 hplain .ruleMatches
  obtain ⟨-, hone⟩ := hsamples [("rule", "rxjs-operators")] (by decide)
  obtain ⟨hmost, hother⟩ := hsamples [("rule", "other")] (by decide)
  refine ⟨hone.2 ⟨_, List.mem_cons_self, rfl, rfl, ofList_of_pairwise (List.pairwise_singleton _ _)⟩, ?_⟩
  have hlabels : ∀ i ∈ threeMatches, i.labels.Pairwise (fun a b => Text.atMost a.1 b.1 = true) ∧
      i.labels ≠ [(("rule" : Text), ("other" : Text))] := by decide
  have hnot : ¬ ∃ i ∈ threeMatches, i.CountsUnder .ruleMatches [("rule", "other")] := by
    rintro ⟨i, hi, -, -, hcounts⟩
    obtain ⟨hsorted, hne⟩ := hlabels i hi
    exact hne ((ofList_of_pairwise hsorted).symm.trans hcounts)
  exact Nat.lt_one_iff.1 (lt_of_le_of_ne hmost (mt hother.1 hnot))

/-- Two increments of one counter whose label sets differ and have one text. -/
theorem labelText_not_injective :
    let r := Registry.empty.incAll [⟨.ruleMatches, .whole 1, [("rule", "x\",z=\"y")]⟩,
      ⟨.ruleMatches, .whole 1, [("rule", "x"), ("z", "y")]⟩]
    let l : Labels := [("rule", "x\",z=\"y")]
    let l' : Labels := [("rule", "x"), ("z", "y")]
    l ∈ (r.counters .ruleMatches).labelSets ∧ l' ∈ (r.counters .ruleMatches).labelSets ∧ l ≠ l' ∧
      Registry.labelText l = Registry.labelText l' := by
  intro r l l'
  have hl : Labels.ofList l = l := ofList_of_pairwise (List.pairwise_singleton _ _)
  have hl' : Labels.ofList l' = l' := ofList_of_pairwise (by decide)
  refine ⟨?_, ?_, by decide, labelText_of_quotes [] [] "rule" "x" "z" "y"⟩
  · exact mem_labelSets_incAll.2 (.inr ⟨_, List.mem_cons_self, rfl, rfl, hl⟩)
  · exact mem_labelSets_incAll.2 (.inr ⟨_, List.mem_cons_of_mem _ List.mem_cons_self, rfl, rfl, hl'⟩)

end Mend.Metrics
