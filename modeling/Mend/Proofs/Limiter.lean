import Mathlib.Algebra.Order.Field.Rat
import Mathlib.Algebra.BigOperators.Group.List.Basic
import Mathlib.Tactic.Linarith
import Mathlib.Tactic.Ring
import Mend.Limiter
import Mend.Proofs.Rational

/-!
# A bucket bounds the rate

The rules for a bucket, read over the rational numbers. A bucket is used by a sequence of actions, and what
it grants is kept with the instant of the grant. The tokens that were granted since an instant and those that
the bucket holds now are together at most a full bucket and what flowed in since (`Usage.Sound.since`): time
that goes by adds to both sides alike, and a grant moves tokens from the bucket to what was granted. Hence
no window of time sees more than a full bucket and its inflow (`grants_bounded`).
-/

namespace Mend

namespace Limiter

/-! ### One bucket -/

/-- The tokens that a bucket holds at an instant. -/
def level (l : Limiter ℚ) (now : ℚ) : ℚ := min l.capacity (l.tokens + (now - l.updated) * l.rate)

theorem level_le (l : Limiter ℚ) (now : ℚ) : l.level now ≤ l.capacity := min_le_left ..

theorem level_nonneg {l : Limiter ℚ} {now : ℚ} (hrate : 0 < l.rate) (htokens : 0 ≤ l.tokens)
    (hcapacity : 0 ≤ l.capacity) (hnow : l.updated ≤ now) : 0 ≤ l.level now := by
  have hinflow : 0 ≤ (now - l.updated) * l.rate := mul_nonneg (sub_nonneg.2 hnow) hrate.le
  exact le_min hcapacity (by linarith)

/-- While time goes by no more flows in than the rate says. -/
theorem level_add_le {l : Limiter ℚ} (hrate : 0 < l.rate) (now : ℚ) {seconds : ℚ} (hseconds : 0 ≤ seconds) :
    l.level (now + seconds) ≤ l.level now + l.rate * seconds := by
  have hinflow : 0 ≤ l.rate * seconds := mul_nonneg hrate.le hseconds
  unfold level
  rcases min_cases l.capacity (l.tokens + (now - l.updated) * l.rate) with ⟨heq, -⟩ | ⟨heq, -⟩ <;> rw [heq]
  · exact (min_le_left ..).trans (by linarith)
  · exact (min_le_right ..).trans (by linarith)

theorem least_eq_min (a b : ℚ) : Number.Arithmetic.least a b = min a b := by
  rcases lt_or_ge b a with h | h
  · rw [min_eq_right h.le]
    exact if_pos (decide_eq_true h)
  · rw [min_eq_left h]
    exact if_neg (by simpa [Number.Arithmetic.less] using h)

theorem greatest_eq_max (a b : ℚ) : Number.Arithmetic.greatest a b = max a b := by
  rcases lt_or_ge a b with h | h
  · rw [max_eq_right h.le]
    exact if_pos (decide_eq_true h)
  · rw [max_eq_left h]
    exact if_neg (by simpa [Number.Arithmetic.less] using h)

theorem full_eq {rate : ℚ} (hrate : 0 < rate) (capacity : Option ℚ) (now : ℚ) :
    full rate capacity now =
      .ok ⟨rate, capacity.getD (max rate 1), capacity.getD (max rate 1), now⟩ := by
  have hpositive : Number.Arithmetic.less Number.Arithmetic.zero rate = true := decide_eq_true hrate
  simp only [full, hpositive, if_true, greatest_eq_max]
  rfl

theorem refill_eq (l : Limiter ℚ) (now : ℚ) :
    l.refill now = .ok { l with tokens := l.level now, updated := now } := by
  rw [level, ← least_eq_min]
  rfl

/-- The bucket right after it was looked at, with so many tokens left. -/
def holding (l : Limiter ℚ) (now tokens : ℚ) : Limiter ℚ := { l with tokens := tokens, updated := now }

theorem acquire_of_beyond {l : Limiter ℚ} {t : ℚ} (h : l.capacity < t) (now : ℚ) :
    l.acquire now t = .error (.beyondCapacity t l.capacity) :=
  if_pos (decide_eq_true h)

/-- Tokens that are there are taken at once. -/
theorem acquire_of_enough {l : Limiter ℚ} {now t : ℚ} (h : t ≤ l.level now) :
    l.acquire now t = .ok ⟨l.holding now (l.level now - t), now, none⟩ := by
  have hwithin : Number.Arithmetic.less l.capacity t = false :=
    decide_eq_false (not_lt.2 (h.trans (l.level_le now)))
  have henough : Number.Arithmetic.less (l.level now) t = false := decide_eq_false (not_lt.2 h)
  simp only [acquire, hwithin, Bool.false_eq_true, if_false, refill_eq, take, henough]
  rfl

/-- What flows in during the wait is what was missing, so that the bucket is empty afterwards. -/
theorem take_of_short {l : Limiter ℚ} {t : ℚ} (hrate : 0 < l.rate) (hwithin : t ≤ l.capacity)
    (h : l.tokens < t) :
    l.take l.updated t =
      .ok ⟨l.holding (l.updated + (t - l.tokens) / l.rate) 0, l.updated + (t - l.tokens) / l.rate,
        some ⟨(t - l.tokens) / l.rate, t - l.tokens⟩⟩ := by
  have hshort : Number.Arithmetic.less l.tokens t = true := decide_eq_true h
  have hlater : l.level (l.updated + (t - l.tokens) / l.rate) = t := by
    have hinflow : (l.updated + (t - l.tokens) / l.rate - l.updated) * l.rate = t - l.tokens := by
      rw [add_sub_cancel_left, div_mul_cancel₀ _ hrate.ne']
    rw [level, hinflow, add_sub_cancel, min_eq_right hwithin]
  have hrefill := l.refill_eq (l.updated + (t - l.tokens) / l.rate)
  rw [hlater] at hrefill
  simp only [take, hshort, if_true, Number.rational_sub, Number.rational_div, Number.rational_add, bind,
    Except.bind, hrefill,
    sub_self]
  rfl

theorem acquire_of_short {l : Limiter ℚ} {now t : ℚ} (hrate : 0 < l.rate) (hwithin : t ≤ l.capacity)
    (h : l.level now < t) :
    l.acquire now t =
      .ok ⟨l.holding (now + (t - l.level now) / l.rate) 0, now + (t - l.level now) / l.rate,
        some ⟨(t - l.level now) / l.rate, t - l.level now⟩⟩ := by
  have hless : Number.Arithmetic.less l.capacity t = false := decide_eq_false (not_lt.2 hwithin)
  have htake := take_of_short (l := l.holding now (l.level now)) hrate hwithin h
  simp only [acquire, hless, Bool.false_eq_true, if_false, refill_eq]
  exact congrArg (Except.mapError LimiterError.overflow) htake

/-! ### A bucket in use -/

/-- What is done with a bucket: tokens are asked for, its tokens are looked at, or time goes by. -/
inductive Action
  | acquire (tokens : ℚ)
  | look
  | pass (seconds : ℚ)

/-- Whether no negative number of tokens is asked for and time goes forward. -/
def Action.IsForward : Action → Prop
  | .acquire tokens => 0 ≤ tokens
  | .look => True
  | .pass seconds => 0 ≤ seconds

/-- Tokens that were granted at an instant. -/
structure Granted where
  instant : ℚ
  tokens : ℚ

/-- A bucket, the instant, and what was granted so far, the last grant first. -/
structure Usage where
  limiter : Limiter ℚ
  now : ℚ
  granted : List Granted

namespace Usage

/-- What is left of a bucket after an action. A refusal changes nothing, and a wait takes time. -/
def after (u : Usage) : Action → Usage
  | .acquire tokens =>
    match u.limiter.acquire u.now tokens with
    | .error _ => u
    | .ok g => ⟨g.limiter, g.now, ⟨g.now, tokens⟩ :: u.granted⟩
  | .look =>
    match u.limiter.refill u.now with
    | .error _ => u
    | .ok l => { u with limiter := l }
  | .pass seconds => { u with now := u.now + seconds }

/-- The same after all of some actions, in order. -/
def afterAll (u : Usage) (as : List Action) : Usage := as.foldl after u

/-- The tokens that some grants after an instant, up to another one, add up to. -/
def sumBetween (s e : ℚ) (gs : List Granted) : ℚ :=
  ((gs.filter fun g => s < g.instant ∧ g.instant ≤ e).map Granted.tokens).sum

/-- The tokens that were granted after an instant, up to another one. -/
def grantedBetween (u : Usage) (s e : ℚ) : ℚ := sumBetween s e u.granted

theorem sumBetween_cons (s e : ℚ) (g : Granted) (gs : List Granted) :
    sumBetween s e (g :: gs) =
      (if s < g.instant ∧ g.instant ≤ e then g.tokens else 0) + sumBetween s e gs := by
  unfold sumBetween
  rw [List.filter_cons]
  split_ifs <;> simp_all

/-- Where nothing was granted later, a window may end later. -/
theorem sumBetween_of_le {gs : List Granted} {s e e' : ℚ} (hgs : ∀ g ∈ gs, g.instant ≤ e) (he : e ≤ e') :
    sumBetween s e' gs = sumBetween s e gs := by
  have hsame : (gs.filter fun g => s < g.instant ∧ g.instant ≤ e') =
      gs.filter fun g => s < g.instant ∧ g.instant ≤ e :=
    List.filter_congr fun g hg => by simp [hgs g hg, (hgs g hg).trans he]
  rw [sumBetween, sumBetween, hsame]

theorem sumBetween_eq_zero {gs : List Granted} {s : ℚ} (hgs : ∀ g ∈ gs, g.instant ≤ s) (e : ℚ) :
    sumBetween s e gs = 0 := by
  have hnone : (gs.filter fun g => s < g.instant ∧ g.instant ≤ e) = [] :=
    List.filter_eq_nil_iff.2 fun g hg => by simp [not_lt.2 (hgs g hg)]
  rw [sumBetween, hnone]
  rfl

/-- Whether the grants of a bucket keep to its rate. -/
structure Sound (rate capacity : ℚ) (u : Usage) : Prop where
  rate_eq : u.limiter.rate = rate
  capacity_eq : u.limiter.capacity = capacity
  updated_le : u.limiter.updated ≤ u.now
  tokens_nonneg : 0 ≤ u.limiter.tokens
  tokens_le : u.limiter.tokens ≤ capacity
  past : ∀ g ∈ u.granted, g.instant ≤ u.now
  /-- What was granted since an instant and what is there now. -/
  since : ∀ s ≤ u.now, u.grantedBetween s u.now + u.limiter.level u.now ≤ capacity + rate * (u.now - s)
  bounded : ∀ s e, s ≤ e → u.grantedBetween s e ≤ capacity + rate * (e - s)

section Steps

variable {rate capacity : ℚ} {u : Usage}

theorem Sound.level_nonneg (h : u.Sound rate capacity) (hrate : 0 < rate) : 0 ≤ u.limiter.level u.now :=
  Limiter.level_nonneg (h.rate_eq ▸ hrate) h.tokens_nonneg
    (h.capacity_eq ▸ h.tokens_nonneg.trans h.tokens_le) h.updated_le

/-- A window that ends now or later. -/
theorem bounded_of_since (hrate : 0 < rate) (hcapacity : 0 ≤ capacity)
    (hpast : ∀ g ∈ u.granted, g.instant ≤ u.now)
    (hsince : ∀ s ≤ u.now, u.grantedBetween s u.now ≤ capacity + rate * (u.now - s)) {s e : ℚ} (hse : s ≤ e)
    (he : u.now ≤ e) : u.grantedBetween s e ≤ capacity + rate * (e - s) := by
  have hgrow : 0 ≤ rate * (e - u.now) := mul_nonneg hrate.le (sub_nonneg.2 he)
  rcases le_total s u.now with hs | hs
  · have hsame : u.grantedBetween s e = u.grantedBetween s u.now := sumBetween_of_le hpast he
    have hwindow := hsince s hs
    rw [hsame]
    linarith
  · have hnone : u.grantedBetween s e = 0 := sumBetween_eq_zero (fun g hg => (hpast g hg).trans hs) e
    have hlength : 0 ≤ rate * (e - s) := mul_nonneg hrate.le (sub_nonneg.2 hse)
    rw [hnone]
    linarith

/-- A grant moves tokens from the bucket to what was granted. -/
theorem Sound.grant (h : u.Sound rate capacity) (hpositive : 0 < rate) {l : Limiter ℚ} {later t : ℚ}
    (hrate : l.rate = rate) (hcapacity : l.capacity = capacity) (hupdated : l.updated = later)
    (hlater : u.now ≤ later) (ht : 0 ≤ t) (htokens : 0 ≤ l.tokens) (hwithin : l.tokens + t ≤ capacity)
    (hinflow : l.tokens + t ≤ u.limiter.level u.now + rate * (later - u.now)) :
    Sound rate capacity ⟨l, later, ⟨later, t⟩ :: u.granted⟩ := by
  have hlevel : l.level later = l.tokens := by
    rw [level, hupdated, sub_self, zero_mul, add_zero, hcapacity, min_eq_right (by linarith)]
  have hpast : ∀ g ∈ (⟨later, t⟩ :: u.granted : List Granted), g.instant ≤ later :=
    List.forall_mem_cons.2 ⟨le_rfl, fun g hg => (h.past g hg).trans hlater⟩
  have hcount : ∀ s e, (if s < later ∧ later ≤ e then t else 0) ≤ t := fun s e => by
    split_ifs <;> linarith
  have hsince : ∀ s ≤ later, sumBetween s later (⟨later, t⟩ :: u.granted) + l.level later ≤
      capacity + rate * (later - s) := by
    intro s hs
    have hnew := hcount s later
    rw [sumBetween_cons, hlevel]
    rcases le_or_gt s u.now with hbefore | hbetween
    · have hsame : sumBetween s later u.granted = u.grantedBetween s u.now :=
        sumBetween_of_le h.past hlater
      have hold := h.since s hbefore
      rw [hsame]
      linarith
    · -- The window begins after all that was granted before, and so it sees this grant alone.
      have hnone : sumBetween s later u.granted = 0 :=
        sumBetween_eq_zero (fun g hg => (h.past g hg).trans hbetween.le) later
      have hlength : 0 ≤ rate * (later - s) := mul_nonneg hpositive.le (sub_nonneg.2 hs)
      rw [hnone]
      linarith
  refine ⟨hrate, hcapacity, hupdated.le, htokens, by linarith, hpast, hsince, fun s e hse => ?_⟩
  rcases le_or_gt later e with he | he
  · refine bounded_of_since (u := ⟨l, later, ⟨later, t⟩ :: u.granted⟩) hpositive (by linarith) hpast
      (fun s hs => ?_) hse he
    have hwindow := hsince s hs
    rw [hlevel] at hwindow
    change sumBetween s later (⟨later, t⟩ :: u.granted) ≤ _
    linarith
  · -- The grant is later than the window.
    have hold := h.bounded s e hse
    change sumBetween s e (⟨later, t⟩ :: u.granted) ≤ _
    rw [sumBetween_cons, if_neg fun hin => absurd hin.2 (not_le.2 he), zero_add]
    exact hold

/-- Looking at the tokens writes down what is there. -/
theorem Sound.look (h : u.Sound rate capacity) (hpositive : 0 < rate) :
    Sound rate capacity { u with limiter := u.limiter.holding u.now (u.limiter.level u.now) } := by
  have hlevel : (u.limiter.holding u.now (u.limiter.level u.now)).level u.now = u.limiter.level u.now := by
    rw [level, holding, sub_self, zero_mul, add_zero, min_eq_right (u.limiter.level_le u.now)]
  refine ⟨h.rate_eq, h.capacity_eq, le_rfl, h.level_nonneg hpositive,
    (u.limiter.level_le u.now).trans_eq h.capacity_eq, h.past, fun s hs => ?_, h.bounded⟩
  rw [hlevel]
  exact h.since s hs

theorem Sound.pass (h : u.Sound rate capacity) (hpositive : 0 < rate) {seconds : ℚ}
    (hseconds : 0 ≤ seconds) : Sound rate capacity { u with now := u.now + seconds } := by
  have hpast : ∀ g ∈ u.granted, g.instant ≤ u.now + seconds := fun g hg =>
    (h.past g hg).trans (by linarith)
  refine ⟨h.rate_eq, h.capacity_eq, h.updated_le.trans (by linarith), h.tokens_nonneg, h.tokens_le, hpast,
    fun s hs => ?_, h.bounded⟩
  have hinflow := level_add_le (h.rate_eq ▸ hpositive) u.now hseconds
  rw [h.rate_eq] at hinflow
  change sumBetween s (u.now + seconds) u.granted + u.limiter.level (u.now + seconds) ≤ _
  rcases le_or_gt s u.now with hbefore | hbetween
  · have hsame : sumBetween s (u.now + seconds) u.granted = u.grantedBetween s u.now :=
      sumBetween_of_le h.past (by linarith)
    have hold := h.since s hbefore
    rw [hsame]
    linarith
  · have hnone : sumBetween s (u.now + seconds) u.granted = 0 :=
      sumBetween_eq_zero (fun g hg => (h.past g hg).trans hbetween.le) _
    have hfull := u.limiter.level_le (u.now + seconds)
    have hlength : 0 ≤ rate * (u.now + seconds - s) := mul_nonneg hpositive.le (sub_nonneg.2 hs)
    rw [h.capacity_eq] at hfull
    rw [hnone]
    linarith

theorem Sound.after (h : u.Sound rate capacity) (hpositive : 0 < rate) {a : Action} (ha : a.IsForward) :
    (u.after a).Sound rate capacity := by
  cases a with
  | look =>
    simp only [Usage.after, refill_eq]
    exact h.look hpositive
  | pass seconds => exact h.pass hpositive ha
  | acquire t =>
    rcases lt_or_ge u.limiter.capacity t with hbeyond | hwithin
    · simp only [Usage.after, acquire_of_beyond hbeyond]
      exact h
    · have hlimit : t ≤ capacity := hwithin.trans_eq h.capacity_eq
      rcases le_or_gt t (u.limiter.level u.now) with henough | hshort
      · simp only [Usage.after, acquire_of_enough henough]
        have hfull := (u.limiter.level_le u.now).trans_eq h.capacity_eq
        exact h.grant hpositive h.rate_eq h.capacity_eq rfl le_rfl ha (sub_nonneg.2 henough)
          (by rw [holding, sub_add_cancel]; exact hfull)
          (by rw [holding, sub_add_cancel, sub_self, mul_zero, add_zero])
      · -- After the wait the bucket is empty: what was there and what flowed in were all granted.
        have hrate : 0 < u.limiter.rate := h.rate_eq ▸ hpositive
        have hwait : 0 ≤ (t - u.limiter.level u.now) / u.limiter.rate :=
          div_nonneg (sub_nonneg.2 hshort.le) hrate.le
        simp only [Usage.after, acquire_of_short hrate hwithin hshort]
        refine h.grant hpositive h.rate_eq h.capacity_eq rfl (by linarith) ha le_rfl
          (by rw [holding, zero_add]; exact hlimit) ?_
        rw [holding, zero_add, add_sub_cancel_left, ← h.rate_eq, mul_div_cancel₀ _ hrate.ne']
        linarith

theorem Sound.afterAll (h : u.Sound rate capacity) (hpositive : 0 < rate) {as : List Action}
    (has : ∀ a ∈ as, a.IsForward) : (u.afterAll as).Sound rate capacity := by
  induction as generalizing u with
  | nil => exact h
  | cons a as ih =>
    obtain ⟨ha, hrest⟩ := List.forall_mem_cons.1 has
    exact ih (h.after hpositive ha) hrest

/-- A full bucket that granted nothing yet. -/
theorem sound_full (hpositive : 0 < rate) (hcapacity : 0 ≤ capacity) (now : ℚ) :
    Sound rate capacity ⟨⟨rate, capacity, capacity, now⟩, now, []⟩ := by
  refine ⟨rfl, rfl, le_rfl, hcapacity, le_rfl, nofun, fun s hs => ?_, fun s e hse => ?_⟩
  · have hlength : 0 ≤ rate * (now - s) := mul_nonneg hpositive.le (sub_nonneg.2 hs)
    have hfull := level_le ⟨rate, capacity, capacity, now⟩ now
    change (0 : ℚ) + _ ≤ _
    linarith
  · have hlength : 0 ≤ rate * (e - s) := mul_nonneg hpositive.le (sub_nonneg.2 hse)
    change (0 : ℚ) ≤ _
    linarith

end Steps

end Usage

/-! ### All uses of a bucket -/

/-- However a bucket is used, it holds no less than nothing and no more than its capacity; in no window of time
does it grant more than a full bucket and what flows in meanwhile; and a request for more than its capacity
is refused and changes nothing, while any other one is granted, after one wait for just the tokens that are
missing, or at once where none are. -/
theorem grants_bounded {rate : ℚ} (hrate : 0 < rate) {capacity : Option ℚ} (hcapacity : ∀ c ∈ capacity, 0 ≤ c)
    (start : ℚ) {as : List Action} (has : ∀ a ∈ as, a.IsForward) :
    ∃ l, full rate capacity start = .ok l ∧ l.rate = rate ∧ l.capacity = capacity.getD (max rate 1) ∧
      let u := Usage.afterAll ⟨l, start, []⟩ as
      (0 ≤ u.limiter.tokens ∧ u.limiter.tokens ≤ l.capacity) ∧
      (∀ s e, s ≤ e → u.grantedBetween s e ≤ l.capacity + rate * (e - s)) ∧
      ∀ t, (l.capacity < t → u.limiter.acquire u.now t = .error (.beyondCapacity t l.capacity) ∧
          u.after (.acquire t) = u) ∧
        (t ≤ l.capacity → ∃ g, u.limiter.acquire u.now t = .ok g ∧
          u.after (.acquire t) = ⟨g.limiter, g.now, ⟨g.now, t⟩ :: u.granted⟩ ∧
          (t ≤ u.limiter.level u.now → g.wait = none ∧ g.now = u.now) ∧
          (u.limiter.level u.now < t →
            g.wait = some ⟨(t - u.limiter.level u.now) / rate, t - u.limiter.level u.now⟩ ∧
            g.now = u.now + (t - u.limiter.level u.now) / rate)) := by
  set size := capacity.getD (max rate 1) with hsize
  have hsize_nonneg : 0 ≤ size := by
    cases capacity with
    | none => exact hrate.le.trans (le_max_left rate 1)
    | some c => exact hcapacity c rfl
  refine ⟨⟨rate, size, size, start⟩, full_eq hrate capacity start, rfl, rfl, ?_⟩
  intro u
  have hsound : u.Sound rate size := (Usage.sound_full hrate hsize_nonneg start).afterAll hrate has
  refine ⟨⟨hsound.tokens_nonneg, hsound.tokens_le⟩, hsound.bounded, fun t => ⟨fun hbeyond => ?_, fun ht => ?_⟩⟩
  · have hrefused := acquire_of_beyond (l := u.limiter) (hsound.capacity_eq ▸ hbeyond) u.now
    rw [hsound.capacity_eq] at hrefused
    exact ⟨hrefused, by simp only [Usage.after, hrefused]⟩
  · rcases le_or_gt t (u.limiter.level u.now) with henough | hshort
    · have hgranted := acquire_of_enough henough
      exact ⟨_, hgranted, by simp only [Usage.after, hgranted], fun _ => ⟨rfl, rfl⟩,
        fun hshort => absurd henough (not_le.2 hshort)⟩
    · have hgranted := acquire_of_short (hsound.rate_eq ▸ hrate) (hsound.capacity_eq ▸ ht) hshort
      rw [hsound.rate_eq] at hgranted
      exact ⟨_, hgranted, by simp only [Usage.after, hgranted],
        fun henough => absurd henough (not_le.2 hshort), fun _ => ⟨rfl, rfl⟩⟩

/-- Two bursts of a full bucket, one right after the other, reach the bound. -/
theorem grants_bounded_of_two_bursts :
    let as : List Action := [.acquire 3, .acquire 4, .acquire 3]
    let u := Usage.afterAll ⟨⟨2, 3, 3, 0⟩, 0, []⟩ as
    (0 : ℚ) < 2 ∧ (∀ c ∈ some (3 : ℚ), 0 ≤ c) ∧ (∀ a ∈ as, a.IsForward) ∧
      u.now = 3 / 2 ∧ u.grantedBetween (-1) (3 / 2) = 6 ∧
      ∀ s ≤ 3 / 2, u.grantedBetween s (3 / 2) ≤ 3 + 2 * (3 / 2 - s) := by
  intro as u
  have hforward : ∀ a ∈ as, a.IsForward := by simp [as, Action.IsForward]
  obtain ⟨l, hfull, -, -, -, hbounded, -⟩ :=
    @grants_bounded 2 (by norm_num) (some 3) (by simp) 0 as hforward
  rw [full_eq (by norm_num)] at hfull
  obtain rfl := Except.ok.inj hfull
  exact ⟨by norm_num, by simp, hforward, by decide +kernel, by decide +kernel, fun s hs => hbounded s _ hs⟩

end Limiter

end Mend
