import Mathlib.Data.List.Basic
import Mend.Generator

/-!
# How often a call is repeated

A call is repeated after errors that may pass. What comes between two attempts is a line of the log and a wait, so
that both are counted by the attempts (`Retry.run_eq_call`). A generator that consults a model sends one request
with each attempt, unless the rate limit fails, and only sends another one after a lost connection or a time-out.
-/

namespace Mend

/-! ### Exchanges -/

def Exchange.request? : Exchange → Option ModelRequest
  | .sent request => some request
  | _ => none

def Session.requests {σ : Type} (s : Session σ) : List ModelRequest := s.exchanges.filterMap Exchange.request?

namespace Retry

variable {σ ε α : Type}

/-- Whether a result ends the attempts: a success, or an error that does not pass. -/
def IsFinal (mayPass : ε → Bool) : Except ε α → Prop
  | .ok _ => True
  | .error e => mayPass e = false

/-- The session after some attempts with errors, when the wait for the next attempt is over. -/
def Policy.before (p : Policy) (report : ε → Reported) (call : Session σ → Session σ × Except ε α)
    (s : Session σ) :
    Nat → Session σ
  | 0 => s
  | k + 1 =>
    match call (p.before report call s k) with
    | (s, .ok _) => s
    | (s, .error e) =>
      (s.emit (.retrying (k + 1) (report e).kind (report e).message (p.waitAfter (k + 1)))).sleep
        (p.waitAfter (k + 1))

section

variable {p : Policy} {mayPass : ε → Bool} {report : ε → Reported} {call : Session σ → Session σ × Except ε α}

theorem not_isFinal_iff {result : Except ε α} :
    ¬ IsFinal mayPass result ↔ ∃ e, result = .error e ∧ mayPass e = true := by
  cases result with
  | ok a => simp [IsFinal]
  | error e => simp [IsFinal]

theorem Policy.before_succ {s s1 : Session σ} {k : Nat} {e : ε}
    (h : call (p.before report call s k) = (s1, .error e)) :
    p.before report call s (k + 1) =
      (s1.emit (.retrying (k + 1) (report e).kind (report e).message (p.waitAfter (k + 1)))).sleep
        (p.waitAfter (k + 1)) := by
  simp only [Policy.before, h]

/-- The attempts end with the first one that has a final result, or with the last one. -/
theorem run_eq_call (s : Session σ) (left k : Nat) :
    ∃ n, k ≤ n ∧ n ≤ k + left ∧
      (∀ i, k ≤ i → i < n → ¬ IsFinal mayPass (call (p.before report call s i)).2) ∧
      (n < k + left → IsFinal mayPass (call (p.before report call s n)).2) ∧
      Retry.run p mayPass report call left (k + 1) (p.before report call s k) =
        call (p.before report call s n) := by
  -- on the attempts that are left, where `k` are over
  induction left generalizing k with
  | zero => exact ⟨k, Nat.le_refl k, Nat.le_refl k, by omega, by omega, rfl⟩
  | succ left ih =>
    unfold Retry.run
    cases hcall : call (p.before report call s k) with
    | mk s1 result =>
      cases result with
      | ok a => exact ⟨k, Nat.le_refl k, by omega, by omega, fun _ => by rw [hcall]; trivial, hcall.symm⟩
      | error e =>
        by_cases hpass : mayPass e = true
        · obtain ⟨n, hk, hn, hearlier, hfinal, hrun⟩ := ih (k + 1)
          refine ⟨n, by omega, by omega, fun i hi hlt => ?_, fun hlt => hfinal (by omega), ?_⟩
          · by_cases hik : i = k
            · rw [hik, hcall]
              exact not_isFinal_iff.2 ⟨e, rfl, hpass⟩
            · exact hearlier i (by omega) hlt
          · rw [← hrun, Policy.before_succ hcall]
            simp only [if_pos hpass]
        · refine ⟨k, Nat.le_refl k, by omega, by omega, fun _ => ?_, ?_⟩
          · rw [hcall]
            exact Bool.eq_false_iff.2 hpass
          · simp only [if_neg hpass, hcall]

/-- What each call keeps and what each result satisfies, repeated calls keep and their last result satisfies. -/
theorem Policy.run_invariant {Good : σ → Prop} {Result : Except ε α → Prop}
    (hcall : ∀ s, Good s.state → Good (call s).1.state ∧ Result (call s).2) {s : Session σ} (hs : Good s.state) :
    Good (p.run mayPass report call s).1.state ∧ Result (p.run mayPass report call s).2 := by
  have hbefore : ∀ n, Good (p.before report call s n).state := by
    intro n
    induction n with
    | zero => exact hs
    | succ n ih =>
      have hone := (hcall _ ih).1
      unfold Policy.before
      split
      · next hcall => rwa [hcall] at hone
      · next hcall => rwa [hcall] at hone
  obtain ⟨n, -, -, -, -, hrun⟩ := @run_eq_call σ ε α p mayPass report call s (p.maxAttempts - 1).toNat 0
  have hlast : p.run mayPass report call s = call (p.before report call s n) := hrun
  rw [hlast]
  exact hcall _ (hbefore n)

end

/-! ### Scripts -/

/-- The call that counts how often it is made, and gives the result that a script has for that time. -/
def scripted (script : Nat → Except ε α) (s : Session Nat) : Session Nat × Except ε α :=
  (s.withState (s.state + 1), script (s.state + 1))

end Retry

/-! ### Requests to a model -/

/-- The state of a model after some requests, all of them the same. -/
def Model.after {σ : Type} (model : Model σ) (request : ModelRequest) (m : σ) : Nat → σ
  | 0 => m
  | n + 1 => (model.send (model.after request m n) request).1

namespace Generator

variable {σ : Type} {model : Model σ} {request : ModelRequest}

theorem state_foldl_emit (es : List Exchange) (s : Session σ) :
    (es.foldl Session.emit s).state = s.state := by
  induction es generalizing s with
  | nil => rfl
  | cons e es ih => rw [List.foldl_cons, ih, Session.state_emit]

theorem state_awaitTurn (s : Session (ModelState σ)) : (awaitTurn s).1.state.2 = s.state.2 := by
  unfold awaitTurn
  split
  · rfl
  · simp only
    split
    · rfl
    · split <;> rfl

end Generator

end Mend
