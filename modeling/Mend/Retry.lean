import Mend.Session

/-!
# Retries

A failing call is repeated as long as its error is one that may pass and attempts are left. The wait
between two attempts doubles each time, within bounds. What the last attempt gave is the result.
-/

namespace Mend.Retry

/-- How often a call is attempted, and the bounds of the waits in seconds. A call is attempted at
least once. -/
structure Policy where
  maxAttempts : Int
  minWait : Float
  maxWait : Float

/-- How an error is reported when its call is repeated: its kind and its text. -/
structure Reported where
  kind : Text
  message : Text
  deriving DecidableEq, Repr

/-- The greatest power of two that is a floating-point number. -/
def maxDoublings : Nat := 1023

/-- The wait after an attempt, counted from one: a power of two between the bounds. -/
def Policy.waitAfter (p : Policy) (attempt : Nat) : Float :=
  let doublings := attempt - 1
  let doubled := Number.ofScientific false (Number.twoTo (min doublings maxDoublings)) 0
  let bounded := if maxDoublings < doublings || p.maxWait < doubled then p.maxWait else doubled
  let least := if 0.0 < p.minWait then p.minWait else 0.0
  if least < bounded then bounded else least

variable {σ ε α : Type}

/-- Calls until the result is final, where `left` more attempts may follow this one. -/
def run (p : Policy) (mayPass : ε → Bool) (report : ε → Reported)
    (call : Session σ → Session σ × Except ε α) :
    (left attempt : Nat) → Session σ → Session σ × Except ε α
  | 0, _, s => call s
  | left + 1, attempt, s =>
    match call s with
    | (s, .ok a) => (s, .ok a)
    | (s, .error e) =>
      if mayPass e then
        let wait := p.waitAfter attempt
        let s := s.emit (.retrying attempt (report e).kind (report e).message wait)
        run p mayPass report call left (attempt + 1) (s.sleep wait)
      else (s, .error e)

/-- Calls until the result is final. -/
def Policy.run (p : Policy) (mayPass : ε → Bool) (report : ε → Reported)
    (call : Session σ → Session σ × Except ε α) (s : Session σ) : Session σ × Except ε α :=
  Retry.run p mayPass report call (p.maxAttempts - 1).toNat 1 s

end Mend.Retry
