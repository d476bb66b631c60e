import Mend.Number.Quantity

/-!
# Rate limits

A bucket of tokens limits how often something is done. It fills at a fixed rate up to its capacity;
whoever takes tokens that are not there waits until they would have flowed in.

The rules use exact comparisons and the four operations only, so that they can be read over any
numbers that have them.
-/

namespace Mend

open Number (Arithmetic Overflow Quantity)

/-- A bucket of tokens as it was at an instant. -/
structure Limiter (α : Type) where
  rate : α
  capacity : α
  tokens : α
  updated : α

/-- Why a bucket cannot be made or tokens cannot be taken. -/
inductive LimiterError (α : Type)
  | rateNotPositive
  | beyondCapacity (tokens capacity : α)
  | overflow (o : Overflow)

/-- The text of the error. -/
def LimiterError.message : LimiterError Quantity → Text
  | .rateNotPositive => "rate must be positive"
  | .beyondCapacity tokens capacity =>
    "Cannot acquire " ++ tokens.text ++ " tokens; capacity is " ++ capacity.text
  | .overflow o => o.message

namespace Limiter

variable {α : Type} [Arithmetic α]

open Number.Arithmetic (zero one add sub mul div less least greatest)

/-- A full bucket. Without a capacity it holds what flows in during a second, but at least one. -/
def full (rate : α) (capacity : Option α) (now : α) : Except (LimiterError α) (Limiter α) :=
  if less zero rate then
    let capacity := capacity.getD (greatest rate one)
    .ok ⟨rate, capacity, capacity, now⟩
  else .error .rateNotPositive

/-- The bucket at a later instant. -/
def refill (l : Limiter α) (now : α) : Except Overflow (Limiter α) := do
  let elapsed ← sub now l.updated
  let inflow ← mul elapsed l.rate
  let tokens ← add l.tokens inflow
  return { l with tokens := least l.capacity tokens, updated := now }

/-- A wait for missing tokens. -/
structure Wait (α : Type) where
  seconds : α
  deficit : α

/-- Tokens that were taken: the bucket afterwards, the instant, and the wait if there was one. -/
structure Grant (α : Type) where
  limiter : Limiter α
  now : α
  wait : Option (Wait α)

/-- Takes tokens from a bucket that was just refilled, after a wait if some are missing. -/
def take (l : Limiter α) (now t : α) : Except Overflow (Grant α) := do
  if less l.tokens t then
    let deficit ← sub t l.tokens
    let seconds ← div deficit l.rate
    let later ← add now seconds
    let l ← l.refill later
    let rest ← sub l.tokens t
    return ⟨{ l with tokens := rest }, later, some ⟨seconds, deficit⟩⟩
  else
    let rest ← sub l.tokens t
    return ⟨{ l with tokens := rest }, now, none⟩

/-- Takes tokens at an instant. More than the capacity can never be taken. -/
def acquire (l : Limiter α) (now t : α) : Except (LimiterError α) (Grant α) :=
  if less l.capacity t then .error (.beyondCapacity t l.capacity)
  else
    match l.refill now with
    | .error o => .error (.overflow o)
    | .ok l => (l.take now t).mapError .overflow

end Limiter

end Mend
