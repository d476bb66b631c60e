import Mend.Notice

/-!
# Sessions

While a model is consulted, time passes and messages go back and forth. A session holds the state of
the one who is consulted, the clock in seconds, and what was exchanged so far.
-/

namespace Mend

/-- The state of a consultation, the clock, and the exchanges in order. -/
structure Session (σ : Type) where
  state : σ
  clock : Float
  exchanges : List Exchange

namespace Session

variable {σ τ : Type}

/-- A session at an instant, before anything was exchanged. -/
def start (state : σ) (clock : Float) : Session σ := ⟨state, clock, []⟩

/-- The session after an exchange. -/
def emit (s : Session σ) (e : Exchange) : Session σ :=
  { s with exchanges := s.exchanges ++ [e] }

/-- The session after some seconds of sleep. -/
def sleep (s : Session σ) (seconds : Float) : Session σ :=
  { s with clock := s.clock + seconds, exchanges := s.exchanges ++ [.slept (.real seconds)] }

/-- The session with another state. -/
def withState (s : Session σ) (state : τ) : Session τ := ⟨state, s.clock, s.exchanges⟩

@[simp] theorem exchanges_sleep (s : Session σ) (x : Float) :
    (s.sleep x).exchanges = s.exchanges ++ [.slept (.real x)] := rfl

@[simp] theorem state_emit (s : Session σ) (e : Exchange) : (s.emit e).state = s.state := rfl

@[simp] theorem state_sleep (s : Session σ) (x : Float) : (s.sleep x).state = s.state := rfl

end Session

end Mend
