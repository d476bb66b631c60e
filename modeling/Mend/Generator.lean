import Mend.Limiter
import Mend.Prompt
import Mend.Response
import Mend.Retry
import Mend.Settings
import Mend.Workspace

/-!
# Fix generators

A generator proposes patches for a question or fails. The one that is made from a model sends a
prompt, no more often than a rate limit allows, repeats it after lost connections and time-outs, and
reads the patches from the response.
-/

namespace Mend

open Number (Quantity)

/-! ### Failures -/

/-- Why a generator proposes nothing. -/
inductive GeneratorFault
  | failed (message : Text)
  | rateLimited (message : Text) (retryAfter : Option Int)
  | timedOut (message : Text)
  /-- The response holds JSON beyond what can be read. -/
  | unreadable (e : Json.ReadError)
  | limiter (e : LimiterError Quantity)
  | unexpected (message : Text)
  | interrupted

namespace GeneratorFault

/-- The text of a failure. -/
def message : GeneratorFault → Text
  | failed m => m
  | rateLimited m _ => m
  | timedOut m => m
  | unreadable e => e.message
  | limiter e => e.message
  | unexpected m => m
  | interrupted => []

/-- The kind of a failure, as the log names it. -/
def kind : GeneratorFault → Text
  | failed _ => "GeneratorError"
  | rateLimited _ _ => "RateLimitError"
  | timedOut _ => "GeneratorTimeoutError"
  | unreadable (.numeral _) => "ValueError"
  | unreadable (.malformed _ _) => "JSONDecodeError"
  | unreadable _ => "RecursionError"
  | limiter (.overflow _) => "OverflowError"
  | limiter _ => "ValueError"
  | unexpected _ => "RuntimeError"
  | interrupted => "KeyboardInterrupt"

end GeneratorFault

/-- A generator with a state: the name of its model, and its answer to a question. -/
structure Generator (σ : Type) where
  modelName : Text
  propose : Question → Session σ → Session σ × Except GeneratorFault (List Patch)

/-! ### Models -/

/-- Why a model does not respond. -/
inductive ModelError
  | rateLimited (message : Text) (retryAfter : Option Text)
  | timedOut (message : Text)
  | disconnected (message : Text)
  | refused (message : Text)
  | unexpected (message : Text)
  | interrupted
  deriving DecidableEq, Repr

/-- A model with a state: its answer to a request are the texts of the response. -/
structure Model (σ : Type) where
  send : σ → ModelRequest → σ × Except ModelError (List Text)

namespace ModelError

/-- Whether a request is repeated after an error: only when it did not get through. -/
def mayPass : ModelError → Bool
  | timedOut _ => true
  | disconnected _ => true
  | _ => false

/-- How an error is reported when its request is repeated. -/
def report : ModelError → Retry.Reported
  | rateLimited m _ => ⟨"RateLimitError", m⟩
  | timedOut m => ⟨"APITimeoutError", m⟩
  | disconnected m => ⟨"APIConnectionError", m⟩
  | refused m => ⟨"InternalServerError", m⟩
  | unexpected m => ⟨"RuntimeError", m⟩
  | interrupted => ⟨"KeyboardInterrupt", []⟩

end ModelError

namespace Generator

variable {σ : Type}

/-- The state of a generator that is made from a model: its rate limit and the state of the model. -/
abbrev ModelState (σ : Type) : Type := Limiter Quantity × σ

/-- Why an attempt to reach a model fails. -/
inductive AttemptError
  | limiter (e : LimiterError Quantity)
  | model (e : ModelError)

/-- Whether an attempt is repeated. -/
def AttemptError.mayPass : AttemptError → Bool
  | limiter _ => false
  | model e => e.mayPass

/-- How a failed attempt is reported. -/
def AttemptError.report : AttemptError → Retry.Reported
  | limiter e => ⟨"ValueError", e.message⟩
  | model e => e.report

/-- Waits until the rate limit lets a request pass. -/
def awaitTurn (s : Session (ModelState σ)) :
    Session (ModelState σ) × Except (LimiterError Quantity) Unit :=
  match s.state.1.acquire (.real s.clock) (.real 1.0) with
  | .error e => (s, .error e)
  | .ok g =>
    let s := s.withState (g.limiter, s.state.2)
    match g.wait with
    | none => (s, .ok ())
    | some w =>
      let s := s.emit (.waitingForTokens w.seconds w.deficit)
      match w.seconds.toReal with
      | .ok seconds => (s.sleep seconds, .ok ())
      | .error o => (s, .error (.overflow o))

/-- One attempt to get a response: the text of the response. -/
def attempt (model : Model σ) (request : ModelRequest) (s : Session (ModelState σ)) :
    Session (ModelState σ) × Except AttemptError Text :=
  match awaitTurn s with
  | (s, .error e) => (s, .error (.limiter e))
  | (s, .ok ()) =>
    let s := s.emit (.sent request)
    match model.send s.state.2 request with
    | (m, .ok texts) => (s.withState (s.state.1, m), .ok texts.flatten)
    | (m, .error e) => (s.withState (s.state.1, m), .error (.model e))

/-- The whole seconds of a time that a service asks to wait, if it is a number. -/
def wholeSeconds? (t : Text) : Option Int :=
  ((Number.readLenientFloat t).bind Number.ceil?).map (max 0 ·)

/-- The failure that follows from the last attempt, with what is reported. -/
def failureOf : AttemptError → List Exchange × GeneratorFault
  | .limiter e => ([], .limiter e)
  | .model (.rateLimited m after) =>
    let seconds := after.bind wholeSeconds?
    ([.rateLimited m seconds], .rateLimited ("Anthropic rate limit exceeded: " ++ m) seconds)
  | .model (.timedOut m) => ([.timedOut m], .timedOut ("Anthropic request timed out: " ++ m))
  | .model (.disconnected m) => ([.refused m], .failed ("Anthropic API error: " ++ m))
  | .model (.refused m) => ([.refused m], .failed ("Anthropic API error: " ++ m))
  | .model (.unexpected m) => ([], .unexpected m)
  | .model .interrupted => ([], .interrupted)

/-- The greatest length of a response that is read. -/
def maxResponseSize : Nat := 50000

/-- The patches of a response, with what is reported. -/
def patchesOf (depth : Nat) (response : Text) :
    List Exchange × Except GeneratorFault (List Patch) :=
  if maxResponseSize < response.length then
    ([], .error (.failed
      ("Response exceeds maximum length: " ++ Text.ofNat response.length)))
  else
    match Response.read depth response with
    | .error e => ([], .error (.unreadable e))
    | .ok (e, .nothing reason) => ([e, .discarded reason], .ok [])
    | .ok (e, r) => ([e], .ok r.patches)

/-- The policy by which requests are repeated. -/
def policyOf (r : Settings.Retry) : Retry.Policy := ⟨r.maxAttempts, r.initialDelay, r.maxDelay⟩

/-- The request for a question. -/
def requestOf (settings : Settings.Model) (q : Question) : ModelRequest :=
  ⟨settings.model, settings.maxTokens, settings.temperature, Prompt.system,
    Prompt.user q.message q.context q.docs settings.maxDocChars⟩

/-- The generator that consults a model, in a process that reads JSON up to some depth. -/
def ofModel (settings : Settings.Model) (retry : Settings.Retry) (depth : Nat) (model : Model σ) :
    Generator (ModelState σ) where
  modelName := settings.model
  propose q s :=
    let request := requestOf settings q
    let s := s.emit (.prepared settings.model request.prompt.length)
    match (policyOf retry).run AttemptError.mayPass AttemptError.report (attempt model request) s with
    | (s, .error e) =>
      let (es, fault) := failureOf e
      (es.foldl Session.emit s, .error fault)
    | (s, .ok response) =>
      let (es, result) := patchesOf depth response
      (es.foldl Session.emit s, result)

/-- The state of such a generator at the beginning. -/
def startState (settings : Settings.Model) (clock : Float) (model : σ) :
    Except (LimiterError Quantity) (ModelState σ) :=
  match Limiter.full (.real (settings.requestsPerMinute / 60.0)) none (.real clock) with
  | .ok l => .ok (l, model)
  | .error e => .error e

end Generator

end Mend
