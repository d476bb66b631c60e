import Mend.FileTree
import Mend.Metrics
import Mend.Notice

/-!
# Workspaces

A run works on a workspace: the files, the clock, and a journal of all that happened, in order.
Log lines, counted amounts, durations, questions to the generator and waits are all events of the
journal; the log and the metrics are read off it.
-/

namespace Mend

open Metrics (CounterName Timing Labels)

/-- What is put to the fix generator: a message, the code around it and documentation. -/
structure Question where
  message : Text
  context : Text
  docs : Text
  deriving DecidableEq, Repr

/-- Something that happened during a run. -/
inductive Event
  | notice (n : Notice)
  | counted (counter : CounterName) (labels : Labels) (amount : Nat)
  | timed (timing : Timing) (seconds : Float)
  | asked (question : Question)
  | exchange (e : Exchange)

/-- The line of the log for an event that has one. -/
def Event.entry? : Event → Option LogEntry
  | .notice n => some n.entry
  | .exchange e => e.entry?
  | _ => none

/-- The registry after an event. -/
def Metrics.Registry.after {α : Type} [Metrics.Tally α] (r : Metrics.Registry α) :
    Event → Metrics.Registry α
  | .counted counter labels amount => (r.inc counter (Metrics.Tally.ofNat amount) labels).1
  | .timed timing seconds => r.observe timing (.real seconds)
  | _ => r

/-- The files, the clock in seconds, and what happened so far. -/
structure Workspace where
  files : FileTree
  clock : Float
  journal : List Event

namespace Workspace

/-- A workspace with these files in which nothing happened yet. -/
def start (files : FileTree) : Workspace := ⟨files, 0.0, []⟩

/-- The workspace after an event. -/
def record (w : Workspace) (e : Event) : Workspace := { w with journal := w.journal ++ [e] }

/-- The workspace after a notice. -/
def note (w : Workspace) (n : Notice) : Workspace := w.record (.notice n)

/-- The workspace after some notices. -/
def noteAll (w : Workspace) (ns : List Notice) : Workspace :=
  { w with journal := w.journal ++ ns.map .notice }

/-- The workspace after an amount was counted. -/
def count (w : Workspace) (c : CounterName) (labels : Labels) (amount : Nat) : Workspace :=
  w.record (.counted c labels amount)

/-- The log: a line for each event that has one. -/
def log (w : Workspace) : List LogEntry := w.journal.filterMap Event.entry?

/-- The metrics of all that happened, added up in some numbers. -/
def metricsIn (α : Type) [Metrics.Tally α] (w : Workspace) : Metrics.Registry α :=
  w.journal.foldl Metrics.Registry.after .empty

/-- The metrics of all that happened. -/
def metrics (w : Workspace) : Metrics.Registry Number.Quantity := w.metricsIn Number.Quantity

@[simp] theorem files_record (w : Workspace) (e : Event) : (w.record e).files = w.files := rfl

@[simp] theorem files_note (w : Workspace) (n : Notice) : (w.note n).files = w.files := rfl

@[simp] theorem files_noteAll (w : Workspace) (ns : List Notice) :
    (w.noteAll ns).files = w.files := rfl

@[simp] theorem files_count (w : Workspace) (c : CounterName) (labels : Labels) (n : Nat) :
    (w.count c labels n).files = w.files := rfl

@[simp] theorem journal_record (w : Workspace) (e : Event) :
    (w.record e).journal = w.journal ++ [e] := rfl

@[simp] theorem journal_note (w : Workspace) (n : Notice) :
    (w.note n).journal = w.journal ++ [.notice n] := rfl

@[simp] theorem journal_noteAll (w : Workspace) (ns : List Notice) :
    (w.noteAll ns).journal = w.journal ++ ns.map .notice := rfl

@[simp] theorem journal_count (w : Workspace) (c : CounterName) (labels : Labels) (n : Nat) :
    (w.count c labels n).journal = w.journal ++ [.counted c labels n] := rfl

end Workspace

end Mend
