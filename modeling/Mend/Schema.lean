import Mend.Number.Power
import Mend.Path
import Mend.Schema.Issue
import Mend.Schema.Numeral
import Mend.Text.Utf8

/-!
# Schemas

A reader turns a datum into a value of its type or lists all issues that it has with it. Readers for
numbers, truth values and paths also take texts that denote such a value. The reader of a record
joins the readers of its members, in their order; members that no reader asks for are ignored.
-/

namespace Mend.Schema

/-- A value, or all issues with the datum it was to be read from. -/
def Checked (α : Type) : Type := Except (List Issue) α

/-- A way to read values of a type from data. -/
abbrev Reader (α : Type) : Type := Datum → Checked α

namespace Checked

variable {α β : Type}

/-- A value without issues. -/
def ok (a : α) : Checked α := Except.ok a

/-- A single issue with the datum itself. -/
def fail (d : Datum) (f : Fault) : Checked α := Except.error [⟨[], f, d⟩]

/-- A function and its argument, or the issues of both. -/
def apply (f : Checked (α → β)) (x : Checked α) : Checked β :=
  match f, x with
  | .ok f, .ok a => .ok (f a)
  | .error e, .ok _ => .error e
  | .ok _, .error e => .error e
  | .error e, .error e' => .error (e ++ e')

/-- The value that a datum was read as, after a test that may find fault with it. -/
def test (d : Datum) (x : Checked α) (fault? : α → Option Fault) : Checked α :=
  match x with
  | .ok a =>
    match fault? a with
    | none => .ok a
    | some f => fail d f
  | .error e => .error e

/-- The value under a function. -/
def map (f : α → β) (x : Checked α) : Checked β :=
  match x with
  | .ok a => .ok (f a)
  | .error e => .error e

/-- The same, with the issues one step further away. -/
def under (s : Step) (x : Checked α) : Checked α :=
  match x with
  | .ok a => .ok a
  | .error e => .error (e.map fun i => { i with place := s :: i.place })

end Checked

/-! ### Texts -/

/-- A value that is read from the text of a datum, if it has one, and else in another way. Bytes have the
text that they encode; those that encode none are at fault, and so is a text that no bytes encode. -/
def fromText {α : Type} (ofText : Text → Checked α) (undecoded : Fault) (other : Reader α) :
    Reader α := fun d =>
  match d with
  | .text t => if Utf8.Encodable t then ofText t else .fail d .brokenText
  | .bytes bs =>
    match Utf8.decode ⟨bs.toArray⟩ with
    | .ok t => ofText t
    | .error _ => .fail d undecoded
  | d => other d

/-- A text, of any code points. -/
def text : Reader Text
  | .text t => .ok t
  | d => fromText .ok .brokenText (fun d => .fail d .notText) d

/-- A text of bounded length. -/
def textOfLength (least most : Nat) : Reader Text := fun d =>
  Checked.test d (fromText .ok .brokenText (fun d => .fail d .notText) d) fun t =>
    if t.length < least then some (.textTooShort least)
    else if most < t.length then some (.textTooLong most)
    else none

/-- One of some texts. -/
def choice (choices : List Text) : Reader Text := fun d =>
  match d with
  | .text t =>
    if !Utf8.Encodable t then .fail d .brokenText
    else if choices.elem t then .ok t
    else .fail d (.notAChoice choices)
  | d => .fail d (.notAChoice choices)

/-- One of some named values. -/
def named {α : Type} (names : List (Text × α)) : Reader α := fun d =>
  let fault : Fault := .notAName (names.map (·.1))
  fromText (fun t =>
    match names.lookup t with
    | some a => .ok a
    | none => .fail d fault) fault (fun d => .fail d fault) d

/-- A path. -/
def path : Reader Path
  | .text t => .ok (.ofText t)
  | d => .fail d .notPath

/-! ### Numbers and truth values -/

/-- The integer of a number without a fraction or of a truth value. Only integers may have any size. -/
def integerOfNumber : Reader Int := fun d =>
  match d with
  | .int n => .ok n
  | .bool b => .ok (if b then 1 else 0)
  | .float x =>
    match Number.truncate? x with
    | none => .fail d .notFinite
    | some n =>
      if !Number.isIntegral x then .fail d .fractional
      else if n.natAbs < Number.twoTo 63 then .ok n
      else .fail d .integerTooLong
  | d => .fail d .notInteger

/-- An integer. Truth values, numbers without a fraction and texts may stand for one. -/
def integer : Reader Int := fun d =>
  fromText (fun t =>
    match Numeral.integer t with
    | .ok n => .ok n
    | .error .unreadable => .fail d .unreadableInteger
    | .error .tooLong => .fail d .integerTooLong) .unreadableInteger integerOfNumber d

/-- An integer between bounds. -/
def integerBetween (least : Int) (most : Option Int) : Reader Int := fun d =>
  Checked.test d (integer d) fun n =>
    if most.any (· < n) then some (.notAtMost (Text.ofInt (most.getD 0)))
    else if n < least then some (.notAtLeast (Text.ofInt least))
    else none

/-- The number of a number or of a truth value. -/
def numberOfNumber : Reader Float
  | .float x => .ok x
  | .int n =>
    match Number.ofInt? n with
    | some x => .ok x
    | none => .fail (.int n) .notNumber
  | .bool b => .ok (if b then 1.0 else 0.0)
  | d => .fail d .notNumber

/-- A number. Truth values and texts may stand for one. -/
def number : Reader Float := fun d =>
  fromText (fun t =>
    match Numeral.number? t with
    | some x => .ok x
    | none => .fail d .unreadableNumber) .unreadableNumber numberOfNumber d

/-- The numeral of a bound, without a fraction where it has none. -/
def boundText (x : Float) : Text :=
  match Number.truncate? x with
  | some n => if Number.isIntegral x then Text.ofInt n else Number.floatText x
  | none => Number.floatText x

/-- A number between bounds. -/
def numberBetween (least most : Float) : Reader Float := fun d =>
  Checked.test d (number d) fun x =>
    if !(x ≤ most) then some (.notAtMost (boundText most))
    else if !(least ≤ x) then some (.notAtLeast (boundText least))
    else none

/-- A number above a bound. -/
def numberAbove (bound : Float) : Reader Float := fun d =>
  Checked.test d (number d) fun x => if !(bound < x) then some (.notAbove (boundText bound)) else none

/-- The words for the truth values. -/
def truthWords : List (Text × Bool) :=
  [("true", true), ("t", true), ("yes", true), ("y", true), ("on", true), ("1", true),
    ("false", false), ("f", false), ("no", false), ("n", false), ("off", false), ("0", false)]

/-- The truth value of the integers zero and one. -/
def truthOf (d : Datum) (n : Int) : Checked Bool :=
  if n = 0 then .ok false else if n = 1 then .ok true else .fail d .unreadableTruthValue

/-- The truth value of a truth value or of a number. Numbers beyond 64 bits are not even compared. -/
def truthOfNumber : Reader Bool := fun d =>
  match d with
  | .bool b => .ok b
  | .int n => if -(Number.twoTo 63 : Int) ≤ n && n < Number.twoTo 63 then truthOf d n else .fail d .notTruthValue
  | .float x =>
    match Number.truncate? x with
    | some n =>
      if Number.isIntegral x && n.natAbs < Number.twoTo 63 then truthOf d n else .fail d .notTruthValue
    | none => .fail d .notTruthValue
  | d => .fail d .notTruthValue

/-- A truth value. The numbers zero and one and some words may stand for one. -/
def truthValue : Reader Bool := fun d =>
  fromText (fun t =>
    match truthWords.lookup (Text.lowerAscii t) with
    | some b => .ok b
    | none => .fail d .unreadableTruthValue) .unreadableTruthValue truthOfNumber d

/-! ### Lists and records -/

variable {α : Type}

/-- The items of a list from an index on, or the issues of all items. -/
def itemsFrom (r : Reader α) (index : Nat) : List Datum → Checked (List α)
  | [] => .ok []
  | d :: ds =>
    (((r d).under (.item index)).map List.cons).apply (itemsFrom r (index + 1) ds)

/-- A list; a set may stand for one. -/
def list (r : Reader α) : Reader (List α) := fun d =>
  match d.opened with
  | .list ds => itemsFrom r 0 ds
  | .set as => itemsFrom r 0 (as.map .atom)
  | _ => .fail d .notList

/-- A list of bounded length. The items of a longer one do not matter. -/
def listOfLength (most : Nat) (r : Reader α) : Reader (List α) := fun d =>
  match d.opened with
  | .list ds => if most < ds.length then .fail d (.listTooLong most) else itemsFrom r 0 ds
  | _ => .fail d .notList

/-- A value that may be missing. -/
def orNull (r : Reader α) : Reader (Option α)
  | .null => .ok none
  | d => (r d).map some

/-- A record that is read: the datum, and its members. -/
structure Members where
  whole : Datum
  fields : Fields

/-- A record that consists of some members. -/
def Members.ofFields (fs : Fields) : Members := ⟨.record fs, fs⟩

/-- A member that must be there. -/
def required (name : Text) (r : Reader α) (ms : Members) : Checked α :=
  (match Datum.member? name ms.fields with
    | some d => r d
    | none => .fail ms.whole .missing).under (.member name)

/-- A member that may be left out. -/
def optional (name : Text) (default : α) (r : Reader α) (ms : Members) : Checked α :=
  match Datum.member? name ms.fields with
  | some d => (r d).under (.member name)
  | none => .ok default

/-- A member with two names that may be left out; its first name counts before the second. -/
def optionalNamed (name second : Text) (default : α) (r : Reader α) (ms : Members) :
    Checked α :=
  if (Datum.member? name ms.fields).isSome then optional name default r ms
  else optional second default r ms

/-- A record, read from its members. -/
def record (model : Text) (r : Members → Checked α) : Reader α := fun d =>
  match d.opened with
  | .record fs => r ⟨d, fs⟩
  | _ => .fail d (.notRecord model)

end Mend.Schema
