import Mend.Yaml.Node
import Mend.Yaml.SetOrder

/-!
# Documents

The value of a document is built from its nodes. A mapping takes the members of the mappings that it
merges before its own, and of two members with one key the last counts. If several nodes have no value,
the error is about the one with the fewest collections around it, and of these the first. A node that
stands in several places has one value, and a collection that stands in itself has a label.
-/

namespace Mend.Yaml

namespace Node

/-- The error with a value, at a node. -/
def badValue {α : Type} (context : Option Context) (p : Problem) (n : Node) : Except Error α :=
  .error (.marked .value context p n.start)

/-- The node itself, in a place where it stands in itself. -/
def resolved (t : Anchored) : Node → Node
  | enclosing l m => (t.lookup l).getD (enclosing l m)
  | n => n

/-- The tag of a node. -/
def tag : Node → Tag
  | scalar t _ _ => t
  | sequence t _ _ => t
  | mapping t _ _ => t
  | enclosing _ _ => .mapping

/-! ### Merging -/

/-- Whether a node is the key that merges another mapping. -/
def isMergeKey (n : Node) : Bool := n.tag = Tag.merge

/-- The context of a problem with a mapping. -/
def inMapping (start : Mark) : Option Context := some ⟨"while constructing a mapping", some start⟩

/-- The members of a mapping: first those that are merged, of which those of the first mapping in a list
come last, and then its own. A mapping that is merged while its own members are collected gives those
that it does not merge. -/
def members (t : Anchored) : Nat → (around : List Label) → Mark → List (Node × Node) →
    Except Error (List (Node × Node))
  | 0, _, _, _ => .ok []
  | fuel + 1, around, start, ms => do
    let own (ms : List (Node × Node)) := ms.filter fun (key, _) => !key.isMergeKey
    let ofMapping (m : Mark) (ms : List (Node × Node)) : Except Error (List (Node × Node)) :=
      if around.elem (labelAt true m) then .ok (own ms)
      else members t fuel (labelAt true m :: around) m ms
    let ofItem (n : Node) : Except Error (List (Node × Node)) :=
      match n.resolved t with
      | .mapping _ ms m => ofMapping m ms
      | n => badValue (inMapping start) (.expectedNode "a mapping for merging" n.form) n
    let merged ← (ms.filter fun (key, _) => key.isMergeKey).mapM fun (_, value) =>
      match value.resolved t with
      | .mapping _ ms m => ofMapping m ms
      | .sequence _ items _ => do return (← items.mapM ofItem).reverse.flatten
      | n => badValue (inMapping start)
          (.expectedNode "a mapping or list of mappings for merging" n.form) n
    return merged.flatten ++ own ms

/-! ### Scalars -/

/-- The tag of a node, where the signs for the value of a mapping in some places are texts like others. -/
def tagAmong (texts : List Label) (n : Node) : Tag :=
  if n.tag = Tag.value && texts.elem n.label then .text else n.tag

mutual

/-- The text of a scalar. A mapping with the sign for its value stands for that value. -/
def scalarText (texts : List Label) : Node → Except Error Text
  | .scalar _ t _ => .ok t
  | .mapping tag ms m =>
    (valueText? texts ms).getD
      (badValue none (.expectedNode "a scalar node" "mapping") (.mapping tag ms m))
  | .enclosing _ _ => .error .tooDeep
  | n => badValue none (.expectedNode "a scalar node" n.form) n

/-- The text of the value of a mapping, if it has the sign for one. -/
def valueText? (texts : List Label) : List (Node × Node) → Option (Except Error Text)
  | [] => none
  | (key, value) :: ms =>
    if key.tagAmong texts = Tag.value then some (scalarText texts value) else valueText? texts ms

end

/-- The value of a node that is no collection. -/
def atom (texts : List Label) (n : Node) : Except Error Atom := do
  let t ← scalarText texts n
  match n.tagAmong texts, n with
  | .timestamp, .mapping _ _ _ => .error (.scalar .noTimeText)
  | tag, n =>
    match Scalar.value tag t with
    | .ok a => .ok a
    | .error (.binary e) => badValue none (.binary e) n
    | .error e => .error (.scalar e)

/-! ### Errors -/

/-- Whether a node is a collection, which is looked into later; anything else must have a value. -/
def isCollection (t : Anchored) (texts : List Label) (n : Node) : Except Error Bool :=
  let n := n.resolved t
  match n.tagAmong texts with
  | .other name => badValue none (.unknownTag name) n
  | tag => if tag.isCollection then .ok true else (n.atom texts).map fun _ => false

/-- The collections among some nodes, if the others have values. -/
def collections (t : Anchored) (texts : List Label) : List Node → Except Error (List Node)
  | [] => .ok []
  | n :: ns => do
    let c ← n.isCollection t texts
    let rest ← collections t texts ns
    return if c then n :: rest else rest

/-- The collections among the values of some members, whose keys must be scalars. -/
def memberCollections (t : Anchored) (texts : List Label) (start : Mark) :
    List (Node × Node) → Except Error (List Node)
  | [] => .ok []
  | (key, value) :: ms => do
    if ← key.isCollection t texts then badValue (inMapping start) .keyNotScalar (key.resolved t)
    else
      let c ← value.isCollection t texts
      let rest ← memberCollections t texts start ms
      return if c then value :: rest else rest

/-- The collections among the keys and values of the mappings in a list, each of one member. -/
def pairCollections (t : Anchored) (texts : List Label) (context : Option Context) :
    List Node → Except Error (List Node)
  | [] => .ok []
  | n :: ns =>
    match n.resolved t with
    | .mapping _ [(key, value)] _ => do
      let some ← collections t texts [key, value]
      return some ++ (← pairCollections t texts context ns)
    | .mapping tag members m =>
      badValue context (.severalMembers members.length) (.mapping tag members m)
    | n => badValue context (.expectedNode "a mapping of length 1" n.form) n

/-- The state of looking for errors: the places where the sign for the value of a mapping is a text, which
it becomes once it is a key, and the nodes with an anchor that were looked into. -/
structure Progress where
  texts : List Label
  seen : List Label

/-- The collections inside a collection. -/
def inner (t : Anchored) (fuel : Nat) (p : Progress) (n : Node) :
    Except Error (Progress × List Node) :=
  let ofPairs (context : Text) : Except Error (Progress × List Node) :=
    let context : Option Context := some ⟨context, some n.start⟩
    match n with
    | .sequence _ items _ => do return (p, ← pairCollections t p.texts context items)
    | n => badValue context (.expectedNode "a sequence" n.form) n
  match n.tag, n with
  | _, .enclosing _ _ => .ok (p, [])
  | .list, .sequence _ items _ => do return (p, ← collections t p.texts items)
  | .list, n => badValue none (.expectedNode "a sequence node" n.form) n
  | .orderedMapping, _ => ofPairs "while constructing an ordered map"
  | .pairs, _ => ofPairs "while constructing pairs"
  | _, .mapping _ ms m => do
    let ms ← members t fuel [labelAt true m] m ms
    let signs := (ms.filter fun (key, _) => key.tag = Tag.value).map fun (key, _) => key.label
    let p := { p with texts := signs ++ p.texts }
    return (p, ← memberCollections t p.texts m ms)
  | _, n => badValue none (.expectedNode "a mapping node" n.form) n

/-- Looks into some collections, except for those that were looked into, and gives those inside them. -/
def innerOfAll (t : Anchored) (fuel : Nat) (p : Progress) :
    List Node → Except Error (Progress × List Node)
  | [] => .ok (p, [])
  | n :: ns =>
    if p.seen.elem n.label then innerOfAll t fuel p ns
    else do
      let p := if (t.lookup n.label).isSome then { p with seen := n.label :: p.seen } else p
      let (p, inside) ← inner t fuel p n
      let (p, rest) ← innerOfAll t fuel p ns
      return (p, inside ++ rest)

/-- Looks into some collections, and then into those inside them. -/
def check (t : Anchored) (limit : Nat) : Nat → Progress → List Node → Except Error Unit
  | 0, _, _ => .ok ()
  | _, _, [] => .ok ()
  | fuel + 1, p, n :: ns => do
    let (p, deeper) ← innerOfAll t limit p (n :: ns)
    check t limit fuel p deeper

/-! ### Values -/

/-- The members of a mapping without errors. -/
def membersOf (t : Anchored) (fuel : Nat) (m : Mark) (ms : List (Node × Node)) :
    List (Node × Node) :=
  (members t fuel [labelAt true m] m ms).toOption.getD []

/-- The value of a scalar without errors. -/
def atomOf (t : Anchored) (n : Node) : Atom := ((n.resolved t).atom []).toOption.getD .null

/-- The elements of a set, of which equal ones count once. -/
def elements (as : List Atom) : List Atom :=
  SetOrder.sorted ((Assoc.ofList (as.map fun a => (a, ()))).map (·.1))

/-- How values are built: the nodes with an anchor, and whether one of them stands in itself. -/
structure Building where
  anchored : Anchored
  cyclic : Bool
  limit : Nat

/-- The value of a node without errors, inside of the collections with some labels. The values of nodes with
an anchor are kept, unless they depend on what is around them. -/
def datum (b : Building) : Nat → List Label → Node → StateM (List (Label × Datum)) Datum
  | 0, _, _ => return .null
  | fuel + 1, around, n => do
    let inside := datum b fuel (n.label :: around)
    if !(n.resolved b.anchored).tag.isCollection then return .atom (n.atomOf b.anchored)
    if around.elem n.label then return .again n.label
    if let some done := (← get).lookup n.label then return done
    let d ← match n.resolved b.anchored with
      | .sequence .list items _ => do pure (Datum.list (← items.mapM inside))
      | .sequence _ items _ => do
        pure (Datum.list (← items.mapM fun item => do
          match item.resolved b.anchored with
          | .mapping _ ((key, value) :: _) m =>
            let part := datum b fuel (labelAt true m :: n.label :: around)
            let pair := Datum.pair (← part key) (← part value)
            return if b.cyclic then .labelled (labelAt true m) pair else pair
          | _ => return .null))
      | .mapping .set ms m =>
        pure (Datum.set (elements ((membersOf b.anchored b.limit m ms).map fun (key, _) =>
          key.atomOf b.anchored)))
      | .mapping _ ms m => do
        let fields ← (membersOf b.anchored b.limit m ms).mapM fun (key, value) => do
          return (key.atomOf b.anchored, ← inside value)
        pure (Datum.record (Assoc.ofList fields))
      | _ => pure Datum.null
    if b.cyclic then return .labelled n.label d
    if (b.anchored.lookup n.label).isSome then modify ((n.label, d) :: ·)
    return d

end Node

/-! ### Reading -/

/-- The value of a document. -/
structure Document where
  content : Datum

namespace Document

/-- The document without a value. -/
def empty : Document := ⟨.null⟩

/-- The document of a tree of so many nodes at most. -/
def ofTree (limit : Nat) (tree : Tree) : Except Error Document := do
  let t := tree.anchored
  if ← tree.root.isCollection t [] then Node.check t limit limit ⟨[], []⟩ [tree.root]
  return ⟨((tree.root.datum ⟨t, tree.cyclic, limit⟩ limit []).run []).run.1⟩

/-- Whether a YAML text may hold a character. -/
def mayHold (c : CodePoint) : Bool :=
  c = '\t' || c = '\n' || c = '\r' || c = '\x85' || (' ' ≤ c && c ≤ '~') ||
    ('\xa0' ≤ c && c != '\ufffe' && c != '\uffff')

/-- The document that a text holds. -/
def read (depth : Nat) (t : Text) : Except Error Document :=
  let good := t.takeWhile mayHold
  match t.drop good.length with
  | c :: _ => .error (.character c good.length)
  | [] =>
    match Tree.ofText? depth t with
    | .error e => .error e
    | .ok none => .ok empty
    | .ok (some tree) => ofTree (t.length + 2) tree

end Document

end Mend.Yaml
