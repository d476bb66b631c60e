import Mend.Assoc
import Mend.Yaml.Scalar
import Mend.Yaml.Token.Stream

/-!
# Nodes

The tokens of a document make a tree of nodes. An alias stands for the node with its anchor, so that a
node may be at several places.
-/

namespace Mend.Yaml

/-- A node: its tag, what it is made of, and where it begins. -/
inductive Node
  | scalar (tag : Tag) (text : Text) (start : Mark)
  | sequence (tag : Tag) (items : List Node) (start : Mark)
  | mapping (tag : Tag) (members : List (Node × Node)) (start : Mark)
  /-- The collection with a label, in which this node is itself. -/
  | enclosing (label : Label) (start : Mark)

instance : Inhabited Mark := ⟨⟨0, 0, [], []⟩⟩

instance : Inhabited Node := ⟨.enclosing (0, 0) default⟩

namespace Node

/-- Where a node begins. -/
def start : Node → Mark
  | scalar _ _ m => m
  | sequence _ _ m => m
  | mapping _ _ m => m
  | enclosing _ m => m

/-- The name of the form of a node. -/
def form : Node → Text
  | scalar _ _ _ => "scalar"
  | sequence _ _ _ => "sequence"
  | mapping _ _ _ => "mapping"
  | enclosing _ _ => "mapping"

/-- The label of what begins at a place; a mapping may begin where its first key begins. -/
def labelAt (isMapping : Bool) (m : Mark) : Label :=
  (m.line, 2 * m.column + if isMapping then 1 else 0)

/-- What a node is known by. -/
def label : Node → Label
  | scalar _ _ m => labelAt false m
  | sequence _ _ m => labelAt false m
  | mapping _ _ m => labelAt true m
  | enclosing l _ => l

/-- The scalar that stands for what is left out. -/
def empty (m : Mark) : Node := .scalar .null [] m

end Node

/-! ### Reading nodes -/

/-- The state of reading: how deep collections may be nested, the tokens, the meanings of tag handles, the
nodes with an anchor, and whether one of them stands in itself. -/
structure Composer where
  maxDepth : Nat
  tokens : TokenStream
  handles : List (Text × Text)
  anchors : List (Text × Node)
  cyclic : Bool

namespace Composer

/-- A reading step. -/
abbrev Step (α : Type) : Type := StateT Composer (Except Error) α

/-- The next token, which stays. -/
def peek : Step Token := do
  let s ← get
  let (t, tokens) ← s.tokens.first
  set { s with tokens := tokens }
  return t

/-- The next token, which is taken. -/
def take : Step Token := do
  let t ← peek
  modify fun s => { s with tokens := s.tokens.drop }
  return t

/-- Ends with an error. -/
def fail {α : Type} (e : Error) : Step α := throw e

/-- The error with a token that stands in the wrong place inside something. -/
def misplaced {α : Type} (context : Text) (start : Mark) (p : Problem) (t : Token) : Step α :=
  fail (.marked .grammar (some ⟨context, some start⟩) p t.start)

/-- The tag that the handle and the suffix of a tag stand for. -/
def resolveTag (start mark : Mark) : Option Text → Text → Step Text
  | none, suffix => return suffix
  | some handle, suffix => do
    match (← get).handles.lookup handle with
    | some meaning => return meaning ++ suffix
    | none =>
      fail (.marked .grammar (some ⟨"while parsing a node", some start⟩) (.undefinedHandle handle)
        mark)

/-- What is written before a node: its anchor, its tag, and where the first of them begins. -/
structure Properties where
  anchor : Option Text := none
  tag : Option (Option Text × Text × Mark) := none
  start : Option Mark := none

/-- An anchor and a tag, of each kind one at most. Behind both of them no token is looked at. -/
def takeProperties : Nat → Properties → Step Properties
  | 0, p => return p
  | fuel + 1, p => do
    if p.anchor.isSome && p.tag.isSome then return p
    let t ← peek
    match t.kind, p with
    | .anchor name, { anchor := none, tag, start } =>
      let _ ← take
      takeProperties fuel ⟨some name, tag, some (start.getD t.start)⟩
    | .tag handle suffix, { anchor, tag := none, start } =>
      let _ ← take
      takeProperties fuel ⟨anchor, some (handle, suffix, t.start), some (start.getD t.start)⟩
    | _, p => return p

/-- Fails if an anchor is there already. -/
def checkAnchor (name : Text) (start : Mark) : Step Unit := do
  match (← get).anchors.lookup name with
  | some n =>
    let context : Text := "found duplicate anchor " ++ Text.quoted name ++ "; first occurrence"
    fail (.marked .reference (some ⟨context, some n.start⟩) .secondAnchor start)
  | none => return

/-- Remembers the node with an anchor. -/
def define (anchor : Option Text) (n : Node) : Step Unit :=
  match anchor with
  | some name => modify fun s => { s with anchors := Assoc.put name n s.anchors }
  | none => return

/-- The node that an alias stands for. -/
def resolveAlias (name : Text) (mark : Mark) : Step Node := do
  match (← get).anchors.lookup name with
  | some (.enclosing l m) =>
    modify fun s => { s with cyclic := true }
    return .enclosing l m
  | some n => return n
  | none => fail (.marked .reference none (.undefinedAlias name) mark)

/-- The tag of a scalar. One without a tag of its own is a text if it is written in quotes or as a block;
else its text decides. -/
def scalarTag (s : ScalarText) : Option Text → Tag
  | some tag => if tag = "!" then .ofPlain (s.text) else .ofName tag
  | none => if s.plain then .ofPlain (s.text) else .text

/-- The tag of a collection. -/
def collectionTag (default : Tag) : Option Text → Tag
  | some tag => if tag = "!" then default else .ofName tag
  | none => default

/-- How a collection is written. -/
inductive Layout
  | indentless
  | blockSequence
  | blockMapping
  | flowSequence
  | flowMapping
  deriving DecidableEq

/-- Whether the collections of a layout are mappings. -/
def Layout.isMapping : Layout → Bool
  | blockMapping => true
  | flowMapping => true
  | _ => false

/-- The layout of the collection that begins with a token. Inside a flow collection there are no blocks,
and only the items of a block's member may stand without further indentation. -/
def layout? (block indentless : Bool) : TokenKind → Option Layout
  | .blockEntry => if indentless then some .indentless else none
  | .flowSequenceStart => some .flowSequence
  | .flowMappingStart => some .flowMapping
  | .sequenceStart => if block then some .blockSequence else none
  | .mappingStart => if block then some .blockMapping else none
  | _ => none

mutual

/-- A node. In a flow collection `block` is false; `indentless` allows the items of a sequence to stand
where the mapping around them is indented. -/
def node (block indentless : Bool) (depth : Nat) : Nat → Step Node
  | 0 => fail .tooDeep
  | fuel + 1 => do
    if (← get).maxDepth < depth then fail .tooDeep
    let t ← peek
    match t.kind with
    | .alias name =>
      let _ ← take
      resolveAlias name t.start
    | _ =>
      let p ← takeProperties 3 {}
      let tag : Option Text ← (match p.tag with
        | some (handle, suffix, mark) =>
          some <$> resolveTag (p.start.getD mark) mark handle suffix
        | none => pure none)
      let first ← peek
      let start := p.start.getD first.start
      let open_ : Step Unit := match p.anchor with
        | some name => checkAnchor name start
        | none => return
      match first.kind, layout? block indentless first.kind with
      | .scalar s, _ =>
        let _ ← take
        open_
        let n := Node.scalar (scalarTag s tag) s.text start
        define p.anchor n
        return n
      | _, some layout =>
        open_
        define p.anchor (.enclosing (Node.labelAt layout.isMapping start) start)
        let n ← collection layout tag start (depth + 1) fuel
        define p.anchor n
        return n
      | _, none =>
        if p.start.isSome then
          open_
          let n := Node.scalar (scalarTag ⟨[], tag.isNone⟩ tag) [] start
          define p.anchor n
          return n
        else
          let form : Text := if block then "block" else "flow"
          misplaced ("while parsing a " ++ form ++ " node") start
            (.expectedToken "the node content" first.kind.name) first
termination_by structural fuel => fuel

/-- A collection of a layout. -/
def collection (layout : Layout) (tag : Option Text) (start : Mark) (depth : Nat) :
    Nat → Step Node
  | 0 => fail .tooDeep
  | fuel + 1 => do
    match layout with
    | .indentless =>
      return .sequence (collectionTag .list tag) (← indentlessItems depth fuel) start
    | .blockSequence =>
      let t ← take
      return .sequence (collectionTag .list tag) (← blockItems t.start depth fuel) start
    | .flowSequence =>
      let t ← take
      return .sequence (collectionTag .list tag) (← flowItems t.start true depth fuel) start
    | .blockMapping =>
      let t ← take
      return .mapping (collectionTag .mapping tag) (← blockMembers t.start depth fuel) start
    | .flowMapping =>
      let t ← take
      return .mapping (collectionTag .mapping tag) (← flowMembers t.start true depth fuel) start
termination_by structural fuel => fuel

/-- The node after a sign, unless one of some tokens follows, before which it is left out. -/
def nodeUnless (ends : TokenKind → Bool) (block indentless : Bool) (mark : Mark) (depth : Nat) :
    Nat → Step Node
  | 0 => fail .tooDeep
  | fuel + 1 => do
    if ends (← peek).kind then return .empty mark
    else node block indentless depth fuel
termination_by structural fuel => fuel

/-- The value of a member: the node after the sign of a value. Without the sign it is left out. -/
def valueNode (ends : TokenKind → Bool) (block : Bool) (depth : Nat) : Nat → Step Node
  | 0 => fail .tooDeep
  | fuel + 1 => do
    let t ← peek
    if t.kind = .value then
      let _ ← take
      nodeUnless ends block block t.stop depth fuel
    else return .empty t.start
termination_by structural fuel => fuel

/-- The items of a block sequence. -/
def blockItems (start : Mark) (depth : Nat) : Nat → Step (List Node)
  | 0 => fail .tooDeep
  | fuel + 1 => do
    let t ← take
    match t.kind with
    | .blockEntry =>
      let ends (k : TokenKind) : Bool := k = .blockEntry || k = .blockEnd
      let n ← nodeUnless ends true false t.stop depth fuel
      return n :: (← blockItems start depth fuel)
    | .blockEnd => return []
    | k =>
      misplaced "while parsing a block collection" start (.expectedToken "<block end>" k.name) t
termination_by structural fuel => fuel

/-- The items of a sequence that is not indented further than the mapping around it. -/
def indentlessItems (depth : Nat) : Nat → Step (List Node)
  | 0 => fail .tooDeep
  | fuel + 1 => do
    let t ← peek
    match t.kind with
    | .blockEntry =>
      let _ ← take
      let ends (k : TokenKind) : Bool :=
        k = .blockEntry || k = .key || k = .value || k = .blockEnd
      let n ← nodeUnless ends true false t.stop depth fuel
      return n :: (← indentlessItems depth fuel)
    | _ => return []
termination_by structural fuel => fuel

/-- The members of a block mapping. -/
def blockMembers (start : Mark) (depth : Nat) : Nat → Step (List (Node × Node))
  | 0 => fail .tooDeep
  | fuel + 1 => do
    let t ← take
    match t.kind with
    | .key =>
      let ends (k : TokenKind) : Bool := k = .key || k = .value || k = .blockEnd
      let key ← nodeUnless ends true true t.stop depth fuel
      let value ← valueNode ends true depth fuel
      return (key, value) :: (← blockMembers start depth fuel)
    | .blockEnd => return []
    | k => misplaced "while parsing a block mapping" start (.expectedToken "<block end>" k.name) t
termination_by structural fuel => fuel

/-- The items of a flow sequence. An item that is a single member is a mapping. -/
def flowItems (start : Mark) (isFirst : Bool) (depth : Nat) : Nat → Step (List Node)
  | 0 => fail .tooDeep
  | fuel + 1 => do
    let t ← peek
    if t.kind = .flowSequenceEnd then
      let _ ← take
      return []
    if !isFirst then
      if t.kind = .flowEntry then
        let _ ← take
      else
        misplaced "while parsing a flow sequence" start (.noSeparator "',' or ']'" t.kind.name) t
    let t ← peek
    match t.kind with
    | .flowSequenceEnd =>
      let _ ← take
      return []
    | .key =>
      let _ ← take
      let ends (k : TokenKind) : Bool := k = .flowEntry || k = .flowSequenceEnd
      let key ← nodeUnless (fun k => k = .value || ends k) false false t.stop (depth + 1) fuel
      let value ← valueNode ends false (depth + 1) fuel
      return .mapping .mapping [(key, value)] t.start :: (← flowItems start false depth fuel)
    | _ =>
      let n ← node false false depth fuel
      return n :: (← flowItems start false depth fuel)
termination_by structural fuel => fuel

/-- The members of a flow mapping. -/
def flowMembers (start : Mark) (isFirst : Bool) (depth : Nat) :
    Nat → Step (List (Node × Node))
  | 0 => fail .tooDeep
  | fuel + 1 => do
    let t ← peek
    if t.kind = .flowMappingEnd then
      let _ ← take
      return []
    if !isFirst then
      if t.kind = .flowEntry then
        let _ ← take
      else
        misplaced "while parsing a flow mapping" start (.noSeparator "',' or '\x7d'" t.kind.name) t
    let t ← peek
    match t.kind with
    | .flowMappingEnd =>
      let _ ← take
      return []
    | .key =>
      let _ ← take
      let ends (k : TokenKind) : Bool := k = .flowEntry || k = .flowMappingEnd
      let key ← nodeUnless (fun k => k = .value || ends k) false false t.stop depth fuel
      let value ← valueNode ends false depth fuel
      return (key, value) :: (← flowMembers start false depth fuel)
    | _ =>
      let key ← node false false depth fuel
      let value := Node.empty (← peek).start
      return (key, value) :: (← flowMembers start false depth fuel)
termination_by structural fuel => fuel

end

/-! ### Documents -/

/-- The handles of tags that every document knows. -/
def defaultHandles : List (Text × Text) := [("!", "!"), ("!!", Tag.namespaceText)]

/-- The error with a directive. -/
def badDirective {α : Type} (p : Problem) (t : Token) : Step α :=
  fail (.marked .grammar none p t.start)

/-- The directives before a document: the handles that they define. -/
def takeDirectives : Nat → (versioned : Bool) → List (Text × Text) → Step (List (Text × Text))
  | 0, _, hs => return hs
  | fuel + 1, versioned, hs => do
    let t ← peek
    match t.kind with
    | .directive d =>
      let _ ← take
      match d with
      | .version major =>
        if versioned then badDirective .duplicateVersion t
        else if major != 1 then badDirective .wrongVersion t
        else takeDirectives fuel true hs
      | .tag handle meaning =>
        if (hs.lookup handle).isSome then badDirective (.duplicateHandle handle) t
        else takeDirectives fuel versioned (hs ++ [(handle, meaning)])
      | .other => takeDirectives fuel versioned hs
    | _ => return hs

/-- The signs of ends of documents. -/
def skipDocumentEnds : Nat → Step Unit
  | 0 => return
  | fuel + 1 => do
    if (← peek).kind = .documentEnd then
      let _ ← take
      skipDocumentEnds fuel

/-- The sign at the beginning of a document, with the directives before it. -/
def takeDocumentStart (size : Nat) : Step Unit := do
  let own ← takeDirectives size false []
  modify fun s => { s with handles := own ++ defaultHandles }
  let t ← peek
  if t.kind = .documentStart then
    let _ ← take
  else badDirective (.expectedToken "'<document start>'" t.kind.name) t

/-- Whether a token ends a document that has begun with its sign. -/
def endsDocument : TokenKind → Bool
  | .directive _ => true
  | .documentStart => true
  | .documentEnd => true
  | .streamEnd => true
  | _ => false

/-- The root of the first document, if there is one. -/
def root (size : Nat) : Step (Option Node) := do
  let t ← peek
  match t.kind with
  | .streamEnd => return none
  | .documentStart => explicit
  | .directive _ => explicit
  | _ => some <$> node true false 0 size
where
  explicit : Step (Option Node) := do
    takeDocumentStart size
    let t ← peek
    some <$> nodeUnless endsDocument true false t.start 0 size

/-- The root of the only document. A second one is an error. -/
def onlyRoot (size : Nat) : Step (Option Node) := do
  match ← root size with
  | none => return none
  | some n =>
    skipDocumentEnds size
    let t ← peek
    if t.kind = .streamEnd then return some n
    else
      takeDocumentStart size
      fail (.marked .reference (some ⟨"expected a single document in the stream", some n.start⟩)
        .anotherDocument t.start)

end Composer

/-- A bound on the number of steps that nodes of a text take. -/
def stepBound (t : Text) : Nat := 6 * t.length + 24

/-- The nodes with an anchor, by their labels. -/
abbrev Anchored : Type := List (Label × Node)

/-- The tree of a document: its root, the nodes with an anchor, and whether one of them stands in itself. -/
structure Tree where
  root : Node
  anchored : Anchored
  cyclic : Bool

/-- The tree of the only document of a text. -/
def Tree.ofText? (depth : Nat) (t : Text) : Except Error (Option Tree) :=
  match (Composer.onlyRoot (stepBound t)).run ⟨depth, .start t, Composer.defaultHandles, [], false⟩ with
  | .error e => .error e
  | .ok (none, _) => .ok none
  | .ok (some root, s) =>
    .ok (some ⟨root, s.anchors.map fun (_, n) => (n.label, n), s.cyclic⟩)

end Mend.Yaml
