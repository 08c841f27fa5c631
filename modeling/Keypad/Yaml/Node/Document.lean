import Keypad.Yaml.Fault
import Keypad.Yaml.Node.Value
import Keypad.Yaml.Token.Basic

/-!
# The node of a document

The tokens of a document are put together to a node. A document holds at most one node, and a text
at most one document. An alias stands for the node with its anchor, which must come before it. Where
a node is missing, as behind a key without a value, there is an empty scalar.

Every function takes tokens or calls one that does, so three calls for each token bound the depth of
the recursion.
-/

namespace Keypad.Yaml

/-- What the nodes of a document are put together from. -/
structure Reading where
  /-- The tokens not taken yet. -/
  tokens : List Token
  /-- The fault behind the last token, if the text goes on there. -/
  fault : Option Fault
  /-- What the abbreviations of tags stand for. -/
  handles : List (String × String) := [("!", "!"), ("!!", Tag.standard)]
  /-- The nodes with an anchor. -/
  anchors : List (String × Node) := []
  /-- Whether a collection has been met that contains itself. -/
  isRecursive : Bool := false
  /-- How many collections are open. -/
  depth : Nat := 0

/-- A step of putting nodes together. -/
abbrev Compose := StateT Reading (Except Fault)

namespace Compose

/-- Gives up. -/
def fail {α : Type} (fault : Fault) : Compose α := fun _ => .error fault

/-- The next token. -/
def peek : Compose Token := fun s =>
  match s.tokens with
  | token :: _ => .ok (token, s)
  | [] => .error (s.fault.getD .malformed)

/-- Passes the next token. -/
def advance : Compose Unit := modify fun s => { s with tokens := s.tokens.tail }

/-- Passes the next token, which must be a given one. -/
def expect (token : Token) : Compose Unit := do
  if (← peek) = token then advance else fail .malformed

/-! ## Properties of nodes -/

/-- What stands for a missing node. -/
def emptyNode : Node := .scalar (.ofForm "") ""

/-- The text of a tag. -/
def resolve (handle : Option String) (suffix : String) : Compose String := do
  match handle with
  | none => return suffix
  | some handle =>
    match (← get).handles.lookup handle with
    | some expansion => return expansion ++ suffix
    | none => fail .malformed

/-- The anchor at this place, if there is one. -/
def anchor? : Compose (Option String) := do
  match ← peek with
  | .anchor name => do advance; return some name
  | _ => return none

/-- The tag at this place, if there is one. -/
def tag? : Compose (Option String) := do
  match ← peek with
  | .tag handle suffix => do advance; return some (← resolve handle suffix)
  | _ => return none

/-- The anchor and the tag at this place, in either order. -/
def properties : Compose (Option String × Option String) := do
  match ← anchor? with
  | some name => return (some name, ← tag?)
  | none =>
    match ← tag? with
    | some tag => return (← anchor?, some tag)
    | none => return (none, none)

/-- The tag of a collection. -/
def collectionTag (absent : Tag) : Option String → Tag
  | none => absent
  | some tag => if tag = "!" then absent else .ofText tag

/-- The tag of a scalar. One that says nothing leaves the decision to the form. -/
def scalarTag (text : String) (plain : Bool) : Option String → Tag
  | none => if plain then .ofForm text else .str
  | some tag => if tag = "!" then .ofForm text else .ofText tag

/-! ## Anchors -/

/-- The node with an anchor. -/
def aliased (name : String) : Compose Node := do
  match (← get).anchors.lookup name with
  | some (.enclosing name) =>
    modify fun s => { s with isRecursive := true }
    return .enclosing name
  | some node => return node
  | none => fail .malformed

/-- Notes an anchor, which must be new. -/
def note (anchor : Option String) (node : Node) : Compose Unit := do
  match anchor with
  | none => return ()
  | some name =>
    if ((← get).anchors.lookup name).isSome then fail .malformed
    else modify fun s => { s with anchors := (name, node) :: s.anchors }

/-- How many collections may be open at once. -/
def maxDepth : Nat := 490

/-- A part of a document inside of one more collection. -/
def nested {α : Type} (build : Compose α) : Compose α := do
  if maxDepth ≤ (← get).depth then fail .tooDeep
  modify fun s => { s with depth := s.depth + 1 }
  let result ← build
  modify fun s => { s with depth := s.depth - 1 }
  return result

/-- The node that an anchor stands for from now on, in place of what it stood for while the
collection was open. As long as no collection contains itself, nodes are evaluated at once. -/
def settle (name : String) (node : Node) : Compose Node := do
  if (← get).isRecursive then
    let closed := Node.close name node
    modify fun s =>
      { s with anchors := s.anchors.map fun (other, inner) =>
          (other, Node.subst name closed inner) }
    return closed
  else
    let node := node.evaluated
    modify fun s =>
      { s with anchors := s.anchors.map fun (other, inner) =>
          (other, if other = name then node else inner) }
    return node

/-- A collection, which aliases inside of it may stand for. -/
def collection (anchor : Option String) (build : Compose Node) : Compose Node := do
  match anchor with
  | none => nested build
  | some name =>
    -- While the collection is read, its anchor stands for a leaf that is filled in afterwards.
    note (some name) (.enclosing name)
    settle name (← nested build)

/-! ## Nodes -/

/-- The node of what follows, or an empty one before a token that a node cannot begin with. -/
def orEmpty (ends : List Token) (node : Compose Node) : Compose Node := do
  if ends.contains (← peek) then return emptyNode else node

mutual

/-- A node. Only in a block may it be a block collection, and only as a part of a block mapping a
sequence without indentation. -/
def node : (fuel : Nat) → (block unindented : Bool) → Compose Node
  | 0, _, _ => fail .malformed
  | fuel + 1, block, unindented => do
    match ← peek with
    | .alias name => do advance; aliased name
    | _ => do
      let (anchor, tag) ← properties
      match ← peek with
      | .scalar text plain => do
        advance
        let node := Node.scalar (scalarTag text plain tag) text
        note anchor node
        return node
      | .flowSequenceStart => do
        advance
        collection anchor (.sequence (collectionTag .seq tag) <$> flowItems fuel true)
      | .flowMappingStart => do
        advance
        collection anchor (.mapping (collectionTag .map tag) <$> flowMembers fuel true)
      | next =>
        if unindented && next = .blockEntry then
          collection anchor (.sequence (collectionTag .seq tag) <$> unindentedItems fuel)
        else if block && next = .blockSequenceStart then do
          advance
          collection anchor (.sequence (collectionTag .seq tag) <$> blockItems fuel)
        else if block && next = .blockMappingStart then do
          advance
          collection anchor (.mapping (collectionTag .map tag) <$> blockMembers fuel)
        else if anchor.isSome || tag.isSome then do
          let node := Node.scalar (scalarTag "" true tag) ""
          note anchor node
          return node
        else fail .malformed

/-- The items of a block sequence. -/
def blockItems : (fuel : Nat) → Compose (List Node)
  | 0 => fail .malformed
  | fuel + 1 => do
    match ← peek with
    | .blockEntry => do
      advance
      let item ← orEmpty [.blockEntry, .blockEnd] (node fuel true false)
      return item :: (← blockItems fuel)
    | .blockEnd => do advance; return []
    | _ => fail .malformed

/-- The items of a sequence that is not indented. -/
def unindentedItems : (fuel : Nat) → Compose (List Node)
  | 0 => fail .malformed
  | fuel + 1 => do
    match ← peek with
    | .blockEntry => do
      advance
      let item ← orEmpty [.blockEntry, .key, .value, .blockEnd] (node fuel true false)
      return item :: (← unindentedItems fuel)
    | _ => return []

/-- The members of a block mapping. -/
def blockMembers : (fuel : Nat) → Compose (List (Node × Node))
  | 0 => fail .malformed
  | fuel + 1 => do
    match ← peek with
    | .key => do
      advance
      let key ← orEmpty [.key, .value, .blockEnd] (node fuel true true)
      let value ←
        if (← peek) = .value then do
          advance
          orEmpty [.key, .value, .blockEnd] (node fuel true true)
        else pure emptyNode
      return (key, value) :: (← blockMembers fuel)
    | .blockEnd => do advance; return []
    | _ => fail .malformed

/-- The items of a flow sequence, the first one or those behind a comma. -/
def flowItems : (fuel : Nat) → (first : Bool) → Compose (List Node)
  | 0, _ => fail .malformed
  | fuel + 1, first => do
    if (← peek) = .flowSequenceEnd then do advance; return []
    else do
      if !first then expect .flowEntry
      match ← peek with
      | .flowSequenceEnd => do advance; return []
      | .key => do
        advance
        let pair ← nested do
          let key ← orEmpty [.value, .flowEntry, .flowSequenceEnd] (node fuel false false)
          return (key, ← flowValue fuel .flowSequenceEnd)
        return .mapping .map [pair] :: (← flowItems fuel false)
      | _ => do
        let item ← node fuel false false
        return item :: (← flowItems fuel false)

/-- The members of a flow mapping, the first one or those behind a comma. -/
def flowMembers : (fuel : Nat) → (first : Bool) → Compose (List (Node × Node))
  | 0, _ => fail .malformed
  | fuel + 1, first => do
    if (← peek) = .flowMappingEnd then do advance; return []
    else do
      if !first then expect .flowEntry
      match ← peek with
      | .flowMappingEnd => do advance; return []
      | .key => do
        advance
        let key ← orEmpty [.value, .flowEntry, .flowMappingEnd] (node fuel false false)
        let value ← flowValue fuel .flowMappingEnd
        return (key, value) :: (← flowMembers fuel false)
      | _ => do
        let key ← node fuel false false
        return (key, emptyNode) :: (← flowMembers fuel false)

/-- The value behind a key in a flow collection with the given end. -/
def flowValue : (fuel : Nat) → (close : Token) → Compose Node
  | 0, _ => fail .malformed
  | fuel + 1, close => do
    if (← peek) = .value then do
      advance
      orEmpty [.flowEntry, close] (node fuel false false)
    else return emptyNode

end

/-! ## Documents -/

/-- The directives in front of a document: at most one version, which must be known, and at most one
meaning for each abbreviation. -/
def directives : (fuel : Nat) → (versioned : Bool) → (handles : List (String × String)) →
    Compose (List (String × String))
  | 0, _, _ => fail .malformed
  | fuel + 1, versioned, handles => do
    match ← peek with
    | .directive (.version major) => do
      advance
      if versioned || major != 1 then fail .malformed
      directives fuel true handles
    | .directive (.handle handle expansion) => do
      advance
      if (handles.lookup handle).isSome then fail .malformed
      directives fuel versioned ((handle, expansion) :: handles)
    | .directive .other => do
      advance
      directives fuel versioned handles
    | _ => return handles

/-- The node of a document that begins with its mark. -/
def markedDocument (fuel : Nat) : Compose Node := do
  let handles ← directives fuel false []
  modify fun s => { s with handles := handles ++ s.handles }
  expect .documentStart
  match ← peek with
  | .directive _ | .documentStart | .documentEnd | .streamEnd => return emptyNode
  | _ => node fuel true false

/-- Passes the marks of the end of a document, behind which nothing may follow. -/
def finish : (fuel : Nat) → Compose Unit
  | 0 => fail .malformed
  | fuel + 1 => do
    match ← peek with
    | .documentEnd => do advance; finish fuel
    | .streamEnd => return ()
    | _ => fail .malformed

/-- The node of the only document, if there is one. -/
def document (fuel : Nat) : Compose (Option Node) := do
  match ← peek with
  | .streamEnd => return none
  | .directive _ | .documentStart => do
    let root ← markedDocument fuel
    finish fuel
    return some root
  | _ => do
    let root ← node fuel true false
    finish fuel
    return some root

end Compose

/-- The node that tokens denote, if they denote one. -/
def Node.ofTokens? (tokens : List Token) (fault : Option Fault) : Except Fault (Option Node) :=
  (Compose.document (3 * tokens.length + 8) { tokens, fault }).map (·.1)

end Keypad.Yaml
