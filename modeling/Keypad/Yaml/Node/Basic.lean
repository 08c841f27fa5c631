import Keypad.Datum.Basic
import Keypad.Yaml.Fault

/-!
# Nodes

The content of a document as a tree. Every node has a tag that says what it stands for. Tags that
the format does not define are all alike, since nothing can be made of them.

A collection can contain itself, by an alias to an anchor of its own. Such an alias is an
`enclosing` leaf while the collection is put together. `Node.close` then replaces it by a copy of
the collection, to a fixed depth and with nothing inside the innermost copy, which is as deep as
anything looks into a document.

All other aliases share what is made of the node with the anchor: a `known` node carries its value,
so that a document has to be looked at only once however often its aliases repeat a part of it.
-/

namespace Keypad.Yaml

/-- What a node stands for. -/
inductive Tag where
  | null
  | bool
  | int
  | float
  | binary
  | timestamp
  | str
  | seq
  | map
  | set
  /-- A sequence of mappings with one member each. -/
  | pairs
  /-- A key whose value is a mapping to be merged into the one around it. -/
  | merge
  /-- A key whose value stands for the whole mapping. -/
  | value
  /-- A tag without a meaning. -/
  | unknown
  deriving DecidableEq

/-- A part of a document. -/
inductive Node where
  | scalar (tag : Tag) (text : String)
  | sequence (tag : Tag) (items : List Node)
  | mapping (tag : Tag) (members : List (Node × Node))
  /-- The collection with an anchor, inside of that collection. -/
  | enclosing (anchor : String)
  /-- A node whose value is known, with the outermost fault in it and the depth of that. -/
  | known (node : Node) (datum : Datum) (fault : Option (Nat × Fault))

namespace Node

mutual

/-- The node with a node in place of an enclosing collection. -/
def subst (anchor : String) (inner : Node) : Node → Node
  | .scalar tag text => .scalar tag text
  | .sequence tag items => .sequence tag (substItems anchor inner items)
  | .mapping tag members => .mapping tag (substMembers anchor inner members)
  | .enclosing other => if other = anchor then inner else .enclosing other
  | .known node datum fault => .known node datum fault

/-- The items with a node in place of an enclosing collection. -/
def substItems (anchor : String) (inner : Node) : List Node → List Node
  | [] => []
  | item :: items => subst anchor inner item :: substItems anchor inner items

/-- The members with a node in place of an enclosing collection. -/
def substMembers (anchor : String) (inner : Node) : List (Node × Node) → List (Node × Node)
  | [] => []
  | (key, value) :: members =>
    (subst anchor inner key, subst anchor inner value) :: substMembers anchor inner members

end

/-- The collection with nothing in it. -/
def emptied : Node → Node
  | .sequence tag _ => .sequence tag []
  | .mapping tag _ => .mapping tag []
  | node => node

/-- How often a collection that contains itself is copied. -/
def closingDepth : Nat := 4

/-- The collection with copies of itself in place of the aliases to it. -/
def close (anchor : String) (node : Node) : Node :=
  (List.range closingDepth).foldl (fun inner _ => subst anchor inner node) node.emptied

end Node

end Keypad.Yaml
