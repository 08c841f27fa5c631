import Keypad.Yaml.Scalar.Binary
import Keypad.Yaml.Scalar.Number
import Keypad.Yaml.Scalar.Timestamp

/-!
# The value of a node

Nodes become plain data by their tags. What a node's tag asks for and what the node is may not fit,
which is a fault. A document can have several faults, and the one that counts is the outermost: a
fault inside of a collection is met only after everything in the collection around it has been
looked at. So a node is given its value together with the outermost fault in it and the depth of
that. Of two faults at one depth the first counts.
-/

namespace Keypad.Yaml

/-- A fault that was met, if there was one, and its depth. -/
abbrev Met := Option (Nat × Fault)

namespace Met

/-- The outer one of two faults, the first if they are at one depth. -/
def outer : Met → Met → Met
  | none, b => b
  | a, none => a
  | some (m, f), some (n, g) => if n < m then some (n, g) else some (m, f)

/-- The outermost of some faults. -/
def outermost (faults : List Met) : Met := faults.foldl outer none

/-- The same fault so much deeper. -/
def below (depth : Nat) (met : Met) : Met := met.map fun (n, fault) => (depth + n, fault)

end Met

/-- A value, and the fault met on the way. What could not be read is null. -/
abbrev Valued (α : Type) := α × Met

namespace Valued

/-- A value at a depth, or its fault. -/
def ofExcept (depth : Nat) : Except Fault Datum → Valued Datum
  | .ok datum => (datum, none)
  | .error fault => (.null, some (depth, fault))

/-- Nothing but a fault. -/
def fault {α : Type} (depth : Nat) (fault : Fault) (junk : α) : Valued α :=
  (junk, some (depth, fault))

/-- The value, if no fault was met. -/
def toExcept {α : Type} : Valued α → Except Fault α
  | (value, none) => .ok value
  | (_, some (_, fault)) => .error fault

end Valued

/-! ## Scalars -/

/-- The words for truth values. -/
def truthWords : List (String × Bool) :=
  [("yes", true), ("no", false), ("true", true), ("false", false), ("on", true), ("off", false)]

/-- The truth value that a scalar denotes, in any case. -/
def toBool (text : String) : Except Fault Bool :=
  match truthWords.lookup (String.ofList (text.toList.map Char.toLower)) with
  | some b => .ok b
  | none => .error .notBool

/-- The value of a scalar. -/
def scalarValue (tag : Tag) (text : String) : Except Fault Datum :=
  match tag with
  | .null => .ok .null
  | .bool => (toBool text).map .bool
  | .int => (toInt text).map .int
  | .float => (toDouble text).map .double
  | .binary =>
    match toBytes? text with
    | some bytes => .ok (.bytes bytes)
    | none => .error .malformed
  | .timestamp => toTimestamp text
  | .str => .ok (.text text)
  | _ => .error .malformed

/-- A tag of collections. -/
def Tag.isCollection : Tag → Bool
  | .seq | .map | .set | .pairs => true
  | _ => false

namespace Node

/-- The tag of a node. -/
def tag : Node → Tag
  | .scalar tag _ | .sequence tag _ | .mapping tag _ => tag
  | .enclosing _ => .unknown
  | .known node _ _ => node.tag

/-- The text that stands for a node with the tag of a scalar: its own or, in a mapping, that behind
the key which stands for the whole. -/
def scalarText? : Node → Option String
  | .scalar _ text => some text
  | .mapping _ members => inMembers members
  | .known node _ _ => scalarText? node
  | _ => none
where
  /-- The text behind the key that stands for the whole. -/
  inMembers : List (Node × Node) → Option String
    | [] => none
    | (key, value) :: members =>
      if key.tag = .value then scalarText? value else inMembers members

/-- The value of a node with the tag of a scalar. -/
def asScalar (node : Node) : Except Fault Datum :=
  match node.scalarText? with
  | none => .error .malformed
  | some text =>
    match node, node.tag with
    | .mapping _ _, .timestamp => .error .notScalar
    | _, tag => scalarValue tag text

end Node

/-! ## Collections -/

/-- The mapping with these members, of which the last one with a key counts. -/
def mappingOf (members : List (Datum × Datum)) : List (Datum × Datum) :=
  members.foldl (fun all (key, value) => Datum.put all key value) []

/-- The value of a node with the tag of a collection may be no key. -/
def keyFault (depth : Nat) (key : Node) : Met :=
  match key.tag with
  | .seq | .map | .set | .pairs => some (depth, .malformed)
  | _ => none

mutual

/-- Whether a node is a mapping and what it asks to be merged is mergeable. -/
def isMergeable : Node → Bool
  | .mapping _ members => areMergeable members
  | .known node _ _ => isMergeable node
  | _ => false

/-- Whether what stands behind the key for merging is a mapping or a sequence of mappings. -/
def isSource : Node → Bool
  | .sequence _ items => areSources items
  | .known node _ _ => isSource node
  | .mapping _ members => areMergeable members
  | _ => false

/-- Whether each of the items is a mapping and mergeable. -/
def areSources : List Node → Bool
  | [] => true
  | item :: items => isMergeable item && areSources items

/-- Whether the members that ask to merge something ask for mappings. -/
def areMergeable : List (Node × Node) → Bool
  | [] => true
  | (key, value) :: members => (key.tag != .merge || isSource value) && areMergeable members

end

mutual

/-- The value of a node. The fault of a scalar is met at the given depth, those in a collection one
level below. -/
def value (depth : Nat) : Node → Valued Datum
  | .scalar tag text =>
    if tag.isCollection then .fault (depth + 1) .malformed .null
    else .ofExcept depth (Node.asScalar (.scalar tag text))
  | .sequence tag items =>
    match tag with
    | .seq =>
      match values (depth + 1) items with
      | (data, met) => (.list data, met)
    | .pairs =>
      match pairs (depth + 1) items with
      | (data, met) => (.list data, met)
    | .map | .set => .fault (depth + 1) .malformed .null
    | tag => .ofExcept depth (Node.asScalar (.sequence tag items))
  | .mapping tag members =>
    if tag = .map ∨ tag = .set then
      if areMergeable members then
        match merged (depth + 1) members, own (depth + 1) members with
        | (inner, met), (outer, met') =>
          -- The mapping's own members come last, so that they win over merged ones.
          let all := mappingOf (inner ++ outer)
          (if tag = .map then .mapping all else .set (all.map (·.1)), met.outer met')
      else .fault (depth + 1) .malformed .null
    else if tag.isCollection then .fault (depth + 1) .malformed .null
    else .ofExcept depth (Node.asScalar (.mapping tag members))
  | .enclosing _ => (.null, none)
  | .known _ datum met => (datum, Met.below depth met)

/-- The values of items. -/
def values (depth : Nat) : List Node → Valued (List Datum)
  | [] => ([], none)
  | item :: items =>
    match value depth item, values depth items with
    | (datum, met), (data, met') => (datum :: data, met.outer met')

/-- The key and the value of a node that is a mapping with one member. -/
def pair? (depth : Nat) : Node → Option (Valued Datum)
  | .mapping _ [(k, v)] =>
    match value depth k, value depth v with
    | (key, met), (datum, met') => some (.list [key, datum], met.outer met')
  | .known node _ _ => pair? depth node
  | _ => none

/-- The values of items that are mappings with one member each. -/
def pairs (depth : Nat) : List Node → Valued (List Datum)
  | [] => ([], none)
  | item :: items =>
    match pair? depth item, pairs depth items with
    | some (datum, met), (data, met') => (datum :: data, met.outer met')
    | none, (data, met) => (data, Met.outer (some (depth, .malformed)) met)

/-- The members of a mapping without those that ask to merge something. A key that elsewhere stands
for the whole mapping is only a text here. -/
def own (depth : Nat) : List (Node × Node) → Valued (List (Datum × Datum))
  | [] => ([], none)
  | (k, v) :: members =>
    if k.tag = .merge then own depth members
    else
      match value depth k, value depth v, own depth members with
      | (key, met), (datum, met'), (data, met'') =>
        if k.tag = .value then
          match k.scalarText? with
          | some text => ((.text text, datum) :: data, met'.outer met'')
          | none => (data, .outermost [some (depth, .malformed), met', met''])
        else ((key, datum) :: data, .outermost [keyFault depth k, met, met', met''])

/-- The members that a mapping asks to merge. Of several mappings at one place the first comes last,
so that its members count. -/
def merged (depth : Nat) : List (Node × Node) → Valued (List (Datum × Datum))
  | [] => ([], none)
  | (k, v) :: members =>
    match (if k.tag = .merge then mergedFrom depth v else ([], none)), merged depth members with
    | (data, met), (rest, met') => (data ++ rest, met.outer met')

/-- All members of a mapping, or of a sequence of mappings. -/
def mergedFrom (depth : Nat) : Node → Valued (List (Datum × Datum))
  | .mapping _ members =>
    match merged depth members, own depth members with
    | (inner, met), (outer, met') => (inner ++ outer, met.outer met')
  | .sequence _ items => mergedItems depth items
  | .known node _ _ => mergedFrom depth node
  | _ => ([], none)

/-- All members of the mappings in a sequence, those of the last mapping first. -/
def mergedItems (depth : Nat) : List Node → Valued (List (Datum × Datum))
  | [] => ([], none)
  | item :: items =>
    match mergedItems depth items, mergedFrom depth item with
    | (data, met), (first, met') => (data ++ first, met.outer met')

end

/-- The node together with its value. -/
def Node.evaluated (node : Node) : Node :=
  match value 0 node with
  | (datum, met) => .known node datum met

end Keypad.Yaml
