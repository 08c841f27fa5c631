/-!
# Tokens of documents

What a document is cut into: the marks of documents and of collections, the properties of nodes, and
scalars. The beginning and end of block collections, which in the text are only indentation, are
tokens too.
-/

namespace Keypad.Yaml

/-- A directive. -/
inductive Directive where
  /-- The version of the format, of which only the first number counts. -/
  | version (major : Nat)
  /-- What an abbreviation in tags stands for. -/
  | handle (handle expansion : String)
  /-- A directive without a meaning. -/
  | other
  deriving DecidableEq

/-- A token. -/
inductive Token where
  | streamEnd
  | directive (d : Directive)
  | documentStart
  | documentEnd
  | blockSequenceStart
  | blockMappingStart
  | blockEnd
  | flowSequenceStart
  | flowSequenceEnd
  | flowMappingStart
  | flowMappingEnd
  | blockEntry
  | flowEntry
  | key
  | value
  | alias (name : String)
  | anchor (name : String)
  /-- A tag: its suffix, behind an abbreviation if it has one. -/
  | tag (handle : Option String) (suffix : String)
  /-- The text of a scalar, and whether it was written without quotes and indicators. -/
  | scalar (text : String) (plain : Bool)
  deriving DecidableEq

end Keypad.Yaml
