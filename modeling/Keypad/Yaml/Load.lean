import Keypad.Yaml.Node.Document
import Keypad.Yaml.Token.Stream

/-!
# Reading documents

A document is cut into tokens, these are put together to a node, and the node has a value.
-/

namespace Keypad.Yaml

/-- All characters of the text may stand in a document. -/
def isReadable (text : String) : Bool := text.toList.all isAllowed

/-- The value of the document in a text; nothing for a text without a document. -/
def load (text : String) : Except Fault Datum :=
  if !isReadable text then .error .malformed
  else
    match Token.scan text with
    | (tokens, fault) =>
      match Node.ofTokens? tokens fault with
      | .error fault => .error fault
      | .ok none => .ok .null
      | .ok (some root) => (value 0 root).toExcept

end Keypad.Yaml
