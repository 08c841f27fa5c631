import Keypad.Failure
import Keypad.Token

/-!
# Postfix order

Tokens are put into the order in which they are evaluated, operands before their operator. Numbers
keep their order. An operator waits on a stack until the next operator yields to it or the tokens
end. Tokens without a meaning are either left out and listed, or refused.
-/

namespace Keypad

/-- An element of a postfix sequence. -/
inductive Item where
  /-- A number, which becomes an operand. -/
  | number (value : Double)
  /-- An operator, which takes the last two operands. -/
  | operator (o : Operator)
  /-- Something else, known by how it is shown. -/
  | foreign (shown : String)
  deriving DecidableEq

namespace Postfix

/-- The items of the tokens in postfix order, from a stack of waiting operators, and the tokens left
out. -/
def order : (waiting : List Operator) → List String → List Item × List String
  | waiting, [] => (waiting.map .operator, [])
  | waiting, token :: tokens =>
    match TokenKind.ofToken token with
    | .number value =>
      match order waiting tokens with
      | (items, dropped) => (.number value :: items, dropped)
    | .operator o =>
      match order (o :: waiting.dropWhile o.yieldsTo) tokens with
      | (items, dropped) => ((waiting.takeWhile o.yieldsTo).map .operator ++ items, dropped)
    | .unrecognised =>
      match order waiting tokens with
      | (items, dropped) => (items, token :: dropped)

/-- The token has no meaning. -/
def isUnrecognised (token : String) : Bool := TokenKind.ofToken token = .unrecognised

/-- The tokens in postfix order and the tokens left out. When `strict` holds, nothing may be left
out. -/
def ofTokens (strict : Bool) (tokens : List String) : Except Fault (List Item × List String) :=
  match if strict then tokens.find? isUnrecognised else none with
  | some token => .error (.malformedToken token)
  | none => .ok (order [] tokens)

end Postfix

end Keypad
