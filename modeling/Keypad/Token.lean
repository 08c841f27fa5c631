import Keypad.Numeral
import Keypad.Operator

/-!
# Tokens

An expression is cut into tokens without looking at what they mean. Blank characters are removed
first. Each operator symbol is a token of its own, and so is each run of other characters; but a `-`
where an operand may begin is its sign and belongs to the run that follows. Since an operand can
begin everywhere but directly behind a run, two modes suffice: `atOperand`, where a `-` is a sign,
and `inOperand`, which collects a run.

`TokenKind` says what a token means: a number, an operator, or nothing that is known.
-/

namespace Keypad

namespace Token

mutual

/-- The tokens of a text that begins where an operand may begin. -/
def atOperand : List Char → List (List Char)
  | [] => []
  | c :: cs =>
    if Operator.isSymbol c && c != '-' then [c] :: atOperand cs
    else
      match inOperand cs with
      | (rest, tokens) => (c :: rest) :: tokens

/-- The rest of an operand that has begun, and the tokens behind it. -/
def inOperand : List Char → List Char × List (List Char)
  | [] => ([], [])
  | c :: cs =>
    if Operator.isSymbol c then ([], [c] :: atOperand cs)
    else
      match inOperand cs with
      | (rest, tokens) => (c :: rest, tokens)

end

/-- The tokens of an expression in order, none for a blank one. -/
def ofText (text : String) : List String :=
  (atOperand (text.toList.filter (!Text.isBlank ·))).map String.ofList

end Token

/-- What a token means. -/
inductive TokenKind where
  /-- A literal with a finite value. -/
  | number (value : Double)
  /-- The symbol of an operator. -/
  | operator (o : Operator)
  /-- Neither of the two. -/
  | unrecognised
  deriving DecidableEq

/-- The meaning of a token. -/
def TokenKind.ofToken (token : String) : TokenKind :=
  match Numeral.parse? token with
  | some value => .number value
  | none =>
    match Operator.ofText? token with
    | some o => .operator o
    | none => .unrecognised

end Keypad
