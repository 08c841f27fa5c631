import Keypad.Double.Places
import Keypad.Double.Text
import Keypad.Postfix

/-!
# Evaluation

A postfix sequence is evaluated on a stack of operands. Every operation is checked for a zero
divisor and for a finite result, rounded to the given number of decimal places, and recorded as a
`Step`. The steps are kept also when the evaluation stops early.
-/

namespace Keypad

/-- One operation of an evaluation, with its rounded result. -/
structure Step where
  /-- The left operand. -/
  left : Double
  /-- The symbol of the operator. -/
  symbol : String
  /-- The right operand. -/
  right : Double
  /-- The rounded result. -/
  result : Double
  deriving DecidableEq

/-- The operation written as an equation. -/
def Step.text (s : Step) : String :=
  s.left.text ++ " " ++ s.symbol ++ " " ++ s.right.text ++ " = " ++ s.result.text

/-- Why an evaluation ends without a value. -/
inductive Stop where
  /-- Something is wrong with what is evaluated. -/
  | fault (fault : Fault)
  /-- The results cannot be rounded to the number of places asked for. -/
  | scale (fault : ScaleFault)
  deriving DecidableEq

/-- What came of an evaluation. -/
structure Evaluation where
  /-- The operations carried out, in order. -/
  steps : List Step
  /-- The value, or why there is none. -/
  outcome : Except Stop Double

namespace Evaluation

/-- The number of decimal places that are kept unless another number is asked for. -/
def defaultPrecision : Int := 9

/-- One operation: the divisor is checked, then the result, which is then rounded. -/
def reduce (precision : Int) (o : Operator) (left right : Double) : Except Stop Double :=
  match o.compute? left right with
  | none => .error (.fault .divisionByZero)
  | some result =>
    if result.isFinite then
      match result.roundHalfUp precision with
      | .ok rounded => .ok rounded
      | .error fault => .error (.scale fault)
    else .error (.fault .notFinite)

/-- Evaluates the items that follow when the operands in front of them, the last one first, are on
the stack. -/
def run (precision : Int) : (operands : List Double) → List Item → Evaluation
  | [value], [] => ⟨[], .ok value⟩
  | operands, [] => ⟨[], .error (.fault (.leftover operands.length))⟩
  | operands, .number value :: items => run precision (value :: operands) items
  | right :: left :: operands, .operator o :: items =>
    match reduce precision o left right with
    | .error stop => ⟨[], .error stop⟩
    | .ok result =>
      match run precision (result :: operands) items with
      | ⟨steps, outcome⟩ => ⟨⟨left, o.text, right, result⟩ :: steps, outcome⟩
  | _, .operator o :: _ => ⟨[], .error (.fault (.missingOperand o))⟩
  | _, .foreign shown :: _ => ⟨[], .error (.fault (.unexpectedItem shown))⟩

/-- Evaluates a postfix sequence. -/
def ofItems (precision : Int) (items : List Item) : Evaluation := run precision [] items

end Evaluation

end Keypad
