import Keypad.Operator
import Keypad.Text.Quoted

/-!
# Failures

What can be wrong with an expression. `Fault` lists the causes that the calculator finds, each with
its wording and its `ErrorKind`, of which there are three. `Failure` is what a caller is told. Its
category is either an error kind or the general one, and the categories form a chain of special
cases: a malformed token makes an invalid expression, and every failure is one of the calculator.
-/

namespace Keypad

/-- The kinds of error that a calculation can end with. -/
inductive ErrorKind where
  | invalidExpression
  | divisionByZero
  | malformedToken
  deriving DecidableEq

/-- The identifier of an error kind. -/
def ErrorKind.name : ErrorKind → String
  | .invalidExpression => "invalid_expression"
  | .divisionByZero => "division_by_zero"
  | .malformedToken => "malformed_token"

/-- A cause of failure. -/
inductive Fault where
  /-- The expression is no text but a value of the type with this name. -/
  | notText (typeName : String)
  /-- A token has no meaning, where all of them must have one. -/
  | malformedToken (token : String)
  /-- What is to be evaluated holds something that is neither a number nor an operator. -/
  | unexpectedItem (shown : String)
  /-- An operator has fewer than two operands. -/
  | missingOperand (o : Operator)
  /-- A divisor is zero. -/
  | divisionByZero
  /-- A result is too large, or is no number. -/
  | notFinite
  /-- Not exactly one value is left. -/
  | leftover (count : Nat)
  deriving DecidableEq

namespace Fault

/-- The error kind of a cause. -/
def kind : Fault → ErrorKind
  | .malformedToken _ => .malformedToken
  | .divisionByZero => .divisionByZero
  | _ => .invalidExpression

/-- The cause in words. -/
def message : Fault → String
  | .notText typeName => "Expected string expression, got " ++ typeName
  | .malformedToken token => "Malformed token: " ++ Text.quoted token
  | .unexpectedItem shown => "Unexpected RPN item: " ++ shown
  | .missingOperand o => "Insufficient operands for " ++ o.text
  | .divisionByZero => "Division by zero"
  | .notFinite => "Result is not a finite number"
  | .leftover count => "Expected one value after evaluation, found " ++ toString count

end Fault

/-! ## What a caller is told -/

/-- The category of a failure. -/
inductive Category where
  /-- Some failure of the calculator. -/
  | general
  /-- A failure of one of the error kinds. -/
  | error (kind : ErrorKind)
  deriving DecidableEq

namespace Category

/-- The identifier of a category. -/
def code : Category → String
  | .general => "calculator_error"
  | .error kind => kind.name

/-- A category and the categories it is a special case of, the most general one last. -/
def lineage : Category → List Category
  | .general => [.general]
  | .error .invalidExpression => [.error .invalidExpression, .general]
  | .error .divisionByZero => [.error .divisionByZero, .general]
  | .error .malformedToken => [.error .malformedToken, .error .invalidExpression, .general]

end Category

/-- What a caller is told about a failure. -/
structure Failure where
  /-- The category. -/
  category : Category
  /-- The text shown to a person. -/
  message : String
  /-- The token at fault, where a single one is. -/
  token : Option String := none
  /-- The expression that failed, if it is known. -/
  expression : Option String := none
  deriving DecidableEq

/-- The failure that a cause leads to. -/
def Fault.toFailure (fault : Fault) (expression : Option String) : Failure where
  category := .error fault.kind
  message := fault.message
  token :=
    match fault with
    | .malformedToken token => some token
    | _ => none
  expression := expression

end Keypad
