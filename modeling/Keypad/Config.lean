import Keypad.Failure

/-!
# Outcome and configuration

How a calculation can end, and what may be chosen about it: the number of decimal places that every
operation is rounded to, whether tokens without a meaning are refused, and the text that stands for
each error. The bound on the number of places is part of its type.
-/

namespace Keypad

/-- How a calculation ends. -/
inductive Outcome where
  /-- With a value. -/
  | ok
  /-- With nothing, since the expression is blank. -/
  | empty
  /-- With an error. -/
  | error (kind : ErrorKind)
  deriving DecidableEq

namespace Outcome

/-- All outcomes. -/
def all : List Outcome :=
  [.ok, .empty, .error .invalidExpression, .error .divisionByZero, .error .malformedToken]

/-- The identifier of an outcome. -/
def name : Outcome → String
  | .ok => "ok"
  | .empty => "empty"
  | .error kind => kind.name

/-- The outcome with an identifier. -/
def ofName? (name : String) : Option Outcome := all.find? fun o => o.name = name

end Outcome

/-- The texts that stand for the errors on a result line. -/
structure Messages where
  /-- Shown for a division by zero. -/
  divisionByZero : String := "Error: Div by 0"
  /-- Shown for an expression without a value. -/
  invalidExpression : String := "Error"
  /-- Shown for a token without a meaning. -/
  malformedToken : String := "Error"
  deriving DecidableEq

namespace Messages

/-- The text for an error kind. -/
def text (m : Messages) : ErrorKind → String
  | .invalidExpression => m.invalidExpression
  | .divisionByZero => m.divisionByZero
  | .malformedToken => m.malformedToken

/-- The text for an outcome; only errors have one. -/
def forOutcome (m : Messages) : Outcome → Option String
  | .error kind => some (m.text kind)
  | _ => none

end Messages

/-- The greatest number of decimal places that may be configured. -/
def Config.maxPrecision : Nat := 15

/-- The configuration of a calculator. -/
structure Config where
  /-- The number of decimal places kept after each operation. -/
  precision : Fin (Config.maxPrecision + 1) := 9
  /-- Whether tokens without a meaning are refused rather than left out. -/
  strictTokens : Bool := false
  /-- The texts of the errors. -/
  messages : Messages := {}
  deriving DecidableEq

end Keypad
