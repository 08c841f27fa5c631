import Keypad.Evaluation
import Keypad.Json.Basic
import Keypad.Result

/-!
# The calculator

One calculation takes an expression through its stages: tokens, postfix order, evaluation. `run`
keeps what every stage has produced, `calculate` only the result. A failure of any stage becomes an
error of the result with the configured text; what is outside of that is only a `ScaleFault`, which
no configuration can cause.
-/

namespace Keypad

/-- What is given to be calculated. -/
inductive Input where
  /-- An expression. -/
  | text (s : String)
  /-- A value that is no text. Of it only the name of its type is ever seen, which may be any. -/
  | other (typeName : String)
  deriving DecidableEq

/-- A JSON value as something to be calculated. -/
def Input.ofJson : Json → Input
  | .text s => .text s
  | .null => .other "NoneType"
  | .bool _ => .other "bool"
  | .int _ => .other "int"
  | .double _ => .other "float"
  | .array _ => .other "list"
  | .object _ => .other "dict"

/-- The stages of one calculation. -/
structure Calculation where
  /-- The result. -/
  result : Result
  /-- The tokens of the expression. -/
  tokens : List String := []
  /-- The tokens left out. -/
  dropped : List String := []
  /-- The remaining tokens in postfix order. -/
  items : List Item := []
  /-- The operations carried out. -/
  steps : List Step := []

namespace Config

/-- The result for an expression that fails. -/
def failed (config : Config) (expression : String) (fault : Fault) : Result :=
  ⟨expression, .error fault.kind (config.messages.forOutcome (.error fault.kind))⟩

/-- Calculates and keeps what every stage has produced. -/
def run (config : Config) : Input → Except ScaleFault Calculation
  | .other typeName => .ok { result := config.failed "" (.notText typeName) }
  | .text s =>
    match Token.ofText s with
    | [] => .ok { result := ⟨s, .empty⟩ }
    | token :: rest =>
      let tokens := token :: rest
      match Postfix.ofTokens config.strictTokens tokens with
      | .error fault => .ok { result := config.failed s fault, tokens }
      | .ok (items, dropped) =>
        match Evaluation.ofItems config.precision.val items with
        | ⟨steps, .ok value⟩ =>
          .ok { result := ⟨s, .ok value⟩, tokens, dropped, items, steps }
        | ⟨steps, .error (.fault fault)⟩ =>
          .ok { result := config.failed s fault, tokens, dropped, items, steps }
        | ⟨_, .error (.scale fault)⟩ => .error fault

/-- The result of a calculation. -/
def calculate (config : Config) (input : Input) : Except ScaleFault Result :=
  match config.run input with
  | .ok calculation => .ok calculation.result
  | .error fault => .error fault

/-- Whether an expression is blank or has a value, and otherwise the text for its error. -/
def validate (config : Config) (input : Input) : Except ScaleFault (Bool × Option String) :=
  match config.calculate input with
  | .ok result => .ok (if result.isError then (false, result.message?) else (true, none))
  | .error fault => .error fault

end Config

end Keypad
