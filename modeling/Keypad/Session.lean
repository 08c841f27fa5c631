import Keypad.Calculator

/-!
# Keypad sessions

A session has two lines, an expression and a result, and a mark that says whether the result is only
a preview. Keys edit the expression. After most of them the expression is evaluated and its value
shown, if it has one; only finishing the calculation shows an error, and puts a value in the place
of the expression so that it can be continued.

A division error makes the next digit or operator start over. It is recognised by the text on the
result line alone.
-/

namespace Keypad

/-- The display of a keypad calculator. -/
structure Session where
  /-- The expression line. -/
  expression : String := ""
  /-- The result line. -/
  result : String := "0"
  /-- Whether the result line shows a preview. -/
  isPreview : Bool := false
  deriving DecidableEq

/-- What can be done to a session. -/
inductive Action where
  /-- A digit key. Any text may be given in place of a digit. -/
  | digit (text : String)
  /-- An operator key, named by its symbol. -/
  | operator (symbol : String)
  /-- The decimal point. -/
  | decimal
  /-- Removes the last token. -/
  | clearEntry
  /-- Resets both lines. -/
  | allClear
  /-- Removes the last character. -/
  | backspace
  /-- Evaluates what has been entered so far. -/
  | preview
  /-- Finishes the calculation. -/
  | finalize
  /-- Sets parts of the display. -/
  | assign (expression result : Option String) (isPreview : Option Bool)
  deriving DecidableEq

/-- A symbol that stands for no operator. -/
structure UnknownOperator where
  /-- The symbol. -/
  symbol : String
  deriving DecidableEq

/-- What is wrong in words. -/
def UnknownOperator.message (u : UnknownOperator) : String :=
  "Unknown operator: " ++ Text.quoted u.symbol

namespace Session

/-! ## Editing the expression -/

/-- The last character of a text stands for an operator. -/
def endsInOperator (cs : List Char) : Bool := cs.getLast?.any Operator.isSymbol

/-- The text without an operator at its end. -/
def withoutOperator (cs : List Char) : List Char := if endsInOperator cs then cs.dropLast else cs

/-- The part of the text behind its last operator. -/
def lastOperand (cs : List Char) : List Char :=
  (cs.reverse.takeWhile (!Operator.isSymbol ·)).reverse

/-- The expression with a digit: the digit alone when a new expression begins. -/
def withDigit (fresh : Bool) (expression digit : String) : String :=
  if fresh then digit else expression ++ digit

/-- The expression with an operator at its end, in place of one that is there. -/
def withOperator (expression : String) (o : Operator) : String :=
  String.ofList (withoutOperator expression.toList ++ [o.symbol])

/-- The expression with a point, unless its last operand has one. -/
def withPoint (expression : String) : String :=
  if (lastOperand expression.toList).contains '.' then expression else expression ++ "."

/-- The expression without its last token, joined without blanks. -/
def withoutToken (expression : String) : String :=
  String.join (Token.ofText expression).dropLast

/-- The expression without its last character. -/
def withoutLast (expression : String) : String := String.ofList expression.toList.dropLast

/-! ## Actions -/

/-- The result line shows the text of a division error. -/
def showsDivisionError (config : Config) (s : Session) : Bool :=
  s.result = config.messages.divisionByZero

/-- Shows the value of the expression without an operator at its end. What has no value changes
nothing, and an expression that is nothing else is not evaluated. -/
def preview (config : Config) (s : Session) : Except ScaleFault (Session × Option Result) :=
  match withoutOperator s.expression.toList with
  | [] => .ok (s, none)
  | c :: cs =>
    -- The expression line keeps its operator; only what is evaluated goes without it.
    match config.calculate (.text (String.ofList (c :: cs))) with
    | .error fault => .error fault
    | .ok result =>
      if result.isOk then .ok ({ s with result := result.display, isPreview := true }, some result)
      else .ok (s, some result)

/-- The display after a preview. -/
def previewed (config : Config) (s : Session) : Except ScaleFault Session :=
  (preview config s).map (·.1)

/-- Evaluates the expression as it was entered. -/
def finalize (config : Config) (s : Session) : Except ScaleFault (Session × Result) :=
  match config.calculate (.text s.expression) with
  | .error fault => .error fault
  | .ok result =>
    match result.verdict with
    | .ok value => .ok (⟨value.plain, value.display, false⟩, result)
    | .empty => .ok (⟨"", "", false⟩, result)
    | .error _ message => .ok (⟨s.expression, message.getD "", false⟩, result)

/-- Enters a digit, in place of a single zero and after a division error. -/
def digit (config : Config) (s : Session) (text : String) : Except ScaleFault Session :=
  let fresh := s.expression = "0" || s.showsDivisionError config
  previewed config { s with expression := withDigit fresh s.expression text }

/-- Enters an operator; after a division error both lines are reset first. -/
def operator (config : Config) (s : Session) (o : Operator) : Session :=
  let s := if s.showsDivisionError config then {} else s
  { s with expression := withOperator s.expression o }

/-- Removes the last token, if there is one. -/
def clearEntry (config : Config) (s : Session) : Except ScaleFault Session :=
  if Token.ofText s.expression = [] then .ok s
  else previewed config { s with expression := withoutToken s.expression }

/-- Removes the last character, and resets the result when none is left. -/
def backspace (config : Config) (s : Session) : Except ScaleFault Session :=
  if s.expression = "" then .ok s
  else if withoutLast s.expression = "" then .ok {}
  else previewed config { s with expression := withoutLast s.expression }

/-- What an action leads to. -/
structure Response where
  /-- The display after the action. -/
  session : Session
  /-- The result, where the action gives one back. -/
  returned : Option Result := none
  /-- What was refused, which leaves the display as it was. -/
  refused : Option UnknownOperator := none
  deriving DecidableEq

/-- Carries out an action. -/
def press (config : Config) (s : Session) : Action → Except ScaleFault Response
  | .digit text => (digit config s text).map ({ session := · })
  | .operator symbol =>
    match Operator.ofText? symbol with
    | some o => .ok { session := operator config s o }
    | none => .ok { session := s, refused := some ⟨symbol⟩ }
  | .decimal => .ok { session := { s with expression := withPoint s.expression } }
  | .clearEntry => (clearEntry config s).map ({ session := · })
  | .allClear => .ok { session := {} }
  | .backspace => (backspace config s).map ({ session := · })
  | .preview =>
    (preview config s).map fun (session, result) => { session, returned := result }
  | .finalize =>
    (finalize config s).map fun (session, result) => { session, returned := some result }
  | .assign expression result isPreview =>
    .ok { session :=
      ⟨expression.getD s.expression, result.getD s.result, isPreview.getD s.isPreview⟩ }

/-- Carries out actions one after the other and gives the response to each. -/
def pressAll (config : Config) : Session → List Action → Except ScaleFault (List Response)
  | _, [] => .ok []
  | s, action :: actions =>
    match press config s action with
    | .error fault => .error fault
    | .ok response =>
      match pressAll config response.session actions with
      | .error fault => .error fault
      | .ok responses => .ok (response :: responses)

end Session

end Keypad
