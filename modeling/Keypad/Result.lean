import Keypad.Config
import Keypad.Double.Text

/-!
# Results

The result of one calculation: the expression and a verdict. A verdict carries a value exactly when
the calculation succeeded and can carry a message only for an error, so a result that says two
things at once cannot be formed. `Result.ofParts` puts a result together from parts that were given
separately and says which rule they break.
-/

namespace Keypad

/-- What a calculation found. -/
inductive Verdict where
  /-- The value of the expression. -/
  | ok (value : Double)
  /-- The expression is blank. -/
  | empty
  /-- An error, and the text for it. -/
  | error (kind : ErrorKind) (message : Option String)
  deriving DecidableEq

/-- The result of one calculation. -/
structure Result where
  /-- The expression as it was given. -/
  expression : String
  /-- What was found. -/
  verdict : Verdict
  deriving DecidableEq

/-- A rule that the parts of a result break. -/
inductive PartsFault where
  /-- Success without a value. -/
  | missingValue
  /-- A value without success. -/
  | strayValue (outcome : Outcome)
  /-- A message without an error. -/
  | strayMessage (outcome : Outcome)
  deriving DecidableEq

/-- The broken rule in words. -/
def PartsFault.message : PartsFault → String
  | .missingValue => "ok result requires a value"
  | .strayValue outcome => outcome.name ++ " result cannot carry a value"
  | .strayMessage outcome => outcome.name ++ " result cannot carry a message"

namespace Result

/-- How the calculation ended. -/
def outcome (r : Result) : Outcome :=
  match r.verdict with
  | .ok _ => .ok
  | .empty => .empty
  | .error kind _ => .error kind

/-- The value, if there is one. -/
def value? (r : Result) : Option Double :=
  match r.verdict with
  | .ok value => some value
  | _ => none

/-- The text for the error, if there is one. -/
def message? (r : Result) : Option String :=
  match r.verdict with
  | .error _ message => message
  | _ => none

/-- The calculation found a value. -/
def isOk (r : Result) : Bool := r.outcome = .ok

/-- The expression was blank. -/
def isEmpty (r : Result) : Bool := r.outcome = .empty

/-- The calculation ended with an error. -/
def isError (r : Result) : Bool := !r.isOk && !r.isEmpty

/-- The text on a result line: the value, the message of an error, or nothing. -/
def display (r : Result) : String :=
  match r.verdict with
  | .ok value => value.display
  | .empty => ""
  | .error _ message => message.getD ""

/-- A result has a value exactly after success. -/
theorem isSome_value?_iff (r : Result) : r.value?.isSome ↔ r.outcome = .ok := by
  obtain ⟨expression, verdict⟩ := r
  cases verdict with
  | ok value => simp [value?, outcome]
  | empty => simp [value?, outcome]
  | error kind message => simp [value?, outcome]

/-- The result with these parts. A value that is missing or out of place is found first. -/
def ofParts (expression : String) (outcome : Outcome) (value : Option Double)
    (message : Option String) : Except PartsFault Result :=
  match outcome, value, message with
  | .ok, none, _ => .error .missingValue
  | .ok, some _, some _ => .error (.strayMessage .ok)
  | .ok, some value, none => .ok ⟨expression, .ok value⟩
  | .empty, some _, _ => .error (.strayValue .empty)
  | .empty, none, some _ => .error (.strayMessage .empty)
  | .empty, none, none => .ok ⟨expression, .empty⟩
  | .error kind, some _, _ => .error (.strayValue (.error kind))
  | .error kind, none, message => .ok ⟨expression, .error kind message⟩

/-- The parts of a result break no rule, and they give the result again. -/
theorem ofParts_eq_ok (r : Result) :
    ofParts r.expression r.outcome r.value? r.message? = .ok r := by
  obtain ⟨expression, verdict⟩ := r
  cases verdict with
  | ok value => rfl
  | empty => rfl
  | error kind message => rfl

end Result

end Keypad
