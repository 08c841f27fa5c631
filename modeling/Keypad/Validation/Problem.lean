import Keypad.Datum.Text
import Keypad.Result

/-!
# Problems of validation

Data that is to become a configuration or a result is checked field by field, and all problems are
reported together, each with its place. `Checked` is a value or a list of problems; the problems of
a structure come in the order of their places and, at one place, of their codes.
-/

namespace Keypad

/-- What is wrong with a value. -/
inductive Issue where
  /-- A field that has no default is absent. -/
  | missing
  /-- There is no such field. -/
  | extraForbidden
  /-- A key is no text. -/
  | invalidKey
  /-- A text is expected. -/
  | stringType
  /-- Bytes that are given for a text are no encoded characters. -/
  | stringUnicode
  /-- A whole number is expected. -/
  | intType
  /-- A text does not denote a whole number. -/
  | intParsing
  /-- A whole number has too many digits, or is beyond the machine words. -/
  | intSize
  /-- A number has a fraction. -/
  | intFromFloat
  /-- A number is infinite, or is no number. -/
  | finiteNumber
  /-- A number is too small. -/
  | belowMinimum
  /-- A number is too large. -/
  | aboveMaximum
  /-- A truth value is expected. -/
  | boolType
  /-- A value does not denote a truth value. -/
  | boolParsing
  /-- A number is expected. -/
  | floatType
  /-- A text does not denote a number. -/
  | floatParsing
  /-- The identifier of an outcome is expected. -/
  | outcome
  /-- A mapping with the fields of the named structure is expected. -/
  | notMapping (name : String)
  /-- The fields do not fit together. -/
  | parts (fault : PartsFault)
  deriving DecidableEq

namespace Issue

/-- The identifier of an issue. -/
def code : Issue → String
  | .missing => "missing"
  | .extraForbidden => "extra_forbidden"
  | .invalidKey => "invalid_key"
  | .stringType => "string_type"
  | .stringUnicode => "string_unicode"
  | .intType => "int_type"
  | .intParsing => "int_parsing"
  | .intSize => "int_parsing_size"
  | .intFromFloat => "int_from_float"
  | .finiteNumber => "finite_number"
  | .belowMinimum => "greater_than_equal"
  | .aboveMaximum => "less_than_equal"
  | .boolType => "bool_type"
  | .boolParsing => "bool_parsing"
  | .floatType => "float_type"
  | .floatParsing => "float_parsing"
  | .outcome => "enum"
  | .notMapping _ => "model_type"
  | .parts _ => "value_error"

/-- The identifiers of the outcomes as an enumeration in words. -/
def outcomeNames : String :=
  let names := Outcome.all.map fun o => Text.quoted o.name
  ", ".intercalate names.dropLast ++ " or " ++ names.getLastD ""

/-- The issue in words. -/
def message : Issue → String
  | .missing => "Field required"
  | .extraForbidden => "Extra inputs are not permitted"
  | .invalidKey => "Keys should be strings"
  | .stringType => "Input should be a valid string"
  | .stringUnicode =>
    "Input should be a valid string, unable to parse raw data as a unicode string"
  | .intType => "Input should be a valid integer"
  | .intParsing => "Input should be a valid integer, unable to parse string as an integer"
  | .intSize => "Unable to parse input string as an integer, exceeded maximum size"
  | .intFromFloat => "Input should be a valid integer, got a number with a fractional part"
  | .finiteNumber => "Input should be a finite number"
  | .belowMinimum => "Input should be greater than or equal to 0"
  | .aboveMaximum => "Input should be less than or equal to " ++ toString Config.maxPrecision
  | .boolType => "Input should be a valid boolean"
  | .boolParsing => "Input should be a valid boolean, unable to interpret input"
  | .floatType => "Input should be a valid number"
  | .floatParsing => "Input should be a valid number, unable to parse string as a number"
  | .outcome => "Input should be " ++ outcomeNames
  | .notMapping name => "Input should be a valid dictionary or instance of " ++ name
  | .parts fault => "Value error, " ++ fault.message

end Issue

/-- An issue and its place. -/
structure Problem where
  /-- The keys that lead to the value. -/
  location : List String
  /-- What is wrong with it. -/
  issue : Issue
  deriving DecidableEq

/-- The problem seen from the value around it. -/
def Problem.within (p : Problem) (key : String) : Problem :=
  { p with location := key :: p.location }

/-- The place and the code of a problem, which decide its position. -/
def Problem.le (p q : Problem) : Bool :=
  p.location < q.location || (p.location = q.location && decide (p.issue.code ≤ q.issue.code))

/-- A value or what is wrong with what was given for it. -/
abbrev Checked (α : Type) := Except (List Problem) α

namespace Checked

/-- The problems, none for a value. -/
def problems {α : Type} : Checked α → List Problem
  | .ok _ => []
  | .error problems => problems

/-- The same value, or the problems seen from the value around them. -/
def within {α : Type} (key : String) : Checked α → Checked α
  | .ok value => .ok value
  | .error problems => .error (problems.map (·.within key))

/-- The problems in the order of their places. -/
def failed {α : Type} (problems : List Problem) : Checked α :=
  .error (problems.mergeSort Problem.le)

end Checked

/-! ## Fields -/

namespace Datum

/-- The value of a field, read by `read`; a field that is absent has the value `absent`. -/
def field {α : Type} (members : List (Datum × Datum)) (key : String) (absent : Checked α)
    (read : Datum → Except Issue α) : Checked α :=
  match get? members key with
  | none => absent.within key
  | some datum =>
    match read datum with
    | .ok value => .ok value
    | .error issue => .error [⟨[key], issue⟩]

/-- How many digits of a whole number are written. -/
def maxShownDigits : Nat := 4300

/-- How a key appears in a place. -/
def locationKey : Datum → String
  | .text s => s
  | .int n =>
    if n.natAbs < Nat.pow 10 maxShownDigits then toString n else "<unprintable int object>"
  | .bool b => if b then "1" else "0"
  | datum => datum.shown

/-- The problems with keys that name none of the fields. -/
def unknownKeys (fields : List String) (members : List (Datum × Datum)) : List Problem :=
  members.filterMap fun (key, _) =>
    match key with
    | .text s => if fields.contains s then none else some ⟨[s], .extraForbidden⟩
    | key => some ⟨[key.locationKey], .invalidKey⟩

end Datum

end Keypad
