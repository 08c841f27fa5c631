import Keypad.Numeral
import Keypad.Validation.WholeNumber

/-!
# Reading single values

A field takes more than the values of its own kind. A whole number may be given as a truth value, as
a number without fraction or as a text; a truth value as one, zero or one of a dozen words; a number
as anything that denotes one. A text must be a text. Bytes count as the text that they encode.
-/

namespace Keypad.Datum

/-- The text that bytes encode. -/
def decode? (bs : List UInt8) : Option String := String.fromUTF8? ⟨bs.toArray⟩

/-- The text that a value is or encodes; the second part is the issue of bytes that encode none. -/
def textLike? (undecodable : Issue) : Datum → Option (Except Issue String)
  | .text s => some (.ok s)
  | .bytes bs =>
    match decode? bs with
    | some s => some (.ok s)
    | none => some (.error undecodable)
  | _ => none

/-! ## Texts -/

/-- A text. -/
def toText (datum : Datum) : Except Issue String :=
  (textLike? .stringUnicode datum).getD (.error .stringType)

/-- A text, or nothing. -/
def toText? : Datum → Except Issue (Option String)
  | .null => .ok none
  | datum => (toText datum).map some

/-! ## Whole numbers -/

/-- The integers of a machine word have a smaller magnitude, but for one of them. A number without
fraction counts as a whole number only below it. -/
def wordBound : Nat := Nat.pow 2 63

/-- A whole number. -/
def toInt (datum : Datum) : Except Issue Int :=
  match textLike? .intParsing datum with
  | some (.error issue) => .error issue
  | some (.ok s) => WholeNumber.ofText s
  | none =>
    match datum with
    | .bool b => .ok (if b then 1 else 0)
    | .int n => .ok n
    | .double x =>
      if ¬ x.isFinite then .error .finiteNumber
      else if ¬ x.isIntegral then .error .intFromFloat
      else if x.floor.natAbs < wordBound then .ok x.floor
      else .error .intSize
    | _ => .error .intType

/-- A whole number from zero to a bound. -/
def toFin (bound : Nat) (datum : Datum) : Except Issue (Fin (bound + 1)) :=
  match toInt datum with
  | .error issue => .error issue
  | .ok (.negSucc _) => .error .belowMinimum
  | .ok (.ofNat n) => if h : n < bound + 1 then .ok ⟨n, h⟩ else .error .aboveMaximum

/-! ## Truth values -/

/-- The words for false. -/
def falseWords : List String := ["0", "off", "f", "false", "n", "no"]

/-- The words for true. -/
def trueWords : List String := ["1", "on", "t", "true", "y", "yes"]

/-- The truth value that a word denotes, in any case. -/
def parseBool? (s : String) : Option Bool :=
  let word := String.ofList (s.toList.map Char.toLower)
  if falseWords.contains word then some false
  else if trueWords.contains word then some true
  else none

/-- The truth value that a number denotes; none is looked for beyond the machine words. -/
def boolOfInt (n : Int) : Except Issue Bool :=
  if n = 0 then .ok false
  else if n = 1 then .ok true
  else if -(wordBound : Int) ≤ n ∧ n < wordBound then .error .boolParsing
  else .error .boolType

/-- A truth value. -/
def toBool (datum : Datum) : Except Issue Bool :=
  match textLike? .boolParsing datum with
  | some (.error issue) => .error issue
  | some (.ok s) =>
    match parseBool? s with
    | some b => .ok b
    | none => .error .boolParsing
  | none =>
    match datum with
    | .bool b => .ok b
    | .int n => boolOfInt n
    | .double x =>
      if x.isIntegral ∧ x.floor.natAbs < wordBound then boolOfInt x.floor else .error .boolType
    | _ => .error .boolType

/-! ## Numbers -/

/-- The number that a text denotes. Underscores may stand between the characters of a number that
has no white space around it. -/
def parseDouble? (s : String) : Option Double :=
  match Double.ofChars? s.toList with
  | some x => some x
  | none => (WholeNumber.withoutUnderscores? s.toList).bind Double.signed?

/-- A number. -/
def toDouble (datum : Datum) : Except Issue Double :=
  match textLike? .floatParsing datum with
  | some (.error issue) => .error issue
  | some (.ok s) =>
    match parseDouble? s with
    | some x => .ok x
    | none => .error .floatParsing
  | none =>
    match datum with
    | .bool b => .ok (Double.ofInt (if b then 1 else 0))
    | .int n => if (Double.ofInt n).isFinite then .ok (Double.ofInt n) else .error .floatType
    | .double x => .ok x
    | _ => .error .floatType

/-- A number, or nothing. -/
def toDouble? : Datum → Except Issue (Option Double)
  | .null => .ok none
  | datum => (toDouble datum).map some

/-! ## Outcomes -/

/-- An outcome, given by its identifier. -/
def toOutcome : Datum → Except Issue Outcome
  | .text s =>
    match Outcome.ofName? s with
    | some outcome => .ok outcome
    | none => .error .outcome
  | _ => .error .outcome

end Keypad.Datum
