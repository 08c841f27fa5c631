import Keypad.Decimal.Basic
import Keypad.Text.Digit

/-!
# Numerals

The two ways in which a number may be written in a text. A literal of an expression is an optional
`-`, then digits with an optional point among, before or behind them, then an optional exponent; it
counts only if its value is a finite double. Numbers outside of expressions may also have a leading
`+`, name an infinity or no number at all, and be surrounded by white space.

Only the ten ASCII digits are digits in these. The most generous reader, `Double.ofText?`, takes the
digits of any script, with single underscores between them.
-/

namespace Keypad

/-- A numeral: a sign and a decimal. The sign of a zero counts. -/
structure Numeral where
  /-- Whether the numeral begins with `-`. -/
  negative : Bool
  /-- What follows the sign. -/
  magnitude : Decimal
  deriving DecidableEq

namespace Numeral

/-- The exact value. -/
def value (n : Numeral) : Rat := if n.negative then -n.magnitude.value else n.magnitude.value

/-- The nearest double. -/
def toDouble (n : Numeral) : Double := n.magnitude.toDouble n.negative

/-! ## Reading -/

/-- The number that a text of one or more digits denotes. -/
def natural? (cs : List Char) : Option Nat :=
  if cs ≠ [] ∧ cs.all Char.isDigit then some (Nat.ofDigitChars 10 cs 0) else none

/-- The exponent behind a mantissa: nothing, or `e` or `E`, a sign if any, and digits. -/
def exponent? : List Char → Option Int
  | [] => some 0
  | e :: cs =>
    if e = 'e' ∨ e = 'E' then
      match cs with
      | '+' :: ds => (natural? ds).map fun n => (n : Int)
      | '-' :: ds => (natural? ds).map fun n => -(n : Int)
      | ds => (natural? ds).map fun n => (n : Int)
    else none

/-- The digits behind a point at the front, and what follows them. -/
def splitFraction : List Char → List Char × List Char
  | '.' :: cs => (cs.takeWhile Char.isDigit, cs.dropWhile Char.isDigit)
  | cs => ([], cs)

/-- A numeral without a sign. -/
def unsigned? (cs : List Char) : Option Decimal :=
  let whole := cs.takeWhile Char.isDigit
  let (fraction, tail) := splitFraction (cs.dropWhile Char.isDigit)
  if whole = [] ∧ fraction = [] then none
  else
    (exponent? tail).map fun e => ⟨Nat.ofDigitChars 10 (whole ++ fraction) 0, e - fraction.length⟩

/-- A literal of an expression, whatever its size. -/
def ofChars? : List Char → Option Numeral
  | '-' :: cs => (unsigned? cs).map (Numeral.mk true)
  | cs => (unsigned? cs).map (Numeral.mk false)

/-- The double that a literal of an expression denotes; none when the literal is too large. -/
def parse? (text : String) : Option Double :=
  match ofChars? text.toList with
  | some n => if n.toDouble.isFinite then some n.toDouble else none
  | none => none

end Numeral

/-! ## Numbers outside of expressions -/

namespace Double

/-- What may follow the sign: a word for what is not finite, in any case, or a numeral. -/
def magnitude? (negative : Bool) (cs : List Char) : Option Double :=
  let word := String.ofList (cs.map Char.toLower)
  if word = "inf" ∨ word = "infinity" then some (.infinite negative)
  else if word = "nan" then some .nan
  else (Numeral.unsigned? cs).map (Decimal.toDouble negative)

/-- A number or word with a sign, if it has one. -/
def signed? : List Char → Option Double
  | '-' :: cs => magnitude? true cs
  | '+' :: cs => magnitude? false cs
  | cs => magnitude? false cs

/-- The characters without underscores; none when an underscore does not stand alone between two
digits. -/
def joinDigits? : List Char → Option (List Char)
  | '_' :: _ => none
  | c :: '_' :: d :: cs =>
    if c.isDigit && d.isDigit then (joinDigits? (d :: cs)).map (c :: ·) else none
  | c :: cs => (joinDigits? cs).map (c :: ·)
  | [] => some []

/-- A number or word with white space around it. -/
def ofChars? (cs : List Char) : Option Double := signed? (Text.trim Text.isSpace cs)

/-- A number or word in the digits of any script. -/
def ofText? (text : String) : Option Double :=
  (joinDigits? (Text.trim Text.isSpace (text.toList.map Text.plain))).bind signed?

end Double

end Keypad
