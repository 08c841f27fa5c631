import Keypad.Decimal.Shortest

/-!
# Writing doubles

The three texts of a double, all made of the digits of its shortest decimal or, for integers, of its
exact value.

* `text` reads back as the same double. It is positional, with at least one digit behind the point,
  while the exponent of the leading digit is at least -4 and below 16; otherwise it has an exponent
  with a sign and at least two digits.
* `display` is what a result line shows: integers below `10^21` in full without a point, all else as
  in `text`.
* `plain` never has an exponent and writes no point without need, so that it can be typed on.
-/

namespace Keypad.Double

/-- The decimal whose digits are written. -/
def decimal (x : Double) : Decimal :=
  match x with
  | .finite _ units _ => if units = 0 then ⟨0, 0⟩ else shortest units
  | _ => ⟨0, 0⟩

/-- The sign in front of a number. -/
def signChars (negative : Bool) : List Char := if negative then ['-'] else []

/-- The exponents of the leading digit that are written positionally. -/
def isPositional (exponent : Int) : Bool := -4 ≤ exponent && exponent < 16

/-- The sign and at least two digits of an exponent. -/
def exponentChars (exponent : Int) : List Char :=
  let digits := Nat.toDigits 10 exponent.natAbs
  (if exponent < 0 then '-' else '+') :: if digits.length < 2 then '0' :: digits else digits

/-- The digits with a point behind the first one, if more than one digit follows. -/
def mantissaChars : List Char → List Char
  | d :: e :: ds => d :: '.' :: e :: ds
  | ds => ds

/-- A magnitude, positional or with an exponent. -/
def magnitudeChars (d : Decimal) : List Char :=
  if d.digits = 0 then ['0', '.', '0']
  else if isPositional (d.point - 1) then
    d.wholeDigits ++ '.' :: (if d.fractionDigits = [] then ['0'] else d.fractionDigits)
  else
    mantissaChars d.significant ++ 'e' :: exponentChars (d.point - 1)

/-- A magnitude without an exponent and without a needless point. -/
def plainChars (d : Decimal) : List Char :=
  d.wholeDigits ++ if d.fractionDigits = [] then [] else '.' :: d.fractionDigits

/-- The shortest text that reads back as the double. -/
def text (x : Double) : String :=
  match x with
  | .finite negative _ _ => String.ofList (signChars negative ++ magnitudeChars x.decimal)
  | .infinite negative => if negative then "-inf" else "inf"
  | .nan => "nan"

/-- The text on a result line. -/
def display (x : Double) : String :=
  match x with
  | .finite negative units _ =>
    if units = 0 then "0"
    else if x.isIntegral ∧ units < Nat.pow 10 21 * unitsPerOne then
      String.ofList (signChars negative ++ Nat.toDigits 10 (units / unitsPerOne))
    else x.text
  | x => x.text

/-- The text of a result that becomes part of an expression. -/
def plain (x : Double) : String :=
  match x with
  | .finite negative units _ =>
    if units = 0 then "0" else String.ofList (signChars negative ++ plainChars x.decimal)
  | .infinite negative => if negative then "-Infinity" else "Infinity"
  | .nan => "NaN"

end Keypad.Double
