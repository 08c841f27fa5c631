import Keypad.Datum.Basic
import Keypad.Double.Arith
import Keypad.Numeral
import Keypad.Text.Digit
import Keypad.Text.Hex
import Keypad.Text.Lower
import Keypad.Yaml.Fault

/-!
# Numbers of documents

The whole numbers and the numbers that scalars denote. Underscores do not count. A whole number is
binary behind `0b`, hexadecimal behind `0x`, octal behind a `0`, and decimal otherwise; parts
divided by colons are its digits to the base of sixty, of a number too.

A scalar may have the tag of a number without the form of one. Then the digits may still have white
space around them, a sign and, once more, the letters that tell the base, and they may be the digits
of any script.
-/

namespace Keypad.Yaml

/-- The characters without underscores. -/
def withoutLines (cs : List Char) : List Char := cs.filter (· != '_')

/-- The parts between characters of one kind. -/
def splitAt (separator : Char) (cs : List Char) : List (List Char) :=
  cs.foldr
    (fun c parts =>
      match parts with
      | [] => if c == separator then [[], []] else [[c]]
      | part :: rest => if c == separator then [] :: part :: rest else (c :: part) :: rest)
    [[]]

/-- A sign and what it stands in front of. -/
def splitSign : List Char → Bool × List Char
  | '-' :: cs => (true, cs)
  | '+' :: cs => (false, cs)
  | cs => (false, cs)

/-- The value of a digit in any base up to sixteen. -/
def digitValue? (base : Nat) (c : Char) : Option Nat :=
  match Text.hexValue? c with
  | some n => if n < base then some n else none
  | none => none

/-- The letter that tells a base, behind a zero. -/
def baseLetter? : Nat → Option Char
  | 2 => some 'b'
  | 8 => some 'o'
  | 16 => some 'x'
  | _ => none

/-- The digits behind a zero and the letter of their base, if these are there. -/
def withoutBase (base : Nat) : List Char → List Char
  | '0' :: c :: cs => if baseLetter? base = some c.toLower then cs else '0' :: c :: cs
  | cs => cs

/-- The number that digits of a base denote. -/
def ofDigits? (base : Nat) (cs : List Char) : Option Nat :=
  if cs.isEmpty then none
  else cs.foldlM (fun n c => (digitValue? base c).map (base * n + ·)) 0

/-- How many decimal digits are read. Bases that are powers of two have no such limit. -/
def maxDigits : Nat := 4300

/-- The whole number that a text denotes in a base. -/
def intOfText (base : Nat) (cs : List Char) : Except Fault Int :=
  match splitSign (Text.trim Text.isSpace (cs.map Text.plain)) with
  | (negative, digits) =>
    let count := (digits.takeWhile Char.isDigit).length
    if base = 10 ∧ maxDigits < count then .error (.tooManyDigits count)
    else
      match ofDigits? base (withoutBase base digits) with
      | some n => .ok (if negative then -(n : Int) else n)
      | none => .error (.notInt base (String.ofList cs))

/-- The whole number whose digits to the base of sixty are given. -/
def ofSixties (digits : List Int) : Int := digits.foldl (fun n digit => 60 * n + digit) 0

/-- A whole number without its sign. -/
def unsignedInt : List Char → Except Fault Int
  | [] => .error .noDigits
  | ['0'] => .ok 0
  | '0' :: 'b' :: cs => intOfText 2 cs
  | '0' :: 'x' :: cs => intOfText 16 cs
  | '0' :: cs => intOfText 8 ('0' :: cs)
  | cs =>
    if cs.contains ':' then ((splitAt ':' cs).mapM (intOfText 10)).map ofSixties
    else intOfText 10 cs

/-- The whole number that a scalar denotes. -/
def toInt (text : String) : Except Fault Int :=
  match splitSign (withoutLines text.toList) with
  | (negative, cs) => (unsignedInt cs).map fun n => if negative then -n else n

/-- The number that a text denotes. -/
def doubleOfText (cs : List Char) : Except Fault Double :=
  match Double.ofChars? (cs.map Text.plain) with
  | some x => .ok x
  | none => .error (.notDouble (String.ofList cs))

/-- A sum and, with the places of the base of sixty from `place` on, the digits given, the last one
first. The sum is rounded after each digit. -/
def addSixties (sum : Double) (place : Int) : List Double → Except Fault Double
  | [] => .ok sum
  | digit :: digits =>
    let weight := Double.ofInt place
    if weight.isFinite then addSixties (sum.add (digit.mul weight)) (60 * place) digits
    else .error .tooManyParts

/-- A number without its sign. -/
def unsignedDouble (cs : List Char) : Except Fault Double :=
  if cs == ".inf".toList then .ok (.infinite false)
  else if cs == ".nan".toList then .ok .nan
  else if cs.contains ':' then
    match (splitAt ':' cs).mapM doubleOfText with
    | .ok digits => addSixties (.zero false) 1 digits.reverse
    | .error fault => .error fault
  else doubleOfText cs

/-- The number that a scalar denotes. -/
def toDouble (text : String) : Except Fault Double :=
  match Text.lower (withoutLines text.toList) with
  | [] => .error .noDigits
  | cs =>
    match splitSign cs with
    | (negative, cs) => (unsignedDouble cs).map fun x => if negative then x.neg else x

end Keypad.Yaml
