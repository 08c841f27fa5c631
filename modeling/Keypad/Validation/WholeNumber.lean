import Keypad.Text.Blank
import Keypad.Validation.Problem

/-!
# Whole numbers in texts

A text denotes a whole number in plain form: a minus, if any, and digits that do not begin with a
needless zero. More may stand there, and is taken away first, in this order: white space at the two
ends, a plus in front, the zeros in front with all underscores among them, a point with zeros behind
the digits, and underscores that stand alone between two other characters. Zeros in front are taken
away before it is known what they stand in front of, so that a minus may follow them too.

What is left of a text that is no number keeps a character that a plain form has not, and so is
refused in the end.
-/

namespace Keypad.WholeNumber

/-- The characters without underscores; none when an underscore does not stand alone between two
others. -/
def withoutUnderscores? : List Char → Option (List Char)
  | '_' :: _ => none
  | c :: '_' :: d :: cs => (withoutUnderscores? (d :: cs)).map (c :: ·)
  | c :: cs => (withoutUnderscores? cs).map (c :: ·)
  | [] => some []

/-! ## Zeros in front -/

/-- What a number begins with behind its zeros: a minus, or a digit that is not zero. -/
def beginsNumber (c : Char) : Bool := c == '-' || ('1' ≤ c && c ≤ '9')

/-- The characters behind zeros and underscores, of which `last` is the one met last. It is kept in
front of a point and at the end, where it is the number itself. -/
def afterZeros (last : Char) : List Char → Option (List Char)
  | [] => some [last]
  | c :: cs =>
    if c == '0' || c == '_' then afterZeros c cs
    else if c == '.' then some (last :: c :: cs)
    else if beginsNumber c then some (c :: cs)
    else none

/-- The characters without zeros in front; none when something else than a number follows. -/
def withoutZeros : List Char → Option (List Char)
  | '0' :: cs => afterZeros '0' cs
  | c :: cs => if beginsNumber c then some (c :: cs) else none
  | [] => none

/-- The characters without a plus and zeros in front. A plus in front of a minus is no sign. -/
def withoutLead : List Char → Option (List Char)
  | '+' :: '-' :: _ => none
  | '+' :: cs => withoutZeros cs
  | '-' :: cs => (withoutZeros cs).map ('-' :: ·)
  | cs => withoutZeros cs

/-! ## Zeros behind a point -/

/-- The characters without a point that only zeros follow, and at least one of them. -/
def withoutFraction (cs : List Char) : List Char :=
  match cs.dropWhile (· != '.') with
  | '.' :: '0' :: zeros => if zeros.all (· == '0') then cs.takeWhile (· != '.') else cs
  | _ => cs

/-! ## Reading -/

/-- How many characters a whole number may have, its minus included. -/
def maxLength : Nat := 4300

/-- The number that digits without a sign denote; `width` is how many characters the sign has. -/
def magnitude (width : Nat) (cs : List Char) : Except Issue Nat :=
  if cs = ['0'] then .ok 0
  else if cs = [] ∨ cs.head? = some '0' then .error .intParsing
  else if maxLength < width + (cs.takeWhile Char.isDigit).length then .error .intSize
  else if cs.all Char.isDigit then .ok (Nat.ofDigitChars 10 cs 0)
  else .error .intParsing

/-- The whole number in plain form. -/
def ofPlain : List Char → Except Issue Int
  | '-' :: cs => (magnitude 1 cs).map fun n => -(n : Int)
  | cs => (magnitude 0 cs).map fun n => (n : Int)

/-- The whole number that a text denotes. -/
def ofText (s : String) : Except Issue Int :=
  match withoutLead (Text.trim Text.isSpace s.toList) with
  | none => .error .intParsing
  | some cs =>
    let digits := withoutFraction cs
    ofPlain ((withoutUnderscores? digits).getD digits)

end Keypad.WholeNumber
