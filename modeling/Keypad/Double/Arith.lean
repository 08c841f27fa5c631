import Keypad.Double.Round

/-!
# Arithmetic on doubles

The four operations on finite doubles are computed exactly, on the signed counts of units, and then
rounded once. What is left is the sign of a zero and the table of the infinities.

A sum that is exactly zero is positive unless both addends are negative. A product or quotient is
negative when exactly one of its operands is.
-/

namespace Keypad

namespace Double

/-- The sum. -/
def add : Double → Double → Double
  | .nan, _ => .nan
  | _, .nan => .nan
  | .infinite s, .infinite t => if s = t then .infinite s else .nan
  | .infinite s, .finite .. => .infinite s
  | .finite .., .infinite t => .infinite t
  | x@(.finite s _ _), y@(.finite t _ _) =>
    let sum := x.signedUnits + y.signedUnits
    if sum = 0 then zero (s && t) else ofUnits (sum < 0) sum.natAbs 1

/-- The difference, the sum with the negated subtrahend. -/
def sub (x y : Double) : Double := x.add y.neg

/-- The product. -/
def mul : Double → Double → Double
  | .nan, _ => .nan
  | _, .nan => .nan
  | .infinite s, .infinite t => .infinite (s ^^ t)
  | .infinite s, .finite t n _ => if n = 0 then .nan else .infinite (s ^^ t)
  | .finite s m _, .infinite t => if m = 0 then .nan else .infinite (s ^^ t)
  | .finite s m _, .finite t n _ => ofUnits (s ^^ t) (m * n) unitsPerOne

/-- The quotient. -/
def div : Double → Double → Double
  | .nan, _ => .nan
  | _, .nan => .nan
  | .infinite _, .infinite _ => .nan
  | .infinite s, .finite t _ _ => .infinite (s ^^ t)
  | .finite s _ _, .infinite t => zero (s ^^ t)
  | .finite s m _, .finite t n _ =>
    if n = 0 then if m = 0 then .nan else .infinite (s ^^ t)
    else ofRatio (s ^^ t) m n

end Double

end Keypad
