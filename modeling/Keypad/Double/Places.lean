import Keypad.Decimal.Basic
import Keypad.Double.Arith

/-!
# Rounding to decimal places

A double is rounded to a number of decimal places by scaling it with a power of ten, going to the
nearest integer, a half going up, and scaling back. A value that overflows when it is scaled is
returned as it is. The number of places may be any integer. Two ranges have no power of ten to scale
with: from 309 places on it is beyond the doubles, and from 324 places before the point on it
vanishes. A number of places that is itself beyond the doubles, in either direction, counts with the
first. These are the two values of `ScaleFault`, and from 0 to 15 places, which is what a
configuration allows, neither occurs.
-/

namespace Keypad

/-- Why a double cannot be rounded to some number of places. -/
inductive ScaleFault where
  /-- The power of ten is too large for a double. -/
  | tooLarge
  /-- The power of ten is zero as a double. -/
  | vanishing
  deriving DecidableEq

namespace Double

/-- The integer nearest to a finite double, a half going up. The remainder is computed in doubles.
-/
def halfUp (x : Double) : Int :=
  if half.le (x.sub (ofInt x.floor)) then x.floor + 1 else x.floor

/-- The double rounded to a number of decimal places, halves going toward positive infinity. -/
def roundHalfUp (x : Double) (places : Int) : Except ScaleFault Double :=
  let scale := Decimal.powerOfTen places
  let scaled := x.mul scale
  if ¬ scale.isFinite ∨ ¬ (ofInt places).isFinite then .error .tooLarge
  else if ¬ scaled.isFinite then .ok x
  else
    match places with
    -- A power of ten with a positive exponent is exact here, so the quotient is rounded only once.
    | .ofNat p => .ok (ofIntRatio scaled.halfUp (Nat.pow 10 p))
    | .negSucc _ =>
      if scale.isZero then .error .vanishing else .ok ((ofInt scaled.halfUp).div scale)

end Double

end Keypad
