import Keypad.Double.Round

/-!
# Decimal numbers

A decimal is a whole number scaled by a power of ten. It is what a numeral denotes before it is
rounded to a double, and what a double is turned into before it is written. `Decimal.toDouble`
rounds the exact value once; exponents of any size are settled without computing their power of ten,
since a number from `10^309` on is beyond the doubles and one below `10^-324` rounds to zero.

`significant` and `point` give the digits of a decimal and the place of its point, which is all that
the ways of writing it need.
-/

namespace Keypad

/-- The number `digits · 10^exponent`. -/
structure Decimal where
  /-- The significant digits, as a whole number. -/
  digits : Nat
  /-- The power of ten that scales them. -/
  exponent : Int
  deriving DecidableEq

namespace Decimal

/-- The exact value. -/
def value (d : Decimal) : Rat := d.digits * (10 : Rat) ^ d.exponent

/-- The double nearest to the value, with the given sign. -/
def toDouble (negative : Bool) (d : Decimal) : Double :=
  if d.digits = 0 then .zero negative
  else
    match d.exponent with
    | .ofNat e =>
      if 309 ≤ e then .infinite negative else .ofRatio negative (d.digits * Nat.pow 10 e) 1
    | .negSucc e =>
      -- The value is below `2 ^ (log2 digits + 1) / 10 ^ (e + 1)`, hence below `10 ^ -324`.
      if d.digits.log2 + 324 ≤ e then .zero negative
      else .ofRatio negative d.digits (Nat.pow 10 (e + 1))

/-- The double nearest to a power of ten. -/
def powerOfTen (exponent : Int) : Double := toDouble false ⟨1, exponent⟩

/-! ## Digits and point -/

/-- The digits without trailing zeros, none for zero. -/
def significant (d : Decimal) : List Char :=
  ((Nat.toDigits 10 d.digits).reverse.dropWhile (· == '0')).reverse

/-- The place of the point, counted from the front of the digits: with the significant digits
`d₁ d₂ d₃ …` the value is `0.d₁d₂d₃… · 10^point`. -/
def point (d : Decimal) : Int := (Nat.toDigits 10 d.digits).length + d.exponent

/-- The digits before the point when the number is written in full, at least one. -/
def wholeDigits (d : Decimal) : List Char :=
  if d.point ≤ 0 then ['0']
  else
    d.significant.take d.point.toNat ++
      List.replicate (d.point.toNat - d.significant.length) '0'

/-- The digits behind the point when the number is written in full, without trailing zeros. -/
def fractionDigits (d : Decimal) : List Char :=
  if d.point ≤ 0 then List.replicate (-d.point).toNat '0' ++ d.significant
  else d.significant.drop d.point.toNat

end Decimal

end Keypad
