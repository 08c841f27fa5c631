/-!
# Double precision numbers

A finite double is a sign and a whole number of units, the unit being `2^-1074`, the least positive
double. Which counts of units occur is the predicate `Fits`: at most 53 significant bits, and below
`2^1024`. Since a count has one value and a value has one count, equality of doubles is decidable
and needs no normal form. The two zeros are different doubles with the same value. Comparisons here
are numeric, so they identify the two zeros and are false as soon as one side is not a number.
-/

namespace Keypad

namespace Double

/-- The number of units in one, `2^1074`. -/
@[irreducible]
def unitsPerOne : Nat := Nat.pow 2 1074

/-- The first count of units beyond the finite doubles, the units in `2^1024`. -/
@[irreducible]
def unitsBound : Nat := Nat.pow 2 2098

/-- The count has at most 53 significant bits and lies below `unitsBound`. -/
def Fits (units : Nat) : Prop := Nat.pow 2 (units.log2 - 52) ∣ units ∧ units < unitsBound

instance (units : Nat) : Decidable (Fits units) := by unfold Fits; infer_instance

end Double

/-- A double precision number. -/
inductive Double where
  /-- The number `± units · 2^-1074`; a zero has a sign too. -/
  | finite (negative : Bool) (units : Nat) (fits : Double.Fits units)
  /-- An infinity. -/
  | infinite (negative : Bool)
  /-- Not a number, the result of an operation that has none. -/
  | nan
  deriving DecidableEq

namespace Double

/-! ## Constants -/

/-- No units at all are a double. -/
theorem fits_zero : Fits 0 := ⟨⟨0, rfl⟩, by unfold unitsBound; apply Nat.two_pow_pos⟩

/-- Zero with the given sign. -/
def zero (negative : Bool) : Double := .finite negative 0 fits_zero

/-- The positive zero. -/
instance : Inhabited Double := ⟨zero false⟩

/-! ## Value and sign -/

/-- The finite doubles. -/
def isFinite : Double → Bool
  | .finite .. => true
  | _ => false

/-- The two zeros. -/
def isZero : Double → Bool
  | .finite _ units _ => units == 0
  | _ => false

/-- The sign, which a zero has too; a number that is none counts as positive. -/
def isNegative : Double → Bool
  | .finite negative _ _ => negative
  | .infinite negative => negative
  | .nan => false

/-- The signed count of units of a finite double, and zero for the others. -/
def signedUnits : Double → Int
  | .finite negative units _ => if negative then -(units : Int) else units
  | _ => 0

/-- The exact value of a finite double, and zero for the others. -/
def toRat (x : Double) : Rat := x.signedUnits / (unitsPerOne : Rat)

/-- The greatest integer that is not above a finite double, and zero for the others. -/
def floor (x : Double) : Int := x.signedUnits / (unitsPerOne : Int)

/-- The finite doubles without a fraction. -/
def isIntegral : Double → Bool
  | .finite _ units _ => units % unitsPerOne == 0
  | _ => false

/-! ## Negation and comparison -/

/-- The same magnitude with the other sign. -/
def neg : Double → Double
  | .finite negative units fits => .finite (!negative) units fits
  | .infinite negative => .infinite (!negative)
  | .nan => .nan

/-- Numeric order. -/
def le : Double → Double → Bool
  | .nan, _ => false
  | _, .nan => false
  | .infinite true, _ => true
  | _, .infinite negative => !negative
  | .infinite false, .finite .. => false
  | x, y => x.signedUnits ≤ y.signedUnits

end Double

end Keypad
