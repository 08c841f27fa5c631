import Keypad.Decimal.Basic

/-!
# The shortest decimal of a double

The decimal with the fewest digits that reads back as a given double, and of those the nearest. The
multiples of a power of ten form a grid. On each grid only the two neighbours of the double's exact
value can read back as the double, so the search goes from coarse grids to fine ones and takes the
first grid with a hit; of two hits on one grid the nearer counts, and an even digit decides between
two that are equally near. Seventeen digits always suffice. The exact expansion, which every double
has, stands behind the search, so that what it returns reads back by construction.
-/

namespace Keypad

namespace Double

/-- The double with this magnitude and no sign reads back from the decimal. -/
def ReadsBack (units : Nat) (d : Decimal) : Prop :=
  ∃ fits, d.toDouble false = .finite false units fits

instance (units : Nat) (d : Decimal) : Decidable (ReadsBack units d) :=
  match h : d.toDouble false with
  | .finite false u fits =>
    if hu : u = units then .isTrue (by subst hu; exact ⟨fits, h⟩)
    else .isFalse (by rintro ⟨_, h'⟩; rw [h] at h'; injection h' with _ e; exact hu e)
  | .finite true .. => .isFalse (by rintro ⟨_, h'⟩; rw [h] at h'; cases h')
  | .infinite _ => .isFalse (by rintro ⟨_, h'⟩; rw [h] at h'; cases h')
  | .nan => .isFalse (by rintro ⟨_, h'⟩; rw [h] at h'; cases h')

/-- A count of units as a quotient of multiples of `10^exponent`. -/
def gridQuotient (units : Nat) : Int → Nat × Nat
  | .ofNat e => (units, unitsPerOne * Nat.pow 10 e)
  | .negSucc e => (units * Nat.pow 10 (e + 1), unitsPerOne)

/-- The multiple of `10^exponent` that reads back as the magnitude, the nearest one if there are
two. -/
def onGrid (units : Nat) (exponent : Int) : Option Decimal :=
  let q := gridQuotient units exponent
  -- The nearest multiple comes first, and the two neighbours stand in for it if it is not a hit.
  [nearestEven q.1 q.2, q.1 / q.2, q.1 / q.2 + 1].map (Decimal.mk · exponent)
    |>.find? (ReadsBack units ·)

/-- An exponent whose grid is too coarse for more than one digit of the magnitude: the ratio
`1233 / 4096` is just below the decimal logarithm of two. -/
def coarsestGrid (units : Nat) : Int := ((units.log2 : Int) - 1073) * 1233 / 4096 + 1

/-- All digits of a magnitude. -/
def exactDecimal (units : Nat) : Decimal := ⟨units * Nat.pow 5 1074, -1074⟩

/-- The decimal with the fewest digits that reads back as the magnitude, the nearest of those. -/
def shortest (units : Nat) : Decimal :=
  ((List.range 20).findSome? fun i : Nat => onGrid units (coarsestGrid units - i)).getD
    (exactDecimal units)

end Double

end Keypad
