import Keypad.Double.Basic

/-!
# Rounding a quotient to a double

Every number that is computed or read arrives here as an exact quotient and is rounded once, to the
nearest double, a tie going to the even neighbour. `nearestEven` rounds a quotient to an integer.
`roundUnits` chooses the spacing of the doubles around a quotient, rounds to a multiple of it, and
gives a count of units with at most 53 significant bits (`roundUnits_dvd`), so the only way out of
the finite doubles is upward, to an infinity.
-/

namespace Keypad

namespace Double

/-- The integer nearest to `n / d`, a tie going to the even one. -/
def nearestEven (n d : Nat) : Nat :=
  if 2 * (n % d) < d ∨ (2 * (n % d) = d ∧ n / d % 2 = 0) then n / d else n / d + 1

/-- The doubles from `units` on, up to the next power of two, are `2 ^ spacing units` units apart.
-/
def spacing (units : Nat) : Nat := units.log2 - 52

/-- The count of units nearest to `n / d` units among those with at most 53 significant bits. -/
def roundUnits (n d : Nat) : Nat :=
  nearestEven n (d * Nat.pow 2 (spacing (n / d))) * Nat.pow 2 (spacing (n / d))

/-! ## The rounded count is the count of a double -/

/-- Rounding to an integer moves up by at most one. -/
theorem nearestEven_le (n d : Nat) : nearestEven n d ≤ n / d + 1 := by
  unfold nearestEven
  split <;> omega

/-- A quotient measured in its own spacing is below `2^53`. -/
theorem div_pow_spacing_lt (units : Nat) : units / Nat.pow 2 (spacing units) < Nat.pow 2 53 := by
  have hpos : 0 < Nat.pow 2 (spacing units) := Nat.two_pow_pos _
  have hmul : Nat.pow 2 53 * Nat.pow 2 (spacing units) = Nat.pow 2 (53 + spacing units) :=
    (Nat.pow_add 2 53 (spacing units)).symm
  rw [Nat.div_lt_iff_lt_mul hpos, hmul]
  refine Nat.lt_of_lt_of_le Nat.lt_log2_self (Nat.pow_le_pow_right (by decide) ?_)
  unfold spacing
  omega

/-- A significand of at most 53 bits, or the power of two after them, times a power of two is a
multiple of its own spacing. -/
theorem pow_spacing_dvd {m : Nat} (hm : m ≤ Nat.pow 2 53) (k : Nat) :
    Nat.pow 2 (spacing (m * Nat.pow 2 k)) ∣ m * Nat.pow 2 k := by
  rcases Nat.eq_zero_or_pos m with rfl | hpos
  · exact ⟨0, by simp⟩
  have hne : m * Nat.pow 2 k ≠ 0 :=
    Nat.mul_ne_zero (by omega) (Nat.ne_of_gt (Nat.two_pow_pos k))
  rcases Nat.lt_or_ge m (Nat.pow 2 53) with hlt | hge
  · refine Nat.dvd_trans (Nat.pow_dvd_pow 2 ?_) ⟨m, Nat.mul_comm _ _⟩
    have hlog : (m * Nat.pow 2 k).log2 < 53 + k := by
      rw [Nat.log2_lt hne, Nat.pow_add]
      exact Nat.mul_lt_mul_of_pos_right hlt (Nat.two_pow_pos k)
    unfold spacing
    omega
  · obtain rfl : m = Nat.pow 2 53 := Nat.le_antisymm hm hge
    -- Beyond 53 bits there is only the power of two itself, whose logarithm is exact.
    have hmul : Nat.pow 2 53 * Nat.pow 2 k = Nat.pow 2 (53 + k) := (Nat.pow_add 2 53 k).symm
    rw [hmul]
    refine Nat.pow_dvd_pow 2 ?_
    have hlog : (Nat.pow 2 (53 + k)).log2 < 53 + k + 1 := by
      refine (Nat.log2_lt (Nat.ne_of_gt (Nat.two_pow_pos _))).2 ?_
      exact Nat.pow_lt_pow_right (by decide) (by omega)
    unfold spacing
    omega

/-- The rounded count has at most 53 significant bits. -/
theorem roundUnits_dvd (n d : Nat) :
    Nat.pow 2 ((roundUnits n d).log2 - 52) ∣ roundUnits n d := by
  refine pow_spacing_dvd ?_ _
  have hle := nearestEven_le n (d * Nat.pow 2 (spacing (n / d)))
  rw [← Nat.div_div_eq_div_mul] at hle
  have hlt := div_pow_spacing_lt (n / d)
  omega

/-! ## Rounding to a double -/

/-- The double nearest to `± n / d` units. -/
def ofUnits (negative : Bool) (n d : Nat) : Double :=
  if h : roundUnits n d < unitsBound then
    .finite negative (roundUnits n d) ⟨roundUnits_dvd n d, h⟩
  else
    .infinite negative

/-- The double nearest to `± n / d`. -/
def ofRatio (negative : Bool) (n d : Nat) : Double := ofUnits negative (n * unitsPerOne) d

/-- The double nearest to the quotient of an integer and a natural number; zero is positive. -/
def ofIntRatio (n : Int) (d : Nat) : Double := ofRatio (n < 0) n.natAbs d

/-- The double nearest to an integer; zero is positive. -/
def ofInt (n : Int) : Double := ofIntRatio n 1

/-- One half. -/
def half : Double := ofRatio false 1 2

end Double

end Keypad
