import Keypad.Proofs.Double.Kept

/-!
# Rounding half up, by values

What rounding to decimal places gives is said here of the values alone
(`exists_roundHalfUp_isNearest`): the scaled double is the one nearest to the exact product, the
integer is the floor of its value and one half, and the result is the double nearest to this integer,
scaled back. Only a number whose product overflows is returned as it is.

Rounding preserves the order (`exists_roundHalfUp_le`). Each of its steps does so, as long as both
numbers are scaled (`toRat_rounded_le`). A number that is too large to be scaled is compared with the
integer that is found for the other one. This integer is a double, hence below the overflow, which
the number that is not scaled reaches with its product (`abs_floor_lt_overflow`). -/

namespace Keypad.Double

variable {x y : Double} {p : ℕ}

/-- A number that overflows when it is scaled is not touched. -/
theorem rounded_of_not_isFinite (hscaled : ¬ (x.mul (Decimal.powerOfTen p)).isFinite) :
    x.rounded p = x := if_neg hscaled

/-- Scaling overflows exactly when the exact product does. -/
theorem isFinite_scaled_iff (hp : p ≤ 15) (hx : x.isFinite) :
    (x.mul (Decimal.powerOfTen p)).isFinite ↔ |x.toRat * 10 ^ p| < overflow :=
  (rounds_scaled hp hx).isFinite_iff

/-! ## What the result is -/

/-- A finite double is rounded to a number of places that a configuration allows without a failure.
If the product with the power of ten does not overflow, the result is the double nearest to
`⌊y + 1/2⌋ / 10^p` for the double `y` nearest to the product, and otherwise the double itself. The
remainder of every finite double above its floor, which is computed in doubles, reaches one half
exactly when the exact remainder does. -/
theorem exists_roundHalfUp_isNearest (hp : p ≤ 15) (hx : x.isFinite) :
    (|x.toRat * 10 ^ p| < overflow → ∃ y r : Double, IsNearest y (x.toRat * 10 ^ p) ∧
      x.roundHalfUp p = .ok r ∧ IsNearest r (⌊y.toRat + 1 / 2⌋ / 10 ^ p)) ∧
    (overflow ≤ |x.toRat * 10 ^ p| → x.roundHalfUp p = .ok x) ∧
    ∀ y : Double, y.isFinite →
      (half.le (y.sub (ofInt y.floor)) ↔ 1 / 2 ≤ Int.fract y.toRat) := by
  rw [roundHalfUp_eq hp]
  refine ⟨fun hlt => ?_, fun hge => ?_, fun y hy => half_le_sub_floor_iff hy⟩
  · have hscaled := (isFinite_scaled_iff hp hx).2 hlt
    exact ⟨_, _, isNearest_scaled hp hx hscaled, rfl, isNearest_rounded hx hscaled⟩
  · have hscaled := mt (isFinite_scaled_iff hp hx).1 (not_lt.2 hge)
    rw [rounded_of_not_isFinite hscaled]

/-- The double before one half has a remainder before one half and is rounded to zero, although the
double nearest to its sum with one half is one. -/
theorem exists_roundHalfUp_beforeHalf :
    0 ≤ 15 ∧ (ofRatio false (2 ^ 53 - 1) (2 ^ 54)).isFinite ∧
      (ofRatio false (2 ^ 53 - 1) (2 ^ 54)).add half = ofInt 1 ∧
      ∃ y r : Double, IsNearest y ((ofRatio false (2 ^ 53 - 1) (2 ^ 54)).toRat * 10 ^ 0) ∧
        (ofRatio false (2 ^ 53 - 1) (2 ^ 54)).roundHalfUp (0 : ℕ) = .ok r ∧
        IsNearest r (⌊y.toRat + 1 / 2⌋ / 10 ^ 0) ∧ r = zero false := by
  have hfinite : (ofRatio false (2 ^ 53 - 1) (2 ^ 54)).isFinite := by decide +kernel
  have hsum : (ofRatio false (2 ^ 53 - 1) (2 ^ 54)).add half = ofInt 1 := by decide +kernel
  have hzero : (ofRatio false (2 ^ 53 - 1) (2 ^ 54)).roundHalfUp (0 : ℕ) = .ok (zero false) := by
    decide +kernel
  generalize ofRatio false (2 ^ 53 - 1) (2 ^ 54) = x at *
  have hsize : |x.toRat * 10 ^ 0| < overflow := by
    rw [pow_zero, mul_one]
    exact abs_toRat_lt_overflow hfinite
  obtain ⟨y, r, hy, hr, hnearest⟩ :=
    (exists_roundHalfUp_isNearest (p := 0) (Nat.zero_le 15) hfinite).1 hsize
  exact ⟨Nat.zero_le 15, hfinite, hsum, y, r, hy, hr, hnearest,
    Except.ok.inj (hr.symm.trans hzero)⟩

/-! ## The order -/

/-- The integer that is found is below the overflow, because it is a double. -/
theorem abs_floor_lt_overflow (hscaled : (x.mul (Decimal.powerOfTen p)).isFinite) :
    |(⌊(x.mul (Decimal.powerOfTen p)).toRat + 1 / 2⌋ : ℚ)| < overflow := by
  obtain ⟨y, hy, hvalue⟩ := exists_toRat_eq_halfUp hscaled
  rw [← halfUp_eq hscaled, ← hvalue]
  exact abs_toRat_lt_overflow hy

/-- Rounding to decimal places preserves the order, also where only one of the two numbers is
scaled. -/
theorem toRat_rounded_mono (hp : p ≤ 15) (hx : x.isFinite) (hy : y.isFinite)
    (hle : x.toRat ≤ y.toRat) : (x.rounded p).toRat ≤ (y.rounded p).toRat := by
  have hten : (0 : ℚ) < 10 ^ p := by positivity
  have hproducts := mul_le_mul_of_nonneg_right hle hten.le
  have hxfinite := isFinite_scaled_iff hp hx
  have hyfinite := isFinite_scaled_iff hp hy
  by_cases hxscaled : (x.mul (Decimal.powerOfTen p)).isFinite <;>
    by_cases hyscaled : (y.mul (Decimal.powerOfTen p)).isFinite
  · exact toRat_rounded_le hp hx hy hxscaled hyscaled hle
  · -- The larger number overflows upward, since otherwise the smaller one would overflow too.
    have hxlt := abs_lt.1 (hxfinite.1 hxscaled)
    have hylarge : overflow ≤ y.toRat * 10 ^ p := by
      rcases le_abs'.1 (not_lt.1 (mt hyfinite.2 hyscaled)) with hneg | hpos
      · linarith
      · exact hpos
    have hfound := (abs_lt.1 (abs_floor_lt_overflow hxscaled)).2
    rw [rounded_of_not_isFinite hyscaled]
    refine (isNearest_rounded hx hxscaled).le_toRat hy ?_
    rw [div_le_iff₀ hten]
    linarith
  · -- In the same way the smaller number overflows downward.
    have hylt := abs_lt.1 (hyfinite.1 hyscaled)
    have hxlarge : x.toRat * 10 ^ p ≤ -overflow := by
      rcases le_abs'.1 (not_lt.1 (mt hxfinite.2 hxscaled)) with hneg | hpos
      · exact hneg
      · linarith
    have hfound := (abs_lt.1 (abs_floor_lt_overflow hyscaled)).1
    rw [rounded_of_not_isFinite hxscaled]
    refine (isNearest_rounded hy hyscaled).toRat_le hx ?_
    rw [le_div_iff₀ hten]
    linarith
  · rwa [rounded_of_not_isFinite hxscaled, rounded_of_not_isFinite hyscaled]

/-- Of two finite doubles the larger one is not rounded to less than the other, whether or not they
are scaled. -/
theorem exists_roundHalfUp_le (hp : p ≤ 15) (hx : x.isFinite) (hy : y.isFinite) (hle : x.le y) :
    ∃ r s : Double, x.roundHalfUp p = .ok r ∧ y.roundHalfUp p = .ok s ∧ r.isFinite ∧ s.isFinite ∧
      r.le s := by
  have hrfinite := isFinite_rounded hx p
  have hsfinite := isFinite_rounded hy p
  refine ⟨_, _, roundHalfUp_eq hp x, roundHalfUp_eq hp y, hrfinite, hsfinite, ?_⟩
  rw [le_iff hx hy] at hle
  rw [le_iff hrfinite hsfinite]
  exact toRat_rounded_mono hp hx hy hle

/-- Two neighbours of which only the smaller one can be scaled. -/
theorem exists_roundHalfUp_le_lastScaled :
    1 ≤ 15 ∧ (ofInt (7205759403792793 * 2 ^ 968)).isFinite ∧
      (ofInt (7205759403792794 * 2 ^ 968)).isFinite ∧
      (ofInt (7205759403792793 * 2 ^ 968)).le (ofInt (7205759403792794 * 2 ^ 968)) ∧
      ((ofInt (7205759403792793 * 2 ^ 968)).mul (Decimal.powerOfTen 1)).isFinite ∧
      ¬ ((ofInt (7205759403792794 * 2 ^ 968)).mul (Decimal.powerOfTen 1)).isFinite ∧
      ∃ r s : Double, (ofInt (7205759403792793 * 2 ^ 968)).roundHalfUp (1 : ℕ) = .ok r ∧
        (ofInt (7205759403792794 * 2 ^ 968)).roundHalfUp (1 : ℕ) = .ok s ∧ r.isFinite ∧
        s.isFinite ∧ r.le s := by
  have hx : (ofInt (7205759403792793 * 2 ^ 968)).isFinite := by decide +kernel
  have hy : (ofInt (7205759403792794 * 2 ^ 968)).isFinite := by decide +kernel
  have hle : (ofInt (7205759403792793 * 2 ^ 968)).le (ofInt (7205759403792794 * 2 ^ 968)) := by
    decide +kernel
  exact ⟨by norm_num, hx, hy, hle, by decide +kernel, by decide +kernel,
    exists_roundHalfUp_le (by norm_num) hx hy hle⟩

end Keypad.Double
