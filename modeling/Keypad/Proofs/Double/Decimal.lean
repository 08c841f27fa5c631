import Keypad.Decimal.Basic
import Keypad.Proofs.Double.Arith

/-!
# Reading a decimal rounds it

`Decimal.toDouble` gives the double nearest to the value of a decimal (`rounds_toDouble`), also
where it settles the size from the exponent alone: a number from `10^309` on is beyond the overflow,
and one below `10^-324` is less than half a unit, so that rounding the exact quotient gives the
same. -/

namespace Keypad

namespace Double

/-- From `10^309` on, powers of ten are beyond the overflow. -/
theorem overflow_le {e : ℕ} (he : 309 ≤ e) : overflow ≤ (10 ^ e : ℕ) := by
  have hten : 2 ^ 1024 ≤ 10 ^ e := by
    refine le_trans ?_ (Nat.pow_le_pow_right (by decide) he)
    decide +kernel
  have hcast : (2 : ℚ) ^ 1024 ≤ (10 ^ e : ℕ) := by exact_mod_cast hten
  unfold overflow
  exact (sub_le_self _ (by positivity)).trans hcast

/-- There are less than `10^325` quarters of a unit in one. -/
theorem four_mul_unitsPerOne_le : 4 * unitsPerOne ≤ 10 ^ 325 := by decide +kernel

/-- A quotient from the overflow on is rounded to an infinity. -/
theorem ofRatio_eq_infinite (s : Bool) {n d : ℕ} (hd : 0 < d) (h : overflow ≤ n / d) :
    ofRatio s n d = infinite s := by
  have hfinite : ¬ (ofRatio s n d).isFinite := by
    rw [(rounds_ofRatio s n hd).isFinite_iff, abs_mul, abs_signRat, one_mul,
      abs_of_nonneg (by positivity), not_lt]
    exact h
  rw [ofRatio, ofUnits] at hfinite ⊢
  split_ifs at hfinite ⊢ with hlt
  · exact absurd rfl hfinite
  · rfl

/-- A quotient of less than half a unit is rounded to zero. -/
theorem ofRatio_eq_zero (s : Bool) {n d : ℕ} (h : 2 * (n * unitsPerOne) < d) :
    ofRatio s n d = zero s := by
  have hdiv : n * unitsPerOne / d = 0 := Nat.div_eq_of_lt (by omega)
  have hmod : n * unitsPerOne % d = n * unitsPerOne := Nat.mod_eq_of_lt (by omega)
  have hspacing : Nat.pow 2 (spacing 0) = 1 := rfl
  have hround : roundUnits (n * unitsPerOne) d = 0 := by
    rw [roundUnits, hdiv, hspacing, mul_one, mul_one, nearestEven, hmod, if_pos (Or.inl h), hdiv]
  have hlt : roundUnits (n * unitsPerOne) d < unitsBound := by
    rw [hround]
    exact (fits_iff.1 fits_zero).2
  rw [ofRatio, ofUnits, dif_pos hlt, zero]
  simp only [hround]

end Double

namespace Decimal

open Double

/-- A decimal with a sign is rounded to the nearest double. -/
theorem rounds_toDouble (s : Bool) (d : Decimal) : Rounds (signRat s * d.value) (d.toDouble s) := by
  obtain ⟨digits, exponent⟩ := d
  unfold toDouble value
  dsimp only
  split_ifs with h0
  · rw [h0, Nat.cast_zero, zero_mul, mul_zero]
    exact rounds_zero s
  have hdigits : 1 ≤ digits := Nat.one_le_iff_ne_zero.2 h0
  -- An exponent of great size decides the result without the power of ten being computed.
  match exponent with
  | .ofNat e =>
    have hrounds := rounds_ofRatio s (digits * 10 ^ e) one_pos
    rw [Nat.cast_one, div_one, Nat.cast_mul, Nat.cast_pow, Nat.cast_ofNat] at hrounds
    rw [Int.ofNat_eq_natCast, zpow_natCast]
    dsimp only
    split_ifs with hlarge
    · -- The exact quotient is beyond the overflow as well.
      have hover : overflow ≤ ((digits * 10 ^ e : ℕ) : ℚ) / (1 : ℕ) := by
        rw [Nat.cast_one, div_one]
        exact (overflow_le hlarge).trans (Nat.cast_le.2 (Nat.le_mul_of_pos_left _ hdigits))
      rw [← ofRatio_eq_infinite s one_pos hover]
      exact hrounds
    · exact hrounds
  | .negSucc e =>
    have hrounds := rounds_ofRatio s digits (d := 10 ^ (e + 1)) (Nat.pos_of_ne_zero (by positivity))
    rw [Nat.cast_pow, Nat.cast_ofNat, div_eq_mul_inv] at hrounds
    rw [zpow_negSucc]
    dsimp only
    split_ifs with hsmall
    · -- The digits are below `2 ^ (log2 digits + 1)`, so the quotient is less than half a unit.
      have hunder : 2 * (digits * unitsPerOne) < 10 ^ (e + 1) := by
        calc 2 * (digits * unitsPerOne)
            < 2 * (2 ^ (digits.log2 + 1) * unitsPerOne) := by
              gcongr
              · exact_mod_cast unitsPerOne_pos
              · exact Nat.lt_log2_self
          _ = 2 ^ digits.log2 * (4 * unitsPerOne) := by ring
          _ ≤ 10 ^ digits.log2 * 10 ^ 325 :=
              Nat.mul_le_mul (Nat.pow_le_pow_left (by decide) _) four_mul_unitsPerOne_le
          _ = 10 ^ (digits.log2 + 325) := (pow_add ..).symm
          _ ≤ 10 ^ (e + 1) := Nat.pow_le_pow_right (by decide) (by omega)
      rw [← ofRatio_eq_zero s hunder]
      exact hrounds
    · exact hrounds

end Decimal

end Keypad
