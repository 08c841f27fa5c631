import Keypad.Proofs.Double.Grid

/-!
# Doubles with a number of decimal places

A double has `p` decimal places if it is the one nearest to a whole number of `10^-p`
(`HasPlaces`). Rounding to decimal places leads to such a double whatever is rounded
(`hasPlaces_rounded`). Usually this is how the result is made, by rounding a quotient of integers. A
double too large to be scaled is returned as it is, but then it is a whole number by its size
(`hasPlaces_of_scaled`), and a whole number has any number of places.

That a double does not have `p` places is seen from two others, one on each side of it, between the
same two whole numbers of `10^-p` (`not_hasPlaces_of_between`). -/

namespace Keypad.Double

variable {x y z : Double} {q : ℚ} {p : ℕ}

/-- The double is the nearest one to a number with `p` decimal places. -/
def HasPlaces (p : ℕ) (x : Double) : Prop := ∃ n : ℤ, IsNearest x (n / 10 ^ p)

/-! ## Rounded doubles -/

/-- A finite double is the nearest one to its own value. -/
theorem isNearest_toRat (hx : x.isFinite) : IsNearest x x.toRat where
  finite := hx
  inRange := abs_toRat_lt_overflow hx
  closest := fun y _ => by
    rw [sub_self, abs_zero]
    exact abs_nonneg _
  even := fun y _ heq => by
    rw [sub_self, abs_zero, eq_comm, abs_eq_zero, sub_eq_zero] at heq
    exact .inl heq.symm

/-- A whole number has any number of decimal places. -/
theorem hasPlaces_of_toRat_eq_intCast (hx : x.isFinite) {k : ℤ} (hk : x.toRat = k) :
    HasPlaces p x := by
  have hten : (10 : ℚ) ^ p ≠ 0 := by positivity
  have hvalue : ((k * 10 ^ p : ℤ) : ℚ) / 10 ^ p = x.toRat := by
    rw [hk, Int.cast_mul, Int.cast_pow, Int.cast_ofNat, mul_div_cancel_right₀ _ hten]
  refine ⟨k * 10 ^ p, ?_⟩
  rw [hvalue]
  exact isNearest_toRat hx

/-- The overflow is far beyond fifteen places of the largest double that is no whole number. -/
theorem two_pow_le_overflow : (2 : ℚ) ^ 102 ≤ overflow := by
  have hhigh : (2 : ℚ) * 2 ^ 970 ≤ 2 ^ 1024 := by
    rw [← pow_succ']
    exact pow_le_pow_right₀ (by norm_num) (by norm_num)
  calc (2 : ℚ) ^ 102 ≤ 2 ^ 970 := pow_le_pow_right₀ (by norm_num) (by norm_num)
    _ = 2 * 2 ^ 970 - 2 ^ 970 := by rw [two_mul, add_sub_cancel_right]
    _ ≤ 2 ^ 1024 - 2 ^ 970 := sub_le_sub_right hhigh _

/-- A double that overflows when it is scaled has any number of decimal places. -/
theorem hasPlaces_of_scaled (hp : p ≤ 15) (hx : x.isFinite)
    (hscaled : ¬ (x.mul (Decimal.powerOfTen p)).isFinite) : HasPlaces p x := by
  have hsize : overflow ≤ |x.toRat| * 10 ^ p := by
    rwa [(rounds_scaled hp hx).isFinite_iff, abs_mul_ten_pow, not_lt] at hscaled
  have hlarge : (2 : ℚ) ^ 52 ≤ |x.toRat| := by
    by_contra hsmall
    rw [not_le] at hsmall
    have hlt : |x.toRat| * 10 ^ p < 2 ^ 102 :=
      calc |x.toRat| * 10 ^ p < 2 ^ 52 * 10 ^ p := mul_lt_mul_of_pos_right hsmall (by positivity)
        _ ≤ 2 ^ 52 * 2 ^ 50 := mul_le_mul_of_nonneg_left (ten_pow_le hp) (by positivity)
        _ = 2 ^ 102 := by rw [← pow_add]
    exact absurd (two_pow_le_overflow.trans hsize) (not_le.2 hlt)
  -- Of this size there are only whole numbers.
  obtain ⟨k, hk⟩ := exists_toRat_eq_intCast hlarge
  exact hasPlaces_of_toRat_eq_intCast hx hk

/-- A finite double that is rounded to decimal places has them. -/
theorem hasPlaces_rounded (hp : p ≤ 15) (hx : x.isFinite) : HasPlaces p (x.rounded p) := by
  have hfinite := isFinite_rounded hx p
  by_cases hscaled : (x.mul (Decimal.powerOfTen p)).isFinite
  · exact ⟨_, (rounds_floor_div hscaled).isNearest hfinite⟩
  · rw [rounded, if_neg hscaled]
    exact hasPlaces_of_scaled hp hx hscaled

/-! ## Doubles without so few places -/

/-- A number whose nearest double is larger than another double is larger than that too. -/
theorem IsNearest.lt_of_toRat_lt (h : IsNearest x q) (hy : y.isFinite) (hlt : y.toRat < x.toRat) :
    y.toRat < q := by
  by_contra hle
  rw [not_lt] at hle
  have hcloser := h.closest y hy
  rw [abs_of_nonneg (by linarith), abs_of_nonneg (by linarith)] at hcloser
  linarith

/-- A number whose nearest double is smaller than another double is smaller than that too. -/
theorem IsNearest.lt_of_lt_toRat (h : IsNearest x q) (hy : y.isFinite) (hlt : x.toRat < y.toRat) :
    q < y.toRat := by
  by_contra hle
  rw [not_lt] at hle
  have hcloser := h.closest y hy
  rw [abs_of_nonpos (by linarith), abs_of_nonpos (by linarith)] at hcloser
  linarith

/-- Doubles are compared by their counts. -/
theorem toRat_lt_iff : x.toRat < y.toRat ↔ x.signedUnits < y.signedUnits := by
  rw [toRat, toRat, div_lt_div_iff_of_pos_right unitsPerOne_pos, Int.cast_lt]

/-- Whether a double is at least a number with `p` decimal places is seen from whole numbers. -/
theorem div_le_toRat_iff {m : ℤ} :
    m / 10 ^ p ≤ x.toRat ↔ m * unitsPerOne ≤ x.signedUnits * 10 ^ p := by
  rw [toRat, div_le_div_iff₀ (by positivity) unitsPerOne_pos]
  exact_mod_cast Iff.rfl

/-- Whether a double is at most a number with `p` decimal places is seen from whole numbers. -/
theorem toRat_le_div_iff {m : ℤ} :
    x.toRat ≤ m / 10 ^ p ↔ x.signedUnits * 10 ^ p ≤ m * unitsPerOne := by
  rw [toRat, div_le_div_iff₀ unitsPerOne_pos (by positivity)]
  exact_mod_cast Iff.rfl

/-- Between two numbers that follow each other with `p` decimal places, a double with a double on
each side of it does not have `p` places. -/
theorem not_hasPlaces_of_between {m : ℤ} (hy : y.isFinite) (hz : z.isFinite)
    (hlow : m * unitsPerOne ≤ y.signedUnits * 10 ^ p) (hyx : y.signedUnits < x.signedUnits)
    (hxz : x.signedUnits < z.signedUnits) (hhigh : z.signedUnits * 10 ^ p ≤ (m + 1) * unitsPerOne) :
    ¬ HasPlaces p x := by
  rintro ⟨n, hn⟩
  have hten : (0 : ℚ) < 10 ^ p := by positivity
  have hmn : (m : ℚ) / 10 ^ p < n / 10 ^ p :=
    (div_le_toRat_iff.2 hlow).trans_lt (hn.lt_of_toRat_lt hy (toRat_lt_iff.2 hyx))
  have hnm : (n : ℚ) / 10 ^ p < (m + 1 : ℤ) / 10 ^ p :=
    (hn.lt_of_lt_toRat hz (toRat_lt_iff.2 hxz)).trans_le (toRat_le_div_iff.2 hhigh)
  rw [div_lt_div_iff_of_pos_right hten, Int.cast_lt] at hmn hnm
  omega

end Keypad.Double
