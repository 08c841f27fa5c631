import Keypad.Double.Arith
import Keypad.Proofs.Double.Rounds

/-!
# The operations on doubles round the exact result

For finite operands each of the four operations is the exact operation on the values followed by one
rounding (`rounds_add`, `rounds_sub`, `rounds_mul`, `rounds_div`), and so is turning a quotient of
integers into a double. The whole numbers of up to 53 bits are doubles, so that rounding does not
move them (`toRat_ofInt`); from `2^52` on there are no other doubles (`exists_toRat_eq_intCast`). -/

namespace Keypad.Double

/-! ## Values -/

/-- A finite double is a sign and a count. -/
theorem exists_eq_finite {x : Double} (hx : x.isFinite) :
    ∃ (s : Bool) (n : ℕ) (fits : Fits n), x = finite s n fits := by
  match x, hx with
  | finite s n fits, _ => exact ⟨s, n, fits, rfl⟩

/-- The negated double has the negated value. -/
theorem toRat_neg (x : Double) : x.neg.toRat = -x.toRat := by
  match x with
  | finite s n _ => cases s <;> simp [neg, toRat, signedUnits, neg_div]
  | infinite _ => simp [neg, toRat, signedUnits]
  | nan => simp [neg, toRat, signedUnits]

/-- Negation keeps a double finite. -/
theorem isFinite_neg (x : Double) : x.neg.isFinite = x.isFinite := by
  cases x <;> rfl

/-- The finite doubles that are zero are those with value zero. -/
theorem isZero_iff {x : Double} (hx : x.isFinite) : x.isZero ↔ x.toRat = 0 := by
  obtain ⟨s, n, fits, rfl⟩ := exists_eq_finite hx
  have hU := unitsPerOne_pos
  rw [toRat_finite, div_eq_zero_iff, mul_eq_zero]
  cases s <;> simp [isZero, signRat, hU.ne']

/-- An integer is the product of its sign and its magnitude. -/
theorem signRat_mul_natAbs (v : ℤ) : signRat (v < 0) * v.natAbs = v := by
  rw [Nat.cast_natAbs]
  rcases lt_or_ge v 0 with hneg | hpos
  · rw [decide_eq_true hneg, abs_of_neg hneg]
    simp [signRat]
  · rw [decide_eq_false (not_lt.2 hpos), abs_of_nonneg hpos]
    simp [signRat]

/-! ## The operations round the exact value -/

/-- A quotient is rounded to the nearest double. -/
theorem rounds_ofRatio (s : Bool) (n : ℕ) {d : ℕ} (hd : 0 < d) :
    Rounds (signRat s * (n / d)) (ofRatio s n d) := by
  refine ⟨s, n * unitsPerOne, d, hd, rfl, ?_⟩
  push_cast
  ring

/-- A quotient of an integer is rounded to the nearest double. -/
theorem rounds_ofIntRatio (n : ℤ) {d : ℕ} (hd : 0 < d) : Rounds (n / d) (ofIntRatio n d) := by
  have h := rounds_ofRatio (n < 0) n.natAbs hd
  rwa [← mul_div_assoc, signRat_mul_natAbs] at h

/-- An integer is rounded to the nearest double. -/
theorem rounds_ofInt (n : ℤ) : Rounds n (ofInt n) := by
  have h := rounds_ofIntRatio n one_pos
  rwa [Nat.cast_one, div_one] at h

/-- Zero is rounded to zero. -/
theorem rounds_zero (s : Bool) : Rounds 0 (zero s) := by
  refine ⟨s, 0, 1, one_pos, ?_, by simp⟩
  have hlt : roundUnits 0 1 < unitsBound := by
    rw [roundUnits_zero]
    exact (fits_iff.1 fits_zero).2
  rw [ofUnits, dif_pos hlt]
  rfl

/-- A sum is rounded. -/
theorem rounds_add {x y : Double} (hx : x.isFinite) (hy : y.isFinite) :
    Rounds (x.toRat + y.toRat) (x.add y) := by
  obtain ⟨s, m, hm, rfl⟩ := exists_eq_finite hx
  obtain ⟨t, n, hn, rfl⟩ := exists_eq_finite hy
  have hU := unitsPerOne_pos
  rw [toRat, toRat, ← add_div, ← Int.cast_add, add]
  generalize (finite s m hm).signedUnits + (finite t n hn).signedUnits = sum
  split_ifs with h0
  · rw [h0, Int.cast_zero, zero_div]
    exact rounds_zero _
  · refine ⟨_, _, 1, one_pos, rfl, ?_⟩
    rw [Nat.cast_one, div_one, signRat_mul_natAbs, div_mul_cancel₀ _ hU.ne']

/-- A difference is rounded. -/
theorem rounds_sub {x y : Double} (hx : x.isFinite) (hy : y.isFinite) :
    Rounds (x.toRat - y.toRat) (x.sub y) := by
  have h := rounds_add hx ((isFinite_neg y).trans hy)
  rwa [toRat_neg, ← sub_eq_add_neg] at h

/-- A product is rounded. -/
theorem rounds_mul {x y : Double} (hx : x.isFinite) (hy : y.isFinite) :
    Rounds (x.toRat * y.toRat) (x.mul y) := by
  obtain ⟨s, m, hm, rfl⟩ := exists_eq_finite hx
  obtain ⟨t, n, hn, rfl⟩ := exists_eq_finite hy
  have hU := unitsPerOne_pos
  refine ⟨s ^^ t, m * n, unitsPerOne, by exact_mod_cast hU, rfl, ?_⟩
  rw [toRat_finite, toRat_finite, signRat_xor]
  push_cast
  field_simp

/-- A quotient is rounded, unless the divisor is zero. -/
theorem rounds_div {x y : Double} (hx : x.isFinite) (hy : y.isFinite) (h0 : y.toRat ≠ 0) :
    Rounds (x.toRat / y.toRat) (x.div y) := by
  obtain ⟨s, m, hm, rfl⟩ := exists_eq_finite hx
  obtain ⟨t, n, hn, rfl⟩ := exists_eq_finite hy
  have hU := unitsPerOne_pos
  rw [toRat_finite] at h0
  have hn0 : n ≠ 0 := by
    rintro rfl
    simp at h0
  have hn' : (n : ℚ) ≠ 0 := by exact_mod_cast hn0
  have ht := signRat_ne_zero t
  rw [div, if_neg hn0]
  have h := rounds_ofRatio (s ^^ t) m (Nat.pos_of_ne_zero hn0)
  convert h using 1
  rw [toRat_finite, toRat_finite, signRat_xor]
  field_simp
  linear_combination -(signRat s * m) * signRat_mul_self t

/-! ## Whole numbers -/

/-- A significand of at most 53 bits times a power of two is bounded by the sum of the exponents. -/
theorem mul_two_pow_lt {m a b : ℕ} (hm : m ≤ 2 ^ 53) (hab : 53 + a < b) : m * 2 ^ a < 2 ^ b := by
  refine (Nat.mul_le_mul_right _ hm).trans_lt ?_
  rw [← pow_add]
  exact Nat.pow_lt_pow_right (by decide) hab

/-- A count of at most 53 significant bits that reaches a power of two is a multiple of the spacing
there. -/
theorem IsShort.two_pow_dvd {u k : ℕ} (hu : IsShort u) (hle : 2 ^ (52 + k) ≤ u) : 2 ^ k ∣ u := by
  have hne : u ≠ 0 := by
    rintro rfl
    exact absurd hle (not_le.2 (Nat.two_pow_pos _))
  have hlog : 52 + k ≤ u.log2 := (Nat.le_log2 hne).2 hle
  refine (pow_dvd_pow 2 ?_).trans hu
  unfold spacing
  omega

/-- A double of at least `2^(52 + k)` units is a multiple of `2^k` units. -/
theorem exists_signedUnits_eq_mul {x : Double} {k : ℕ}
    (h : 2 ^ (52 + k) ≤ |x.toRat| * unitsPerOne) : ∃ j : ℤ, x.signedUnits = j * 2 ^ k := by
  have hU := unitsPerOne_pos
  have hunits : 2 ^ (52 + k) ≤ x.signedUnits.natAbs := by
    rw [toRat, abs_div, abs_of_pos hU, div_mul_cancel₀ _ hU.ne', ← Int.cast_abs,
      Int.abs_eq_natAbs] at h
    exact_mod_cast h
  obtain ⟨j, hj⟩ : (2 ^ k : ℤ) ∣ x.signedUnits := by
    rw [← Int.natAbs_dvd_natAbs, Int.natAbs_pow]
    exact (isShort_natAbs_signedUnits x).two_pow_dvd hunits
  exact ⟨j, hj.trans (mul_comm _ _)⟩

/-- A multiple of a power of two of units, of at most 53 bits, is a double. -/
theorem exists_toRat_eq_mul_two_pow {n : ℤ} (hn : |n| ≤ 2 ^ 53) {k : ℕ} (hk : 53 + k < 54 + 2044) :
    ∃ y : Double, y.isFinite ∧ y.toRat = (n * 2 ^ k : ℤ) / unitsPerOne := by
  have habs : (n * 2 ^ k : ℤ).natAbs = n.natAbs * 2 ^ k := by
    rw [Int.natAbs_mul, Int.natAbs_pow]
    rfl
  have hle : n.natAbs ≤ 2 ^ 53 := by
    rw [Int.abs_eq_natAbs] at hn
    exact_mod_cast hn
  refine exists_toRat_eq ?_ ?_
  · rw [habs]
    exact isShort_mul_two_pow hle k
  · rw [habs, unitsBound_eq]
    exact mul_two_pow_lt hle hk

/-- The exponent of the units in one, split where the significands end. -/
theorem exists_unitsPerOne_eq :
    ∃ e : ℕ, unitsPerOne = 2 ^ (53 + e) ∧ 53 + (53 + e) < 54 + 2044 := by
  refine ⟨1021, ?_, by decide⟩
  rw [show 53 + 1021 = 1074 by rfl]
  exact unitsPerOne_eq

/-- The whole numbers of up to 53 bits are doubles. -/
theorem exists_toRat_eq_of_abs_le {n : ℤ} (hn : |n| ≤ 2 ^ 53) :
    ∃ y : Double, y.isFinite ∧ y.toRat = n := by
  have hU := unitsPerOne_pos
  obtain ⟨e, hU2, he⟩ := exists_unitsPerOne_eq
  obtain ⟨y, hy, heq⟩ := exists_toRat_eq_mul_two_pow hn he
  refine ⟨y, hy, ?_⟩
  rw [heq, div_eq_iff hU.ne', hU2]
  push_cast
  rfl

/-- A whole number of up to 53 bits is rounded to itself. -/
theorem toRat_ofInt {n : ℤ} (hn : |n| ≤ 2 ^ 53) : (ofInt n).isFinite ∧ (ofInt n).toRat = n := by
  obtain ⟨y, hy, heq⟩ := exists_toRat_eq_of_abs_le hn
  exact (rounds_ofInt n).eq_of_toRat_eq hy heq

/-- From `2^e` on, the doubles are multiples of `2^e / 2^52`. -/
theorem exists_toRat_eq_mul_spacing {x : Double} {e : ℕ} (h : 2 ^ e ≤ |x.toRat|) :
    ∃ j : ℤ, x.toRat = j * (2 ^ e / 2 ^ 52) := by
  have hU := unitsPerOne_pos
  obtain ⟨f, hU2, -⟩ := exists_unitsPerOne_eq
  have hU2' : (unitsPerOne : ℚ) = 2 ^ (53 + f) := by exact_mod_cast hU2
  have hunits : 2 ^ (52 + (e + 1 + f)) ≤ |x.toRat| * unitsPerOne := by
    rw [show 52 + (e + 1 + f) = e + (53 + f) by omega, pow_add, hU2']
    exact mul_le_mul_of_nonneg_right h (by positivity)
  obtain ⟨j, hj⟩ := exists_signedUnits_eq_mul hunits
  refine ⟨j, ?_⟩
  rw [toRat, hj, hU2', div_eq_iff (by positivity)]
  push_cast
  ring

/-- From `2^52` on, every finite double is a whole number. -/
theorem exists_toRat_eq_intCast {x : Double} (hx : 2 ^ 52 ≤ |x.toRat|) : ∃ k : ℤ, x.toRat = k := by
  obtain ⟨k, hk⟩ := exists_toRat_eq_mul_spacing hx
  rw [div_self (by positivity), mul_one] at hk
  exact ⟨k, hk⟩

end Keypad.Double
