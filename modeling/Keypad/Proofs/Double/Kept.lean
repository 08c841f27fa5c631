import Keypad.Proofs.Double.Spacing
import Mathlib.Algebra.Order.Archimedean.Basic
import Mathlib.Data.Nat.Prime.Basic

/-!
# What rounding keeps

A double that is the nearest one to a number with `p` decimal places should survive rounding to `p`
places. Most do, but scaling is itself rounded, and in two bands of magnitudes this is enough to
lose the double (`IsExposed`). Let `2^k` be the last power of two up to `10^p`. From `2^(51 - k)`
on, as long as the scaled double stays below `2^52`, it is rounded to a half, and this can be the
half behind the integer that the double came from, so that it goes up. Beyond, scaling leads into
one of two binades. In the upper one the doubles are farther apart than the unscaled doubles are,
scaled, so that two of these can share one scaled double.

Outside the two bands nothing is lost (`toRat_rounded_of_not_isExposed`). The number of places is
found again from the scaled double as long as this has a bit behind the point to spare, or none at
all (`floor_eq_of_fine`, `floor_eq_of_whole`). Larger doubles are no longer told apart from their
places; in the lower binade the scaled double goes back to where it came from because of the spacing
of the doubles there (`toRat_rounded_of_level`). In the two bands the double moves at most to a
neighbour (`isNeighbour_rounded_of_isExposed`). -/

namespace Keypad.Double

variable {x y : Double} {q : ℚ} {p e : ℕ} {n : ℤ}

/-! ## The power of ten -/

/-- The exponent of the last power of two up to the power of ten. -/
def scaleBits (p : ℕ) : ℕ := Nat.log 2 (10 ^ p)

/-- The power of two below the power of ten. -/
theorem two_pow_scaleBits_le (p : ℕ) : (2 : ℚ) ^ scaleBits p ≤ 10 ^ p := by
  exact_mod_cast Nat.pow_log_le_self 2 (by positivity : 10 ^ p ≠ 0)

/-- The power of two above the power of ten. -/
theorem ten_pow_lt (p : ℕ) : (10 : ℚ) ^ p < 2 ^ (scaleBits p + 1) := by
  exact_mod_cast Nat.lt_pow_succ_log_self (by norm_num : 1 < 2) (10 ^ p)

/-- Beyond the first one, no power of ten is a power of two. -/
theorem two_pow_scaleBits_lt (hp : p ≠ 0) : (2 : ℚ) ^ scaleBits p < 10 ^ p := by
  refine (two_pow_scaleBits_le p).lt_of_ne fun heq => ?_
  have heq' : 2 ^ scaleBits p = 10 ^ p := by exact_mod_cast heq
  have hfive : 5 ∣ 2 ^ scaleBits p := by
    rw [heq']
    exact (by norm_num : 5 ∣ 10).trans (dvd_pow_self 10 hp)
  exact absurd (Nat.prime_five.dvd_of_dvd_pow hfive) (by norm_num)

/-- The powers of ten of at most 15 places have at most 50 bits. -/
theorem scaleBits_le (hp : p ≤ 15) : scaleBits p ≤ 49 := by
  have hlt : 10 ^ p < 2 ^ 50 := (Nat.pow_le_pow_right (by norm_num) hp).trans_lt (by norm_num)
  exact Nat.lt_succ_iff.1 (Nat.log_lt_of_lt_pow (by positivity) hlt)

/-! ## The two bands -/

/-- Rounding to `p` places may not keep the double. -/
structure IsExposed (p : ℕ) (x : Double) : Prop where
  /-- The double is scaled without an overflow. -/
  finite : (x.mul (Decimal.powerOfTen p)).isFinite
  /-- Scaling is not exact. -/
  inexact : (x.mul (Decimal.powerOfTen p)).toRat ≠ x.toRat * 10 ^ p
  /-- The scaled double is rounded to a half, or it is rounded in a binade in which the doubles are
  farther apart than the ones around this double are, scaled. -/
  band : (2 ^ 51 ≤ |x.toRat| * 2 ^ scaleBits p ∧ |x.toRat| * 10 ^ p < 2 ^ 52) ∨
    ∃ e : ℕ, 52 ≤ e + scaleBits p ∧ 2 ^ e ≤ |x.toRat| ∧ |x.toRat| < 2 ^ (e + 1) ∧
      2 ^ (e + scaleBits p + 1) ≤ |x.toRat| * 10 ^ p

/-- To scale with one is exact. -/
theorem ne_zero_of_inexact (hx : x.isFinite)
    (hinexact : (x.mul (Decimal.powerOfTen p)).toRat ≠ x.toRat * 10 ^ p) : p ≠ 0 := by
  rintro rfl
  have hscaled := rounds_scaled (Nat.zero_le 15) hx
  exact hinexact (hscaled.eq_of_toRat_eq hx (by rw [pow_zero, mul_one])).2

/-- Between the two bands, where the scaled double is a whole number but the double itself is still
below `2^(52 - k)`. -/
theorem not_isExposed_of_whole (hsize : |x.toRat| * 2 ^ scaleBits p < 2 ^ 52)
    (hlarge : 2 ^ 52 ≤ |x.toRat| * 10 ^ p) : ¬ IsExposed p x := by
  rintro ⟨-, -, ⟨-, hlt⟩ | ⟨e, he, hle, -, -⟩⟩
  · exact absurd hlarge (not_le.2 hlt)
  · have hpow : (2 : ℚ) ^ 52 ≤ |x.toRat| * 2 ^ scaleBits p :=
      calc (2 : ℚ) ^ 52 ≤ 2 ^ (e + scaleBits p) := pow_le_pow_right₀ (by norm_num) he
        _ = 2 ^ e * 2 ^ scaleBits p := pow_add ..
        _ ≤ |x.toRat| * 2 ^ scaleBits p := mul_le_mul_of_nonneg_right hle (by positivity)
    exact absurd hsize (not_lt.2 hpow)

/-! ## From the scaled double to the rounded one -/

section Scaled

variable (hp : p ≤ 15) (hx : x.isFinite) (hscaled : (x.mul (Decimal.powerOfTen p)).isFinite)

include hp hx hscaled in
/-- The scaled double is the nearest one to the exact product. -/
theorem isNearest_scaled : IsNearest (x.mul (Decimal.powerOfTen p)) (x.toRat * 10 ^ p) :=
  (rounds_scaled hp hx).isNearest hscaled

include hx hscaled in
/-- The rounded double is the nearest one to the integer that is found, scaled back. -/
theorem isNearest_rounded :
    IsNearest (x.rounded p) (⌊(x.mul (Decimal.powerOfTen p)).toRat + 1 / 2⌋ / 10 ^ p) :=
  (rounds_floor_div hscaled).isNearest (isFinite_rounded hx p)

include hx hscaled in
/-- A double is kept if it is the nearest one to the integer that is found, scaled back. -/
theorem toRat_rounded_of_floor (hn : ⌊(x.mul (Decimal.powerOfTen p)).toRat + 1 / 2⌋ = n)
    (h : IsNearest x (n / 10 ^ p)) : (x.rounded p).toRat = x.toRat := by
  have hrounded := isNearest_rounded hx hscaled
  rw [hn] at hrounded
  exact hrounded.toRat_eq h

/-- An integer is not moved when a half is added and the floor is taken. -/
theorem floor_add_half_of_eq (h : q = n) : ⌊q + 1 / 2⌋ = n := by
  rw [h, Int.floor_eq_iff]
  constructor <;> linarith

/-- An integer that is less than a half away is found. -/
theorem floor_add_half_of_abs_sub_lt (h : |q - n| < 1 / 2) : ⌊q + 1 / 2⌋ = n := by
  rw [abs_lt] at h
  rw [Int.floor_eq_iff]
  constructor <;> linarith

include hx hscaled in
/-- A double is kept if scaling it is exact and gives an integer. -/
theorem toRat_rounded_of_exact (hexact : (x.mul (Decimal.powerOfTen p)).toRat = x.toRat * 10 ^ p)
    (hn : (x.mul (Decimal.powerOfTen p)).toRat = n) : (x.rounded p).toRat = x.toRat := by
  refine toRat_rounded_of_floor hx hscaled (floor_add_half_of_eq hn) ?_
  rw [← hn, hexact, mul_div_cancel_right₀ _ (by positivity)]
  exact isNearest_toRat hx

include hp hx hscaled in
/-- From `2^52` on, the scaled double is an integer. -/
theorem exists_scaled_eq_intCast (hlarge : 2 ^ 52 ≤ |x.toRat| * 10 ^ p) :
    ∃ k : ℤ, (x.mul (Decimal.powerOfTen p)).toRat = k := by
  obtain ⟨c, hc, hvalue⟩ := exists_toRat_eq_of_abs_le (n := 2 ^ 52) (by norm_num)
  refine exists_toRat_eq_intCast ?_
  have hle := (isNearest_scaled hp hx hscaled).toRat_le_abs hc
  rw [hvalue, abs_mul_ten_pow] at hle
  push_cast at hle
  exact hle hlarge

end Scaled

/-- Rounding to decimal places preserves the order. -/
theorem toRat_rounded_le (hp : p ≤ 15) (hx : x.isFinite) (hy : y.isFinite)
    (hxscaled : (x.mul (Decimal.powerOfTen p)).isFinite)
    (hyscaled : (y.mul (Decimal.powerOfTen p)).isFinite) (hle : x.toRat ≤ y.toRat) :
    (x.rounded p).toRat ≤ (y.rounded p).toRat := by
  have hscaled := (isNearest_scaled hp hx hxscaled).mono (isNearest_scaled hp hy hyscaled)
    (mul_le_mul_of_nonneg_right hle (by positivity))
  refine (isNearest_rounded hx hxscaled).mono (isNearest_rounded hy hyscaled) ?_
  have hfloor := Int.floor_le_floor (add_le_add_left hscaled (1 / 2))
  exact div_le_div_of_nonneg_right (by exact_mod_cast hfloor) (by positivity)

/-! ## Whole numbers -/

/-- Scaling is exact if the product has at most 53 bits in front of a power of two. -/
theorem scaled_of_mul_eq (hp : p ≤ 15) (hx : x.isFinite) {m : ℤ} (hm : |m| ≤ 2 ^ 53)
    (heq : x.toRat * 10 ^ p = m * 2 ^ e) (hlt : |(m : ℚ)| * 2 ^ e < overflow) :
    (x.mul (Decimal.powerOfTen p)).isFinite ∧
      (x.mul (Decimal.powerOfTen p)).toRat = x.toRat * 10 ^ p := by
  obtain ⟨y, hy, hvalue⟩ := exists_toRat_eq_of_lt_overflow hm hlt
  exact (rounds_scaled hp hx).eq_of_toRat_eq hy (hvalue.trans heq.symm)

/-- A whole number is scaled exactly if it leaves room for the odd part of the power of ten. -/
theorem scaled_of_toRat_eq_intCast (hp : p ≤ 15) (hx : x.isFinite) {k : ℤ} (hk : x.toRat = k)
    (hroom : |k| * 5 ^ p ≤ 2 ^ 53) :
    (x.mul (Decimal.powerOfTen p)).isFinite ∧
      (x.mul (Decimal.powerOfTen p)).toRat = x.toRat * 10 ^ p := by
  have hm : |k * 5 ^ p| ≤ 2 ^ 53 := by rwa [abs_mul, abs_of_pos (by positivity : (0 : ℤ) < 5 ^ p)]
  have hm' : |((k * 5 ^ p : ℤ) : ℚ)| ≤ 2 ^ 53 := by exact_mod_cast hm
  refine scaled_of_mul_eq hp hx (e := p) hm ?_ ?_
  · rw [hk, show (10 : ℚ) = 5 * 2 by norm_num, mul_pow]
    push_cast
    ring
  · refine lt_of_lt_of_le ?_ two_pow_le_overflow
    calc |((k * 5 ^ p : ℤ) : ℚ)| * 2 ^ p
        ≤ 2 ^ 53 * 2 ^ 15 :=
          mul_le_mul hm' (pow_le_pow_right₀ (by norm_num) hp) (by positivity) (by positivity)
      _ < 2 ^ 102 := by norm_num

/-- A power of two, with a sign, is not moved by rounding unless it overflows. -/
theorem exists_signed_two_pow (hp : p ≤ 15) {m : ℤ} (hm : |m| = 1)
    (hlt : (2 : ℚ) ^ e * 10 ^ p < overflow) :
    ∃ c : Double, c.isFinite ∧ c.toRat = m * 2 ^ e ∧
      (c.mul (Decimal.powerOfTen p)).isFinite ∧ (c.rounded p).toRat = c.toRat := by
  have hm' : |(m : ℚ)| = 1 := by exact_mod_cast hm
  have hten : (1 : ℚ) ≤ 10 ^ p := one_le_pow₀ (by norm_num)
  have hfits : |(m : ℚ)| * 2 ^ e < overflow := by
    rw [hm', one_mul]
    exact (le_mul_of_one_le_right (by positivity) hten).trans_lt hlt
  obtain ⟨c, hc, hvalue⟩ := exists_toRat_eq_of_lt_overflow (by rw [hm]; norm_num) hfits
  have hbits : |m * 10 ^ p| ≤ 2 ^ 53 := by
    rw [abs_mul, hm, one_mul, abs_of_pos (by positivity)]
    exact (pow_le_pow_right₀ (by norm_num) hp).trans (by norm_num)
  have heq : c.toRat * 10 ^ p = (m * 10 ^ p : ℤ) * 2 ^ e := by
    rw [hvalue]
    push_cast
    ring
  have hscaledFits : |((m * 10 ^ p : ℤ) : ℚ)| * 2 ^ e < overflow := by
    push_cast
    rw [abs_mul, hm', one_mul, abs_of_pos (by positivity), mul_comm]
    exact hlt
  obtain ⟨hscaled, hexact⟩ := scaled_of_mul_eq hp hc hbits heq hscaledFits
  refine ⟨c, hc, hvalue, hscaled, ?_⟩
  refine toRat_rounded_of_exact hc hscaled (n := m * 10 ^ p * 2 ^ e) hexact ?_
  rw [hexact, heq]
  push_cast
  rfl

/-- Rounding does not cross a power of two, nor zero. -/
theorem bothReach_rounded (hp : p ≤ 15) (hx : x.isFinite)
    (hscaled : (x.mul (Decimal.powerOfTen p)).isFinite) (hle : 2 ^ e ≤ |x.toRat|) :
    BothReach e x (x.rounded p) := by
  have hlt : (2 : ℚ) ^ e * 10 ^ p < overflow := by
    have hsize := (rounds_scaled hp hx).isFinite_iff.1 hscaled
    rw [abs_mul_ten_pow] at hsize
    exact (mul_le_mul_of_nonneg_right hle (by positivity)).trans_lt hsize
  rcases le_abs'.1 hle with hneg | hpos
  · obtain ⟨c, hc, hvalue, hcscaled, hkept⟩ := exists_signed_two_pow hp (m := -1) (by simp) hlt
    rw [Int.cast_neg, Int.cast_one, neg_one_mul] at hvalue
    have hle' := toRat_rounded_le hp hx hc hscaled hcscaled (by rwa [hvalue])
    rw [hkept, hvalue] at hle'
    exact .inr ⟨hneg, hle'⟩
  · obtain ⟨c, hc, hvalue, hcscaled, hkept⟩ := exists_signed_two_pow hp (m := 1) (by simp) hlt
    rw [Int.cast_one, one_mul] at hvalue
    have hle' := toRat_rounded_le hp hc hx hcscaled hscaled (by rwa [hvalue])
    rw [hkept, hvalue] at hle'
    exact .inl ⟨hpos, hle'⟩

/-! ## Doubles whose places are found again -/

/-- A factor that is smaller makes a bounded product smaller than the bound. -/
theorem mul_lt_of_mul_le {d s t b : ℚ} (hd : 0 ≤ d) (hst : s < t) (hb : 0 < b) (h : d * t ≤ b) :
    d * s < b := by
  rcases hd.eq_or_lt with rfl | hpos
  · rwa [zero_mul]
  · exact (mul_lt_mul_of_pos_left hst hpos).trans_le h

/-- The distance from an integer, scaled. -/
theorem abs_sub_div_mul (q : ℚ) (n : ℤ) (p : ℕ) :
    |q - n / 10 ^ p| * 10 ^ p = |q * 10 ^ p - n| := by
  have hten : (0 : ℚ) < 10 ^ p := by positivity
  calc |q - n / 10 ^ p| * 10 ^ p = |(q - n / 10 ^ p) * 10 ^ p| := (abs_mul_ten_pow ..).symm
    _ = |q * 10 ^ p - n| := by rw [sub_mul, div_mul_cancel₀ _ hten.ne']

/-- Below `2^(53 - j - k)` a double differs, scaled, by less than `2^-j` from the integer that it
comes from. -/
theorem abs_mul_sub_lt_of_isNearest (hp : p ≤ 15) (h : IsNearest x (n / 10 ^ p)) {j : ℕ}
    (hj : j ≤ 2) (hsize : |x.toRat| * 2 ^ (scaleBits p + j) < 2 ^ 53) :
    |x.toRat * 10 ^ p - n| * 2 ^ j < 1 := by
  have hbits := scaleBits_le hp
  -- The number is below the same power of two as the double, because this is a double.
  obtain ⟨f, hf⟩ : ∃ f, f + (scaleBits p + j) = 53 := ⟨53 - (scaleBits p + j), by omega⟩
  have hsplit : (2 : ℚ) ^ 53 = 2 ^ f * 2 ^ (scaleBits p + j) := by rw [← pow_add, hf]
  obtain ⟨c, hc, hvalue⟩ := exists_toRat_eq_of_abs_le (n := 2 ^ f) (by
    rw [abs_of_pos (by positivity)]
    exact pow_le_pow_right₀ (by norm_num) (by omega))
  rw [Int.cast_pow, Int.cast_ofNat] at hvalue
  rw [hsplit] at hsize
  have hlt := h.abs_lt_toRat hc (hvalue ▸ lt_of_mul_lt_mul_right hsize (by positivity))
  rw [hvalue] at hlt
  have herror := h.two_mul_abs_sub_le (a := scaleBits p + j) (b := 0) (by omega)
    (by rw [add_zero, hsplit]; exact mul_lt_mul_of_pos_right hlt (by positivity))
  rw [← abs_sub_div_mul, mul_assoc]
  refine mul_lt_of_mul_le (abs_nonneg _) (t := 2 ^ (scaleBits p + 1) * 2 ^ j) ?_ one_pos ?_
  · exact mul_lt_mul_of_pos_right (ten_pow_lt p) (by positivity)
  · calc |x.toRat - n / 10 ^ p| * (2 ^ (scaleBits p + 1) * 2 ^ j)
        = 2 * (|x.toRat - n / 10 ^ p| * 2 ^ (scaleBits p + j)) := by ring
      _ ≤ 1 := by rwa [pow_zero] at herror

section Found

variable (hp : p ≤ 15) (hx : x.isFinite) (hscaled : (x.mul (Decimal.powerOfTen p)).isFinite)

include hp hx hscaled in
/-- The scaled double is no farther from the integer than the exact product, which is less than a
half away, because the integer is a double. -/
theorem abs_scaled_sub_le (hsize : |x.toRat| * 2 ^ scaleBits p < 2 ^ 52)
    (hdist : |x.toRat * 10 ^ p - n| < 1 / 2) :
    |(x.mul (Decimal.powerOfTen p)).toRat - n| ≤ 2 * |x.toRat * 10 ^ p - n| := by
  have hproduct : |x.toRat * 10 ^ p| < 2 ^ 53 := by
    rw [abs_mul_ten_pow]
    calc |x.toRat| * 10 ^ p ≤ |x.toRat| * 2 ^ (scaleBits p + 1) :=
          mul_le_mul_of_nonneg_left (ten_pow_lt p).le (abs_nonneg _)
      _ = |x.toRat| * 2 ^ scaleBits p * 2 := by rw [pow_succ, mul_assoc]
      _ < 2 ^ 53 := by linarith
  have hn : |n| ≤ 2 ^ 53 := by
    have hlt : |(n : ℚ)| < 2 ^ 53 + 1 := by
      have h := abs_sub_abs_le_abs_sub (n : ℚ) (x.toRat * 10 ^ p)
      rw [abs_sub_comm] at h
      linarith
    exact Int.lt_add_one_iff.1 (by exact_mod_cast hlt)
  obtain ⟨c, hc, hvalue⟩ := exists_toRat_eq_of_abs_le hn
  have hclosest := (isNearest_scaled hp hx hscaled).closest c hc
  rw [hvalue, abs_sub_comm (n : ℚ)] at hclosest
  have htriangle := abs_sub_le (x.mul (Decimal.powerOfTen p)).toRat (x.toRat * 10 ^ p) n
  linarith

include hp hx hscaled in
/-- If the scaled double has two bits behind the point to spare, the integer is found again. -/
theorem floor_eq_of_fine (h : IsNearest x (n / 10 ^ p))
    (hsize : |x.toRat| * 2 ^ scaleBits p < 2 ^ 51) :
    ⌊(x.mul (Decimal.powerOfTen p)).toRat + 1 / 2⌋ = n := by
  have hdist := abs_mul_sub_lt_of_isNearest hp h (j := 2) le_rfl
    (by rw [pow_add, ← mul_assoc]; linarith)
  have hscaledDist := abs_scaled_sub_le (n := n) hp hx hscaled (by linarith) (by linarith)
  exact floor_add_half_of_abs_sub_lt (by linarith)

include hp hx hscaled in
/-- If the scaled double is an integer but the double is still told apart from its places, the
integer is found again. -/
theorem floor_eq_of_whole (h : IsNearest x (n / 10 ^ p))
    (hsize : |x.toRat| * 2 ^ scaleBits p < 2 ^ 52) (hlarge : 2 ^ 52 ≤ |x.toRat| * 10 ^ p) :
    ⌊(x.mul (Decimal.powerOfTen p)).toRat + 1 / 2⌋ = n := by
  have hdist := abs_mul_sub_lt_of_isNearest hp h (j := 1) one_le_two
    (by rw [pow_add, ← mul_assoc]; linarith)
  have hscaledDist := abs_scaled_sub_le (n := n) hp hx hscaled hsize (by linarith)
  obtain ⟨k, hk⟩ := exists_scaled_eq_intCast hp hx hscaled hlarge
  have hlt : |(k : ℚ) - n| < 1 := by
    rw [← hk]
    linarith
  obtain rfl : k = n := by
    rw [← sub_eq_zero, ← Int.abs_lt_one_iff]
    exact_mod_cast hlt
  exact floor_add_half_of_eq hk

/-! ## Doubles that go back to where they came from -/

include hp hx hscaled in
/-- From `2^52` on, the integer that is found differs from the exact product by half the spacing at
most. -/
theorem two_mul_abs_floor_sub_le {b : ℕ} (hlarge : 2 ^ 52 ≤ |x.toRat| * 10 ^ p)
    (hlt : |x.toRat| * 10 ^ p < 2 ^ (53 + b)) :
    2 * |(⌊(x.mul (Decimal.powerOfTen p)).toRat + 1 / 2⌋ : ℚ) - x.toRat * 10 ^ p| ≤ 2 ^ b := by
  obtain ⟨k, hk⟩ := exists_scaled_eq_intCast hp hx hscaled hlarge
  have herror := (isNearest_scaled hp hx hscaled).two_mul_abs_sub_le (a := 0) (b := b)
    (Nat.zero_le _)
    (by rwa [pow_zero, mul_one, abs_mul_ten_pow])
  rw [pow_zero, mul_one] at herror
  rwa [floor_add_half_of_eq hk, ← hk]

end Found

/-- Scaled back, a distance shrinks by more than the power of two below the power of ten. -/
theorem abs_div_sub_lt {c : ℚ} (hc : 0 < c) (hp : p ≠ 0)
    (h : |n - q * 10 ^ p| ≤ c * (2 ^ (e + scaleBits p) / 2 ^ 52)) :
    |n / 10 ^ p - q| < c * (2 ^ e / 2 ^ 52) := by
  rw [abs_sub_comm, ← abs_sub_div_mul] at h
  have hlt := mul_lt_of_mul_le (abs_nonneg _) (two_pow_scaleBits_lt hp) (by positivity) h
  rw [abs_sub_comm]
  refine lt_of_mul_lt_mul_right (hlt.trans_eq ?_) (by positivity : (0 : ℚ) ≤ 2 ^ scaleBits p)
  rw [pow_add]
  ring

/-- A double is kept if scaling leads from its binade into one whose doubles are no farther apart
than the doubles around it are, scaled. -/
theorem toRat_rounded_of_level (hp : p ≤ 15) (hx : x.isFinite)
    (hscaled : (x.mul (Decimal.powerOfTen p)).isFinite) (hp0 : p ≠ 0) (he : 52 ≤ e + scaleBits p)
    (hle : 2 ^ e ≤ |x.toRat|) (hlt : |x.toRat| * 10 ^ p < 2 ^ (e + scaleBits p + 1)) :
    (x.rounded p).toRat = x.toRat := by
  obtain ⟨i, hi⟩ := Nat.exists_eq_add_of_le he
  have hlarge : 2 ^ 52 ≤ |x.toRat| * 10 ^ p :=
    calc (2 : ℚ) ^ 52 ≤ 2 ^ (e + scaleBits p) := pow_le_pow_right₀ (by norm_num) he
      _ = 2 ^ e * 2 ^ scaleBits p := pow_add ..
      _ ≤ |x.toRat| * 10 ^ p :=
        mul_le_mul hle (two_pow_scaleBits_le p) (by positivity) (abs_nonneg _)
  have hfound := two_mul_abs_floor_sub_le (b := i) hp hx hscaled hlarge
    (by rwa [show 53 + i = e + scaleBits p + 1 by omega])
  refine (isNearest_rounded hx hscaled).toRat_eq_of_abs_sub_lt hx
    (bothReach_rounded hp hx hscaled hle) (abs_div_sub_lt (by norm_num) hp0 ?_)
  rw [hi, pow_add, mul_div_cancel_left₀ _ (by positivity)]
  linarith

/-! ## The bands and everything else -/

/-- Outside the two bands a double with `p` decimal places survives rounding to `p` places. -/
theorem toRat_rounded_of_not_isExposed (hp : p ≤ 15) (h : IsNearest x (n / 10 ^ p))
    (hexposed : ¬ IsExposed p x) : (x.rounded p).toRat = x.toRat := by
  have hx := h.finite
  have hten : |x.toRat| * 2 ^ scaleBits p ≤ |x.toRat| * 10 ^ p :=
    mul_le_mul_of_nonneg_left (two_pow_scaleBits_le p) (abs_nonneg _)
  by_cases hscaled : (x.mul (Decimal.powerOfTen p)).isFinite
  swap
  · rw [rounded, if_neg hscaled]
  by_cases hexact : (x.mul (Decimal.powerOfTen p)).toRat = x.toRat * 10 ^ p
  · -- Without an error of scaling only the error of the double itself is left.
    rcases lt_or_ge (|x.toRat| * 2 ^ scaleBits p) (2 ^ 52) with hsmall | hlarge
    · have hdist := abs_mul_sub_lt_of_isNearest hp h (j := 1) one_le_two
        (by rw [pow_add, ← mul_assoc]; linarith)
      refine toRat_rounded_of_floor hx hscaled (floor_add_half_of_abs_sub_lt ?_) h
      rw [hexact]
      linarith
    · obtain ⟨k, hk⟩ := exists_scaled_eq_intCast hp hx hscaled (hlarge.trans hten)
      exact toRat_rounded_of_exact hx hscaled hexact hk
  rcases lt_or_ge (|x.toRat| * 2 ^ scaleBits p) (2 ^ 51) with hfine | h51
  · exact toRat_rounded_of_floor hx hscaled (floor_eq_of_fine hp hx hscaled h hfine) h
  rcases lt_or_ge (|x.toRat| * 10 ^ p) (2 ^ 52) with hhalves | hwhole
  · exact absurd ⟨hscaled, hexact, .inl ⟨h51, hhalves⟩⟩ hexposed
  rcases lt_or_ge (|x.toRat| * 2 ^ scaleBits p) (2 ^ 52) with h52 | hlarge
  · exact toRat_rounded_of_floor hx hscaled (floor_eq_of_whole hp hx hscaled h h52 hwhole) h
  -- The double is large; its binade decides.
  have hone : 1 ≤ |x.toRat| := by
    have hbits : (2 : ℚ) ^ scaleBits p ≤ 2 ^ 52 :=
      pow_le_pow_right₀ (by norm_num) ((scaleBits_le hp).trans (by norm_num))
    exact one_le_of_le_mul_right₀ (by positivity) (hbits.trans hlarge)
  obtain ⟨e, hle, hlt⟩ := exists_nat_pow_near hone one_lt_two
  have he : 52 ≤ e + scaleBits p := by
    have hpow : (2 : ℚ) ^ 52 < 2 ^ (e + 1 + scaleBits p) := by
      rw [pow_add]
      exact hlarge.trans_lt (mul_lt_mul_of_pos_right hlt (by positivity))
    have := (pow_lt_pow_iff_right₀ (by norm_num : (1 : ℚ) < 2)).1 hpow
    omega
  rcases lt_or_ge (|x.toRat| * 10 ^ p) (2 ^ (e + scaleBits p + 1)) with hlevel | hcoarse
  · exact toRat_rounded_of_level hp hx hscaled (ne_zero_of_inexact hx hexact) he hle hlevel
  · exact absurd ⟨hscaled, hexact, .inr ⟨e, he, hle, hlt, hcoarse⟩⟩ hexposed

/-- In the two bands rounding leads at most to a neighbour. -/
theorem isNeighbour_rounded_of_isExposed (hp : p ≤ 15) (hx : x.isFinite) (h : IsExposed p x) :
    IsNeighbour x (x.rounded p) := by
  have hp0 := ne_zero_of_inexact hx h.inexact
  have hnearest := isNearest_rounded hx h.finite
  obtain ⟨h51, h52⟩ | ⟨e, he, hle, hlt, hcoarse⟩ := h.band
  · have hbits := scaleBits_le hp
    obtain ⟨e, he⟩ : ∃ e, e + scaleBits p = 51 := ⟨51 - scaleBits p, by omega⟩
    have hle : 2 ^ e ≤ |x.toRat| := by
      rw [← he, pow_add] at h51
      exact le_of_mul_le_mul_right h51 (by positivity)
    refine hnearest.isNeighbour_of_abs_sub_lt (bothReach_rounded hp hx h.finite hle)
      (abs_div_sub_lt (by norm_num) hp0 ?_)
    -- Scaling adds at most a quarter, and going to the integer at most a half.
    have hscaling := (isNearest_scaled hp hx h.finite).two_mul_abs_sub_le (a := 1) (b := 0)
      (by norm_num) (by
        rw [abs_mul_ten_pow, pow_one, add_zero]
        linarith)
    have hround := abs_sub_round (x.mul (Decimal.powerOfTen p)).toRat
    rw [round_eq, abs_sub_comm] at hround
    have htriangle := abs_sub_le (⌊(x.mul (Decimal.powerOfTen p)).toRat + 1 / 2⌋ : ℚ)
      (x.mul (Decimal.powerOfTen p)).toRat (x.toRat * 10 ^ p)
    rw [he]
    linarith
  · obtain ⟨i, hi⟩ := Nat.exists_eq_add_of_le he
    refine hnearest.isNeighbour_of_abs_sub_lt (bothReach_rounded hp hx h.finite hle)
      (abs_div_sub_lt (by norm_num) hp0 ?_)
    have hlarge : 2 ^ 52 ≤ |x.toRat| * 10 ^ p :=
      (pow_le_pow_right₀ (by norm_num) (by omega)).trans hcoarse
    have hsize : |x.toRat| * 10 ^ p < 2 ^ (53 + (i + 1)) :=
      calc |x.toRat| * 10 ^ p < 2 ^ (e + 1) * 2 ^ (scaleBits p + 1) :=
            mul_lt_mul hlt (ten_pow_lt p).le (by positivity) (by positivity)
        _ = 2 ^ (53 + (i + 1)) := by rw [← pow_add]; congr 1; omega
    have hfound := two_mul_abs_floor_sub_le hp hx h.finite hlarge hsize
    have hpos : (0 : ℚ) < 2 ^ i := by positivity
    rw [hi, pow_add, mul_div_cancel_left₀ _ (by positivity)]
    rw [pow_succ] at hfound
    linarith

/-! ## Rounding what has the places -/

/-- A product with an infinity, or with what is not a number, is not finite. -/
theorem isFinite_of_isFinite_mul (h : (x.mul y).isFinite) : x.isFinite := by
  match x, y with
  | finite .., _ => rfl
  | nan, _ => exact h
  | infinite _, nan => exact h
  | infinite _, infinite _ => exact h
  | infinite s, finite t m _ =>
    rw [mul] at h
    split_ifs at h
    · exact h
    · exact h

/-- A double with at most 15 places is rounded to them without a failure, at most to a neighbour,
and outside the two bands to itself. A whole number that leaves room for the odd part of the power
of ten is kept always, and what is no finite double is not touched. Any other finite double is
rounded to one that has the places, so that the same is true of rounding it again. -/
theorem exists_roundHalfUp_isNeighbour (hp : p ≤ 15) :
    (∀ (n : ℤ) (x : Double), IsNearest x (n / 10 ^ p) → ∃ y : Double,
      x.roundHalfUp p = .ok y ∧ IsNeighbour x y ∧ (¬ IsExposed p x → y.toRat = x.toRat)) ∧
    (∀ (k : ℤ) (x : Double), x.isFinite → x.toRat = k → |k| * 5 ^ p ≤ 2 ^ 53 → ∃ y : Double,
      x.roundHalfUp p = .ok y ∧ y.isFinite ∧ y.toRat = x.toRat) ∧
    (∀ x : Double, ¬ x.isFinite → x.roundHalfUp p = .ok x) ∧
    ∀ x : Double, x.isFinite → ∃ y z : Double, x.roundHalfUp p = .ok y ∧ HasPlaces p y ∧
      y.roundHalfUp p = .ok z ∧ IsNeighbour y z ∧ (¬ IsExposed p y → z.toRat = y.toRat) := by
  have hkept : ∀ (n : ℤ) (x : Double), IsNearest x (n / 10 ^ p) →
      IsNeighbour x (x.rounded p) ∧ (¬ IsExposed p x → (x.rounded p).toRat = x.toRat) := by
    intro n x h
    refine ⟨?_, toRat_rounded_of_not_isExposed hp h⟩
    by_cases hexposed : IsExposed p x
    · exact isNeighbour_rounded_of_isExposed hp h.finite hexposed
    · exact isNeighbour_of_toRat_eq (isFinite_rounded h.finite p)
        (toRat_rounded_of_not_isExposed hp h hexposed)
  refine ⟨?_, ?_, ?_, ?_⟩
  · intro n x h
    exact ⟨x.rounded p, roundHalfUp_eq hp x, hkept n x h⟩
  · intro k x hx hk hroom
    obtain ⟨-, hexact⟩ := scaled_of_toRat_eq_intCast hp hx hk hroom
    obtain ⟨n, hn⟩ := hasPlaces_of_toRat_eq_intCast (p := p) hx hk
    exact ⟨x.rounded p, roundHalfUp_eq hp x, isFinite_rounded hx p,
      (hkept n x hn).2 fun hexposed => hexposed.inexact hexact⟩
  · intro x hx
    have hscaled : ¬ (x.mul (Decimal.powerOfTen p)).isFinite := mt isFinite_of_isFinite_mul hx
    rw [roundHalfUp_eq hp, rounded, if_neg hscaled]
  · intro x hx
    obtain ⟨n, hn⟩ := hasPlaces_rounded hp hx
    exact ⟨x.rounded p, (x.rounded p).rounded p, roundHalfUp_eq hp x, ⟨n, hn⟩,
      roundHalfUp_eq hp _, hkept n _ hn⟩

/-- The double nearest to `5000000.000000001` lies between the two bands and is kept. -/
theorem exists_roundHalfUp_fiveMillion :
    9 ≤ 15 ∧ ∃ y : Double, (ofIntRatio 5000000000000001 (10 ^ 9)).roundHalfUp 9 = .ok y ∧
      y.toRat = (ofIntRatio 5000000000000001 (10 ^ 9)).toRat := by
  have hrounds := rounds_ofIntRatio 5000000000000001 (d := 10 ^ 9) (by norm_num)
  have hfinite : (ofIntRatio 5000000000000001 (10 ^ 9)).isFinite := by decide +kernel
  have hlow := div_le_toRat_iff (p := 0) (m := 5000000)
    (x := ofIntRatio 5000000000000001 (10 ^ 9)) |>.2 (by decide +kernel)
  have hhigh := toRat_le_div_iff (p := 0) (m := 5000001)
    (x := ofIntRatio 5000000000000001 (10 ^ 9)) |>.2 (by decide +kernel)
  generalize ofIntRatio 5000000000000001 (10 ^ 9) = x at *
  rw [Nat.cast_pow, Nat.cast_ofNat] at hrounds
  rw [pow_zero, div_one, Int.cast_ofNat] at hlow hhigh
  have habs : |x.toRat| = x.toRat := abs_of_nonneg (by linarith)
  have hbits : scaleBits 9 = 29 := Nat.log_eq_of_pow_le_of_lt_pow (by norm_num) (by norm_num)
  have hexposed : ¬ IsExposed 9 x :=
    not_isExposed_of_whole (by rw [hbits, habs]; linarith) (by rw [habs]; linarith)
  obtain ⟨y, hy, -, hkept⟩ :=
    (exists_roundHalfUp_isNeighbour (p := 9) (by norm_num)).1 _ x (hrounds.isNearest hfinite)
  exact ⟨by norm_num, y, hy, hkept hexposed⟩

/-- To nine places the whole number 5000000001 is rounded to a smaller double. And the double
nearest to `4200000.000000007` moves upward when it is rounded, and upward again when it is rounded
again. -/
theorem roundHalfUp_fiveBillionOne :
    (¬ ∀ (p : ℕ) (n : ℤ) (x : Double), p ≤ 15 → IsNearest x (n / 10 ^ p) →
      ∃ y : Double, x.roundHalfUp p = .ok y ∧ y.toRat = x.toRat) ∧
    ∃ x y z : Double, x.isFinite ∧ x.roundHalfUp 9 = .ok y ∧ y.roundHalfUp 9 = .ok z ∧
      x.toRat < y.toRat ∧ y.toRat < z.toRat := by
  constructor
  · intro hall
    obtain ⟨hfinite, hvalue⟩ := toRat_ofInt (n := 5000000001) (by norm_num)
    obtain ⟨n, hn⟩ := hasPlaces_of_toRat_eq_intCast (p := 9) hfinite hvalue
    obtain ⟨y, hy, heq⟩ := hall 9 n _ (by norm_num) hn
    have hmoved : (ofInt 5000000001).roundHalfUp 9 =
        .ok (ofIntRatio 5000000000999999 (10 ^ 6)) := by decide +kernel
    obtain rfl : _ = y := Except.ok.inj (hmoved.symm.trans hy)
    exact (toRat_lt_iff.2 (by decide +kernel)).ne heq
  · exact ⟨ofIntRatio 4200000000000007 (10 ^ 9), ofIntRatio 4200000000000008 (10 ^ 9),
      ofIntRatio 4200000000000009 (10 ^ 9), by decide +kernel, by decide +kernel,
      by decide +kernel, toRat_lt_iff.2 (by decide +kernel), toRat_lt_iff.2 (by decide +kernel)⟩

end Keypad.Double
