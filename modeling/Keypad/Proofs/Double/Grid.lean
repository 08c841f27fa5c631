import Keypad.Proofs.Double.Places

/-!
# Rounding recovers decimal numbers

The numbers on the grid of `p` decimal places are the multiples `n / 10^p` with `n` of at most 49
bits. A double has four bits more, so that the operations of one step, which start from the doubles
nearest to two numbers on the grid, stay well within half a place of the exact result. If this is on
the grid, then rounding to `p` places finds it again (`rounds_rounded`).

All distances are relative. One rounding moves a number on the grid by at most `9 / 2^56` of its
size, which is `2^-53` and a part for the half unit of the smallest doubles
(`Rounds.abs_sub_le_of_onGrid`). -/

namespace Keypad.Double

/-- A whole number of `p`-th decimal places, at most `2^49` of them. -/
def OnGrid (p : ℕ) (q : ℚ) : Prop := ∃ n : ℤ, |n| ≤ 2 ^ 49 ∧ q = n / 10 ^ p

section Grid

variable {p : ℕ} {q : ℚ} {x : Double}

/-- The size of a number on the grid, in places. -/
theorem OnGrid.abs_mul_le (h : OnGrid p q) : |q| * 10 ^ p ≤ 2 ^ 49 := by
  obtain ⟨n, hn, rfl⟩ := h
  have hten : (0 : ℚ) < 10 ^ p := by positivity
  rw [abs_div, abs_of_pos hten, div_mul_cancel₀ _ hten.ne']
  exact_mod_cast hn

/-- A number on the grid other than zero is at least one place. -/
theorem OnGrid.one_le (h : OnGrid p q) (hq : q ≠ 0) : 1 ≤ |q| * 10 ^ p := by
  obtain ⟨n, hn, rfl⟩ := h
  have hten : (0 : ℚ) < 10 ^ p := by positivity
  have hn0 : n ≠ 0 := by
    rintro rfl
    simp at hq
  rw [abs_div, abs_of_pos hten, div_mul_cancel₀ _ hten.ne']
  exact_mod_cast Int.one_le_abs hn0

/-- The powers of ten of at most 15 places have at most 50 bits. -/
theorem ten_pow_le (hp : p ≤ 15) : (10 : ℚ) ^ p ≤ 2 ^ 50 :=
  (pow_le_pow_right₀ (by norm_num) hp).trans (by norm_num)

/-- Half a unit is very small. -/
theorem half_unit_le : 1 / (2 * unitsPerOne) ≤ (1 : ℚ) / 2 ^ 121 := by
  have hunits : (2 : ℚ) ^ 120 ≤ unitsPerOne := by
    rw [unitsPerOne_eq, Nat.cast_pow, Nat.cast_ofNat]
    exact pow_le_pow_right₀ (by norm_num) (by norm_num)
  rw [pow_succ, mul_comm]
  exact div_le_div_of_nonneg_left zero_le_one (by positivity)
    (mul_le_mul_of_nonneg_right hunits zero_le_two)

/-- A number of at most 53 bits before the point is rounded to a finite double. -/
theorem Rounds.isFinite_of_abs_le (h : Rounds q x) (hq : |q| ≤ 2 ^ 53) : x.isFinite := by
  obtain ⟨hfinite, hval⟩ := toRat_ofInt (n := 2 ^ 53) (by norm_num)
  have hlt := abs_toRat_lt_overflow hfinite
  rw [hval, abs_of_nonneg (by positivity), Int.cast_pow, Int.cast_ofNat] at hlt
  exact h.isFinite_iff.2 (hq.trans_lt hlt)

/-- One rounding moves a number on the grid by little of its size. -/
theorem Rounds.abs_sub_le_of_onGrid (h : Rounds q x) (hp : p ≤ 15) (hq : OnGrid p q) :
    x.isFinite ∧ |x.toRat - q| ≤ |q| * (9 / 2 ^ 56) := by
  have hten := ten_pow_le hp
  have hone : (1 : ℚ) ≤ 10 ^ p := one_le_pow₀ (by norm_num)
  have hsize : |q| ≤ 2 ^ 53 := by
    have h1 := hq.abs_mul_le
    have h2 := le_mul_of_one_le_right (abs_nonneg q) hone
    linarith
  have hfinite := h.isFinite_of_abs_le hsize
  refine ⟨hfinite, ?_⟩
  rcases eq_or_ne q 0 with h0 | h0
  · -- Zero is a double and not moved at all.
    have hzero : (zero false).toRat = q := by simp [zero, toRat, signedUnits, h0]
    rw [(h.eq_of_toRat_eq (y := zero false) rfl hzero).2, sub_self, abs_zero]
    positivity
  · have hbound := h.abs_sub_le hfinite
    have hunit := half_unit_le
    have hleast := (hq.one_le h0).trans (mul_le_mul_of_nonneg_left hten (abs_nonneg q))
    linarith

end Grid

/-- A number close to one on the grid is rounded to a double that still scales to within half a
place of it: neither the rounding of the number nor that of the scaled double adds much. -/
theorem abs_scaled_sub_lt {T c t r s : ℚ} (hT : 0 < T) (hT50 : T ≤ 2 ^ 50) (hc : |c| * T ≤ 2 ^ 49)
    (ht : |t - c| * T ≤ 27 / 128) (hr : |r - t| ≤ |t| / 2 ^ 53 + 1 / 2 ^ 121)
    (hs : |s - r * T| ≤ |r * T| / 2 ^ 53 + 1 / 2 ^ 121) : |s - c * T| < 1 / 2 := by
  have hr' : |r * T - t * T| ≤ |t * T| / 2 ^ 53 + 1 / 2 ^ 71 := by
    calc |r * T - t * T| = |r - t| * T := by rw [← sub_mul, abs_mul, abs_of_pos hT]
      _ ≤ (|t| / 2 ^ 53 + 1 / 2 ^ 121) * T := mul_le_mul_of_nonneg_right hr hT.le
      _ = |t * T| / 2 ^ 53 + T / 2 ^ 121 := by
        rw [abs_mul, abs_of_pos hT]
        ring
      _ ≤ |t * T| / 2 ^ 53 + 1 / 2 ^ 71 := by linarith
  have ht' : |t * T - c * T| ≤ 27 / 128 := by rwa [← sub_mul, abs_mul, abs_of_pos hT]
  have hc' : |c * T| ≤ 2 ^ 49 := by rwa [abs_mul, abs_of_pos hT]
  have htsize := abs_sub_abs_le_abs_sub (t * T) (c * T)
  have hrsize := abs_sub_abs_le_abs_sub (r * T) (t * T)
  have hsum : |s - c * T| ≤ |s - r * T| + |r * T - t * T| + |t * T - c * T| := by
    calc |s - c * T| ≤ |s - r * T| + |r * T - c * T| := abs_sub_le ..
      _ ≤ |s - r * T| + (|r * T - t * T| + |t * T - c * T|) := by
        gcongr
        exact abs_sub_le ..
      _ = |s - r * T| + |r * T - t * T| + |t * T - c * T| := (add_assoc ..).symm
  linarith

/-- If a number differs from one on the grid by less than a quarter of a place, then rounding it to
a double and this to `p` places gives the double nearest to the number on the grid. -/
theorem rounds_rounded {p : ℕ} (hp : p ≤ 15) {c t : ℚ} {x : Double} (hc : OnGrid p c)
    (ht : |t - c| * 10 ^ p ≤ 27 / 128) (hx : Rounds t x) :
    x.isFinite ∧ Rounds c (x.rounded p) := by
  have hten := ten_pow_le hp
  have hone : (1 : ℚ) ≤ 10 ^ p := one_le_pow₀ (by norm_num)
  have hpos : (0 : ℚ) < 10 ^ p := by positivity
  have hunit := half_unit_le
  have hcsize := hc.abs_mul_le
  have htsize : |t| * 10 ^ p ≤ 2 ^ 49 + 1 := by
    have h := mul_le_mul_of_nonneg_right (abs_sub_abs_le_abs_sub t c) hpos.le
    rw [sub_mul] at h
    linarith
  have hfinite : x.isFinite := by
    refine hx.isFinite_of_abs_le ?_
    have h := le_mul_of_one_le_right (abs_nonneg t) hone
    linarith
  refine ⟨hfinite, ?_⟩
  have hr : |x.toRat - t| ≤ |t| / 2 ^ 53 + 1 / 2 ^ 121 := by
    have h := hx.abs_sub_le hfinite
    linarith
  -- The scaled double is finite too, so that rounding goes through the scaling.
  have hscaled := rounds_scaled hp hfinite
  have hrsize : |x.toRat * 10 ^ p| ≤ 2 ^ 53 := by
    have h := mul_le_mul_of_nonneg_right (abs_sub_abs_le_abs_sub x.toRat t) hpos.le
    have h' := mul_le_mul_of_nonneg_right hr hpos.le
    rw [sub_mul] at h
    rw [add_mul, div_mul_eq_mul_div] at h'
    rw [abs_mul_ten_pow]
    linarith
  have hsfinite := hscaled.isFinite_of_abs_le hrsize
  have hs : |(x.mul (Decimal.powerOfTen p)).toRat - x.toRat * 10 ^ p| ≤
      |x.toRat * 10 ^ p| / 2 ^ 53 + 1 / 2 ^ 121 := by
    have h := hscaled.abs_sub_le hsfinite
    linarith
  have hclose := abs_scaled_sub_lt hpos hten hcsize ht hr hs
  obtain ⟨n, hn, rfl⟩ := hc
  rw [div_mul_cancel₀ _ hpos.ne', abs_lt] at hclose
  have hhalf : ⌊(x.mul (Decimal.powerOfTen p)).toRat + 1 / 2⌋ = n := by
    rw [Int.floor_eq_iff]
    constructor <;> linarith
  have hrounds := rounds_floor_div hsfinite
  rwa [hhalf] at hrounds

end Keypad.Double
