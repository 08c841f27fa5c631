import Keypad.Proofs.Double.Precision

/-!
# The spacing of the doubles

From `2^e` on the doubles are at least `2^e / 2^52` apart (`toRat_add_le`), and below `2^(e + 1)` a
number is rounded by at most half of that (`IsNearest.two_mul_abs_sub_le`). Rounding preserves the
order (`IsNearest.mono`). So how far a number is from a double decides how far the double is that it
is rounded to: below half of the spacing it is the same one (`IsNearest.toRat_eq_of_abs_sub_lt`),
and below one and a half of it there is no double between the two
(`IsNearest.isNeighbour_of_abs_sub_lt`). -/

namespace Keypad.Double

variable {x y : Double} {q r : ℚ}

/-! ## Rounding preserves the order -/

/-- Every number is rounded to something. -/
theorem exists_rounds (q : ℚ) : ∃ x, Rounds q x := by
  have h := rounds_ofIntRatio q.num q.den_pos
  rw [Rat.num_div_den] at h
  exact ⟨_, h⟩

/-- The double nearest to a number is what the number is rounded to, in value. -/
theorem IsNearest.exists_rounds (h : IsNearest x q) :
    ∃ y, Rounds q y ∧ y.isFinite ∧ y.toRat = x.toRat := by
  obtain ⟨y, hy⟩ := Double.exists_rounds q
  have hfinite : y.isFinite := hy.isFinite_iff.2 h.inRange
  exact ⟨y, hy, hfinite, (hy.isNearest hfinite).toRat_eq h⟩

/-- Of two numbers the larger one has the larger nearest double, or they have the same. -/
theorem IsNearest.mono (hx : IsNearest x q) (hy : IsNearest y r) (hle : q ≤ r) :
    x.toRat ≤ y.toRat := by
  by_contra hlt
  rw [not_le] at hlt
  have hyq := hx.lt_of_toRat_lt hy.finite hlt
  have hrx := hy.lt_of_lt_toRat hx.finite hlt
  have hclosest := hx.closest y hy.finite
  have hclosest' := hy.closest x hx.finite
  rw [abs_of_nonneg (by linarith), abs_of_nonpos (by linarith)] at hclosest
  rw [abs_of_nonpos (by linarith), abs_of_nonneg (by linarith)] at hclosest'
  -- Both numbers are halfway between the two doubles, so they have the same nearest double.
  obtain rfl : q = r := by linarith
  exact hlt.ne (hy.toRat_eq hx)

/-- A double that is no larger than a number is no larger than its nearest double. -/
theorem IsNearest.toRat_le (h : IsNearest x q) (hy : y.isFinite) (hle : y.toRat ≤ q) :
    y.toRat ≤ x.toRat :=
  (isNearest_toRat hy).mono h hle

/-- A double that is no smaller than a number is no smaller than its nearest double. -/
theorem IsNearest.le_toRat (h : IsNearest x q) (hy : y.isFinite) (hle : q ≤ y.toRat) :
    x.toRat ≤ y.toRat :=
  h.mono (isNearest_toRat hy) hle

/-- A magnitude that is reached is reached by the nearest double too. -/
theorem IsNearest.toRat_le_abs (h : IsNearest x q) (hy : y.isFinite) (hle : y.toRat ≤ |q|) :
    y.toRat ≤ |x.toRat| := by
  rcases le_abs'.1 hle with hneg | hpos
  · have hle' := h.le_toRat ((isFinite_neg y).trans hy) (by rw [toRat_neg]; exact hneg)
    rw [toRat_neg] at hle'
    exact le_abs'.2 (.inl hle')
  · exact le_abs'.2 (.inr (h.toRat_le hy hpos))

/-- A magnitude that the nearest double does not reach is not reached by the number. -/
theorem IsNearest.abs_lt_toRat (h : IsNearest x q) (hy : y.isFinite) (hlt : |x.toRat| < y.toRat) :
    |q| < y.toRat := by
  by_contra hle
  exact absurd (h.toRat_le_abs hy (not_lt.1 hle)) (not_le.2 hlt)

/-! ## Half of the spacing -/

/-- A number below `2^(53 + b - a)` is moved by at most half of `2^(b - a)`. -/
theorem Rounds.two_mul_abs_sub_le (h : Rounds q x) (hx : x.isFinite) {a b : ℕ} (ha : a ≤ 53)
    (hq : |q| * 2 ^ a < 2 ^ (53 + b)) : 2 * (|x.toRat - q| * 2 ^ a) ≤ 2 ^ b := by
  have hU := unitsPerOne_pos
  obtain ⟨e, hU2, -⟩ := exists_unitsPerOne_eq
  have hU2' : (unitsPerOne : ℚ) = 2 ^ (53 + e) := by exact_mod_cast hU2
  obtain ⟨s, n, d, hd, hqU, -, -, hdist⟩ := h.exists_roundUnits hx
  have hd' : (0 : ℚ) < d := by exact_mod_cast hd
  -- In units the number is below `2^(53 + k)`, so that the spacing around it is at most `2^k`.
  obtain ⟨k, hk⟩ : ∃ k, k + a = 53 + e + b := ⟨53 + e + b - a, by omega⟩
  have habs : |q| * 2 ^ (53 + e) = n / d := by
    calc |q| * 2 ^ (53 + e) = |q * unitsPerOne| := by rw [abs_mul, abs_of_pos hU, hU2']
      _ = n / d := by rw [hqU, abs_mul, abs_signRat, one_mul, abs_of_nonneg (by positivity)]
  have hcount : (n : ℚ) / d < 2 ^ (53 + k) := by
    refine lt_of_mul_lt_mul_right ?_ (by positivity : (0 : ℚ) ≤ 2 ^ a)
    calc (n : ℚ) / d * 2 ^ a = |q| * 2 ^ a * 2 ^ (53 + e) := by rw [← habs]; ring
      _ < 2 ^ (53 + b) * 2 ^ (53 + e) := mul_lt_mul_of_pos_right hq (by positivity)
      _ = 2 ^ (53 + k) * 2 ^ a := by rw [← pow_add, ← pow_add]; congr 1; omega
  have hspacing : spacing (n / d) ≤ k := by
    rw [div_lt_iff₀ hd'] at hcount
    exact spacing_le_of_lt (Nat.div_lt_of_lt_mul (by rw [mul_comm]; exact_mod_cast hcount))
  have hunits : 2 * (|(roundUnits n d : ℤ) * d - n| : ℤ) ≤ (d * 2 ^ k : ℕ) := by
    refine (two_mul_abs_roundUnits_sub_le n d hd).trans ?_
    exact_mod_cast Nat.mul_le_mul_left d (Nat.pow_le_pow_right (by norm_num) hspacing)
  have hunits' : 2 * |(roundUnits n d : ℚ) - n / d| ≤ 2 ^ k := by
    rw [abs_sub_div_eq hd, ← mul_div_assoc, div_le_iff₀ hd', mul_comm (2 ^ k : ℚ)]
    exact_mod_cast hunits
  calc 2 * (|x.toRat - q| * 2 ^ a)
      = 2 * |(roundUnits n d : ℚ) - n / d| * 2 ^ a / 2 ^ (53 + e) := by rw [hdist, hU2']; ring
    _ ≤ 2 ^ k * 2 ^ a / 2 ^ (53 + e) := by gcongr
    _ = 2 ^ b := by rw [← pow_add, hk, pow_add, mul_div_cancel_left₀ _ (by positivity)]

/-- A number below `2^(53 + b - a)` differs from its nearest double by at most half of `2^(b - a)`.
-/
theorem IsNearest.two_mul_abs_sub_le (h : IsNearest x q) {a b : ℕ} (ha : a ≤ 53)
    (hq : |q| * 2 ^ a < 2 ^ (53 + b)) : 2 * (|x.toRat - q| * 2 ^ a) ≤ 2 ^ b := by
  obtain ⟨y, hy, hfinite, heq⟩ := h.exists_rounds
  rw [← heq]
  exact hy.two_mul_abs_sub_le hfinite ha hq

/-! ## Doubles from a power of two on -/

/-- From `2^e` on, a double is followed by another one not before `2^e / 2^52` more. -/
theorem toRat_add_le {e : ℕ} (hx : 2 ^ e ≤ |x.toRat|) (hy : 2 ^ e ≤ |y.toRat|)
    (hlt : x.toRat < y.toRat) : x.toRat + 2 ^ e / 2 ^ 52 ≤ y.toRat := by
  obtain ⟨i, hi⟩ := exists_toRat_eq_mul_spacing hx
  obtain ⟨j, hj⟩ := exists_toRat_eq_mul_spacing hy
  have hpos : (0 : ℚ) < 2 ^ e / 2 ^ 52 := by positivity
  rw [hi, hj] at hlt ⊢
  have hij : i + 1 ≤ j := by exact_mod_cast (mul_lt_mul_iff_left₀ hpos).1 hlt
  have hij' : (i : ℚ) + 1 ≤ j := by exact_mod_cast hij
  calc (i * (2 ^ e / 2 ^ 52) + 2 ^ e / 2 ^ 52 : ℚ) = (i + 1) * (2 ^ e / 2 ^ 52) := by ring
    _ ≤ j * (2 ^ e / 2 ^ 52) := mul_le_mul_of_nonneg_right hij' hpos.le

/-- A whole number of at most 53 bits times a power of two is a double, unless it overflows. -/
theorem exists_toRat_eq_of_lt_overflow {m : ℤ} (hm : |m| ≤ 2 ^ 53) {e : ℕ}
    (hlt : |(m : ℚ)| * 2 ^ e < overflow) : ∃ y : Double, y.isFinite ∧ y.toRat = m * 2 ^ e := by
  have hU := unitsPerOne_pos
  obtain ⟨f, hU2, -⟩ := exists_unitsPerOne_eq
  have hU2' : (unitsPerOne : ℚ) = 2 ^ (53 + f) := by exact_mod_cast hU2
  obtain ⟨g, hbound, hover⟩ := exists_overflow_mul_unitsPerOne
  have habs : (m * 2 ^ (e + (53 + f)) : ℤ).natAbs = m.natAbs * 2 ^ (e + (53 + f)) := by
    rw [Int.natAbs_mul, Int.natAbs_pow]
    rfl
  have hle : m.natAbs ≤ 2 ^ 53 := by
    rw [Int.abs_eq_natAbs] at hm
    exact_mod_cast hm
  have hunits : ((m.natAbs * 2 ^ (e + (53 + f)) : ℕ) : ℚ) < (2 ^ (54 + g) : ℕ) := by
    rw [Nat.cast_mul, Nat.cast_natAbs, Int.cast_abs]
    push_cast
    calc |(m : ℚ)| * 2 ^ (e + (53 + f)) = |(m : ℚ)| * 2 ^ e * unitsPerOne := by rw [hU2']; ring
      _ < overflow * unitsPerOne := mul_lt_mul_of_pos_right hlt hU
      _ ≤ 2 ^ (54 + g) := by
        rw [hover]
        exact sub_le_self _ (by positivity)
  obtain ⟨y, hy, heq⟩ := exists_toRat_eq (v := m * 2 ^ (e + (53 + f)))
    (habs ▸ isShort_mul_two_pow hle _) (by rw [habs, hbound]; exact_mod_cast hunits)
  refine ⟨y, hy, ?_⟩
  rw [heq, hU2', div_eq_iff (by positivity)]
  push_cast
  ring

/-! ## Neighbours -/

/-- The second double is finite, and no finite double lies between the two. -/
structure IsNeighbour (x y : Double) : Prop where
  /-- It is no infinity. -/
  finite : y.isFinite
  /-- All doubles lie on one side of both. -/
  outside : ∀ z : Double, z.isFinite →
    z.toRat ≤ min x.toRat y.toRat ∨ max x.toRat y.toRat ≤ z.toRat

/-- Between doubles of one value there is none. -/
theorem isNeighbour_of_toRat_eq (hy : y.isFinite) (h : y.toRat = x.toRat) : IsNeighbour x y where
  finite := hy
  outside := fun z _ => by
    rw [h, min_self, max_self]
    exact le_total _ _

/-- The two doubles have one sign and reach a power of two. -/
def BothReach (e : ℕ) (x y : Double) : Prop :=
  (2 ^ e ≤ x.toRat ∧ 2 ^ e ≤ y.toRat) ∨ (x.toRat ≤ -2 ^ e ∧ y.toRat ≤ -2 ^ e)

/-- What lies between two doubles of one sign reaches the power of two that they reach. -/
theorem BothReach.le_abs {e : ℕ} (h : BothReach e x y) (hmin : min x.toRat y.toRat ≤ q)
    (hmax : q ≤ max x.toRat y.toRat) : 2 ^ e ≤ |q| := by
  obtain ⟨hx, hy⟩ | ⟨hx, hy⟩ := h
  · exact le_abs'.2 (.inr ((le_min hx hy).trans hmin))
  · exact le_abs'.2 (.inl (hmax.trans (max_le hx hy)))

/-- A number that is away from a double by less than half of the spacing is rounded to it. -/
theorem IsNearest.toRat_eq_of_abs_sub_lt (h : IsNearest y q) (hx : x.isFinite) {e : ℕ}
    (hreach : BothReach e x y) (hq : |q - x.toRat| < 1 / 2 * (2 ^ e / 2 ^ 52)) :
    y.toRat = x.toRat := by
  have hxe := hreach.le_abs (min_le_left _ _) (le_max_left _ _)
  have hye := hreach.le_abs (min_le_right _ _) (le_max_right _ _)
  have hclosest := h.closest x hx
  rw [abs_sub_comm x.toRat] at hclosest
  have hclose := hclosest.trans_lt hq
  rw [abs_lt] at hq hclose
  rcases lt_trichotomy x.toRat y.toRat with hlt | heq | hlt
  · have hgap := toRat_add_le hxe hye hlt
    linarith
  · exact heq.symm
  · have hgap := toRat_add_le hye hxe hlt
    linarith

/-- A number that is away from a double by less than one and a half of the spacing is rounded to it
or to one next to it: a double between the two would be nearer. -/
theorem IsNearest.isNeighbour_of_abs_sub_lt (h : IsNearest y q) {e : ℕ}
    (hreach : BothReach e x y) (hq : |q - x.toRat| < 3 / 2 * (2 ^ e / 2 ^ 52)) :
    IsNeighbour x y := by
  refine ⟨h.finite, fun z hz => ?_⟩
  by_contra hbetween
  rw [not_or, not_le, not_le] at hbetween
  obtain ⟨hmin, hmax⟩ := hbetween
  have hxe := hreach.le_abs (min_le_left _ _) (le_max_left _ _)
  have hye := hreach.le_abs (min_le_right _ _) (le_max_right _ _)
  have hze := hreach.le_abs hmin.le hmax.le
  have hclosest := h.closest z hz
  rw [abs_lt] at hq
  rcases le_total x.toRat y.toRat with hxy | hxy
  · rw [min_eq_left hxy] at hmin
    rw [max_eq_right hxy] at hmax
    have hgap := toRat_add_le hxe hze hmin
    have hgap' := toRat_add_le hze hye hmax
    rw [abs_of_nonneg (by linarith : 0 ≤ y.toRat - q), le_abs] at hclosest
    rcases hclosest with h' | h' <;> linarith
  · rw [min_eq_right hxy] at hmin
    rw [max_eq_left hxy] at hmax
    have hgap := toRat_add_le hye hze hmin
    have hgap' := toRat_add_le hze hxe hmax
    rw [abs_of_nonpos (by linarith : y.toRat - q ≤ 0), le_abs] at hclosest
    rcases hclosest with h' | h' <;> linarith

end Keypad.Double
