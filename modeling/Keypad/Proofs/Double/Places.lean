import Keypad.Double.Places
import Keypad.Proofs.Double.Arith
import Mathlib.Data.Rat.Floor

/-!
# Rounding to decimal places is exact on the scaled double

`halfUp` computes the remainder of a double above its floor in doubles and compares it with one
half. This comparison is exact for every finite double `x` (`half_le_sub_floor_iff`), so that the
result is the floor of `x + 1/2` (`halfUp_eq`). A remainder below one half is a double itself and is
not rounded at all (`exists_toRat_eq_fract`); one half is a double, so that a greater remainder is
not rounded below it.

`rounded` is rounding to decimal places for the numbers of places that a configuration allows, where
it never fails (`roundHalfUp_eq`) and leads from finite doubles to finite ones
(`isFinite_rounded`). -/

namespace Keypad.Double

/-! ## Rounding half up -/

/-- One half is a double. -/
theorem toRat_half : half.isFinite ∧ half.toRat = 1 / 2 := by
  have hU := unitsPerOne_pos
  have h : half.isFinite = true ∧ 2 * half.signedUnits = unitsPerOne := by decide +kernel
  refine ⟨h.1, ?_⟩
  rw [toRat, div_eq_div_iff hU.ne' two_ne_zero, mul_comm, one_mul]
  exact_mod_cast h.2

/-- The order of finite doubles is the order of their values. -/
theorem le_iff {x y : Double} (hx : x.isFinite) (hy : y.isFinite) :
    x.le y ↔ x.toRat ≤ y.toRat := by
  obtain ⟨s, m, hm, rfl⟩ := exists_eq_finite hx
  obtain ⟨t, n, hn, rfl⟩ := exists_eq_finite hy
  rw [toRat, toRat, div_le_div_iff_of_pos_right unitsPerOne_pos, Int.cast_le]
  simp [le]

/-- The floor of a double is that of its value. -/
theorem floor_eq (x : Double) : x.floor = ⌊x.toRat⌋ := by
  rw [floor, toRat]
  exact (Rat.floor_intCast_div_natCast _ _).symm

/-- The floor of a finite double is a double. -/
theorem toRat_ofInt_floor {x : Double} (hx : x.isFinite) :
    (ofInt x.floor).isFinite ∧ (ofInt x.floor).toRat = ⌊x.toRat⌋ := by
  rw [floor_eq]
  rcases lt_or_ge |x.toRat| (2 ^ 52) with hlt | hge
  · have hfloor : |⌊x.toRat⌋| ≤ 2 ^ 53 := by
      rw [abs_lt] at hlt
      have h1 : (-2 ^ 52 : ℤ) ≤ ⌊x.toRat⌋ := Int.le_floor.2 (by push_cast; exact hlt.1.le)
      have h2 : ⌊x.toRat⌋ < (2 ^ 52 : ℤ) := Int.floor_lt.2 (by push_cast; exact hlt.2)
      rw [abs_le]
      omega
    exact toRat_ofInt hfloor
  · obtain ⟨k, hint⟩ := exists_toRat_eq_intCast hge
    rw [hint, Int.floor_intCast]
    exact (rounds_ofInt k).eq_of_toRat_eq hx hint

/-- What is cut off a finite double by its floor, if it is below one half, is a double. -/
theorem exists_toRat_eq_fract {x : Double} (hx : x.isFinite) (h : Int.fract x.toRat < 1 / 2) :
    ∃ y : Double, y.isFinite ∧ y.toRat = Int.fract x.toRat := by
  have hU := unitsPerOne_pos
  have hfloor := Int.floor_add_fract x.toRat
  have hnonneg := Int.fract_nonneg x.toRat
  rcases eq_or_ne ⌊x.toRat⌋ 0 with h0 | h0
  · exact ⟨x, hx, by rw [← Int.self_sub_floor, h0, Int.cast_zero, sub_zero]⟩
  -- The double is one half or more in size, so that it is a multiple of `2^-53`.
  have hsize : 1 / 2 ≤ |x.toRat| := by
    rcases lt_or_gt_of_ne h0 with hneg | hpos
    · have h1 : (⌊x.toRat⌋ : ℚ) ≤ -1 := by exact_mod_cast Int.le_sub_one_of_lt hneg
      rw [le_abs]
      right
      linarith
    · have h1 : (1 : ℚ) ≤ ⌊x.toRat⌋ := by exact_mod_cast hpos
      rw [le_abs]
      left
      linarith
  obtain ⟨e, hU2, he⟩ := exists_unitsPerOne_eq
  have hunits : 2 ^ (52 + e) ≤ |x.toRat| * unitsPerOne := by
    rw [hU2, show 53 + e = 52 + e + 1 by omega, pow_succ]
    push_cast
    linarith [mul_le_mul_of_nonneg_right hsize (by positivity : (0 : ℚ) ≤ 2 ^ (52 + e))]
  obtain ⟨k, hk⟩ := exists_signedUnits_eq_mul hunits
  have hfract : Int.fract x.toRat = ((k - ⌊x.toRat⌋ * 2 ^ 53) * 2 ^ e : ℤ) / unitsPerOne := by
    rw [eq_div_iff hU.ne', ← Int.self_sub_floor, sub_mul]
    nth_rewrite 1 [toRat]
    rw [div_mul_cancel₀ _ hU.ne', hk, hU2, pow_add]
    push_cast
    ring
  generalize k - ⌊x.toRat⌋ * 2 ^ 53 = j at hfract
  -- A part of one has no more than 53 of these places.
  have hj : |j| ≤ 2 ^ 53 := by
    have hlt := Int.fract_lt_one x.toRat
    rw [hfract, hU2, pow_add] at hnonneg hlt
    push_cast at hnonneg hlt
    rw [mul_div_mul_right _ _ (by positivity)] at hnonneg hlt
    rw [div_lt_one (by positivity)] at hlt
    rw [le_div_iff₀ (by positivity), zero_mul] at hnonneg
    have hle : (j : ℚ) ≤ (2 ^ 53 : ℤ) := by
      push_cast
      exact hlt.le
    rw [abs_of_nonneg (by exact_mod_cast hnonneg)]
    exact Int.cast_le.1 hle
  obtain ⟨y, hy, heq⟩ := exists_toRat_eq_mul_two_pow hj (by omega : 53 + e < 54 + 2044)
  exact ⟨y, hy, heq.trans hfract.symm⟩

/-- The remainder above the floor is rounded from the exact one, and is finite. -/
theorem rounds_sub_floor {x : Double} (hx : x.isFinite) :
    Rounds (Int.fract x.toRat) (x.sub (ofInt x.floor)) ∧ (x.sub (ofInt x.floor)).isFinite := by
  obtain ⟨hfin, hval⟩ := toRat_ofInt_floor hx
  have hrounds := rounds_sub hx hfin
  rw [hval, Int.self_sub_floor] at hrounds
  refine ⟨hrounds, ?_⟩
  obtain ⟨hone, hone'⟩ := toRat_ofInt (n := 1) (by norm_num)
  have h := abs_toRat_lt_overflow hone
  rw [hone', Int.cast_one, abs_one] at h
  rw [hrounds.isFinite_iff, abs_of_nonneg (Int.fract_nonneg x.toRat)]
  exact (Int.fract_lt_one x.toRat).trans h

/-- The comparison of the computed remainder with one half is that of the exact one: the remainder
is computed without an error that could move it across one half. -/
theorem half_le_sub_floor_iff {x : Double} (hx : x.isFinite) :
    half.le (x.sub (ofInt x.floor)) ↔ 1 / 2 ≤ Int.fract x.toRat := by
  obtain ⟨hhalf, hhalf'⟩ := toRat_half
  obtain ⟨hrounds, hfinite⟩ := rounds_sub_floor hx
  rw [le_iff hhalf hfinite, hhalf']
  rcases lt_or_ge (Int.fract x.toRat) (1 / 2) with h | h
  · obtain ⟨y, hy, heq⟩ := exists_toRat_eq_fract hx h
    rw [(hrounds.eq_of_toRat_eq hy heq).2]
  · -- One half is itself a double, so rounding does not pass it.
    have hclose := (hrounds.isNearest hfinite).closest half hhalf
    rw [hhalf', abs_of_nonpos (a := 1 / 2 - Int.fract x.toRat) (by linarith), abs_le] at hclose
    constructor
    · exact fun _ => h
    · intro _
      linarith

/-- The integer nearest to a finite double, a half going up, is found exactly. -/
theorem halfUp_eq {x : Double} (hx : x.isFinite) : x.halfUp = ⌊x.toRat + 1 / 2⌋ := by
  have hiff := half_le_sub_floor_iff hx
  have hnonneg := Int.fract_nonneg x.toRat
  have hlt := Int.fract_lt_one x.toRat
  have hfloor := Int.floor_add_fract x.toRat
  unfold halfUp
  rw [floor_eq] at hiff ⊢
  split_ifs with h
  · have h' := hiff.1 h
    symm
    rw [Int.floor_eq_iff]
    push_cast
    constructor <;> linarith
  · have h' := mt hiff.2 h
    rw [not_le] at h'
    symm
    rw [Int.floor_eq_iff]
    constructor <;> linarith

/-- Rounding a finite double half up gives a double. -/
theorem exists_toRat_eq_halfUp {x : Double} (hx : x.isFinite) :
    ∃ y : Double, y.isFinite ∧ y.toRat = x.halfUp := by
  rw [halfUp_eq hx]
  rcases lt_or_ge |x.toRat| (2 ^ 52) with hlt | hge
  · refine exists_toRat_eq_of_abs_le ?_
    rw [abs_lt] at hlt
    have h1 : (-2 ^ 52 : ℤ) ≤ ⌊x.toRat + 1 / 2⌋ := Int.le_floor.2 (by push_cast; linarith)
    have h2 : ⌊x.toRat + 1 / 2⌋ < (2 ^ 52 + 1 : ℤ) := Int.floor_lt.2 (by push_cast; linarith)
    rw [abs_le]
    omega
  · obtain ⟨k, hint⟩ := exists_toRat_eq_intCast hge
    refine ⟨x, hx, ?_⟩
    have hfloor : ⌊x.toRat + 1 / 2⌋ = k := by
      rw [hint, Int.floor_eq_iff]
      constructor <;> linarith
    rw [hfloor, hint]

/-! ## Rounding to decimal places -/

/-- The powers of ten that a configuration can ask for are doubles. -/
theorem toRat_powerOfTen {p : ℕ} (hp : p ≤ 15) :
    (Decimal.powerOfTen p).isFinite ∧ (Decimal.powerOfTen p).toRat = 10 ^ p := by
  have hpow : Decimal.powerOfTen p = ofRatio false (1 * Nat.pow 10 p) 1 := by
    have hlt : ¬ 309 ≤ p := by omega
    simp [Decimal.powerOfTen, Decimal.toDouble, hlt]
  have hbound : |(10 ^ p : ℤ)| ≤ 2 ^ 53 := by
    rw [abs_of_pos (by positivity)]
    exact (pow_le_pow_right₀ (by norm_num) hp).trans (by norm_num)
  obtain ⟨y, hy, heq⟩ := exists_toRat_eq_of_abs_le hbound
  have hrounds := rounds_ofRatio false (1 * Nat.pow 10 p) one_pos
  rw [← hpow] at hrounds
  have hval : signRat false * (((1 * Nat.pow 10 p : ℕ) : ℚ) / (1 : ℕ)) = 10 ^ p := by
    simp [signRat]
  rw [hval] at hrounds
  exact hrounds.eq_of_toRat_eq hy (by rw [heq]; push_cast; rfl)

/-- The double rounded to a number of decimal places, a half going up; it stays as it is if it
overflows when it is scaled. -/
def rounded (p : ℕ) (x : Double) : Double :=
  if (x.mul (Decimal.powerOfTen p)).isFinite then
    ofIntRatio (x.mul (Decimal.powerOfTen p)).halfUp (10 ^ p)
  else x

/-- Rounding to a number of places that a configuration allows never fails. -/
theorem roundHalfUp_eq {p : ℕ} (hp : p ≤ 15) (x : Double) :
    x.roundHalfUp p = .ok (x.rounded p) := by
  have hplaces : (ofInt p).isFinite := by
    refine (toRat_ofInt ?_).1
    rw [abs_of_nonneg (Int.natCast_nonneg p)]
    omega
  have hpower := (toRat_powerOfTen hp).1
  have hnofault : ¬ (¬ (Decimal.powerOfTen p).isFinite ∨ ¬ (ofInt p).isFinite) := by
    rw [hpower, hplaces]
    simp
  rw [roundHalfUp.eq_def, rounded]
  dsimp only
  rw [if_neg hnofault]
  split_ifs with hs
  · rfl
  · rfl

/-- Scaling back does not leave the doubles. -/
theorem isFinite_ofIntRatio_halfUp {x : Double} (hx : x.isFinite) (p : ℕ) :
    (ofIntRatio x.halfUp (10 ^ p)).isFinite := by
  obtain ⟨y, hy, heq⟩ := exists_toRat_eq_halfUp hx
  have hten : (1 : ℚ) ≤ ((10 ^ p : ℕ) : ℚ) := by exact_mod_cast Nat.one_le_pow _ _ (by norm_num)
  rw [(rounds_ofIntRatio _ (Nat.pos_of_ne_zero (by positivity))).isFinite_iff, abs_div,
    abs_of_pos (lt_of_lt_of_le one_pos hten)]
  refine (div_le_self (abs_nonneg _) hten).trans_lt ?_
  rw [← heq]
  exact abs_toRat_lt_overflow hy

/-- Rounding a finite double to decimal places gives a finite double. -/
theorem isFinite_rounded {x : Double} (hx : x.isFinite) (p : ℕ) : (x.rounded p).isFinite := by
  unfold rounded
  split_ifs with hs
  · exact isFinite_ofIntRatio_halfUp hs p
  · exact hx

/-- Scaling keeps the sign. -/
theorem abs_mul_ten_pow (q : ℚ) (p : ℕ) : |q * 10 ^ p| = |q| * 10 ^ p := by
  rw [abs_mul, abs_of_pos (by positivity : (0 : ℚ) < 10 ^ p)]

/-- The scaled double is rounded from the exact product. -/
theorem rounds_scaled {p : ℕ} (hp : p ≤ 15) {x : Double} (hx : x.isFinite) :
    Rounds (x.toRat * 10 ^ p) (x.mul (Decimal.powerOfTen p)) := by
  obtain ⟨hfinite, hval⟩ := toRat_powerOfTen hp
  have hrounds := rounds_mul hx hfinite
  rwa [hval] at hrounds

/-- Behind the scaling, the integer that is found is scaled back exactly and rounded once. -/
theorem rounds_floor_div {p : ℕ} {x : Double}
    (hscaled : (x.mul (Decimal.powerOfTen p)).isFinite) :
    Rounds (⌊(x.mul (Decimal.powerOfTen p)).toRat + 1 / 2⌋ / 10 ^ p) (x.rounded p) := by
  have hrounds := rounds_ofIntRatio (x.mul (Decimal.powerOfTen p)).halfUp
    (Nat.pow_pos (by norm_num) : 0 < 10 ^ p)
  rw [Nat.cast_pow, Nat.cast_ofNat, halfUp_eq hscaled] at hrounds
  rwa [rounded, if_pos hscaled, halfUp_eq hscaled]

/-- No part of rounding to decimal places fails: the power of ten is a double other than zero, and
when the scaled double is finite, so that it has a floor, neither the floor nor the remainder above
it nor the scaled back integer leaves the finite doubles. -/
structure RoundsSafely (p : ℕ) (x : Double) : Prop where
  /-- The power of ten is finite. -/
  scale : (Decimal.powerOfTen p).isFinite
  /-- The power of ten is not zero. -/
  nonzero : (Decimal.powerOfTen p).isZero = false
  /-- The floor of the scaled double is a finite double. -/
  floor : (x.mul (Decimal.powerOfTen p)).isFinite →
    (ofInt (x.mul (Decimal.powerOfTen p)).floor).isFinite
  /-- The remainder above the floor is finite. -/
  remainder : (x.mul (Decimal.powerOfTen p)).isFinite →
    ((x.mul (Decimal.powerOfTen p)).sub (ofInt (x.mul (Decimal.powerOfTen p)).floor)).isFinite
  /-- The integer scaled back is finite. -/
  quotient : (x.mul (Decimal.powerOfTen p)).isFinite →
    (ofIntRatio (x.mul (Decimal.powerOfTen p)).halfUp (10 ^ p)).isFinite
  /-- There is a rounded double, and it is finite. -/
  result : ∃ y, x.roundHalfUp p = .ok y ∧ y.isFinite

/-- Rounding a finite double to a number of places that a configuration allows is safe. -/
theorem roundsSafely {p : ℕ} (hp : p ≤ 15) {x : Double} (hx : x.isFinite) : RoundsSafely p x where
  scale := (toRat_powerOfTen hp).1
  nonzero := by
    obtain ⟨hfinite, hval⟩ := toRat_powerOfTen hp
    rw [← Bool.not_eq_true, isZero_iff hfinite, hval]
    positivity
  floor := fun h => (toRat_ofInt_floor h).1
  remainder := fun h => (rounds_sub_floor h).2
  quotient := fun h => isFinite_ofIntRatio_halfUp h p
  result := ⟨_, roundHalfUp_eq hp x, isFinite_rounded hx p⟩

end Keypad.Double
