import Keypad.Proofs.Double.Nearest
import Mathlib.Data.Rat.Cast.Order
import Mathlib.Tactic.FieldSimp
import Mathlib.Tactic.LinearCombination

/-!
# Rounding a rational number to a double

`IsNearest x q` says in terms of values alone that `x` is the double nearest to `q`: finite, with no
other double nearer, and with an even significand if another one is as near. `Rounds q x` says that
`x` comes out of `ofUnits` for a quotient whose value is `q`. The second relation is what the
operations are shown to meet, since it says something of infinities too; `Rounds.isNearest` leads
from it to the first. Either determines the value (`IsNearest.toRat_eq`, `Rounds.toRat_eq`).

What follows is stated for `Rounds` once and for all operations: a number is rounded to a finite
double exactly below `overflow` (`Rounds.isFinite_iff`), it is moved by at most half a unit or
`2^-53` of its size (`Rounds.abs_sub_le`), and the value of a double is not moved
(`Rounds.eq_of_toRat_eq`). -/

namespace Keypad.Double

/-! ## Units -/

/-- The number of units in one, as a power of two. -/
theorem unitsPerOne_eq : unitsPerOne = 2 ^ 1074 := by
  unfold unitsPerOne
  generalize 1074 = e
  rfl

/-- The first count beyond the finite doubles, as a power of two. -/
theorem unitsBound_eq : unitsBound = 2 ^ (54 + 2044) := by
  unfold unitsBound
  rw [show 54 + 2044 = 2098 by rfl]
  generalize 2098 = e
  rfl

/-- There are units in one. -/
theorem unitsPerOne_pos : (0 : ℚ) < unitsPerOne := by
  rw [unitsPerOne_eq, Nat.cast_pow]
  exact pow_pos (by norm_num) _

/-- From this size on, a number is rounded to an infinity: it is `2^1024` less half the spacing of
the doubles before it. -/
def overflow : ℚ := 2 ^ 1024 - 2 ^ 970

/-- The overflow in units, where the exponent of the half spacing does not matter further. -/
theorem exists_overflow_mul_unitsPerOne :
    ∃ f : ℕ, unitsBound = 2 ^ (54 + f) ∧ overflow * unitsPerOne = 2 ^ (54 + f) - 2 ^ f := by
  refine ⟨2044, unitsBound_eq, ?_⟩
  unfold overflow
  rw [unitsPerOne_eq, Nat.cast_pow, Nat.cast_ofNat, sub_mul, ← pow_add, ← pow_add]

/-! ## Finite doubles -/

/-- The factor that a sign stands for. -/
def signRat (negative : Bool) : ℚ := if negative then -1 else 1

@[simp]
theorem abs_signRat (negative : Bool) : |signRat negative| = 1 := by
  cases negative <;> simp [signRat]

@[simp]
theorem signRat_mul_self (negative : Bool) : signRat negative * signRat negative = 1 := by
  cases negative <;> simp [signRat]

/-- The factor of a sign can be cancelled. -/
theorem signRat_ne_zero (negative : Bool) : signRat negative ≠ 0 :=
  left_ne_zero_of_mul (signRat_mul_self negative ▸ one_ne_zero)

/-- Signs are multiplied as their factors are. -/
theorem signRat_xor (s t : Bool) : signRat (s ^^ t) = signRat s * signRat t := by
  cases s <;> cases t <;> simp [signRat]

/-- The value of a finite double. -/
theorem toRat_finite (negative : Bool) (units : ℕ) (fits : Fits units) :
    (finite negative units fits).toRat = signRat negative * units / unitsPerOne := by
  cases negative <;> simp [toRat, signedUnits, signRat]

/-- A count fits a double exactly when it is short and below the bound. -/
theorem fits_iff {units : ℕ} : Fits units ↔ IsShort units ∧ units < unitsBound := Iff.rfl

/-- The magnitude of every double is a count of at most 53 significant bits. -/
theorem isShort_natAbs_signedUnits (x : Double) : IsShort x.signedUnits.natAbs := by
  match x with
  | finite negative units fits =>
    have hunits : (finite negative units fits).signedUnits.natAbs = units := by
      cases negative <;> simp [signedUnits]
    rw [hunits]
    exact (fits_iff.1 fits).1
  | infinite _ => exact ⟨0, rfl⟩
  | nan => exact ⟨0, rfl⟩

/-- The magnitude of a finite double lies below the first count beyond the doubles. -/
theorem natAbs_signedUnits_lt {x : Double} (hx : x.isFinite) :
    x.signedUnits.natAbs < unitsBound := by
  match x, hx with
  | finite negative units fits, _ =>
    cases negative <;> simpa [signedUnits] using (fits_iff.1 fits).2

/-- A signed count whose magnitude is short and below the bound is the value of a finite double. -/
theorem exists_toRat_eq {v : ℤ} (hshort : IsShort v.natAbs) (hlt : v.natAbs < unitsBound) :
    ∃ y : Double, y.isFinite ∧ y.toRat = v / unitsPerOne := by
  refine ⟨finite (v < 0) v.natAbs (fits_iff.2 ⟨hshort, hlt⟩), rfl, ?_⟩
  rw [toRat_finite, Nat.cast_natAbs]
  rcases lt_or_ge v 0 with hneg | hpos
  · rw [decide_eq_true hneg, abs_of_neg hneg]
    simp [signRat]
  · rw [decide_eq_false (not_lt.2 hpos), abs_of_nonneg hpos]
    simp [signRat]

/-! ## Rounding -/

/-- The double `x` is what the number `q` is rounded to. A zero may have either sign. -/
def Rounds (q : ℚ) (x : Double) : Prop :=
  ∃ (negative : Bool) (n d : ℕ),
    0 < d ∧ x = ofUnits negative n d ∧ q * unitsPerOne = signRat negative * (n / d)

/-- The double `x` is the nearest one to `q`, which is not so large that it is rounded to an
infinity. Of two doubles that are equally near it is the one with an even significand. -/
structure IsNearest (x : Double) (q : ℚ) : Prop where
  /-- It is no infinity. -/
  finite : x.isFinite
  /-- The number is below the overflow. -/
  inRange : |q| < overflow
  /-- No double is nearer. -/
  closest : ∀ y : Double, y.isFinite → |x.toRat - q| ≤ |y.toRat - q|
  /-- Another one is as near only if the significand is even. -/
  even : ∀ y : Double, y.isFinite → |x.toRat - q| = |y.toRat - q| →
    x.toRat = y.toRat ∨ HasEvenSignificand x.signedUnits.natAbs

/-- Rounding leads to a finite double exactly for the numbers below the overflow. -/
theorem Rounds.isFinite_iff {q : ℚ} {x : Double} (h : Rounds q x) :
    x.isFinite ↔ |q| < overflow := by
  obtain ⟨negative, n, d, hd, hx, hq⟩ := h
  have hd' : (0 : ℚ) < d := by exact_mod_cast hd
  have hU := unitsPerOne_pos
  have hfinite : x.isFinite ↔ roundUnits n d < unitsBound := by
    rw [hx, ofUnits]
    split_ifs with hlt <;> simpa [isFinite] using hlt
  have habs : |q| * unitsPerOne = n / d := by
    calc |q| * unitsPerOne = |q * unitsPerOne| := by rw [abs_mul, abs_of_pos hU]
      _ = n / d := by rw [hq, abs_mul, abs_signRat, one_mul, abs_of_nonneg (by positivity)]
  obtain ⟨f, hbound, hover⟩ := exists_overflow_mul_unitsPerOne
  rw [hfinite, hbound, roundUnits_lt_iff hd, ← mul_lt_mul_iff_left₀ hU, habs, hover,
    div_lt_iff₀ hd', sub_mul, lt_sub_iff_add_lt]
  exact_mod_cast Iff.rfl

/-- A rounded finite double has the rounded count and the sign of the quotient. -/
theorem eq_finite_of_ofUnits {negative : Bool} {n d : ℕ} (h : (ofUnits negative n d).isFinite) :
    ∃ fits : Fits (roundUnits n d),
      ofUnits negative n d = finite negative (roundUnits n d) fits := by
  rw [ofUnits] at h ⊢
  split_ifs at h ⊢ with hlt
  · exact ⟨fits_iff.2 ⟨roundUnits_dvd n d, hlt⟩, rfl⟩
  · cases h

/-- Nothing is rounded to nothing. -/
theorem roundUnits_zero (d : ℕ) : roundUnits 0 d = 0 := by
  simp [roundUnits, nearestEven]

/-- Distances from a quotient, with the divisor taken out. -/
theorem abs_sub_div_eq {d : ℕ} (hd : 0 < d) (k n : ℕ) :
    |(k : ℚ) - n / d| = (|(k : ℤ) * d - n| : ℤ) / d := by
  have hd' : (0 : ℚ) < d := by exact_mod_cast hd
  have h : (k : ℚ) - n / d = (k * d - n) / d := by field_simp
  rw [h, abs_div, abs_of_pos hd']
  push_cast
  rfl

/-- The distance of a signed number from another one is at least that of the magnitudes. -/
theorem abs_natAbs_sub_le (v : ℤ) (s : Bool) {t : ℚ} (ht : 0 ≤ t) :
    |(v.natAbs : ℚ) - t| ≤ |v - signRat s * t| := by
  have h := abs_abs_sub_abs_le (v : ℚ) (signRat s * t)
  rwa [abs_mul, abs_signRat, one_mul, abs_of_nonneg ht, ← Int.cast_abs, Int.abs_eq_natAbs,
    Int.cast_natCast] at h

/-- Among the signed counts of at most 53 significant bits, the rounded one with the sign of the
quotient is nearest, and another one is as near only if the significand is even. -/
theorem abs_roundUnits_sub_le_signed {n d : ℕ} (hd : 0 < d) (s : Bool) {v : ℤ}
    (hv : IsShort v.natAbs) :
    |(roundUnits n d : ℚ) - n / d| ≤ |v - signRat s * (n / d)| ∧
      (|(roundUnits n d : ℚ) - n / d| = |v - signRat s * (n / d)| →
        signRat s * roundUnits n d = v ∨ HasEvenSignificand (roundUnits n d)) := by
  have hd' : (0 : ℚ) < d := by exact_mod_cast hd
  have ht : (0 : ℚ) ≤ n / d := by positivity
  obtain ⟨hle, htie⟩ := abs_roundUnits_sub_le (n := n) hd hv
  have hle' : |(roundUnits n d : ℚ) - n / d| ≤ |(v.natAbs : ℚ) - n / d| := by
    rw [abs_sub_div_eq hd, abs_sub_div_eq hd]
    exact div_le_div_of_nonneg_right (by exact_mod_cast hle) hd'.le
  have hmag := abs_natAbs_sub_le v s ht
  refine ⟨hle'.trans hmag, fun heq => ?_⟩
  have heq' : |(roundUnits n d : ℚ) - n / d| = |(v.natAbs : ℚ) - n / d| :=
    le_antisymm hle' (heq ▸ hmag)
  rw [abs_sub_div_eq hd, abs_sub_div_eq hd, div_left_inj' hd'.ne'] at heq'
  rcases htie (by exact_mod_cast heq') with hr | heven
  · left
    have habs : |(v : ℚ)| = roundUnits n d := by
      rw [hr, ← Int.cast_abs, Int.abs_eq_natAbs, Int.cast_natCast]
    -- The squares of the two distances differ by `2 t (r - σ v)`.
    have hsq : ((roundUnits n d : ℚ) - n / d) ^ 2 = (v - signRat s * (n / d)) ^ 2 :=
      (sq_eq_sq_iff_abs_eq_abs _ _).2 heq
    have hsq' : (v : ℚ) ^ 2 = (roundUnits n d : ℚ) ^ 2 := by rw [← habs, sq_abs]
    have hprod : (n / d : ℚ) * (roundUnits n d - signRat s * v) = 0 := by
      linear_combination (-(1 : ℚ) / 2) * hsq - (1 / 2 : ℚ) * hsq' -
        (1 / 2 : ℚ) * (n / d) ^ 2 * signRat_mul_self s
    rcases mul_eq_zero.1 hprod with h0 | h0
    · have hn : n = 0 := by
        rcases div_eq_zero_iff.1 h0 with h | h
        · exact_mod_cast h
        · exact absurd h hd'.ne'
      have hr0 : roundUnits n d = 0 := by rw [hn, roundUnits_zero]
      rw [hr0, Nat.cast_zero, abs_eq_zero] at habs
      rw [hr0, habs, Nat.cast_zero, mul_zero]
    · linear_combination signRat s * h0 + v * signRat_mul_self s
  · exact Or.inr heven

/-- Distances between values, measured in units. -/
theorem abs_toRat_sub_eq (y : Double) {q t : ℚ} (hq : q * unitsPerOne = t) :
    |y.toRat - q| = |y.signedUnits - t| / unitsPerOne := by
  have hU := unitsPerOne_pos
  have h : y.toRat - q = (y.signedUnits - t) / unitsPerOne := by
    rw [← hq, toRat]
    field_simp
  rw [h, abs_div, abs_of_pos hU]

/-- What a number is rounded to, if finite, has the rounded count of the quotient and its sign. -/
theorem Rounds.exists_roundUnits {q : ℚ} {x : Double} (h : Rounds q x) (hx : x.isFinite) :
    ∃ (s : Bool) (n d : ℕ), 0 < d ∧ q * unitsPerOne = signRat s * (n / d) ∧
      (x.signedUnits : ℚ) = signRat s * roundUnits n d ∧
      x.signedUnits.natAbs = roundUnits n d ∧
      |x.toRat - q| = |(roundUnits n d : ℚ) - n / d| / unitsPerOne := by
  obtain ⟨s, n, d, hd, hx', hq⟩ := h
  rw [hx'] at hx ⊢
  obtain ⟨fits, heq⟩ := eq_finite_of_ofUnits hx
  have hsigned : ((ofUnits s n d).signedUnits : ℚ) = signRat s * roundUnits n d := by
    rw [heq]
    cases s <;> simp [signedUnits, signRat]
  refine ⟨s, n, d, hd, hq, hsigned, ?_, ?_⟩
  · rw [heq]
    cases s <;> simp [signedUnits]
  · rw [abs_toRat_sub_eq _ hq, hsigned, ← mul_sub, abs_mul, abs_signRat, one_mul]

/-- What a number is rounded to is the nearest double, if it is finite. -/
theorem Rounds.isNearest {q : ℚ} {x : Double} (h : Rounds q x) (hx : x.isFinite) :
    IsNearest x q := by
  have hU := unitsPerOne_pos
  obtain ⟨s, n, d, hd, hq, hsigned, habs, hdist⟩ := h.exists_roundUnits hx
  have hnear : ∀ y : Double, _ := fun y =>
    abs_roundUnits_sub_le_signed (n := n) hd s (isShort_natAbs_signedUnits y)
  refine ⟨hx, h.isFinite_iff.1 hx, fun y _ => ?_, fun y _ heq => ?_⟩
  · rw [hdist, abs_toRat_sub_eq y hq]
    exact div_le_div_of_nonneg_right (hnear y).1 hU.le
  · rw [hdist, abs_toRat_sub_eq y hq, div_left_inj' hU.ne'] at heq
    rcases (hnear y).2 heq with hr | heven
    · left
      rw [toRat, toRat, hsigned, hr]
    · right
      rwa [habs]

/-- Between two finite doubles with even significands lies another one. -/
theorem exists_toRat_between {x y : Double} (hx : x.isFinite) (hy : y.isFinite)
    (hxeven : HasEvenSignificand x.signedUnits.natAbs)
    (hyeven : HasEvenSignificand y.signedUnits.natAbs) (hlt : x.toRat < y.toRat) :
    ∃ z : Double, z.isFinite ∧ x.toRat < z.toRat ∧ z.toRat < y.toRat := by
  have hU := unitsPerOne_pos
  have hxlt := natAbs_signedUnits_lt hx
  have hylt := natAbs_signedUnits_lt hy
  have hxshort := isShort_natAbs_signedUnits x
  have hyshort := isShort_natAbs_signedUnits y
  unfold toRat at hlt ⊢
  rw [div_lt_div_iff_of_pos_right hU, Int.cast_lt] at hlt
  generalize x.signedUnits = a at *
  generalize y.signedUnits = b at *
  -- Zero lies between numbers of different signs; otherwise the magnitudes are compared.
  have hbetween : ∃ v : ℤ, IsShort v.natAbs ∧ a < v ∧ v < b := by
    rcases lt_or_ge a 0 with ha | ha
    · rcases lt_or_ge 0 b with hb | hb
      · exact ⟨0, dvd_zero _, ha, hb⟩
      · -- Both are negative or zero, so the magnitudes are the other way round.
        obtain ⟨w, hw, hbw, hwa⟩ :=
          exists_isShort_between hyshort hxshort hyeven hxeven (by omega : b.natAbs < a.natAbs)
        exact ⟨-w, by rwa [Int.natAbs_neg, Int.natAbs_natCast], by omega, by omega⟩
    · obtain ⟨w, hw, haw, hwb⟩ :=
        exists_isShort_between hxshort hyshort hxeven hyeven (by omega : a.natAbs < b.natAbs)
      exact ⟨w, by rwa [Int.natAbs_natCast], by omega, by omega⟩
  obtain ⟨v, hshort, hav, hvb⟩ := hbetween
  obtain ⟨z, hz, hval⟩ := exists_toRat_eq hshort (by omega)
  rw [toRat] at hval
  refine ⟨z, hz, ?_, ?_⟩
  · rw [hval, div_lt_div_iff_of_pos_right hU]
    exact_mod_cast hav
  · rw [hval, div_lt_div_iff_of_pos_right hU]
    exact_mod_cast hvb

/-- The nearest double has one value. -/
theorem IsNearest.toRat_eq {x y : Double} {q : ℚ} (hx : IsNearest x q) (hy : IsNearest y q) :
    x.toRat = y.toRat := by
  have hle : ∀ {x y : Double}, IsNearest x q → IsNearest y q → y.toRat ≤ x.toRat := by
    intro x y hx hy
    by_contra hlt
    rw [not_le] at hlt
    have hdist : |x.toRat - q| = |y.toRat - q| :=
      le_antisymm (hx.closest y hy.finite) (hy.closest x hx.finite)
    -- Two nearest doubles have even significands, and what lies between them is nearer.
    have hxeven := (hx.even y hy.finite hdist).resolve_left hlt.ne
    have hyeven := (hy.even x hx.finite hdist.symm).resolve_left hlt.ne'
    obtain ⟨z, hz, hxz, hzy⟩ := exists_toRat_between hx.finite hy.finite hxeven hyeven hlt
    have hclosest := hx.closest z hz
    rcases abs_eq_abs.1 hdist with h | h
    · linarith
    · rw [abs_of_nonpos (by linarith : x.toRat - q ≤ 0), le_abs] at hclosest
      rcases hclosest with h' | h' <;> linarith
  exact le_antisymm (hle hy hx) (hle hx hy)

/-- A number is rounded to one value. -/
theorem Rounds.toRat_eq {q : ℚ} {x y : Double} (hx : Rounds q x) (hy : Rounds q y)
    (hfinite : x.isFinite) : y.isFinite ∧ x.toRat = y.toRat := by
  have hfinite' : y.isFinite := hy.isFinite_iff.2 (hx.isFinite_iff.1 hfinite)
  exact ⟨hfinite', (hx.isNearest hfinite).toRat_eq (hy.isNearest hfinite')⟩

/-- A number is moved by at most half a unit or by `2^-53` of its size. -/
theorem Rounds.abs_sub_le {q : ℚ} {x : Double} (h : Rounds q x) (hx : x.isFinite) :
    |x.toRat - q| ≤ |q| / 2 ^ 53 + 1 / (2 * unitsPerOne) := by
  have hU := unitsPerOne_pos
  obtain ⟨s, n, d, hd, hq, -, -, hdist⟩ := h.exists_roundUnits hx
  have hd' : (0 : ℚ) < d := by exact_mod_cast hd
  have habs : |q| = (n / d) / unitsPerOne := by
    rw [eq_div_iff hU.ne']
    calc |q| * unitsPerOne = |q * unitsPerOne| := by rw [abs_mul, abs_of_pos hU]
      _ = n / d := by rw [hq, abs_mul, abs_signRat, one_mul, abs_of_nonneg (by positivity)]
  have herr : (2 : ℚ) ^ 53 * (|(roundUnits n d : ℤ) * d - n| : ℤ) ≤ n + 2 ^ 52 * d := by
    exact_mod_cast two_pow_mul_abs_roundUnits_sub_le n d hd
  have herr' : (((|(roundUnits n d : ℤ) * d - n| : ℤ) : ℚ) / d) ≤ (n / d) / 2 ^ 53 + 1 / 2 := by
    rw [div_le_iff₀ hd']
    field_simp
    linarith
  rw [hdist, abs_sub_div_eq hd, habs]
  calc (((|(roundUnits n d : ℤ) * d - n| : ℤ) : ℚ) / d) / unitsPerOne
      ≤ ((n / d) / 2 ^ 53 + 1 / 2) / unitsPerOne := div_le_div_of_nonneg_right herr' hU.le
    _ = n / d / unitsPerOne / 2 ^ 53 + 1 / (2 * unitsPerOne) := by field_simp

/-- The value of a finite double is below the overflow. -/
theorem abs_toRat_lt_overflow {x : Double} (hx : x.isFinite) : |x.toRat| < overflow := by
  have hU := unitsPerOne_pos
  obtain ⟨f, hbound, hover⟩ := exists_overflow_mul_unitsPerOne
  have hlt := natAbs_signedUnits_lt hx
  have hround := (roundUnits_lt_iff one_pos f).1
    (by rwa [roundUnits_of_isShort (isShort_natAbs_signedUnits x), ← hbound])
  rw [toRat, abs_div, abs_of_pos hU, div_lt_iff₀ hU, hover, lt_sub_iff_add_lt, ← Int.cast_abs,
    Int.abs_eq_natAbs]
  rw [mul_one, mul_one] at hround
  exact_mod_cast hround

/-- The value of a double is rounded to itself. -/
theorem Rounds.eq_of_toRat_eq {q : ℚ} {x y : Double} (h : Rounds q x) (hy : y.isFinite)
    (heq : y.toRat = q) : x.isFinite ∧ x.toRat = q := by
  have hx : x.isFinite := h.isFinite_iff.2 (heq ▸ abs_toRat_lt_overflow hy)
  have hle := (h.isNearest hx).closest y hy
  rw [heq, sub_self, abs_zero, abs_nonpos_iff, sub_eq_zero] at hle
  exact ⟨hx, hle⟩

end Keypad.Double
