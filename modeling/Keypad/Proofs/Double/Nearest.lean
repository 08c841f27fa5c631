import Keypad.Double.Round
import Mathlib.Data.Nat.Log
import Mathlib.Tactic.Linarith
import Mathlib.Tactic.NormNum
import Mathlib.Tactic.Positivity
import Mathlib.Tactic.Ring

/-!
# The count nearest to a quotient

`roundUnits n d` is a nearest one to `n / d` of all counts that have at most 53 significant bits
(`abs_roundUnits_sub_le`), with an even significand where two are equally near. The proof follows
the definition. `nearestEven` finds the nearest multiple of the spacing around the quotient, and a
count that is no such multiple lies below the binade in which the spacing begins, hence farther
away.

Two consequences are drawn here. The error is at most half a unit or `2^-53` of the quotient
(`two_pow_mul_abs_roundUnits_sub_le`), and a power of two is reached only from the midpoint before
it on (`roundUnits_lt_iff`). At the end, two counts with even significands are shown to be no
neighbours (`exists_isShort_between`), so that of two equally near counts only one is even. -/

namespace Keypad.Double

/-! ## Rounding to an integer -/

/-- The rounded quotient is at most half a divisor away, and even if it is exactly that far. -/
theorem two_mul_abs_nearestEven_sub_le (n d : ℕ) (hd : 0 < d) :
    2 * |(nearestEven n d : ℤ) * d - n| ≤ d ∧
      (2 * |(nearestEven n d : ℤ) * d - n| = d → nearestEven n d % 2 = 0) := by
  have hdiv : (d : ℤ) * (n / d : ℕ) + (n % d : ℕ) = n := by exact_mod_cast Nat.div_add_mod n d
  have hmod : n % d < d := Nat.mod_lt n hd
  have hfloor : ((n / d : ℕ) : ℤ) * d - n = -((n % d : ℕ) : ℤ) := by linarith
  have hceil : ((n / d + 1 : ℕ) : ℤ) * d - n = d - ((n % d : ℕ) : ℤ) := by
    push_cast at hdiv ⊢
    linarith
  unfold nearestEven
  split_ifs with h
  · rw [hfloor, abs_neg, abs_of_nonneg (Int.natCast_nonneg _)]
    omega
  · rw [hceil, abs_of_nonneg (by omega)]
    omega

/-- No integer is nearer to the quotient than the rounded one, and another one is as near only if
the rounded one is even. -/
theorem abs_nearestEven_sub_le (n d k : ℕ) (hd : 0 < d) :
    |(nearestEven n d : ℤ) * d - n| ≤ |(k : ℤ) * d - n| ∧
      (|(nearestEven n d : ℤ) * d - n| = |(k : ℤ) * d - n| →
        nearestEven n d = k ∨ nearestEven n d % 2 = 0) := by
  obtain ⟨hhalf, heven⟩ := two_mul_abs_nearestEven_sub_le n d hd
  generalize nearestEven n d = m at *
  rcases eq_or_ne m k with rfl | hne
  · exact ⟨le_rfl, fun _ => Or.inl rfl⟩
  -- Different multiples of `d` are at least `d` apart, so one of them is half of that away.
  have hgap : (d : ℤ) ≤ |(m : ℤ) * d - k * d| := by
    rw [← sub_mul, abs_mul, abs_of_nonneg (Int.natCast_nonneg d)]
    have hone : 1 ≤ |(m : ℤ) - k| := Int.one_le_abs (sub_ne_zero.2 (by exact_mod_cast hne))
    exact le_mul_of_one_le_left (Int.natCast_nonneg d) hone
  have htri : |(m : ℤ) * d - k * d| ≤ |(m : ℤ) * d - n| + |(k : ℤ) * d - n| := by
    rw [abs_sub_comm ((k : ℤ) * d)]
    exact abs_sub_le _ _ _
  exact ⟨by linarith, fun heq => Or.inr (heven (by linarith))⟩

/-! ## Counts and their significands -/

/-- A count with at most 53 significant bits. -/
def IsShort (u : ℕ) : Prop := 2 ^ spacing u ∣ u

/-- The last bit of the significand of a count is zero. -/
def HasEvenSignificand (u : ℕ) : Prop := 2 ∣ u / 2 ^ spacing u

/-- Beyond the least spacing, a quotient has all of its 53 bits. -/
theorem two_pow_le_of_spacing_pos {u : ℕ} (h : 0 < spacing u) : 2 ^ (52 + spacing u) ≤ u := by
  have hlog : u.log2 = 52 + spacing u := by unfold spacing at *; omega
  have hne : u ≠ 0 := by rintro rfl; simp [spacing] at h
  rw [← hlog]
  exact Nat.log2_self_le hne

/-- A count is below the power of two that its spacing belongs to. -/
theorem lt_two_pow_spacing (u : ℕ) : u < 2 ^ (53 + spacing u) := by
  refine Nat.lt_of_lt_of_le Nat.lt_log2_self (Nat.pow_le_pow_right (by decide) ?_)
  unfold spacing
  omega

/-- Below a power of two the spacing is at most the one that belongs to it. -/
theorem spacing_le_of_lt {u k : ℕ} (h : u < 2 ^ (53 + k)) : spacing u ≤ k := by
  rcases Nat.eq_zero_or_pos u with rfl | hpos
  · simp [spacing]
  · have hlog := (Nat.log2_lt hpos.ne').2 h
    unfold spacing
    omega

/-- The spacing of a significand of 53 bits, or of fewer where the spacing is least. -/
theorem spacing_mul_two_pow {m s : ℕ} (hm : m < 2 ^ 53) (hs : 2 ^ 52 ≤ m ∨ s = 0) :
    spacing (m * 2 ^ s) = s := by
  rcases hs with hs | rfl
  · have hlo : 2 ^ (52 + s) ≤ m * 2 ^ s := by
      rw [pow_add]
      exact Nat.mul_le_mul_right _ hs
    have hhi : m * 2 ^ s < 2 ^ (52 + s + 1) := by
      rw [show 52 + s + 1 = 53 + s by omega, pow_add]
      exact Nat.mul_lt_mul_of_pos_right hm (Nat.two_pow_pos s)
    have hpos := Nat.two_pow_pos (52 + s)
    unfold spacing
    rw [(Nat.log2_eq_iff (by omega)).2 ⟨hlo, hhi⟩]
    omega
  · rw [pow_zero, mul_one]
    rcases Nat.eq_zero_or_pos m with rfl | hpos
    · simp [spacing]
    · have hlog := (Nat.log2_lt hpos.ne').2 hm
      unfold spacing
      omega

/-! ## Rounding to a count -/

/-- A rounded count, and what is known about its significand. -/
theorem roundUnits_eq_mul (n d : ℕ) :
    roundUnits n d = nearestEven n (d * 2 ^ spacing (n / d)) * 2 ^ spacing (n / d) ∧
      nearestEven n (d * 2 ^ spacing (n / d)) ≤ 2 ^ 53 ∧
      (2 ^ 52 ≤ nearestEven n (d * 2 ^ spacing (n / d)) ∨ spacing (n / d) = 0) := by
  refine ⟨rfl, ?_, ?_⟩
  · have hle := nearestEven_le n (d * 2 ^ spacing (n / d))
    have hlt := div_pow_spacing_lt (n / d)
    rw [← Nat.div_div_eq_div_mul] at hle
    simp only [Nat.pow_eq] at hlt
    omega
  · rcases Nat.eq_zero_or_pos (spacing (n / d)) with h0 | hpos
    · exact Or.inr h0
    · left
      have hfloor : 2 ^ 52 ≤ n / (d * 2 ^ spacing (n / d)) := by
        rw [← Nat.div_div_eq_div_mul, Nat.le_div_iff_mul_le (Nat.two_pow_pos _), ← pow_add]
        exact two_pow_le_of_spacing_pos hpos
      refine hfloor.trans ?_
      unfold nearestEven
      split <;> omega

/-- An even integer before the scaling gives an even significand. -/
theorem hasEvenSignificand_mul {m s : ℕ} (hm : m ≤ 2 ^ 53) (hs : 2 ^ 52 ≤ m ∨ s = 0)
    (heven : m % 2 = 0) : HasEvenSignificand (m * 2 ^ s) := by
  unfold HasEvenSignificand
  rcases Nat.lt_or_ge m (2 ^ 53) with hlt | hge
  · rw [spacing_mul_two_pow hlt hs, Nat.mul_div_cancel _ (Nat.two_pow_pos s)]
    omega
  · -- The carry into a 54th bit leaves the least significand of the next binade.
    have hcarry : m * 2 ^ s = 2 ^ 52 * 2 ^ (s + 1) := by
      rw [show m = 2 ^ 52 * 2 by omega, pow_succ]
      ring
    rw [hcarry, spacing_mul_two_pow (by norm_num) (Or.inl le_rfl),
      Nat.mul_div_cancel _ (Nat.two_pow_pos _)]
    exact ⟨2 ^ 51, by norm_num⟩

/-- An odd integer before the scaling gives an odd significand. -/
theorem not_hasEvenSignificand_mul {m s : ℕ} (hm : m < 2 ^ 53) (hs : 2 ^ 52 ≤ m ∨ s = 0)
    (hodd : m % 2 = 1) : ¬ HasEvenSignificand (m * 2 ^ s) := by
  unfold HasEvenSignificand
  rw [spacing_mul_two_pow hm hs, Nat.mul_div_cancel _ (Nat.two_pow_pos s)]
  omega

/-- No count of at most 53 significant bits is nearer to the quotient than the rounded one, and
another one is as near only if the rounded one has an even significand. -/
theorem abs_roundUnits_sub_le {n d u : ℕ} (hd : 0 < d) (hu : IsShort u) :
    |(roundUnits n d : ℤ) * d - n| ≤ |(u : ℤ) * d - n| ∧
      (|(roundUnits n d : ℤ) * d - n| = |(u : ℤ) * d - n| →
        roundUnits n d = u ∨ HasEvenSignificand (roundUnits n d)) := by
  obtain ⟨hr, hm, hs⟩ := roundUnits_eq_mul n d
  have hnear : ∀ k : ℕ, _ := fun k =>
    abs_nearestEven_sub_le n (d * 2 ^ spacing (n / d)) k (Nat.mul_pos hd (Nat.two_pow_pos _))
  have heven := hasEvenSignificand_mul hm hs
  rw [← hr] at heven
  generalize nearestEven n (d * 2 ^ spacing (n / d)) = m at *
  have hscale : ∀ k : ℕ, (k : ℤ) * ((d * 2 ^ spacing (n / d) : ℕ) : ℤ) =
      ((k * 2 ^ spacing (n / d) : ℕ) : ℤ) * d := by
    intro k
    push_cast
    ring
  simp only [hscale, ← hr] at hnear
  -- Among the multiples of the spacing, the nearest one has been chosen.
  by_cases hdvd : 2 ^ spacing (n / d) ∣ u
  · obtain ⟨k, rfl⟩ := hdvd
    rw [Nat.mul_comm _ k]
    refine ⟨(hnear k).1, fun heq => ?_⟩
    rcases (hnear k).2 heq with rfl | h0
    · exact Or.inl hr
    · exact Or.inr (heven h0)
  · -- A count off the grid around the quotient lies below the binade in which the grid begins.
    have hspacing : spacing u < spacing (n / d) := by
      by_contra hle
      exact hdvd ((pow_dvd_pow 2 (not_lt.1 hle)).trans hu)
    have hbinade : 2 ^ (52 + spacing (n / d)) * d ≤ n :=
      (Nat.mul_le_mul_right d (two_pow_le_of_spacing_pos (by omega))).trans
        (Nat.div_mul_le_self n d)
    have hlt : u * d < 2 ^ (52 + spacing (n / d)) * d := by
      refine Nat.mul_lt_mul_of_pos_right ((lt_two_pow_spacing u).trans_le ?_) hd
      exact Nat.pow_le_pow_right (by decide) (by omega)
    have hle := (hnear (2 ^ 52)).1
    rw [← pow_add] at hle
    have hstrict : |(roundUnits n d : ℤ) * d - n| < |(u : ℤ) * d - n| := by
      refine hle.trans_lt ?_
      have h1 : ((2 ^ (52 + spacing (n / d)) : ℕ) : ℤ) * d ≤ n := by exact_mod_cast hbinade
      have h2 : (u : ℤ) * d < ((2 ^ (52 + spacing (n / d)) : ℕ) : ℤ) * d := by exact_mod_cast hlt
      rw [abs_of_nonpos (by linarith), abs_of_nonpos (by linarith)]
      linarith
    exact ⟨hstrict.le, fun heq => absurd heq hstrict.ne⟩

/-- Rounding moves a quotient by at most half of the spacing around it. -/
theorem two_mul_abs_roundUnits_sub_le (n d : ℕ) (hd : 0 < d) :
    2 * |(roundUnits n d : ℤ) * d - n| ≤ (d * 2 ^ spacing (n / d) : ℕ) := by
  have hhalf := (two_mul_abs_nearestEven_sub_le n (d * 2 ^ spacing (n / d))
    (Nat.mul_pos hd (Nat.two_pow_pos _))).1
  rwa [show (nearestEven n (d * 2 ^ spacing (n / d)) : ℤ) * ((d * 2 ^ spacing (n / d) : ℕ) : ℤ) =
      (roundUnits n d : ℤ) * d by rw [(roundUnits_eq_mul n d).1]; push_cast; ring] at hhalf

/-- Rounding moves a quotient by at most half a unit, or by `2 ^ -53` of its size where that is
more. -/
theorem two_pow_mul_abs_roundUnits_sub_le (n d : ℕ) (hd : 0 < d) :
    2 ^ 53 * |(roundUnits n d : ℤ) * d - n| ≤ n + 2 ^ 52 * d := by
  have hhalf := two_mul_abs_roundUnits_sub_le n d hd
  rcases Nat.eq_zero_or_pos (spacing (n / d)) with h0 | hpos
  · rw [h0, pow_zero, mul_one] at hhalf
    have hn := Int.natCast_nonneg n
    linarith
  · have hbinade : 2 ^ 52 * (d * 2 ^ spacing (n / d)) ≤ n := by
      have h := (Nat.mul_le_mul_right d (two_pow_le_of_spacing_pos hpos)).trans
        (Nat.div_mul_le_self n d)
      rw [pow_add] at h
      linarith
    have hbinade' : (2 : ℤ) ^ 52 * ((d * 2 ^ spacing (n / d) : ℕ) : ℤ) ≤ n := by
      exact_mod_cast hbinade
    have hd0 := Int.natCast_nonneg d
    linarith

/-! ## Overflow -/

/-- A count of at most 53 significant bits is rounded to itself. -/
theorem roundUnits_of_isShort {u : ℕ} (hu : IsShort u) : roundUnits u 1 = u := by
  have h := (abs_roundUnits_sub_le (n := u) one_pos hu).1
  rw [Nat.cast_one, mul_one, mul_one, sub_self, abs_zero, abs_nonpos_iff, sub_eq_zero] at h
  exact_mod_cast h

/-- A power of two times a significand of at most 53 bits has at most 53 significant bits. -/
theorem isShort_mul_two_pow {m : ℕ} (hm : m ≤ 2 ^ 53) (s : ℕ) : IsShort (m * 2 ^ s) :=
  pow_spacing_dvd hm s

/-- The count of 53 ones before a power of two is two halves of its spacing below it. -/
theorem ones_mul_two_pow_add (f : ℕ) :
    (2 ^ 53 - 1) * 2 ^ (f + 1) + 2 * 2 ^ f = 2 ^ (54 + f) := by
  rw [pow_succ 2 f, pow_add 2 54 f]
  omega

/-- Below a power of two, no count of at most 53 significant bits lies above the one whose bits are
all ones. -/
theorem IsShort.le_of_lt {u f : ℕ} (hu : IsShort u) (hlt : u < 2 ^ (54 + f)) :
    u ≤ (2 ^ 53 - 1) * 2 ^ (f + 1) := by
  have hones := ones_mul_two_pow_add f
  rcases Nat.lt_or_ge f (spacing u) with hf | hf
  · obtain ⟨k, rfl⟩ := (pow_dvd_pow 2 hf).trans hu
    rw [Nat.mul_comm] at hlt ⊢
    have hbound : 2 ^ (54 + f) = 2 ^ 53 * 2 ^ (f + 1) := by rw [← pow_add]; congr 1; omega
    rw [hbound] at hlt
    have hk : k < 2 ^ 53 := Nat.lt_of_mul_lt_mul_right hlt
    exact Nat.mul_le_mul_right _ (by omega)
  · have hle : u < 2 ^ (53 + f) :=
      (lt_two_pow_spacing u).trans_le (Nat.pow_le_pow_right (by decide) (by omega))
    rw [pow_add] at hle
    rw [pow_succ]
    omega

/-- Rounding stays below a power of two exactly for the quotients that lie below it by more than
half of the spacing that the counts before it have. -/
theorem roundUnits_lt_iff {n d : ℕ} (hd : 0 < d) (f : ℕ) :
    roundUnits n d < 2 ^ (54 + f) ↔ n + 2 ^ f * d < 2 ^ (54 + f) * d := by
  have hones : ((2 ^ 53 - 1) * 2 ^ (f + 1) * d : ℕ) + 2 * (2 ^ f * d) = 2 ^ (54 + f) * d := by
    rw [← ones_mul_two_pow_add f]
    ring
  have hpower : IsShort (2 ^ (54 + f)) := by
    have h := isShort_mul_two_pow (le_refl (2 ^ 53)) (f + 1)
    rwa [← pow_add, show 53 + (f + 1) = 54 + f by omega] at h
  have hstep : 0 < 2 ^ f * d := Nat.mul_pos (Nat.two_pow_pos f) hd
  have hup := abs_roundUnits_sub_le (n := n) hd hpower
  have hdown := abs_roundUnits_sub_le (n := n) hd
    (isShort_mul_two_pow (m := 2 ^ 53 - 1) (by norm_num) (f + 1))
  simp only [← Nat.cast_mul, abs_eq_max_neg] at hup hdown
  constructor
  · intro hlt
    by_contra hge
    have hle := Nat.mul_le_mul_right d (IsShort.le_of_lt (roundUnits_dvd n d) hlt)
    generalize hr : roundUnits n d * d = r at *
    generalize 2 ^ (54 + f) * d = b at *
    generalize hg : (2 ^ 53 - 1) * 2 ^ (f + 1) * d = g at *
    generalize 2 ^ f * d = c at *
    -- The power of two is at least as near, so this is the midpoint, which goes to the even side.
    obtain rfl : r = g := by omega
    rcases hup.2 (by omega) with h | h
    · exact hlt.ne h
    · rw [Nat.mul_right_cancel hd (hr.trans hg.symm)] at h
      exact not_hasEvenSignificand_mul (by norm_num) (Or.inl (by norm_num)) (by norm_num) h
  · intro hlt
    by_contra hge
    have hle := Nat.mul_le_mul_right d (not_lt.1 hge)
    -- The count before the power of two is nearer.
    have h := hdown.1
    generalize roundUnits n d * d = r at *
    generalize 2 ^ (54 + f) * d = b at *
    generalize (2 ^ 53 - 1) * 2 ^ (f + 1) * d = g at *
    generalize 2 ^ f * d = c at *
    omega

/-! ## Neighbours -/

/-- The spacing grows with the count. -/
theorem spacing_mono {u v : ℕ} (h : u ≤ v) : spacing u ≤ spacing v := by
  unfold spacing
  rw [Nat.log2_eq_log_two, Nat.log2_eq_log_two]
  have hlog := Nat.log_mono_right (b := 2) h
  omega

/-- Between two counts with even significands lies another one. -/
theorem exists_isShort_between {u v : ℕ} (hu : IsShort u) (hv : IsShort v)
    (hueven : HasEvenSignificand u) (hveven : HasEvenSignificand v) (hlt : u < v) :
    ∃ w, IsShort w ∧ u < w ∧ w < v := by
  have hdvd : 2 ^ spacing u ∣ v := (pow_dvd_pow 2 (spacing_mono hlt.le)).trans hv
  have hbits : 2 ^ 52 ≤ u / 2 ^ spacing u ∨ spacing u = 0 := by
    rcases Nat.eq_zero_or_pos (spacing u) with h0 | hpos
    · exact Or.inr h0
    · left
      rw [Nat.le_div_iff_mul_le (Nat.two_pow_pos _), ← pow_add]
      exact two_pow_le_of_spacing_pos hpos
  have hm : u / 2 ^ spacing u < 2 ^ 53 := div_pow_spacing_lt u
  have hu' : u / 2 ^ spacing u * 2 ^ spacing u = u := Nat.div_mul_cancel hu
  have hv' : v / 2 ^ spacing u * 2 ^ spacing u = v := Nat.div_mul_cancel hdvd
  unfold HasEvenSignificand at hueven
  generalize spacing u = s at *
  generalize u / 2 ^ s = m at *
  generalize v / 2 ^ s = k at *
  have hmk : m < k := by
    rw [← hu', ← hv'] at hlt
    exact Nat.lt_of_mul_lt_mul_right hlt
  refine ⟨(m + 1) * 2 ^ s, isShort_mul_two_pow (by omega) s, ?_, ?_⟩
  · rw [← hu']
    exact Nat.mul_lt_mul_of_pos_right (Nat.lt_succ_self m) (Nat.two_pow_pos s)
  · rw [← hv']
    refine Nat.mul_lt_mul_of_pos_right (lt_of_le_of_ne hmk ?_) (Nat.two_pow_pos s)
    -- The next significand after an even one is odd.
    rintro rfl
    rw [← hv'] at hveven
    exact not_hasEvenSignificand_mul (by omega) (by omega) (by omega) hveven

end Keypad.Double
