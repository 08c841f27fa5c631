import Keypad.Proofs.Double.Whole
import Keypad.Proofs.Expression.Denotation

/-!
# The two texts of a double compared

`display` and `plain` write a double in different ways: the one has all digits of an integral double
below `10^21` and otherwise the shortest decimal, perhaps with an exponent; the other has the digits
of the shortest decimal always, and never an exponent (`not_mem_plain`).

For a double that is not integral both write the same decimal. Its last digit stands behind the
point (`isIntegral_of_fractionDigits_eq_nil`), so no point and zero are added, and without an
exponent the texts are the same (`plain_eq_display_of_not_isIntegral`). An integral double is shown
without an exponent only below `10^21` (`not_isPositional`, `exists_display_eq`), with digits that
denote it. So there the texts are the same exactly when the digits of the shortest decimal denote it
too (`plain_eq_display_iff`), which they do below `2^54` (`plain_eq_display_of_lt`). -/

namespace Keypad

/-- A decimal is below the power of ten that its point stands for. -/
theorem Decimal.value_lt (d : Decimal) : d.value < 10 ^ d.point := by
  have hdigits : d.digits < 10 ^ (Nat.toDigits 10 d.digits).length :=
    (Nat.length_toDigits_le_iff (by decide) Nat.length_toDigits_pos).1 le_rfl
  have hdigits' : (d.digits : ℚ) < 10 ^ (Nat.toDigits 10 d.digits).length := by
    exact_mod_cast hdigits
  rw [value, point, zpow_add₀ (by norm_num), zpow_natCast]
  exact mul_lt_mul_of_pos_right hdigits' (zpow_pos (by norm_num) _)

namespace Double

open Numeral (Denotes)

/-! ## Exponents -/

/-- A text that is typed on has no letter of an exponent. -/
theorem not_mem_plain {x : Double} (hx : x.isFinite) : 'e' ∉ x.plain.toList := by
  obtain ⟨negative, m, hm, hplain⟩ := exists_plain_eq hx
  rw [hm, List.mem_append, not_or]
  constructor
  · cases negative <;> decide
  · intro hmem
    obtain hdigit | hpoint := hplain.isMantissa.isDigit_or_eq 'e' hmem
    · exact absurd hdigit (by decide)
    · exact absurd hpoint (by decide)

/-- What is not printed positionally is printed with the letter of an exponent. -/
theorem mem_magnitudeChars {d : Decimal} (h : d.digits ≠ 0)
    (hexponent : ¬ isPositional (d.point - 1)) : 'e' ∈ magnitudeChars d := by
  rw [magnitudeChars, if_neg h, if_neg hexponent]
  exact List.mem_append_right _ List.mem_cons_self

/-- Without an exponent, a magnitude with digits behind the point is printed as it is typed on. -/
theorem magnitudeChars_eq_plainChars {d : Decimal} (h : d.digits ≠ 0)
    (hfraction : d.fractionDigits ≠ []) (hletter : 'e' ∉ magnitudeChars d) :
    magnitudeChars d = plainChars d := by
  have hpositional : isPositional (d.point - 1) := by
    by_contra hexponent
    exact hletter (mem_magnitudeChars h hexponent)
  rw [magnitudeChars, if_neg h, if_pos hpositional, if_neg hfraction, plainChars,
    if_neg hfraction]

/-! ## Sizes -/

variable {units : ℕ}

/-- What is written without digits behind the point is written for an integral double. -/
theorem isIntegral_of_fractionDigits_eq_nil (negative : Bool) (fits : Fits units)
    (h : (shortest units).fractionDigits = []) : (finite negative units fits).isIntegral := by
  have hrounds := rounds_shortest fits
  rw [Decimal.value_of_fractionDigits_eq_nil h] at hrounds
  exact (isIntegral_iff (x := finite false units fits) rfl).2
    (Rounds.exists_intCast (by exact_mod_cast hrounds) rfl)

/-- From `10^21` on, a double is not printed positionally, since the decimal would be below `10^16`.
-/
theorem not_isPositional (fits : Fits units) (hlarge : 10 ^ 21 * unitsPerOne ≤ units) :
    ¬ isPositional ((shortest units).point - 1) := by
  intro hpositional
  have hpoint : (shortest units).point ≤ 16 := by
    simp only [isPositional, Bool.and_eq_true, decide_eq_true_eq] at hpositional
    omega
  have hvalue : (shortest units).value ≤ 2 ^ 54 := by
    calc (shortest units).value ≤ 10 ^ (shortest units).point := (Decimal.value_lt _).le
      _ ≤ 10 ^ (16 : ℤ) := zpow_le_zpow_right₀ (by norm_num) hpoint
      _ ≤ 2 ^ 54 := by norm_num
  obtain ⟨y, hy, hval⟩ := exists_toRat_eq_two_pow
  have hle := ((rounds_shortest fits).isNearest rfl).le_toRat hy (hval ▸ hvalue)
  rw [hval, toRat_finite, signRat, if_neg Bool.false_ne_true, one_mul,
    div_le_iff₀ unitsPerOne_pos] at hle
  have hlarge' : (10 : ℚ) ^ 21 * unitsPerOne ≤ units := by exact_mod_cast hlarge
  have hlt : (2 : ℚ) ^ 54 * unitsPerOne < 10 ^ 21 * unitsPerOne :=
    mul_lt_mul_of_pos_right (by norm_num) unitsPerOne_pos
  linarith

/-! ## What is shown -/

/-- An integral double below `10^21` is shown with all its digits. -/
theorem display_of_lt (negative : Bool) {n : ℕ} (hn : n ≠ 0) (hlt : n < 10 ^ 21)
    (fits : Fits (n * unitsPerOne)) :
    (finite negative (n * unitsPerOne) fits).display =
      String.ofList (signChars negative ++ Nat.toDigits 10 n) := by
  have hpos : 0 < unitsPerOne := by exact_mod_cast unitsPerOne_pos
  have hsmall : n * unitsPerOne < Nat.pow 10 21 * unitsPerOne :=
    Nat.mul_lt_mul_of_pos_right hlt hpos
  have hintegral : (finite negative (n * unitsPerOne) fits).isIntegral := by simp [isIntegral]
  rw [display, if_neg (Nat.mul_ne_zero hn hpos.ne'), if_pos ⟨hintegral, hsmall⟩,
    Nat.mul_div_cancel _ hpos]

/-- All other doubles but zero are shown as they are printed. -/
theorem display_eq_text (negative : Bool) (fits : Fits units) (hunits : units ≠ 0)
    (h : ¬ ((finite negative units fits).isIntegral ∧ units < 10 ^ 21 * unitsPerOne)) :
    (finite negative units fits).display =
      String.ofList (signChars negative ++ magnitudeChars (shortest units)) := by
  rw [display, if_neg hunits, Nat.pow_eq, if_neg h]
  simp only [text, decimal, if_neg hunits]

/-- A double that is not integral is typed on as it is shown, unless it is shown with an exponent.
-/
theorem plain_eq_display_of_not_isIntegral {x : Double} (hx : x.isFinite) (h : ¬ x.isIntegral)
    (hletter : 'e' ∉ x.display.toList) : x.plain = x.display := by
  obtain ⟨negative, units, fits, rfl⟩ := exists_eq_finite hx
  have hunits : units ≠ 0 := by
    rintro rfl
    exact h (by simp [isIntegral])
  have hdisplay := display_eq_text negative fits hunits (mt And.left h)
  rw [hdisplay, String.toList_ofList, List.mem_append, not_or] at hletter
  have hfraction := mt (isIntegral_of_fractionDigits_eq_nil negative fits) h
  have hdigits := (readsBack_shortest fits).digits_ne_zero hunits
  rw [hdisplay, magnitudeChars_eq_plainChars hdigits hfraction hletter.2,
    plain_finite negative fits hunits]

/-- An integral double other than zero that is shown without an exponent is shown with all its
digits. -/
theorem exists_display_eq {x : Double} (hx : x.isFinite) (h : x.isIntegral) (hzero : ¬ x.isZero)
    (hletter : 'e' ∉ x.display.toList) :
    ∃ negative n, ∃ fits : Fits (n * unitsPerOne), n * unitsPerOne ≠ 0 ∧
      x = finite negative (n * unitsPerOne) fits ∧
      x.display = String.ofList (signChars negative ++ Nat.toDigits 10 n) := by
  obtain ⟨negative, units, fits, rfl⟩ := exists_eq_finite hx
  have hunits : units ≠ 0 := by simpa [isZero] using hzero
  have hdvd := Nat.dvd_of_mod_eq_zero (by simpa [isIntegral] using h : units % unitsPerOne = 0)
  obtain ⟨n, hn⟩ := exists_eq_mul_left_of_dvd hdvd
  subst hn
  by_cases hlt : n < 10 ^ 21
  · exact ⟨negative, n, fits, hunits, rfl,
      display_of_lt negative (left_ne_zero_of_mul hunits) hlt fits⟩
  · -- From `10^21` on there would be an exponent.
    have hlarge : 10 ^ 21 * unitsPerOne ≤ n * unitsPerOne := Nat.mul_le_mul_right _ (not_lt.1 hlt)
    have hdigits := (readsBack_shortest fits).digits_ne_zero hunits
    rw [display_eq_text negative fits hunits fun hsmall => absurd hsmall.2 (not_lt.2 hlarge),
      String.toList_ofList] at hletter
    exact absurd (List.mem_append_right _ (mem_magnitudeChars hdigits
      (not_isPositional fits hlarge))) hletter

/-- An integral double that is shown with all its digits is typed on as it is shown exactly when its
decimal is exact. -/
theorem plain_eq_ofList_toDigits_iff (negative : Bool) {n : ℕ} (fits : Fits (n * unitsPerOne))
    (hunits : n * unitsPerOne ≠ 0) :
    (finite negative (n * unitsPerOne) fits).plain =
      String.ofList (signChars negative ++ Nat.toDigits 10 n) ↔
      (shortest (n * unitsPerOne)).value = n := by
  have hdigits := (readsBack_shortest fits).digits_ne_zero hunits
  rw [plain_finite negative fits hunits, String.ofList_inj, List.append_cancel_left_eq,
    plainChars_eq_toDigits_iff hdigits]

/-- A text that is typed on denotes the double exactly when the decimal is exact. -/
theorem exists_denotes_plain_iff (negative : Bool) (fits : Fits units) (hunits : units ≠ 0) :
    (∃ s, Denotes (finite negative units fits).plain.toList s
      (finite negative units fits).toRat) ↔ (shortest units).value = units / unitsPerOne := by
  obtain ⟨e, he, hvalue⟩ := exists_ofChars?_plain negative fits hunits
  have hread : (Numeral.mk negative e).value = signRat negative * (shortest units).value := by
    rw [← hvalue]
    cases negative <;> simp [Numeral.value, signRat]
  have hdenotes : ∀ s q, Denotes (finite negative units fits).plain.toList s q ↔
      negative = s ∧ signRat negative * (shortest units).value = q := by
    intro s q
    rw [Numeral.denotes_iff, he, ← hread]
    simp
  simp only [hdenotes, exists_eq_left', toRat_finite, mul_div_assoc,
    mul_right_inj' (signRat_ne_zero negative)]

/-! ## When the texts are the same -/

/-- Zero is typed on as it is shown, and the text denotes it. -/
theorem plain_of_isZero {x : Double} (hx : x.isFinite) (h : x.isZero) :
    x.plain = x.display ∧ 'e' ∉ x.display.toList ∧
      ∃ negative, Denotes x.plain.toList negative x.toRat := by
  obtain ⟨negative, units, fits, rfl⟩ := exists_eq_finite hx
  obtain rfl : units = 0 := by simpa [isZero] using h
  have hdenotes : Denotes ['0'] false 0 :=
    Numeral.denotes_iff.2 ⟨⟨false, ⟨0, 0⟩⟩, rfl, rfl, by simp [Numeral.value, Decimal.value]⟩
  have hplain : (finite negative 0 fits).plain = "0" := rfl
  refine ⟨rfl, ?_, false, ?_⟩
  · show 'e' ∉ "0".toList
    decide
  · rw [(isZero_iff hx).1 h, hplain]
    exact hdenotes

/-- The two texts are the same exactly if there is no exponent and the one that is typed on denotes
the double exactly, where it is integral. -/
theorem plain_eq_display_iff {x : Double} (hx : x.isFinite) :
    x.plain = x.display ↔ 'e' ∉ x.display.toList ∧
      (x.isIntegral → ∃ negative, Denotes x.plain.toList negative x.toRat) := by
  by_cases hzero : x.isZero
  · obtain ⟨heq, hletter, hdenotes⟩ := plain_of_isZero hx hzero
    exact iff_of_true heq ⟨hletter, fun _ => hdenotes⟩
  have hletter : x.plain = x.display → 'e' ∉ x.display.toList := fun heq => heq ▸ not_mem_plain hx
  rw [← and_iff_right_of_imp hletter, and_congr_right_iff]
  intro hletter
  by_cases hintegral : x.isIntegral
  · obtain ⟨negative, n, fits, hunits, rfl, hdisplay⟩ :=
      exists_display_eq hx hintegral hzero hletter
    rw [forall_prop_of_true hintegral, hdisplay, plain_eq_ofList_toDigits_iff negative fits hunits,
      exists_denotes_plain_iff negative fits hunits, Nat.cast_mul,
      mul_div_cancel_right₀ _ unitsPerOne_pos.ne']
  · exact iff_of_true (plain_eq_display_of_not_isIntegral hx hintegral hletter)
      fun h => absurd h hintegral

/-- Below `2^54` the two texts are the same if there is no exponent. -/
theorem plain_eq_display_of_lt {x : Double} (hx : x.isFinite) (hletter : 'e' ∉ x.display.toList)
    (hlt : x.isIntegral → |x.toRat| < 2 ^ 54) : x.plain = x.display := by
  by_cases hzero : x.isZero
  · exact (plain_of_isZero hx hzero).1
  by_cases hintegral : x.isIntegral
  · have hsize := hlt hintegral
    obtain ⟨negative, n, fits, hunits, rfl, hdisplay⟩ :=
      exists_display_eq hx hintegral hzero hletter
    rw [toRat_finite, mul_div_assoc, abs_mul, abs_signRat, one_mul, Nat.cast_mul,
      mul_div_cancel_right₀ _ unitsPerOne_pos.ne', abs_of_nonneg n.cast_nonneg] at hsize
    have hvalue := value_shortest (left_ne_zero_of_mul hunits) (by exact_mod_cast hsize) fits
    rw [hdisplay]
    exact (plain_eq_ofList_toDigits_iff negative fits hunits).2 hvalue
  · exact plain_eq_display_of_not_isIntegral hx hintegral hletter

end Double

end Keypad
