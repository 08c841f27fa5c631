import Keypad.Proofs.Double.Display
import Keypad.Proofs.Double.Spacing

/-!
# Whole numbers in print

A whole number is rounded to a whole number (`Rounds.exists_intCast`), and a decimal without digits
behind the point is one. So what is written for a double without a point or an exponent is written
for an integral double, and it is the list of the digits of this double exactly when the decimal
that was written has the value of the double (`plainChars_eq_toDigits_iff`).

Below `2^54` it has (`value_shortest`). There the search for the shortest decimal ends at the latest
on the grid of the whole numbers, where it finds the double itself (`onGrid_zero`,
`exponent_shortest`). What it finds before is a multiple of ten, hence even, and the even numbers of
this size are doubles (`Rounds.toRat_eq_mul_two`). From `2^54` on there are multiples of ten that
are not doubles, and the shortest decimal of a double can be one of those. -/

namespace Keypad

/-! ## Digits -/

/-- Every digit is the digit of a number below ten. -/
theorem exists_digitChar_eq {c : Char} (h : c.isDigit) : ∃ k < 10, Nat.digitChar k = c := by
  obtain ⟨hlow, hhigh⟩ := Char.isDigit_iff_toNat.1 h
  have hzero : '0'.toNat = 48 := rfl
  have hnine : '9'.toNat = 57 := rfl
  have hlt : c.toNat - 48 < 10 := by omega
  refine ⟨c.toNat - 48, hlt, Char.toNat_inj.1 ?_⟩
  rw [Nat.toNat_digitChar_of_lt_ten hlt]
  omega

/-- Digits without a needless zero in front are the digits of the number that they denote. -/
theorem IsWhole.toDigits_ofDigitChars {ds : List Char} (h : IsWhole ds) :
    Nat.toDigits 10 (Nat.ofDigitChars 10 ds 0) = ds := by
  induction ds using List.reverseRecOn with
  | nil => exact absurd rfl h.1.1
  | append_singleton ds c ih =>
    obtain ⟨k, hk, rfl⟩ := exists_digitChar_eq (h.1.2 c (by simp))
    rw [Nat.ofDigitChars_append, Nat.ofDigitChars_cons_digitChar_of_lt_ten hk, Nat.ofDigitChars_nil]
    rcases eq_or_ne ds [] with rfl | hne
    · rw [Nat.ofDigitChars_nil, Nat.mul_zero, Nat.zero_add, Nat.toDigits_of_lt_base hk]
      rfl
    · -- More digits follow the first one, which therefore is no zero.
      have hhead : ds.head? ≠ some '0' := by
        intro hzero
        have hsingle := h.2 (by rw [List.head?_append_of_ne_nil _ hne, hzero])
        have hlength := congrArg List.length hsingle
        rw [List.length_append, List.length_singleton, List.length_singleton] at hlength
        exact hne (List.length_eq_zero_iff.1 (by omega))
      have hdigits := ih ⟨⟨hne, fun d hd => h.1.2 d (List.mem_append_left _ hd)⟩,
        fun hzero => absurd hzero hhead⟩
      have hpos : 0 < Nat.ofDigitChars 10 ds 0 := by
        rw [Nat.pos_iff_ne_zero]
        intro hzero
        rw [hzero] at hdigits
        exact hhead (hdigits ▸ rfl)
      rw [← Nat.toDigits_append_toDigits (by decide) hpos hk, hdigits, Nat.toDigits_of_lt_base hk]

namespace Decimal

/-- A decimal that is a whole number has no digits behind the point, since the last one of those is
no zero. -/
theorem fractionDigits_eq_nil {d : Decimal} (h : d.digits ≠ 0) {n : ℕ} (hn : d.value = n) :
    d.fractionDigits = [] := by
  obtain ⟨hdigits, hlast⟩ := fractionDigits_spec h
  have hvalue := d.value_eq_written
  rcases List.eq_nil_or_concat d.fractionDigits with hnil | ⟨fs, c, hfs⟩
  · exact hnil
  rw [List.concat_eq_append] at hfs
  rw [hfs] at hdigits hlast hvalue
  obtain ⟨k, hk, rfl⟩ := exists_digitChar_eq (hdigits c (by simp))
  have hk0 : k ≠ 0 := by
    rintro rfl
    exact hlast (by simp)
  rw [hn, List.length_append, List.length_singleton, ← List.append_assoc, Nat.ofDigitChars_append,
    Nat.ofDigitChars_cons_digitChar_of_lt_ten hk, Nat.ofDigitChars_nil, zpow_neg, zpow_natCast,
    ← div_eq_mul_inv, eq_div_iff (by positivity), pow_succ'] at hvalue
  have htens : n * (10 * 10 ^ fs.length) =
      10 * Nat.ofDigitChars 10 (d.wholeDigits ++ fs) 0 + k := by exact_mod_cast hvalue
  rw [mul_left_comm] at htens
  omega

end Decimal

namespace Double

/-- A decimal is written with the digits of a whole number, and no point, exactly when its value is
this number. -/
theorem plainChars_eq_toDigits_iff {d : Decimal} (h : d.digits ≠ 0) {n : ℕ} :
    plainChars d = Nat.toDigits 10 n ↔ d.value = n := by
  constructor
  · intro heq
    obtain ⟨e, he, hvalue⟩ := exists_unsigned?_plainChars h
    rw [heq, Numeral.unsigned?_toDigits] at he
    cases he
    rw [← hvalue, Decimal.value, zpow_zero, mul_one]
  · intro hn
    have hnil := Decimal.fractionDigits_eq_nil h hn
    have hvalue := Decimal.value_of_fractionDigits_eq_nil hnil
    have hn' : n = Nat.ofDigitChars 10 d.wholeDigits 0 := by exact_mod_cast hn.symm.trans hvalue
    rw [plainChars, if_pos hnil, List.append_nil, hn',
      (Decimal.isWhole_wholeDigits h).toDigits_ofDigitChars]

/-! ## Integral doubles -/

/-- The integral doubles are the finite ones with a whole number as value. -/
theorem isIntegral_iff {x : Double} (hx : x.isFinite) : x.isIntegral ↔ ∃ k : ℤ, x.toRat = k := by
  have hU := unitsPerOne_pos
  obtain ⟨s, units, fits, rfl⟩ := exists_eq_finite hx
  have hvalue : ∀ k : ℤ, (finite s units fits).toRat = k ↔
      (finite s units fits).signedUnits = k * unitsPerOne := by
    intro k
    rw [toRat, div_eq_iff hU.ne']
    exact_mod_cast Iff.rfl
  have hdvd : (finite s units fits).isIntegral ↔
      (unitsPerOne : ℤ) ∣ (finite s units fits).signedUnits := by
    rw [← Int.dvd_natAbs, Int.natCast_dvd_natCast]
    have hunits : (finite s units fits).signedUnits.natAbs = units := by
      cases s <;> simp [signedUnits]
    rw [hunits, Nat.dvd_iff_mod_eq_zero]
    simp [isIntegral]
  rw [hdvd, exists_congr hvalue, dvd_iff_exists_eq_mul_left]

/-- A whole number is rounded to a whole number. -/
theorem Rounds.exists_intCast {x : Double} {k : ℤ} (h : Rounds k x) (hx : x.isFinite) :
    ∃ j : ℤ, x.toRat = j := by
  rcases le_or_gt (2 ^ 52) |x.toRat| with hle | hlt
  · exact exists_toRat_eq_intCast hle
  · -- Below `2^52` the number itself is a double.
    obtain ⟨hfinite, hval⟩ := toRat_ofInt (n := 2 ^ 52) (by norm_num)
    have hk := (h.isNearest hx).abs_lt_toRat hfinite (by rw [hval]; exact_mod_cast hlt)
    rw [hval] at hk
    have hk' : |k| < 2 ^ 52 := by exact_mod_cast hk
    obtain ⟨hfinite', hval'⟩ := toRat_ofInt (n := k) (by omega)
    exact ⟨k, (h.eq_of_toRat_eq hfinite' hval').2⟩

/-- The even numbers of up to `2^54` are doubles. -/
theorem exists_toRat_eq_mul_two {k : ℤ} (hk : |k| ≤ 2 ^ 53) :
    ∃ y : Double, y.isFinite ∧ y.toRat = k * 2 := by
  have hk' : |(k : ℚ)| ≤ 2 ^ 53 := by exact_mod_cast hk
  have hlt : |(k : ℚ)| * 2 ^ 1 < overflow := by
    calc |(k : ℚ)| * 2 ^ 1 ≤ 2 ^ 53 * 2 ^ 1 := mul_le_mul_of_nonneg_right hk' (by norm_num)
      _ < 2 ^ 102 := by norm_num
      _ ≤ overflow := two_pow_le_overflow
  obtain ⟨y, hy, hval⟩ := exists_toRat_eq_of_lt_overflow hk hlt
  exact ⟨y, hy, by rw [hval, pow_one]⟩

/-- The bound itself is a double. -/
theorem exists_toRat_eq_two_pow : ∃ y : Double, y.isFinite ∧ y.toRat = 2 ^ 54 := by
  obtain ⟨y, hy, hval⟩ := exists_toRat_eq_mul_two (k := 2 ^ 53) (by norm_num)
  refine ⟨y, hy, ?_⟩
  rw [hval]
  norm_num

/-- Below `2^54` an even number is not moved by rounding. -/
theorem Rounds.toRat_eq_mul_two {x : Double} {k : ℤ} (h : Rounds (k * 2) x) (hx : x.isFinite)
    (hlt : |x.toRat| < 2 ^ 54) : x.toRat = k * 2 := by
  obtain ⟨y, hy, hval⟩ := exists_toRat_eq_two_pow
  have hk := (h.isNearest hx).abs_lt_toRat hy (hval ▸ hlt)
  have hk' : |k| * 2 < 2 ^ 54 := by
    rw [hval, abs_mul, abs_two] at hk
    exact_mod_cast hk
  obtain ⟨z, hz, hzval⟩ := exists_toRat_eq_mul_two (k := k) (by omega)
  exact (h.eq_of_toRat_eq hz hzval).2

/-! ## The shortest decimal of an integral double -/

/-- The shortest decimal of a magnitude is rounded to it. -/
theorem rounds_shortest {units : ℕ} (fits : Fits units) :
    Rounds (shortest units).value (finite false units fits) := by
  have hrounds := Decimal.rounds_toDouble false (shortest units)
  rwa [Decimal.toDouble_of_readsBack false fits (readsBack_shortest fits), signRat,
    if_neg Bool.false_ne_true, one_mul] at hrounds

variable {n : ℕ}

/-- On the grid of the whole numbers the search finds a whole number itself. -/
theorem onGrid_zero (fits : Fits (n * unitsPerOne)) : onGrid (n * unitsPerOne) 0 = some ⟨n, 0⟩ := by
  have hpos : 0 < unitsPerOne := by exact_mod_cast unitsPerOne_pos
  have hquotient : gridQuotient (n * unitsPerOne) 0 = (n * unitsPerOne, unitsPerOne) :=
    congrArg (Prod.mk _) (mul_one unitsPerOne)
  have hnearest : nearestEven (n * unitsPerOne) unitsPerOne = n := by
    rw [nearestEven, Nat.mul_mod_left, Nat.mul_div_cancel _ hpos, if_pos (.inl hpos)]
  have hback : ReadsBack (n * unitsPerOne) ⟨n, 0⟩ := by
    refine ⟨fits, toDouble_of_value_eq false fits ?_⟩
    rw [Decimal.value, zpow_zero, mul_one, Nat.cast_mul,
      mul_div_cancel_right₀ _ unitsPerOne_pos.ne']
  unfold onGrid
  dsimp only
  rw [hquotient, hnearest, List.map_cons]
  exact List.find?_cons_of_pos (decide_eq_true hback)

/-- What is found on a grid lies on this grid. -/
theorem exponent_of_onGrid {units : ℕ} {e : ℤ} {d : Decimal} (h : onGrid units e = some d) :
    d.exponent = e := by
  obtain ⟨m, -, rfl⟩ := List.mem_map.1 (List.mem_of_find?_eq_some h)
  rfl

/-- The search for a whole number below `2^54` passes the grid of the whole numbers, and does not
begin with it. -/
theorem coarsestGrid_bounds (hn : n ≠ 0) (hlt : n < 2 ^ 54) :
    1 ≤ coarsestGrid (n * unitsPerOne) ∧ coarsestGrid (n * unitsPerOne) ≤ 17 := by
  -- No power is computed.
  obtain ⟨e, hU, he⟩ : ∃ e : ℕ, unitsPerOne = 2 ^ e ∧ e = 1074 := ⟨1074, unitsPerOne_eq, rfl⟩
  have hne : n * 2 ^ e ≠ 0 := mul_ne_zero hn (Nat.two_pow_pos e).ne'
  have hlow : e ≤ (n * 2 ^ e).log2 :=
    (Nat.le_log2 hne).2 (Nat.le_mul_of_pos_left _ (Nat.pos_of_ne_zero hn))
  have hhigh : (n * 2 ^ e).log2 < 54 + e := by
    rw [Nat.log2_lt hne, pow_add]
    exact Nat.mul_lt_mul_of_pos_right hlt (Nat.two_pow_pos e)
  rw [hU]
  unfold coarsestGrid
  omega

/-- The shortest decimal of a whole number below `2^54` is the number itself or a multiple of ten.
-/
theorem exponent_shortest (hn : n ≠ 0) (hlt : n < 2 ^ 54) (fits : Fits (n * unitsPerOne)) :
    shortest (n * unitsPerOne) = ⟨n, 0⟩ ∨
      ∃ e : ℕ, (shortest (n * unitsPerOne)).exponent = e + 1 := by
  obtain ⟨hlow, hhigh⟩ := coarsestGrid_bounds hn hlt
  obtain ⟨i, hi⟩ : ∃ i : ℕ, coarsestGrid (n * unitsPerOne) = i :=
    ⟨_, (Int.toNat_of_nonneg (by omega)).symm⟩
  have hzero := onGrid_zero fits
  unfold shortest
  rw [hi]
  cases hsearch : (List.range 20).findSome? fun j : ℕ => onGrid (n * unitsPerOne) (i - j) with
  | none =>
    have hmiss := List.findSome?_eq_none_iff.1 hsearch i (List.mem_range.2 (by omega))
    rw [sub_self, hzero] at hmiss
    cases hmiss
  | some d =>
    obtain ⟨before, j, after, hrange, hfound, hmissed⟩ := List.findSome?_eq_some_iff.1 hsearch
    -- The grids come in order, and no grid before this one has a hit.
    have hle : j ≤ i := by
      have hmem : i ∈ before ++ j :: after := hrange ▸ List.mem_range.2 (by omega)
      have hsorted : (before ++ j :: after).Pairwise (· < ·) := hrange ▸ List.pairwise_lt_range
      rcases List.mem_append.1 hmem with hbefore | hafter
      · have hmiss := hmissed i hbefore
        rw [sub_self, hzero] at hmiss
        cases hmiss
      · rcases List.mem_cons.1 hafter with rfl | hafter
        · exact le_rfl
        · exact (List.rel_of_pairwise_cons (List.pairwise_append.1 hsorted).2.1 hafter).le
    rcases hle.eq_or_lt with rfl | hlt
    · left
      rw [sub_self, hzero] at hfound
      exact (Option.some.inj hfound).symm
    · right
      refine ⟨i - j - 1, ?_⟩
      rw [Option.getD_some, exponent_of_onGrid hfound]
      omega

/-- The shortest decimal of a whole number below `2^54` has its value. -/
theorem value_shortest (hn : n ≠ 0) (hlt : n < 2 ^ 54) (fits : Fits (n * unitsPerOne)) :
    (shortest (n * unitsPerOne)).value = n := by
  have hU := unitsPerOne_pos
  have hvalue : (finite false (n * unitsPerOne) fits).toRat = n := by
    rw [toRat_finite, signRat, if_neg Bool.false_ne_true, one_mul, Nat.cast_mul,
      mul_div_cancel_right₀ _ hU.ne']
  have hrounds := rounds_shortest fits
  rcases exponent_shortest hn hlt fits with hself | ⟨e, he⟩
  · rw [hself, Decimal.value, zpow_zero, mul_one]
  · have htens : (shortest (n * unitsPerOne)).value =
        ((shortest (n * unitsPerOne)).digits * 5 * 10 ^ e : ℤ) * 2 := by
      rw [Decimal.value, he, zpow_add_one₀ (by norm_num), zpow_natCast]
      push_cast
      ring
    rw [htens] at hrounds ⊢
    have hsize : |(n : ℚ)| < 2 ^ 54 := by
      rw [abs_of_nonneg n.cast_nonneg]
      exact_mod_cast hlt
    rw [← hrounds.toRat_eq_mul_two rfl (hvalue ▸ hsize), hvalue]

end Double

end Keypad
