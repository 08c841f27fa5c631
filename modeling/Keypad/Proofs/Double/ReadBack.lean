import Keypad.Proofs.Double.Plain
import Mathlib.Tactic.Ring

/-!
# Plain texts read back

A finite double that is written without an exponent is read as itself (`parse?_plain`); only the
sign of a zero is lost. The text has all digits of a decimal that reads back as the magnitude, with
zeros filled in up to the point or behind it. So the proof has two parts that do not meet: the
digits, the filled in ones included, denote the value of that decimal (`value_eq_written`), and a
decimal is read as a double that depends on its value alone (`toDouble_congr`). Neither looks at how
the decimal was found. -/

namespace Keypad

/-! ## The value of written digits -/

namespace Decimal

/-- Behind the significant digits there are only zeros. -/
theorem exists_toDigits_eq_append (d : Decimal) :
    ∃ k, Nat.toDigits 10 d.digits = d.significant ++ List.replicate k '0' := by
  have hzeros : ∀ c ∈ (Nat.toDigits 10 d.digits).rtakeWhile (· == '0'), c = '0' :=
    fun c hc => by simpa using List.mem_rtakeWhile_imp hc
  refine ⟨((Nat.toDigits 10 d.digits).rtakeWhile (· == '0')).length, ?_⟩
  rw [← List.eq_replicate_of_mem hzeros]
  exact List.rdropWhile_append_rtakeWhile.symm

/-- The significant digits denote the value when the point is put behind `point` of them. -/
theorem value_eq_significant (d : Decimal) :
    d.value =
      Nat.ofDigitChars 10 d.significant 0 * (10 : ℚ) ^ (d.point - d.significant.length) := by
  obtain ⟨k, hk⟩ := d.exists_toDigits_eq_append
  have hdigits : d.digits = 10 ^ k * Nat.ofDigitChars 10 d.significant 0 := by
    have hread := Nat.ofDigitChars_ten_toDigits (n := d.digits)
    rw [hk, Nat.ofDigitChars_append, Nat.ofDigitChars_replicate_zero] at hread
    exact hread.symm
  have hpoint : d.point - d.significant.length = k + d.exponent := by
    unfold point
    rw [hk, List.length_append, List.length_replicate]
    push_cast
    ring
  have hten : (10 : ℚ) ≠ 0 := by norm_num
  calc d.value = d.digits * (10 : ℚ) ^ d.exponent := rfl
    _ = Nat.ofDigitChars 10 d.significant 0 * ((10 : ℚ) ^ (k : ℤ) * (10 : ℚ) ^ d.exponent) := by
        rw [hdigits, zpow_natCast]
        push_cast
        ring
    _ = _ := by rw [hpoint, zpow_add₀ hten]

/-- The digits that are written in full denote the value when the point is put where it is written.
-/
theorem value_eq_written (d : Decimal) :
    d.value = Nat.ofDigitChars 10 (d.wholeDigits ++ d.fractionDigits) 0 *
      (10 : ℚ) ^ (-(d.fractionDigits.length : ℤ)) := by
  have hvalue := d.value_eq_significant
  have hten : (10 : ℚ) ≠ 0 := by norm_num
  unfold wholeDigits fractionDigits
  split_ifs with hpoint
  · -- Zeros in front of the digits do not count.
    have hzero : Nat.ofDigitChars 10 ['0'] 0 = 0 := rfl
    have hlength : ((List.replicate (-d.point).toNat '0' ++ d.significant).length : ℤ) =
        d.significant.length - d.point := by
      rw [List.length_append, List.length_replicate]
      omega
    rw [Nat.ofDigitChars_append, hzero, Nat.ofDigitChars_append, Nat.ofDigitChars_replicate_zero,
      mul_zero, hlength, hvalue, neg_sub]
  · rcases Nat.lt_or_ge d.point.toNat d.significant.length with hlt | hge
    · -- The point stands among the digits.
      have hnofill : d.point.toNat - d.significant.length = 0 := by omega
      have hlength : ((d.significant.drop d.point.toNat).length : ℤ) =
          d.significant.length - d.point := by
        rw [List.length_drop]
        omega
      rw [hnofill, List.replicate_zero, List.append_nil, List.take_append_drop, hlength, hvalue,
        neg_sub]
    · -- Every zero in front of the point counts for a factor of ten.
      have hfill : ((d.point.toNat - d.significant.length : ℕ) : ℤ) =
          d.point - d.significant.length := by omega
      rw [List.take_of_length_le hge, List.drop_of_length_le hge, List.append_nil,
        Nat.ofDigitChars_append, Nat.ofDigitChars_replicate_zero, List.length_nil, Nat.cast_zero,
        neg_zero, zpow_zero, mul_one, hvalue, ← hfill, zpow_natCast]
      push_cast
      ring

/-- A decimal without digits behind the point is a whole number. -/
theorem value_of_fractionDigits_eq_nil {d : Decimal} (h : d.fractionDigits = []) :
    d.value = Nat.ofDigitChars 10 d.wholeDigits 0 := by
  have hvalue := d.value_eq_written
  rwa [h, List.append_nil, List.length_nil, Nat.cast_zero, neg_zero, zpow_zero, mul_one] at hvalue

end Decimal

/-! ## Reading digits -/

/-- Characters of a class in front of something that does not begin with one are all those of the
class at the front. -/
theorem Text.span_append {class? : Char → Bool} {cs rest : List Char} (hcs : ∀ c ∈ cs, class? c)
    (hrest : ∀ c ∈ rest.head?, ¬ class? c) :
    (cs ++ rest).takeWhile class? = cs ∧ (cs ++ rest).dropWhile class? = rest := by
  rw [List.takeWhile_append_of_pos hcs, List.dropWhile_append_of_pos hcs]
  cases rest with
  | nil => simp
  | cons c rest =>
    have hc : ¬ class? c := hrest c rfl
    rw [List.takeWhile_cons_of_neg hc, List.dropWhile_cons_of_neg hc, List.append_nil]
    exact ⟨rfl, rfl⟩

namespace Numeral

/-- Nothing behind a mantissa is an exponent of zero. -/
@[simp] theorem exponent?_nil : exponent? [] = some 0 := rfl

/-- An exponent begins with its letter, so that it is told apart from what stands before it. -/
theorem head?_of_exponent? {cs : List Char} {k : ℤ} (h : exponent? cs = some k) :
    ∀ c ∈ cs.head?, ¬ c.isDigit ∧ c ≠ '.' := by
  intro c hc
  cases isExponent_of_exponent? h with
  | absent => cases hc
  | present he =>
    obtain rfl := Option.some.inj hc
    obtain rfl | rfl := he <;> decide

/-- Digits in front of a fraction and an exponent are read as the number that all of the digits denote,
scaled by the exponent and down by the digits of the fraction. -/
theorem unsigned?_of_splitFraction {ds rest fs tail : List Char} {k : ℤ}
    (hds : ∀ c ∈ ds, c.isDigit) (hrest : ∀ c ∈ rest.head?, ¬ c.isDigit)
    (hsplit : splitFraction rest = (fs, tail)) (hsome : ¬ (ds = [] ∧ fs = []))
    (htail : exponent? tail = some k) :
    unsigned? (ds ++ rest) = some ⟨Nat.ofDigitChars 10 (ds ++ fs) 0, k - fs.length⟩ := by
  obtain ⟨htake, hdrop⟩ := Text.span_append hds hrest
  unfold unsigned?
  rw [htake, hdrop, hsplit]
  dsimp only
  rw [if_neg hsome, htail, Option.map_some]

/-- Digits without a point. -/
theorem unsigned?_whole {ds tail : List Char} {k : ℤ} (hds : IsDigits ds)
    (htail : exponent? tail = some k) :
    unsigned? (ds ++ tail) = some ⟨Nat.ofDigitChars 10 ds 0, k⟩ := by
  have hhead := head?_of_exponent? htail
  have hsplit : splitFraction tail = ([], tail) := by
    unfold splitFraction
    split
    · exact absurd rfl (hhead '.' rfl).2
    · rfl
  have hread := unsigned?_of_splitFraction hds.2 (fun c hc => (hhead c hc).1) hsplit
    (fun h => hds.1 h.1) htail
  rwa [List.append_nil, List.length_nil, Nat.cast_zero, sub_zero] at hread

/-- Digits with a point before, among or behind them. -/
theorem unsigned?_pointed {ds fs tail : List Char} {k : ℤ} (hds : ∀ c ∈ ds, c.isDigit)
    (hfs : ∀ c ∈ fs, c.isDigit) (hsome : ¬ (ds = [] ∧ fs = [])) (htail : exponent? tail = some k) :
    unsigned? (ds ++ '.' :: (fs ++ tail)) =
      some ⟨Nat.ofDigitChars 10 (ds ++ fs) 0, k - fs.length⟩ := by
  have hhead := head?_of_exponent? htail
  have hpoint : ∀ c ∈ ('.' :: (fs ++ tail)).head?, ¬ c.isDigit := by
    intro c hc
    obtain rfl := Option.some.inj hc
    decide
  have hsplit : splitFraction ('.' :: (fs ++ tail)) = (fs, tail) := by
    obtain ⟨htake, hdrop⟩ := Text.span_append hfs fun c hc => (hhead c hc).1
    show ((fs ++ tail).takeWhile Char.isDigit, (fs ++ tail).dropWhile Char.isDigit) = (fs, tail)
    rw [htake, hdrop]
  exact unsigned?_of_splitFraction hds hpoint hsplit hsome htail

/-- Digits, a point and further digits, if there are any, and an exponent are read as the number that
all of the digits denote, scaled by the exponent and down by the digits behind the point. -/
theorem unsigned?_append {ds fs tail : List Char} {k : ℤ} (hds : IsDigits ds)
    (hfs : ∀ c ∈ fs, c.isDigit) (htail : exponent? tail = some k) :
    unsigned? (ds ++ ((if fs = [] then [] else '.' :: fs) ++ tail)) =
      some ⟨Nat.ofDigitChars 10 (ds ++ fs) 0, k - fs.length⟩ := by
  split_ifs with hnil
  · rw [hnil, List.nil_append, unsigned?_whole hds htail, List.append_nil, List.length_nil,
      Nat.cast_zero, sub_zero]
  · exact unsigned?_pointed hds.2 hfs (fun h => hds.1 h.1) htail

/-- A sign in front of what does not begin with one is read as the sign of the numeral. -/
theorem ofChars?_signChars_append (negative : Bool) {m : List Char} (h : m.head? ≠ some '-') :
    ofChars? (Double.signChars negative ++ m) = (unsigned? m).map (Numeral.mk negative) := by
  cases negative with
  | true => rfl
  | false =>
    show ofChars? m = _
    unfold ofChars?
    split
    · exact absurd rfl h
    · rfl

end Numeral

/-! ## The double that is read -/

namespace Double

/-- A finite double is given by its sign and its value. -/
theorem eq_of_toRat_eq {x y : Double} (hx : x.isFinite) (hy : y.isFinite)
    (hsign : x.isNegative = y.isNegative) (hvalue : x.toRat = y.toRat) : x = y := by
  obtain ⟨s, m, hm, rfl⟩ := exists_eq_finite hx
  obtain ⟨t, n, hn, rfl⟩ := exists_eq_finite hy
  obtain rfl : s = t := hsign
  rw [toRat_finite, toRat_finite, div_left_inj' unitsPerOne_pos.ne',
    mul_right_inj' (signRat_ne_zero s), Nat.cast_inj] at hvalue
  subst hvalue
  rfl

/-- The double that the plain text of a double is read as: this double, but without the sign of a
zero. -/
def plainValue (x : Double) : Double := if x.isZero then zero false else x

end Double

namespace Decimal

open Double

/-- The double that a decimal is read as depends only on the value of the decimal. -/
theorem toDouble_congr {d e : Decimal} (negative : Bool) (h : e.value = d.value)
    (hfinite : (d.toDouble negative).isFinite) : e.toDouble negative = d.toDouble negative := by
  have hd := d.rounds_toDouble negative
  have he := e.rounds_toDouble negative
  rw [h] at he
  obtain ⟨hefinite, hvalue⟩ := hd.toRat_eq he hfinite
  have hsign : (e.toDouble negative).isNegative = (d.toDouble negative).isNegative := by
    rw [(isNegative_toDouble negative e).1, (isNegative_toDouble negative d).1]
  exact eq_of_toRat_eq hefinite hfinite hsign hvalue.symm

/-- A decimal that reads back as a magnitude is read, with a sign, as this magnitude with the sign.
-/
theorem toDouble_of_readsBack {d : Decimal} {units : ℕ} (negative : Bool) (fits : Fits units)
    (h : ReadsBack units d) : d.toDouble negative = .finite negative units fits := by
  obtain ⟨_, hpositive⟩ := h
  cases negative with
  | false => exact hpositive
  | true =>
    have hneg := (isNegative_toDouble false d).2
    rw [hpositive] at hneg
    exact hneg.symm

end Decimal

namespace Double

/-- A plain magnitude is read as a decimal with the value of the one that was written. -/
theorem exists_unsigned?_plainChars {d : Decimal} (h : d.digits ≠ 0) :
    ∃ e, Numeral.unsigned? (plainChars d) = some e ∧ e.value = d.value := by
  have hwhole := Decimal.isWhole_wholeDigits h
  obtain ⟨hfraction, -⟩ := Decimal.fractionDigits_spec h
  have hread := Numeral.unsigned?_append hwhole.1 hfraction Numeral.exponent?_nil
  rw [List.append_nil, zero_sub] at hread
  exact ⟨_, hread, d.value_eq_written.symm⟩

/-- A plain magnitude does not begin with a sign. -/
theorem head?_plainChars_ne {d : Decimal} (h : d.digits ≠ 0) :
    (plainChars d).head? ≠ some '-' := by
  intro hsign
  have hmem := List.mem_of_mem_head? hsign
  obtain hdigit | hpoint := (isPlain_plainChars h).isMantissa.isDigit_or_eq '-' hmem
  · exact absurd hdigit (by decide)
  · exact absurd hpoint (by decide)

/-- The plain text of a double other than zero has its sign and the digits of its decimal. -/
theorem plain_finite (negative : Bool) {units : ℕ} (fits : Fits units) (hunits : units ≠ 0) :
    (finite negative units fits).plain =
      String.ofList (signChars negative ++ plainChars (shortest units)) := by
  simp only [plain, decimal, if_neg hunits]

/-- The plain text of a double other than zero is a numeral with its sign. What is read need not be
the decimal that was written, but it has the same value. -/
theorem exists_ofChars?_plain (negative : Bool) {units : ℕ} (fits : Fits units)
    (hunits : units ≠ 0) :
    ∃ e, Numeral.ofChars? (finite negative units fits).plain.toList = some ⟨negative, e⟩ ∧
      e.value = (shortest units).value := by
  have hdigits := (readsBack_shortest fits).digits_ne_zero hunits
  obtain ⟨e, he, hvalue⟩ := exists_unsigned?_plainChars hdigits
  refine ⟨e, ?_, hvalue⟩
  rw [plain_finite negative fits hunits, String.toList_ofList,
    Numeral.ofChars?_signChars_append negative (head?_plainChars_ne hdigits), he, Option.map_some]

/-- A finite double, written without an exponent, is read as itself, without the sign of a zero. -/
theorem parse?_plain {x : Double} (hx : x.isFinite) :
    Numeral.parse? x.plain = some x.plainValue := by
  obtain ⟨negative, units, fits, rfl⟩ := exists_eq_finite hx
  rcases eq_or_ne units 0 with rfl | hunits
  · have hzero : Numeral.parse? "0" = some (zero false) := by decide +kernel
    exact hzero
  have hsigned := Decimal.toDouble_of_readsBack negative fits (readsBack_shortest fits)
  have hfinite : ((shortest units).toDouble negative).isFinite := by
    rw [hsigned]
    rfl
  obtain ⟨e, he, hvalue⟩ := exists_ofChars?_plain negative fits hunits
  have hread : Numeral.toDouble ⟨negative, e⟩ = .finite negative units fits := by
    rw [← hsigned]
    exact Decimal.toDouble_congr negative hvalue hfinite
  have hplainValue : (finite negative units fits).plainValue = finite negative units fits := by
    simp [plainValue, isZero, hunits]
  rw [Numeral.parse?, he, hplainValue]
  dsimp only
  rw [hread]
  exact if_pos hx

/-! ## What is written for the double that is read -/

variable {x : Double}

/-- The double that is read is finite and has the same value. -/
theorem isFinite_plainValue (hx : x.isFinite) :
    x.plainValue.isFinite ∧ x.plainValue.toRat = x.toRat := by
  unfold plainValue
  split_ifs with hzero
  · have hvalue := (isZero_iff hx).1 hzero
    refine ⟨rfl, ?_⟩
    rw [hvalue]
    exact (isZero_iff (x := zero false) rfl).1 rfl
  · exact ⟨hx, rfl⟩

/-- The double that is read is written as before, on both lines. -/
theorem plain_plainValue (hx : x.isFinite) :
    x.plainValue.plain = x.plain ∧ x.plainValue.display = x.display := by
  obtain ⟨negative, units, fits, rfl⟩ := exists_eq_finite hx
  unfold plainValue
  split_ifs with hzero
  · -- Both zeros are written without a sign.
    have hunits : units = 0 := by simpa [isZero] using hzero
    subst hunits
    exact ⟨rfl, rfl⟩
  · exact ⟨rfl, rfl⟩

end Double

end Keypad
