import Keypad.Double.Text
import Keypad.Proofs.Double.Decimal
import Keypad.Proofs.Expression.Grammar
import Mathlib.Data.List.DropRight
import Mathlib.Tactic.IntervalCases

/-!
# Doubles written without an exponent

What is written for a double has the digits of a decimal that reads back as its magnitude
(`readsBack_shortest`): a hit of the search reads back by the test that made it one, and the exact
expansion because its value is that of the double. So the decimal of a magnitude is not zero unless
the magnitude is, and its digits do not begin with a zero.

Written without an exponent, a finite double is a sign and a plain magnitude
(`exists_plain_eq`): digits without a needless zero in front, then perhaps a point and digits
without a needless zero at the end. -/

namespace Keypad

namespace Double

/-! ## The decimal reads back -/

/-- What a decimal is rounded to is made of the given sign in one of three ways. -/
theorem toDouble_cases (d : Decimal) :
    (∀ s, d.toDouble s = zero s) ∨ (∀ s, d.toDouble s = infinite s) ∨
      ∃ n m, ∀ s, d.toDouble s = ofRatio s n m := by
  by_cases hdigits : d.digits = 0
  · exact .inl fun s => by rw [Decimal.toDouble, if_pos hdigits]
  cases hexponent : d.exponent with
  | ofNat e =>
    by_cases hlarge : 309 ≤ e
    · refine .inr (.inl fun s => ?_)
      rw [Decimal.toDouble, if_neg hdigits, hexponent]
      exact if_pos hlarge
    · refine .inr (.inr ⟨d.digits * Nat.pow 10 e, 1, fun s => ?_⟩)
      rw [Decimal.toDouble, if_neg hdigits, hexponent]
      exact if_neg hlarge
  | negSucc e =>
    by_cases hsmall : d.digits.log2 + 324 ≤ e
    · refine .inl fun s => ?_
      rw [Decimal.toDouble, if_neg hdigits, hexponent]
      exact if_pos hsmall
    · refine .inr (.inr ⟨d.digits, Nat.pow 10 (e + 1), fun s => ?_⟩)
      rw [Decimal.toDouble, if_neg hdigits, hexponent]
      exact if_neg hsmall

/-- A quotient is rounded to a double of the given sign, and with the other sign to the negated
double. -/
theorem isNegative_ofRatio (negative : Bool) (n m : ℕ) :
    (ofRatio negative n m).isNegative = negative ∧
      (ofRatio negative n m).neg = ofRatio (!negative) n m := by
  unfold ofRatio ofUnits
  split_ifs
  · exact ⟨rfl, rfl⟩
  · exact ⟨rfl, rfl⟩

/-- A decimal is rounded to a double of the given sign, and with the other sign to the negated
double. -/
theorem isNegative_toDouble (negative : Bool) (d : Decimal) :
    (d.toDouble negative).isNegative = negative ∧
      (d.toDouble negative).neg = d.toDouble !negative := by
  obtain hzero | hinfinite | ⟨n, m, hratio⟩ := toDouble_cases d
  · rw [hzero, hzero]
    exact ⟨rfl, rfl⟩
  · rw [hinfinite, hinfinite]
    exact ⟨rfl, rfl⟩
  · rw [hratio, hratio]
    exact isNegative_ofRatio negative n m

/-- The exact expansion of a magnitude has its value. -/
theorem value_exactDecimal (units : ℕ) : (exactDecimal units).value = units / unitsPerOne := by
  rw [exactDecimal, Decimal.value, unitsPerOne_eq, show (-1074 : ℤ) = -((1074 : ℕ) : ℤ) by rfl]
  -- No power is computed.
  generalize 1074 = e
  dsimp only
  rw [show (10 : ℚ) = 5 * 2 by norm_num, zpow_neg, zpow_natCast, mul_pow, Nat.cast_mul,
    Nat.pow_eq, Nat.cast_pow, Nat.cast_pow, Nat.cast_ofNat, Nat.cast_ofNat]
  field_simp

/-- The exact expansion of a magnitude reads back as it. -/
theorem readsBack_exactDecimal {units : ℕ} (fits : Fits units) :
    ReadsBack units (exactDecimal units) := by
  have hrounds := Decimal.rounds_toDouble false (exactDecimal units)
  rw [value_exactDecimal, ← mul_div_assoc, ← toRat_finite false units fits] at hrounds
  obtain ⟨hfinite, hvalue⟩ := hrounds.eq_of_toRat_eq (y := finite false units fits) rfl rfl
  have hsign := (isNegative_toDouble false (exactDecimal units)).1
  obtain ⟨s, n, hn, hx⟩ := exists_eq_finite hfinite
  rw [hx] at hvalue hsign
  -- The sign is that of the decimal, and with it the value decides the count.
  obtain rfl : s = false := hsign
  rw [toRat_finite, toRat_finite, div_left_inj' unitsPerOne_pos.ne'] at hvalue
  obtain rfl : n = units := by simpa [signRat] using hvalue
  exact ⟨hn, hx⟩

/-- A hit on a grid reads back as the magnitude. -/
theorem readsBack_of_onGrid {units : ℕ} {exponent : ℤ} {d : Decimal}
    (h : onGrid units exponent = some d) : ReadsBack units d := by
  unfold onGrid at h
  simpa using List.find?_some h

/-- The decimal whose digits are written reads back as the magnitude. -/
theorem readsBack_shortest {units : ℕ} (fits : Fits units) : ReadsBack units (shortest units) := by
  unfold shortest
  cases hsearch : (List.range 20).findSome? fun i : ℕ => onGrid units (coarsestGrid units - i) with
  | none => exact readsBack_exactDecimal fits
  | some d =>
    obtain ⟨i, -, hi⟩ := List.exists_of_findSome?_eq_some hsearch
    exact readsBack_of_onGrid hi

/-- A decimal that reads back as something else than zero has digits. -/
theorem ReadsBack.digits_ne_zero {units : ℕ} {d : Decimal} (h : ReadsBack units d)
    (hunits : units ≠ 0) : d.digits ≠ 0 := by
  intro hdigits
  obtain ⟨fits, hd⟩ := h
  rw [Decimal.toDouble, if_pos hdigits, zero] at hd
  injection hd with _ hzero
  exact hunits hzero.symm

end Double

/-! ## Digits -/

/-- The digits of a positive number do not begin with a zero. -/
theorem exists_toDigits_eq_cons {n : ℕ} (h : n ≠ 0) :
    ∃ c cs, Nat.toDigits 10 n = c :: cs ∧ c ≠ '0' := by
  induction n using Nat.strongRecOn with
  | ind n ih =>
    rw [Nat.toDigits_eq_if (by decide)]
    split_ifs with hlt
    · refine ⟨n.digitChar, [], rfl, ?_⟩
      interval_cases n <;> first | exact absurd rfl h | decide
    · obtain ⟨c, cs, hdigits, hc⟩ := ih (n / 10) (by omega) (by omega)
      exact ⟨c, cs ++ [(n % 10).digitChar], by rw [hdigits, List.cons_append], hc⟩

namespace Decimal

/-- The significant digits stand at the front of all digits. -/
theorem significant_prefix_toDigits (d : Decimal) : d.significant <+: Nat.toDigits 10 d.digits :=
  List.rdropWhile_prefix _ _

/-- The significant digits are digits. -/
theorem isDigit_of_mem_significant {d : Decimal} {c : Char} (h : c ∈ d.significant) : c.isDigit :=
  Nat.isDigit_of_mem_toDigits (by decide) le_rfl (d.significant_prefix_toDigits.subset h)

/-- The significant digits of a number other than zero do not begin with a zero. -/
theorem exists_significant_eq_cons {d : Decimal} (h : d.digits ≠ 0) :
    ∃ c cs, d.significant = c :: cs ∧ c ≠ '0' := by
  obtain ⟨c, cs, hdigits, hc⟩ := exists_toDigits_eq_cons h
  have hne : d.significant ≠ [] := by
    intro hnil
    have hall := List.rdropWhile_eq_nil_iff.1 hnil c (by rw [hdigits]; exact List.mem_cons_self)
    simp [hc] at hall
  obtain ⟨c', cs', hsignificant⟩ := List.exists_cons_of_ne_nil hne
  have hbegins := d.significant_prefix_toDigits
  rw [hsignificant, hdigits, List.cons_prefix_cons] at hbegins
  exact ⟨c', cs', hsignificant, hbegins.1 ▸ hc⟩

/-- The significant digits do not end with a zero. -/
theorem getLast?_significant_ne (d : Decimal) : d.significant.getLast? ≠ some '0' := by
  rw [significant, List.getLast?_reverse]
  intro hzero
  have hnot := List.head?_dropWhile_not (· == '0') (Nat.toDigits 10 d.digits).reverse
  rw [hzero] at hnot
  simp at hnot

end Decimal

/-! ## Plain magnitudes -/

/-- A single zero, or digits of which the first is no zero. -/
def IsWhole (ds : List Char) : Prop := Numeral.IsDigits ds ∧ (ds.head? = some '0' → ds = ['0'])

/-- A zero is a whole number. -/
theorem isWhole_zero : IsWhole ['0'] := by
  refine ⟨⟨List.cons_ne_nil _ _, fun c hc => ?_⟩, fun _ => rfl⟩
  rw [List.mem_singleton.1 hc]
  rfl

/-- A magnitude without an exponent and without needless zeros. -/
inductive IsPlain : List Char → Prop
  /-- A whole number. -/
  | whole {ds} : IsWhole ds → IsPlain ds
  /-- A whole number, a point, and digits of which the last is no zero. -/
  | pointed {ds fs} : IsWhole ds → Numeral.IsDigits fs → fs.getLast? ≠ some '0' →
      IsPlain (ds ++ '.' :: fs)

namespace IsPlain

variable {m : List Char}

/-- A plain magnitude is a mantissa. -/
theorem isMantissa (h : IsPlain m) : Numeral.IsMantissa m := by
  cases h with
  | whole hds => exact .whole hds.1
  | pointed hds hfs => exact .pointed hds.1 hfs.2

/-- A plain magnitude does not begin with a zero and a digit. -/
theorem not_begins_zero (h : IsPlain m) {d : Char} (hd : d.isDigit) : ¬ ['0', d] <+: m := by
  intro hbegins
  cases h with
  | whole hds =>
    obtain ⟨rest, rfl⟩ := hbegins
    cases hds.2 rfl
  | @pointed ds fs hds hfs =>
    obtain ⟨c, cs, rfl⟩ := List.exists_cons_of_ne_nil hds.1.1
    rw [List.cons_append, List.cons_prefix_cons] at hbegins
    obtain ⟨rfl, hbegins⟩ := hbegins
    -- The zero stands alone, so that the point comes next.
    cases hds.2 rfl
    rw [List.nil_append, List.cons_prefix_cons] at hbegins
    rw [hbegins.1] at hd
    exact absurd hd (by decide)

end IsPlain

namespace Decimal

variable {d : Decimal}

/-- The digits before the point of a number other than zero are a whole number. -/
theorem isWhole_wholeDigits (h : d.digits ≠ 0) : IsWhole d.wholeDigits := by
  unfold wholeDigits
  split_ifs with hpoint
  · exact isWhole_zero
  · obtain ⟨c, cs, hsignificant, hc⟩ := exists_significant_eq_cons h
    obtain ⟨k, hk⟩ : ∃ k, d.point.toNat = k + 1 := ⟨d.point.toNat - 1, by omega⟩
    -- At least one significant digit stands before the point, and it is the first.
    refine ⟨⟨by simp [hsignificant, hk], fun e he => ?_⟩, fun hzero => ?_⟩
    · obtain hfront | hback := List.mem_append.1 he
      · exact isDigit_of_mem_significant (List.mem_of_mem_take hfront)
      · rw [List.eq_of_mem_replicate hback]
        rfl
    · rw [hsignificant, hk, List.take_succ_cons, List.cons_append, List.head?_cons,
        Option.some.injEq] at hzero
      exact absurd hzero hc

/-- The digits behind the point are digits and do not end with a zero. -/
theorem fractionDigits_spec (h : d.digits ≠ 0) :
    (∀ c ∈ d.fractionDigits, c.isDigit) ∧ d.fractionDigits.getLast? ≠ some '0' := by
  have hlast := d.getLast?_significant_ne
  obtain ⟨c, cs, hsignificant, -⟩ := exists_significant_eq_cons h
  unfold fractionDigits
  split_ifs with hpoint
  · refine ⟨fun e he => ?_, ?_⟩
    · obtain hfront | hback := List.mem_append.1 he
      · rw [List.eq_of_mem_replicate hfront]
        rfl
      · exact isDigit_of_mem_significant hback
    · have hne : d.significant ≠ [] := by simp [hsignificant]
      rwa [List.getLast?_append_of_ne_nil _ hne]
  · refine ⟨fun e he => isDigit_of_mem_significant (List.mem_of_mem_drop he), ?_⟩
    rw [List.getLast?_drop]
    split_ifs
    · nofun
    · exact hlast

end Decimal

namespace Double

/-- What is written without an exponent for a number other than zero is a plain magnitude. -/
theorem isPlain_plainChars {d : Decimal} (h : d.digits ≠ 0) : IsPlain (plainChars d) := by
  have hwhole := Decimal.isWhole_wholeDigits h
  obtain ⟨hdigits, hlast⟩ := Decimal.fractionDigits_spec h
  unfold plainChars
  split_ifs with hnil
  · rw [List.append_nil]
    exact .whole hwhole
  · exact .pointed hwhole ⟨hnil, hdigits⟩ hlast

/-- A finite double is written, without an exponent, as a sign and a plain magnitude. -/
theorem exists_plain_eq {x : Double} (hx : x.isFinite) :
    ∃ negative m, x.plain.toList = signChars negative ++ m ∧ IsPlain m := by
  obtain ⟨negative, units, fits, rfl⟩ := exists_eq_finite hx
  unfold plain decimal
  dsimp only
  split_ifs with hunits
  · exact ⟨false, ['0'], rfl, .whole isWhole_zero⟩
  · have hdigits := (readsBack_shortest fits).digits_ne_zero hunits
    exact ⟨negative, _, String.toList_ofList, isPlain_plainChars hdigits⟩

end Double

end Keypad
