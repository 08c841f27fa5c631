import Keypad.Proofs.Double.ReadBack
import Keypad.Proofs.Double.Written

/-!
# Printed numbers read back

The two texts of a double that are not typed on are read as the double by the most generous reader of
numbers: the printed one exactly (`ofText?_text`), and the one on a result line up to the sign of a
zero (`ofText?_display`). So two doubles with different values are never shown alike
(`toRat_eq_of_display_eq`).

A printed text consists of figures, none of which the reader removes or replaces
(`ofText?_of_isFigure`), and behind the sign it begins with a digit, so that it is no word
(`signed?_signChars_append`). What is left are the digits. With a point or an exponent they denote
the value of the decimal that was written (`exists_unsigned?_magnitudeChars`), and in a whole number
they denote the value itself. -/

namespace Keypad

/-! ## Reading figures -/

namespace Text

/-- Nothing is trimmed where no character is of the class. -/
theorem trim_eq_self {class? : Char → Bool} {cs : List Char} (h : ∀ c ∈ cs, ¬ class? c) :
    trim class? cs = cs := by
  have hkept : ∀ ds : List Char, (∀ c ∈ ds, ¬ class? c) → ds.dropWhile class? = ds := by
    intro ds hds
    rw [List.dropWhile_eq_self_iff]
    exact fun hl => hds _ (List.getElem_mem hl)
  have hreverse : ∀ c ∈ cs.reverse, ¬ class? c := fun c hc => h c (List.mem_reverse.1 hc)
  rw [trim, hkept cs h, hkept _ hreverse, List.reverse_reverse]

/-- Figures are ASCII characters; they are neither white space nor underscores. -/
theorem IsFigure.spec {c : Char} (h : IsFigure c) : plain c = c ∧ ¬ isSpace c ∧ c ≠ '_' := by
  have hascii : c.toNat < 0x80 ∧ ¬ isSpace c ∧ c ≠ '_' := by
    obtain hdigit | hmark := h
    · obtain ⟨hlow, hhigh⟩ := Char.isDigit_iff_toNat.1 hdigit
      have hzero : '0'.toNat = 48 := rfl
      have hnine : '9'.toNat = 57 := rfl
      refine ⟨by omega, ?_, ?_⟩
      · simp only [isSpace, Bool.or_eq_true, Bool.and_eq_true, decide_eq_true_eq, beq_iff_eq]
        omega
      · rintro rfl
        exact absurd hdigit (by decide)
    · have hmarks : ['-', '+', '.', 'e'].all fun d =>
          decide (d.toNat < 0x80 ∧ ¬ isSpace d ∧ d ≠ '_') := by decide
      exact of_decide_eq_true (List.all_eq_true.1 hmarks c hmark)
  exact ⟨if_pos hascii.1, hascii.2⟩

end Text

namespace Double

open Text (IsFigure)

/-- Without underscores there is nothing to join. -/
theorem joinDigits?_eq_self {cs : List Char} (h : '_' ∉ cs) : joinDigits? cs = some cs := by
  fun_induction joinDigits? cs with
  | case1 cs => exact absurd List.mem_cons_self h
  | case2 c d cs hdigits ih => exact absurd (List.mem_cons_of_mem _ List.mem_cons_self) h
  | case3 c d cs hdigits => exact absurd (List.mem_cons_of_mem _ List.mem_cons_self) h
  | case4 c cs _ _ ih => rw [ih (mt (List.mem_cons_of_mem c) h), Option.map_some]
  | case5 => rfl

/-- A text of figures is read as it stands. -/
theorem ofText?_of_isFigure {text : String} (h : ∀ c ∈ text.toList, IsFigure c) :
    ofText? text = signed? text.toList := by
  have hplain : text.toList.map Text.plain = text.toList := by
    conv_rhs => rw [← List.map_id text.toList]
    exact List.map_congr_left fun c hc => (h c hc).spec.1
  have htrim : Text.trim Text.isSpace text.toList = text.toList :=
    Text.trim_eq_self fun c hc => (h c hc).spec.2.1
  have hjoin : joinDigits? text.toList = some text.toList :=
    joinDigits?_eq_self fun hmem => (h '_' hmem).spec.2.2 rfl
  rw [ofText?, hplain, htrim, hjoin, Option.bind_some]

/-- What begins with a digit is no word. -/
theorem magnitude?_cons (negative : Bool) {c : Char} {cs : List Char} (hc : c.isDigit) :
    magnitude? negative (c :: cs) =
      (Numeral.unsigned? (c :: cs)).map (Decimal.toDouble negative) := by
  have hlower : c.toLower = c := by
    have hcapital : ¬ (c.val ≥ 'A'.val ∧ c.val ≤ 'Z'.val) := by
      rintro ⟨hA, -⟩
      have hlow : 65 ≤ c.toNat := hA
      have hhigh : c.toNat ≤ 57 := (Char.isDigit_iff_toNat.1 hc).2
      omega
    exact dif_neg hcapital
  have hword : ∀ {word : String}, word.toList.head?.any Char.isDigit = false →
      String.ofList ((c :: cs).map Char.toLower) ≠ word := by
    rintro word hletter rfl
    rw [String.toList_ofList, List.map_cons, List.head?_cons, hlower, Option.any_some, hc]
      at hletter
    cases hletter
  unfold magnitude?
  dsimp only
  rw [if_neg (not_or.2 ⟨hword (by decide), hword (by decide)⟩), if_neg (hword (by decide))]

/-- Behind a sign, what begins with a digit is read as a numeral. -/
theorem signed?_signChars_append (negative : Bool) {m : List Char}
    (hm : ∃ c cs, m = c :: cs ∧ c.isDigit) :
    signed? (signChars negative ++ m) =
      (Numeral.unsigned? m).map (Decimal.toDouble negative) := by
  obtain ⟨c, cs, rfl, hc⟩ := hm
  rw [← magnitude?_cons negative hc]
  cases negative with
  | true => rfl
  | false =>
    have hsign : c ≠ '-' ∧ c ≠ '+' := by
      constructor <;> (rintro rfl; exact absurd hc (by decide))
    show signed? (c :: cs) = _
    unfold signed?
    split
    · next heq => exact absurd (List.cons.inj heq).1 hsign.1
    · next heq => exact absurd (List.cons.inj heq).1 hsign.2
    · rfl

end Double

/-! ## Exponents -/

namespace Numeral

/-- Digits are read as the number that they denote. -/
theorem IsDigits.natural?_eq {ds : List Char} (h : IsDigits ds) :
    natural? ds = some (Nat.ofDigitChars 10 ds 0) := by
  rw [natural?, if_pos ⟨h.1, List.all_eq_true.2 h.2⟩]

/-- The digits of a number are digits. -/
theorem isDigits_toDigits (n : ℕ) : IsDigits (Nat.toDigits 10 n) :=
  ⟨Nat.toDigits_ne_nil, fun _ hc => Nat.isDigit_of_mem_toDigits (by decide) le_rfl hc⟩

/-- What begins with one or more digits has a digit as its first character. -/
theorem IsDigits.exists_append_eq_cons {ds : List Char} (h : IsDigits ds) (rest : List Char) :
    ∃ c cs, ds ++ rest = c :: cs ∧ c.isDigit := by
  obtain ⟨c, cs, rfl⟩ := List.exists_cons_of_ne_nil h.1
  exact ⟨c, cs ++ rest, rfl, h.2 c List.mem_cons_self⟩

/-- The digits of a number are read as the number. -/
theorem unsigned?_toDigits (n : ℕ) : unsigned? (Nat.toDigits 10 n) = some ⟨n, 0⟩ := by
  have hnone : ∀ c ∈ ([] : List Char), c.isDigit := nofun
  have hread := unsigned?_append (isDigits_toDigits n) hnone exponent?_nil
  rwa [if_pos rfl, List.append_nil, List.append_nil, Nat.ofDigitChars_ten_toDigits] at hread

/-- An exponent is read as it was written. -/
theorem exponent?_exponentChars (e : ℤ) :
    exponent? ('e' :: Double.exponentChars e) = some e := by
  have hdigits := isDigits_toDigits e.natAbs
  have hread : ∃ ds, Double.exponentChars e = (if e < 0 then '-' else '+') :: ds ∧
      natural? ds = some e.natAbs := by
    unfold Double.exponentChars
    dsimp only
    refine ⟨_, rfl, ?_⟩
    split_ifs
    · -- A zero in front does not count.
      have hpadded : IsDigits ('0' :: Nat.toDigits 10 e.natAbs) :=
        ⟨List.cons_ne_nil _ _, List.forall_mem_cons.2 ⟨rfl, hdigits.2⟩⟩
      rw [hpadded.natural?_eq, Nat.ofDigitChars_cons]
      exact congrArg some Nat.ofDigitChars_ten_toDigits
    · rw [hdigits.natural?_eq, Nat.ofDigitChars_ten_toDigits]
  obtain ⟨ds, hchars, hds⟩ := hread
  rw [hchars]
  split_ifs with hneg
  · have hread : exponent? ('e' :: '-' :: ds) = some (-(e.natAbs : ℤ)) := by simp [exponent?, hds]
    rw [hread, Int.ofNat_natAbs_of_nonpos hneg.le, neg_neg]
  · have hread : exponent? ('e' :: '+' :: ds) = some (e.natAbs : ℤ) := by simp [exponent?, hds]
    rw [hread, Int.natAbs_of_nonneg (not_lt.1 hneg)]

end Numeral

/-! ## Printed doubles -/

namespace Double

/-- A point is put behind the first digit if more digits follow. -/
theorem mantissaChars_cons (c : Char) (cs : List Char) :
    mantissaChars (c :: cs) = [c] ++ if cs = [] then [] else '.' :: cs := by
  cases cs <;> rfl

/-- A printed magnitude begins with a digit. -/
theorem exists_magnitudeChars_eq_cons (d : Decimal) :
    ∃ c cs, magnitudeChars d = c :: cs ∧ c.isDigit := by
  unfold magnitudeChars
  by_cases hzero : d.digits = 0
  · rw [if_pos hzero]
    exact ⟨'0', ['.', '0'], rfl, rfl⟩
  by_cases hpositional : isPositional (d.point - 1)
  · rw [if_neg hzero, if_pos hpositional]
    exact (Decimal.isWhole_wholeDigits hzero).1.exists_append_eq_cons _
  · obtain ⟨c, cs, hsignificant, -⟩ := Decimal.exists_significant_eq_cons hzero
    rw [if_neg hzero, if_neg hpositional, hsignificant, mantissaChars_cons, List.append_assoc]
    refine ⟨c, _, rfl, Decimal.isDigit_of_mem_significant (d := d) ?_⟩
    rw [hsignificant]
    exact List.mem_cons_self

/-- A printed magnitude is read as a decimal with the value of the one that was written. -/
theorem exists_unsigned?_magnitudeChars {d : Decimal} (h : d.digits ≠ 0) :
    ∃ e, Numeral.unsigned? (magnitudeChars d) = some e ∧ e.value = d.value := by
  unfold magnitudeChars
  rw [if_neg h]
  split_ifs with hpositional hwhole
  · -- The zero behind the point makes ten times as much of them, a tenth of which counts.
    have hzero : ∀ c ∈ ['0'], c.isDigit := List.forall_mem_singleton.2 rfl
    have hread := Numeral.unsigned?_append (Decimal.isWhole_wholeDigits h).1 hzero
      Numeral.exponent?_nil
    refine ⟨_, hread, ?_⟩
    have htenfold : Nat.ofDigitChars 10 (d.wholeDigits ++ ['0']) 0 =
        10 * Nat.ofDigitChars 10 d.wholeDigits 0 := Nat.ofDigitChars_append 0
    rw [Decimal.value, Decimal.value_of_fractionDigits_eq_nil hwhole, htenfold,
      List.length_singleton]
    push_cast
    rw [zpow_neg_one, mul_right_comm, mul_inv_cancel₀ (by norm_num), one_mul]
  · -- There are digits on both sides of the point.
    have hfraction := (Decimal.fractionDigits_spec h).1
    have hread := Numeral.unsigned?_append (Decimal.isWhole_wholeDigits h).1 hfraction
      Numeral.exponent?_nil
    rw [if_neg hwhole, List.append_nil, zero_sub] at hread
    exact ⟨_, hread, d.value_eq_written.symm⟩
  · -- One digit stands in front of the point, and the exponent says where the point belongs.
    obtain ⟨c, cs, hsignificant, -⟩ := Decimal.exists_significant_eq_cons h
    have hdigits : ∀ b ∈ c :: cs, b.isDigit := fun b hb =>
      Decimal.isDigit_of_mem_significant (hsignificant ▸ hb)
    have hfirst : Numeral.IsDigits [c] :=
      ⟨List.cons_ne_nil _ _, by simpa using hdigits c List.mem_cons_self⟩
    have hread := Numeral.unsigned?_append hfirst (List.forall_mem_cons.1 hdigits).2
      (Numeral.exponent?_exponentChars (d.point - 1))
    rw [← List.append_assoc, ← mantissaChars_cons] at hread
    rw [hsignificant]
    refine ⟨_, hread, ?_⟩
    rw [d.value_eq_significant, hsignificant, Decimal.value]
    congr 2
    rw [List.length_cons]
    push_cast
    ring

/-- A decimal with the value of a magnitude is read, with a sign, as this magnitude with the sign. -/
theorem toDouble_of_value_eq {e : Decimal} {units : ℕ} (negative : Bool) (fits : Fits units)
    (h : e.value = units / unitsPerOne) : e.toDouble negative = finite negative units fits := by
  have hexact := Decimal.toDouble_of_readsBack negative fits (readsBack_exactDecimal fits)
  rw [← hexact]
  refine Decimal.toDouble_congr negative (h.trans (value_exactDecimal units).symm) ?_
  rw [hexact]
  rfl

/-- Behind its sign, a printed magnitude is read as the double. -/
theorem map_toDouble_magnitudeChars (negative : Bool) {units : ℕ} (fits : Fits units) :
    (Numeral.unsigned? (magnitudeChars (finite negative units fits).decimal)).map
      (Decimal.toDouble negative) = some (finite negative units fits) := by
  rw [decimal]
  split_ifs with hunits
  · subst hunits
    rfl
  · have hback := readsBack_shortest fits
    have hsigned := Decimal.toDouble_of_readsBack negative fits hback
    have hfinite : ((shortest units).toDouble negative).isFinite := by
      rw [hsigned]
      rfl
    obtain ⟨e, he, hvalue⟩ := exists_unsigned?_magnitudeChars (hback.digits_ne_zero hunits)
    rw [he, Option.map_some, Decimal.toDouble_congr negative hvalue hfinite, hsigned]

/-- A printed double is read as the double, with the sign of a zero. -/
theorem ofText?_text {x : Double} (hx : x.isFinite) : ofText? x.text = some x := by
  rw [ofText?_of_isFigure (isFigure_of_mem_text hx)]
  obtain ⟨negative, units, fits, rfl⟩ := exists_eq_finite hx
  rw [text, String.toList_ofList,
    signed?_signChars_append negative (exists_magnitudeChars_eq_cons _),
    map_toDouble_magnitudeChars]

/-! ## Result lines -/

/-- What a result line shows of a finite double is read as the double, without the sign of a zero. -/
theorem ofText?_display {x : Double} (hx : x.isFinite) :
    ofText? x.display = some x.plainValue := by
  have hfigures := isFigure_of_mem_display hx
  obtain ⟨negative, units, fits, rfl⟩ := exists_eq_finite hx
  by_cases hunits : units = 0
  · subst hunits
    show ofText? "0" = some (zero false)
    decide +kernel
  have hplainValue : (finite negative units fits).plainValue = finite negative units fits := by
    simp [plainValue, isZero, hunits]
  rw [hplainValue]
  rw [display, if_neg hunits] at hfigures ⊢
  split_ifs at hfigures ⊢ with hwhole
  · have hfront := (Numeral.isDigits_toDigits (units / unitsPerOne)).exists_append_eq_cons []
    rw [List.append_nil] at hfront
    rw [ofText?_of_isFigure hfigures, String.toList_ofList,
      signed?_signChars_append negative hfront, Numeral.unsigned?_toDigits, Option.map_some]
    refine congrArg some (toDouble_of_value_eq negative fits ?_)
    -- The digits are those of the value itself, which is a whole number.
    have hmod : units % unitsPerOne = 0 := by simpa [isIntegral] using hwhole.1
    have hunits := Nat.div_mul_cancel (Nat.dvd_of_mod_eq_zero hmod)
    rw [Decimal.value, zpow_zero, mul_one, eq_div_iff unitsPerOne_pos.ne']
    exact_mod_cast hunits
  · exact ofText?_text hx

/-- Doubles that are shown alike have one value. -/
theorem toRat_eq_of_display_eq {x y : Double} (hx : x.isFinite) (hy : y.isFinite)
    (h : x.display = y.display) : x.toRat = y.toRat := by
  have hvalues : x.plainValue = y.plainValue := by
    rw [← Option.some_inj, ← ofText?_display hx, ← ofText?_display hy, h]
  rw [← (isFinite_plainValue hx).2, ← (isFinite_plainValue hy).2, hvalues]

end Double

end Keypad
