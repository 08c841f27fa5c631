import Keypad.Proofs.Double.Display
import Keypad.Proofs.Expression.Balance
import Keypad.Proofs.Expression.Exact

/-!
# Which texts are numbers

`Numeral.Denotes` says what number a literal denotes, from the digits of its parts: the digits before
the point count as a whole number, those behind it as a fraction, and the exponent as a power of ten
by which both are multiplied. Every literal of the grammar denotes a number
(`IsLiteral.exists_denotes`), and it is read as a numeral with this number as its value
(`Denotes.exists_ofChars?_eq`). Since what is read is a literal, the texts that are read are those
that denote a number, and they denote only one (`denotes_iff`).

A text is therefore accepted exactly when it denotes a number that is not rounded to an infinity, and
then as the double nearest to this number (`exists_parse?_iff`, `isNearest_of_parse?`). Of the other
texts four are operators and the rest is not recognised (`TokenKind.ofToken_spec`). -/

namespace Keypad

open Double (Rounds IsNearest overflow)

namespace Numeral

/-! ## What a literal denotes -/

/-- A mantissa denotes its whole part and its fraction. -/
inductive MantissaDenotes : List Char → ℚ → Prop
  /-- Digits without a point. -/
  | whole {ds} : IsDigits ds → MantissaDenotes ds (Nat.ofDigitChars 10 ds 0)
  /-- Digits, a point, and digits if any. -/
  | pointed {ds fs} : IsDigits ds → (∀ c ∈ fs, c.isDigit) →
      MantissaDenotes (ds ++ '.' :: fs)
        (Nat.ofDigitChars 10 ds 0 + Nat.ofDigitChars 10 fs 0 / 10 ^ fs.length)
  /-- A point and digits. -/
  | fraction {fs} : IsDigits fs →
      MantissaDenotes ('.' :: fs) (Nat.ofDigitChars 10 fs 0 / 10 ^ fs.length)

/-- An exponent denotes an integer, and zero where there is none. -/
inductive ExponentDenotes : List Char → ℤ → Prop
  /-- No exponent. -/
  | absent : ExponentDenotes [] 0
  /-- Digits behind `e` or `E` and perhaps a `+`. -/
  | positive {e sign ds} : e = 'e' ∨ e = 'E' → sign = [] ∨ sign = ['+'] → IsDigits ds →
      ExponentDenotes (e :: (sign ++ ds)) (Nat.ofDigitChars 10 ds 0)
  /-- Digits behind `e` or `E` and a `-`. -/
  | negative {e ds} : e = 'e' ∨ e = 'E' → IsDigits ds →
      ExponentDenotes (e :: '-' :: ds) (-Nat.ofDigitChars 10 ds 0)

/-- The text is a literal with this sign and denotes this number. -/
inductive Denotes : List Char → Bool → ℚ → Prop
  /-- A mantissa and an exponent. -/
  | unsigned {m x v k} : MantissaDenotes m v → ExponentDenotes x k →
      Denotes (m ++ x) false (v * 10 ^ k)
  /-- The same behind a `-`. -/
  | negated {m x v k} : MantissaDenotes m v → ExponentDenotes x k →
      Denotes ('-' :: (m ++ x)) true (-(v * 10 ^ k))

/-- A mantissa of the grammar denotes a number. -/
theorem IsMantissa.exists_denotes {m : List Char} (h : IsMantissa m) :
    ∃ v, MantissaDenotes m v := by
  cases h with
  | whole hds => exact ⟨_, .whole hds⟩
  | pointed hds hfs => exact ⟨_, .pointed hds hfs⟩
  | fraction hfs => exact ⟨_, .fraction hfs⟩

/-- An exponent of the grammar denotes an integer. -/
theorem IsExponent.exists_denotes {x : List Char} (h : IsExponent anySign x) :
    ∃ k, ExponentDenotes x k := by
  cases h with
  | absent => exact ⟨_, .absent⟩
  | present he hsign hds =>
    simp only [anySign, List.mem_cons, List.not_mem_nil, or_false] at hsign
    obtain hempty | rfl | rfl := hsign
    · exact ⟨_, .positive he (.inl hempty) hds⟩
    · exact ⟨_, .positive he (.inr rfl) hds⟩
    · exact ⟨_, .negative he hds⟩

/-- A literal of the grammar denotes a number. -/
theorem IsLiteral.exists_denotes {cs : List Char} (h : IsLiteral anySign cs) :
    ∃ s q, Denotes cs s q := by
  cases h with
  | unsigned hm hx =>
    obtain ⟨v, hv⟩ := hm.exists_denotes
    obtain ⟨k, hk⟩ := hx.exists_denotes
    exact ⟨_, _, .unsigned hv hk⟩
  | negated hm hx =>
    obtain ⟨v, hv⟩ := hm.exists_denotes
    obtain ⟨k, hk⟩ := hx.exists_denotes
    exact ⟨_, _, .negated hv hk⟩

/-! ## It is read as what it denotes -/

/-- An exponent is read as the integer that it denotes. -/
theorem ExponentDenotes.exponent?_eq {x : List Char} {k : ℤ} (h : ExponentDenotes x k) :
    exponent? x = some k := by
  cases h with
  | absent => rfl
  | @positive e sign ds he hsign hds =>
    have hread := hds.natural?_eq
    obtain rfl | rfl := hsign
    · obtain ⟨c, cs, rfl⟩ := List.exists_cons_of_ne_nil hds.1
      have hc : c.isDigit := hds.2 c List.mem_cons_self
      have hplus : c ≠ '+' := by rintro rfl; exact absurd hc (by decide)
      have hminus : c ≠ '-' := by rintro rfl; exact absurd hc (by decide)
      simp [exponent?, he, hread, hplus, hminus]
    · simp [exponent?, he, hread]
  | negative he hds => simp [exponent?, he, hds.natural?_eq]

/-- The digits behind a point count for as many powers of ten less. -/
theorem value_pointed (ds fs : List Char) (k : ℤ) :
    Decimal.value ⟨Nat.ofDigitChars 10 (ds ++ fs) 0, k - fs.length⟩ =
      (Nat.ofDigitChars 10 ds 0 + Nat.ofDigitChars 10 fs 0 / 10 ^ fs.length) * 10 ^ k := by
  have hdigits : Nat.ofDigitChars 10 (ds ++ fs) 0 =
      10 ^ fs.length * Nat.ofDigitChars 10 ds 0 + Nat.ofDigitChars 10 fs 0 := by
    rw [Nat.ofDigitChars_append, Nat.ofDigitChars_eq_ofDigitChars_zero]
  have hten : (10 : ℚ) ^ fs.length ≠ 0 := by positivity
  rw [Decimal.value, hdigits, zpow_sub₀ (by norm_num), zpow_natCast]
  push_cast
  field_simp

/-- A mantissa and an exponent are read as a decimal with the number as its value. -/
theorem MantissaDenotes.exists_unsigned?_eq {m x : List Char} {v : ℚ} {k : ℤ}
    (hm : MantissaDenotes m v) (hx : ExponentDenotes x k) :
    ∃ d, unsigned? (m ++ x) = some d ∧ d.value = v * 10 ^ k := by
  have htail := hx.exponent?_eq
  cases hm with
  | whole hds => exact ⟨_, unsigned?_whole hds htail, rfl⟩
  | @pointed ds fs hds hfs =>
    have hread := unsigned?_pointed hds.2 hfs (fun h => hds.1 h.1) htail
    rw [← List.cons_append, ← List.append_assoc] at hread
    exact ⟨_, hread, value_pointed ds fs k⟩
  | @fraction fs hfs =>
    have hnone : ∀ c ∈ ([] : List Char), c.isDigit := nofun
    have hread := unsigned?_pointed hnone hfs.2 (fun h => hfs.1 h.2) htail
    have hvalue := value_pointed [] fs k
    rw [Nat.ofDigitChars_nil, Nat.cast_zero, zero_add] at hvalue
    exact ⟨_, hread, hvalue⟩

/-- A mantissa does not begin with a sign. -/
theorem MantissaDenotes.head?_append_ne {m : List Char} {v : ℚ} (h : MantissaDenotes m v)
    (x : List Char) : (m ++ x).head? ≠ some '-' := by
  have hm : IsMantissa m := by
    cases h with
    | whole hds => exact .whole hds
    | pointed hds hfs => exact .pointed hds hfs
    | fraction hfs => exact .fraction hfs
  rw [List.head?_append_of_ne_nil _ hm.ne_nil]
  intro hsign
  obtain hdigit | hpoint := hm.isDigit_or_eq '-' (List.mem_of_mem_head? hsign)
  · exact absurd hdigit (by decide)
  · exact absurd hpoint (by decide)

/-- What denotes a number is read as a numeral with this sign and value. -/
theorem Denotes.exists_ofChars?_eq {cs : List Char} {s : Bool} {q : ℚ} (h : Denotes cs s q) :
    ∃ n, ofChars? cs = some n ∧ n.negative = s ∧ n.value = q := by
  cases h with
  | @unsigned m x v k hm hx =>
    obtain ⟨d, hread, hvalue⟩ := hm.exists_unsigned?_eq hx
    have hchars := ofChars?_signChars_append false (hm.head?_append_ne x)
    rw [hread] at hchars
    exact ⟨⟨false, d⟩, hchars, rfl, hvalue⟩
  | @negated m x v k hm hx =>
    obtain ⟨d, hread, hvalue⟩ := hm.exists_unsigned?_eq hx
    have hchars := ofChars?_signChars_append true (hm.head?_append_ne x)
    rw [hread] at hchars
    exact ⟨⟨true, d⟩, hchars, rfl, congrArg Neg.neg hvalue⟩

/-- The texts that denote a number are those that are read, and the number is the value of what is
read. -/
theorem denotes_iff {cs : List Char} {s : Bool} {q : ℚ} :
    Denotes cs s q ↔ ∃ n, ofChars? cs = some n ∧ n.negative = s ∧ n.value = q := by
  refine ⟨Denotes.exists_ofChars?_eq, ?_⟩
  rintro ⟨n, hn, rfl, rfl⟩
  -- The text is a literal, and what it denotes is what is read.
  obtain ⟨s, q, h⟩ := (isLiteral_of_ofChars? hn).exists_denotes
  obtain ⟨n', hn', rfl, rfl⟩ := h.exists_ofChars?_eq
  cases hn.symm.trans hn'
  exact h

/-! ## What is accepted -/

/-- A text is accepted exactly when it denotes a number below the overflow. -/
theorem exists_parse?_iff {text : String} :
    (∃ x, parse? text = some x) ↔ ∃ s q, Denotes text.toList s q ∧ |q| < overflow := by
  constructor
  · rintro ⟨x, hx⟩
    obtain ⟨l, rfl, rfl, hfinite⟩ := Literal.exists_of_parse? hx
    exact ⟨_, _, denotes_iff.2 ⟨_, l.reads, rfl, rfl⟩, l.rounds_value.isFinite_iff.1 hfinite⟩
  · rintro ⟨s, q, h, hlt⟩
    obtain ⟨n, hn, rfl, rfl⟩ := denotes_iff.1 h
    let l : Literal := ⟨text, n, hn⟩
    exact ⟨l.value, Literal.parse?_text_iff.2 (l.rounds_value.isFinite_iff.2 hlt)⟩

/-- What is accepted is the double nearest to the number denoted, and has the sign of the text. -/
theorem isNearest_of_parse? {text : String} {x : Double} {s : Bool} {q : ℚ}
    (hx : parse? text = some x) (h : Denotes text.toList s q) :
    IsNearest x q ∧ x.isNegative = s := by
  obtain ⟨l, rfl, rfl, hfinite⟩ := Literal.exists_of_parse? hx
  obtain ⟨n, hn, rfl, rfl⟩ := denotes_iff.1 h
  cases l.reads.symm.trans hn
  exact ⟨l.rounds_value.isNearest hfinite, (Double.isNegative_toDouble _ _).1⟩

end Numeral

namespace TokenKind

/-- A token means a number exactly when it is accepted as one. -/
theorem ofToken_eq_number_iff {token : String} {x : Double} :
    ofToken token = .number x ↔ Numeral.parse? token = some x := by
  refine ⟨parse?_of_ofToken, fun hx => ?_⟩
  rw [ofToken, hx]

/-- A token means an operator exactly when it is the operator's symbol. -/
theorem ofToken_eq_operator_iff {token : String} {o : Operator} :
    ofToken token = .operator o ↔ token = o.text :=
  ⟨eq_text_of_ofToken, fun h => h ▸ o.ofToken_text⟩

/-- The four symbols are the texts of the operators. -/
theorem mem_symbols_iff {token : String} :
    token ∈ ["+", "-", "×", "÷"] ↔ ∃ o : Operator, token = o.text := by
  constructor
  · simp only [List.mem_cons, List.not_mem_nil, or_false]
    rintro (rfl | rfl | rfl | rfl)
    · exact ⟨.add, rfl⟩
    · exact ⟨.subtract, rfl⟩
    · exact ⟨.multiply, rfl⟩
    · exact ⟨.divide, rfl⟩
  · rintro ⟨o, rfl⟩
    cases o <;> decide

/-- All other texts have no meaning. -/
theorem ofToken_eq_unrecognised_iff {token : String} :
    ofToken token = .unrecognised ↔
      Numeral.parse? token = none ∧ token ∉ ["+", "-", "×", "÷"] := by
  rw [mem_symbols_iff]
  constructor
  · intro h
    refine ⟨Option.eq_none_iff_forall_ne_some.2 fun x hx => ?_, ?_⟩
    · cases h.symm.trans (ofToken_eq_number_iff.2 hx)
    · rintro ⟨o, ho⟩
      cases h.symm.trans (ofToken_eq_operator_iff.2 ho)
  · rintro ⟨hnone, hsymbol⟩
    cases h : ofToken token with
    | number x => cases hnone.symm.trans (ofToken_eq_number_iff.1 h)
    | operator o => exact absurd ⟨o, ofToken_eq_operator_iff.1 h⟩ hsymbol
    | unrecognised => rfl

/-- A text means a number exactly when it is a literal of the grammar that denotes a number below the
overflow. Such a literal denotes no other number, and it means the double nearest to this one, with
the sign of the text also for a zero. An operator is meant by the four symbols and no other text, and
all other texts mean nothing. -/
theorem ofToken_spec (text : String) :
    ((∃ x, Numeral.parse? text = some x) ↔
        ∃ s q, Numeral.Denotes text.toList s q ∧ |q| < 2 ^ 1024 - 2 ^ 970) ∧
      (∀ x s q, Numeral.parse? text = some x → Numeral.Denotes text.toList s q →
        IsNearest x q ∧ x.isNegative = s) ∧
      (∀ s q t r, Numeral.Denotes text.toList s q → Numeral.Denotes text.toList t r →
        s = t ∧ q = r) ∧
      (∀ x, ofToken text = .number x ↔ Numeral.parse? text = some x) ∧
      (∀ o, ofToken text = .operator o ↔ text = o.text) ∧
      (ofToken text = .unrecognised ↔
        Numeral.parse? text = none ∧ text ∉ ["+", "-", "×", "÷"]) := by
  refine ⟨Numeral.exists_parse?_iff, fun x s q => Numeral.isNearest_of_parse?, ?_,
    fun x => ofToken_eq_number_iff, fun o => ofToken_eq_operator_iff, ?_⟩
  · intro s q t r hq hr
    obtain ⟨n, hn, rfl, rfl⟩ := Numeral.denotes_iff.1 hq
    obtain ⟨m, hm, rfl, rfl⟩ := Numeral.denotes_iff.1 hr
    cases hn.symm.trans hm
    exact ⟨rfl, rfl⟩
  · exact ofToken_eq_unrecognised_iff

end TokenKind

end Keypad
