import Keypad.Numeral
import Mathlib.Data.List.TakeWhile

/-!
# The grammar of literals

Literals as they are described, apart from how they are read: an optional `-`, a mantissa of digits
with at most one point, and an optional exponent. `IsLiteral signs` says which signs an exponent may
have. What is read as a numeral is a literal with any of them (`isLiteral_of_ofChars?`); when no
sign stands behind its first character, its exponent has none (`IsLiteral.unsignedExponent`). -/

namespace Keypad.Numeral

/-- One or more digits. -/
def IsDigits (cs : List Char) : Prop := cs ≠ [] ∧ ∀ c ∈ cs, c.isDigit

/-- Digits with at most one point before, among or behind them. -/
inductive IsMantissa : List Char → Prop
  /-- Digits without a point. -/
  | whole {ds} : IsDigits ds → IsMantissa ds
  /-- Digits, a point, and digits if any. -/
  | pointed {ds fs} : IsDigits ds → (∀ c ∈ fs, c.isDigit) → IsMantissa (ds ++ '.' :: fs)
  /-- A point and digits. -/
  | fraction {fs} : IsDigits fs → IsMantissa ('.' :: fs)

/-- Nothing, or `e` or `E`, one of the given signs, and digits. -/
inductive IsExponent (signs : List (List Char)) : List Char → Prop
  /-- No exponent. -/
  | absent : IsExponent signs []
  /-- An exponent with its sign, which may be empty. -/
  | present {e sign ds} : e = 'e' ∨ e = 'E' → sign ∈ signs → IsDigits ds →
      IsExponent signs (e :: (sign ++ ds))

/-- A literal whose exponent has one of the given signs. -/
inductive IsLiteral (signs : List (List Char)) : List Char → Prop
  /-- A mantissa and an exponent. -/
  | unsigned {m x} : IsMantissa m → IsExponent signs x → IsLiteral signs (m ++ x)
  /-- The same behind a `-`. -/
  | negated {m x} : IsMantissa m → IsExponent signs x → IsLiteral signs ('-' :: (m ++ x))

/-- Every sign that an exponent may have: none, `+` or `-`. -/
def anySign : List (List Char) := [[], ['+'], ['-']]

/-- Only the empty sign. -/
def noSign : List (List Char) := [[]]

/-- A mantissa is not empty. -/
theorem IsMantissa.ne_nil {m : List Char} (h : IsMantissa m) : m ≠ [] := by
  cases h with
  | whole h => exact h.1
  | pointed h => exact List.append_ne_nil_of_left_ne_nil h.1 _
  | fraction h => exact List.cons_ne_nil _ _

/-- A mantissa consists of digits and points. -/
theorem IsMantissa.isDigit_or_eq {m : List Char} (h : IsMantissa m) :
    ∀ c ∈ m, c.isDigit ∨ c = '.' := by
  intro c hc
  cases h with
  | whole hds => exact .inl (hds.2 c hc)
  | pointed hds hfs =>
    rw [List.mem_append, List.mem_cons] at hc
    obtain hc | rfl | hc := hc
    · exact .inl (hds.2 c hc)
    · exact .inr rfl
    · exact .inl (hfs c hc)
  | fraction hfs =>
    rw [List.mem_cons] at hc
    obtain rfl | hc := hc
    · exact .inr rfl
    · exact .inl (hfs.2 c hc)

/-! ## What is read is a literal -/

/-- A natural number is read from digits. -/
theorem isDigits_of_natural? {cs : List Char} {n : ℕ} (h : natural? cs = some n) : IsDigits cs := by
  rw [natural?] at h
  split_ifs at h with hcs
  exact ⟨hcs.1, List.all_eq_true.1 hcs.2⟩

/-- An exponent is read from an exponent with any sign. -/
theorem isExponent_of_exponent? {cs : List Char} {k : ℤ} (h : exponent? cs = some k) :
    IsExponent anySign cs := by
  cases cs with
  | nil => exact .absent
  | cons e cs =>
    have hdigits : ∀ {ds : List Char} {f : ℤ → ℤ},
        ((natural? ds).bind fun n => some (n : ℤ)).map f = some k → IsDigits ds := by
      intro ds f hds
      obtain ⟨_, hbind, -⟩ := Option.map_eq_some_iff.1 hds
      obtain ⟨n, hn, -⟩ := Option.bind_eq_some_iff.1 hbind
      exact isDigits_of_natural? hn
    unfold exponent? at h
    dsimp only at h
    split_ifs at h with he
    split at h
    · exact IsExponent.present he (by decide : ['+'] ∈ anySign) (hdigits h)
    · exact IsExponent.present he (by decide : ['-'] ∈ anySign) (hdigits h)
    · exact IsExponent.present he (by decide : [] ∈ anySign) (hdigits h)

/-- A fraction is a point and the digits behind it; without a point there is none. -/
theorem exists_splitFraction_eq (cs : List Char) :
    ∃ fraction tail, splitFraction cs = (fraction, tail) ∧ (∀ c ∈ fraction, c.isDigit) ∧
      (cs = '.' :: (fraction ++ tail) ∨ fraction = [] ∧ cs = tail) := by
  unfold splitFraction
  split
  · next ds =>
    refine ⟨_, _, rfl, fun c hc => List.mem_takeWhile_imp hc, .inl ?_⟩
    rw [List.takeWhile_append_dropWhile]
  · exact ⟨[], cs, rfl, by simp, .inr ⟨rfl, rfl⟩⟩

/-- A numeral without a sign is read from a mantissa and an exponent. -/
theorem exists_of_unsigned? {cs : List Char} {d : Decimal} (h : unsigned? cs = some d) :
    ∃ m x, cs = m ++ x ∧ IsMantissa m ∧ IsExponent anySign x := by
  have hwhole : ∀ c ∈ cs.takeWhile Char.isDigit, c.isDigit := fun c hc => List.mem_takeWhile_imp hc
  have hcs : cs.takeWhile Char.isDigit ++ cs.dropWhile Char.isDigit = cs :=
    List.takeWhile_append_dropWhile
  obtain ⟨fraction, tail, hsplit, hfraction, hrest⟩ :=
    exists_splitFraction_eq (cs.dropWhile Char.isDigit)
  rw [unsigned?, hsplit] at h
  dsimp only at h
  split_ifs at h with hempty
  obtain ⟨k, hk, -⟩ := Option.map_eq_some_iff.1 h
  have hexponent := isExponent_of_exponent? hk
  generalize cs.takeWhile Char.isDigit = whole at *
  generalize cs.dropWhile Char.isDigit = rest at *
  subst hcs
  obtain rfl | ⟨rfl, rfl⟩ := hrest
  · rcases eq_or_ne whole [] with rfl | hne
    · have hne : fraction ≠ [] := fun h => hempty ⟨rfl, h⟩
      exact ⟨'.' :: fraction, tail, rfl, .fraction ⟨hne, hfraction⟩, hexponent⟩
    · refine ⟨whole ++ '.' :: fraction, tail, ?_, .pointed ⟨hne, hwhole⟩ hfraction, hexponent⟩
      rw [List.append_assoc, List.cons_append]
  · have hne : whole ≠ [] := fun h => hempty ⟨h, rfl⟩
    exact ⟨whole, rest, rfl, .whole ⟨hne, hwhole⟩, hexponent⟩

/-- What is read as a numeral is a literal. -/
theorem isLiteral_of_ofChars? {cs : List Char} {n : Numeral} (h : ofChars? cs = some n) :
    IsLiteral anySign cs := by
  unfold ofChars? at h
  split at h
  · next cs =>
    obtain ⟨d, hd, -⟩ := Option.map_eq_some_iff.1 h
    obtain ⟨m, x, rfl, hm, hx⟩ := exists_of_unsigned? hd
    exact .negated hm hx
  · obtain ⟨d, hd, -⟩ := Option.map_eq_some_iff.1 h
    obtain ⟨m, x, rfl, hm, hx⟩ := exists_of_unsigned? hd
    exact .unsigned hm hx

/-! ## Exponents without a sign -/

/-- An exponent without a sign character has no sign. -/
theorem IsExponent.unsigned {x : List Char} (h : IsExponent anySign x)
    (hsign : ∀ c ∈ x, c ≠ '+' ∧ c ≠ '-') : IsExponent noSign x := by
  cases h with
  | absent => exact .absent
  | @present e sign ds he hmem hdigits =>
    have hempty : sign = [] := by
      simp only [anySign, List.mem_cons, List.not_mem_nil, or_false] at hmem
      rcases hmem with rfl | rfl | rfl
      · rfl
      · exact absurd rfl (hsign '+' (by simp)).1
      · exact absurd rfl (hsign '-' (by simp)).2
    subst hempty
    exact .present he (List.mem_singleton_self _) hdigits

/-- A literal without a sign character behind its first character has an exponent without a sign, if
any. -/
theorem IsLiteral.unsignedExponent {cs : List Char} (h : IsLiteral anySign cs)
    (hsign : ∀ c ∈ cs.tail, c ≠ '+' ∧ c ≠ '-') : IsLiteral noSign cs := by
  cases h with
  | @unsigned m x hm hx =>
    -- The mantissa is not empty, so the whole exponent stands behind the first character.
    obtain ⟨c, m', rfl⟩ := List.exists_cons_of_ne_nil hm.ne_nil
    exact .unsigned hm (hx.unsigned fun c hc => hsign c (List.mem_append_right _ hc))
  | @negated m x hm hx =>
    exact .negated hm (hx.unsigned fun c hc => hsign c (List.mem_append_right _ hc))

end Keypad.Numeral
