import Keypad.Json.Printer
import Keypad.Json.Reader
import Keypad.Proofs.Double.Display

/-!
# Texts and numbers read back

The parts of a JSON text that hold no other value. A text between quotes is read back character by
character, whichever way a character was escaped (`readText_escape`, `readText_writeText`). A number
is read up to the first character that no numeral has. In front of such a character, or of nothing,
a double and a whole number are read back as they were written, the double as a double because its
text has a point or an exponent (`readNumber_writeDouble`, `readNumber_writeInt`). -/

namespace Keypad.Json

/-! ## Texts -/

/-- The four digits of an escaped control character denote it. -/
theorem unit?_hexDigits {n : ℕ} (h : n < 0x20) :
    ∃ a b c d, Text.hexDigits 4 n = [a, b, c, d] ∧ unit? a b c d = some n := by
  interval_cases n <;> exact ⟨_, _, _, _, rfl, by decide⟩

/-- An escaped character is read as the character. -/
theorem readText_escape (c : Char) (cs : List Char) :
    readText (escape c ++ cs) = (readText cs).map fun (chars, rest) => (c :: chars, rest) := by
  unfold escape
  -- Some characters have an escape of their own; the other control characters share one.
  split_ifs with hquote hn hr ht hb hf hcontrol
  · obtain rfl | rfl := hquote
    · rfl
    · rfl
  · subst hn
    rfl
  · subst hr
    rfl
  · subst ht
    rfl
  · subst hb
    rfl
  · subst hf
    rfl
  · obtain ⟨x, y, z, w, hdigits, hunit⟩ := unit?_hexDigits hcontrol
    have hnosurrogate : ¬ (0xD800 ≤ c.toNat ∧ c.toNat < 0xE000) := by omega
    rw [hdigits]
    show readText ('\\' :: 'u' :: x :: y :: z :: w :: cs) = _
    rw [readText, hunit]
    dsimp only
    rw [if_neg hnosurrogate, Char.ofNat_toNat]
  · -- The character stands for itself, and no other rule applies to it.
    rw [not_or] at hquote
    rw [List.singleton_append, readText]
    · rw [if_neg hcontrol]
    · exact hquote.1
    · exact fun _ _ _ _ _ hbackslash _ => hquote.2 hbackslash
    · exact fun _ _ hbackslash _ => hquote.2 hbackslash

/-- A text is read back behind its opening quote, and what follows it is left. -/
theorem readText_writeText (s : String) (rest : List Char) :
    ∃ cs, writeText s ++ rest = '"' :: cs ∧ readText cs = some (s.toList, rest) := by
  refine ⟨s.toList.flatMap escape ++ '"' :: rest, by simp [writeText], ?_⟩
  induction s.toList with
  | nil => rfl
  | cons c cs ih =>
    rw [List.flatMap_cons, List.append_assoc, readText_escape, ih]
    rfl

/-! ## Numerals -/

/-- No numeral goes on with what follows. -/
def EndsNumeral (rest : List Char) : Prop := ∀ c ∈ rest.head?, ¬ isNumeralChar c

/-- A whole number as it is written is one as it is read. -/
theorem isWhole_of_isWhole {ds : List Char} (h : Keypad.IsWhole ds) : isWhole ds := by
  obtain ⟨⟨hne, hdigits⟩, hzero⟩ := h
  obtain ⟨c, cs, rfl⟩ := List.exists_cons_of_ne_nil hne
  unfold isWhole
  by_cases hc : c = '0'
  · rw [hzero (hc ▸ rfl)]
    rfl
  · have hall : (c :: cs).all Char.isDigit := List.all_eq_true.2 hdigits
    simp [hall, hc]

/-- Behind a whole number, a point and a digit, or the letter of an exponent, begins the rest of a
numeral that is read as a double. -/
theorem magnitude?_append (negative : Bool) {whole rest : List Char} (hwhole : Keypad.IsWhole whole)
    (hrest : (∃ c cs, rest = '.' :: c :: cs ∧ c.isDigit) ∨ ∃ cs, rest = 'e' :: cs) :
    magnitude? negative (whole ++ rest) =
      (Numeral.unsigned? (whole ++ rest)).map fun d => .double (d.toDouble negative) := by
  have hhead : ∀ c ∈ rest.head?, ¬ c.isDigit := by
    intro c hc
    obtain ⟨d, cs, rfl, -⟩ | ⟨cs, rfl⟩ := hrest
    · obtain rfl := Option.some.inj hc
      decide
    · obtain rfl := Option.some.inj hc
      decide
  obtain ⟨htake, hdrop⟩ := Text.span_append hwhole.1.2 hhead
  have hisWhole := isWhole_of_isWhole hwhole
  unfold magnitude?
  rw [htake, hdrop]
  dsimp only
  rw [if_neg (not_not.2 hisWhole)]
  obtain ⟨c, cs, rfl, hc⟩ | ⟨cs, rfl⟩ := hrest
  · exact if_pos hc
  · rfl

/-- The parts of a printed magnitude. -/
theorem exists_magnitudeChars_eq (d : Decimal) :
    ∃ whole rest, Double.magnitudeChars d = whole ++ rest ∧ Keypad.IsWhole whole ∧
      ((∃ c cs, rest = '.' :: c :: cs ∧ c.isDigit) ∨ ∃ cs, rest = 'e' :: cs) := by
  unfold Double.magnitudeChars
  split_ifs with hzero hpositional hfraction
  · exact ⟨['0'], _, rfl, isWhole_zero, .inl ⟨'0', [], rfl, rfl⟩⟩
  · exact ⟨_, _, rfl, Decimal.isWhole_wholeDigits hzero, .inl ⟨'0', [], rfl, rfl⟩⟩
  · obtain ⟨c, cs, hcs⟩ := List.exists_cons_of_ne_nil hfraction
    have hc : c.isDigit := (Decimal.fractionDigits_spec hzero).1 c (hcs ▸ List.mem_cons_self)
    refine ⟨_, _, rfl, Decimal.isWhole_wholeDigits hzero, .inl ⟨c, cs, ?_, hc⟩⟩
    rw [hcs]
  · obtain ⟨c, cs, hsignificant, hc⟩ := Decimal.exists_significant_eq_cons hzero
    have hdigits : ∀ b ∈ c :: cs, b.isDigit := fun b hb =>
      Decimal.isDigit_of_mem_significant (hsignificant ▸ hb)
    have hfirst : Keypad.IsWhole [c] := by
      refine ⟨⟨List.cons_ne_nil _ _, ?_⟩, fun h => absurd (Option.some.inj h) hc⟩
      exact List.forall_mem_singleton.2 (hdigits c List.mem_cons_self)
    refine ⟨[c], (if cs = [] then [] else '.' :: cs) ++ 'e' :: Double.exponentChars (d.point - 1),
      ?_, hfirst, ?_⟩
    · rw [hsignificant, Double.mantissaChars_cons, List.append_assoc]
    · cases cs with
      | nil => exact .inr ⟨_, rfl⟩
      | cons b cs =>
        exact .inl ⟨b, _, rfl, hdigits b (List.mem_cons_of_mem _ List.mem_cons_self)⟩

/-- Figures are characters of numerals. -/
theorem isNumeralChar_of_isFigure {c : Char} (h : Text.IsFigure c) : isNumeralChar c := by
  obtain hdigit | hmark := h
  · simp [isNumeralChar, hdigit]
  · have hmarks : ['-', '+', '.', 'e'].all isNumeralChar := by decide
    exact List.all_eq_true.1 hmarks c hmark

/-- A sign and figures of which the first is a digit are read as a numeral with this sign. -/
theorem readNumber_signChars_append (negative : Bool) {m rest : List Char}
    (hm : ∃ c cs, m = c :: cs ∧ c.isDigit) (hfigures : ∀ c ∈ m, Text.IsFigure c)
    (hrest : EndsNumeral rest) :
    readNumber (Double.signChars negative ++ m ++ rest) =
      (magnitude? negative m).map (·, rest) := by
  have hall : ∀ c ∈ Double.signChars negative ++ m, isNumeralChar c := fun c hc =>
    isNumeralChar_of_isFigure ((List.mem_append.1 hc).elim
      (Double.isFigure_of_mem_signChars negative c) (hfigures c))
  obtain ⟨htake, hdrop⟩ := Text.span_append hall hrest
  obtain ⟨c, cs, rfl, hc⟩ := hm
  have hother : c ≠ 'I' ∧ c ≠ 'N' ∧ c ≠ '-' := by
    refine ⟨?_, ?_, ?_⟩ <;> (rintro rfl; exact absurd hc (by decide))
  -- None of the words begins with a digit, behind a sign or without one.
  have hword : ∀ word ∈ ["-Infinity", "Infinity", "NaN"],
      ¬ word.toList.isPrefixOf (Double.signChars negative ++ c :: cs ++ rest) := by
    intro word hword
    simp only [List.mem_cons, List.not_mem_nil, or_false] at hword
    obtain rfl | rfl | rfl := hword <;>
      cases negative <;> simp [Double.signChars, hother.1.symm, hother.2.1.symm, hother.2.2.symm]
  have hnumber :
      number? (Double.signChars negative ++ c :: cs) = magnitude? negative (c :: cs) := by
    cases negative with
    | true => rfl
    | false =>
      show number? (c :: cs) = _
      unfold number?
      split
      · next heq => exact absurd (List.cons.inj heq).1 hother.2.2
      · rfl
  unfold readNumber
  rw [if_neg (hword _ (by decide)), if_neg (hword _ (by decide)), if_neg (hword _ (by decide)),
    htake, hdrop, hnumber]

/-- A double is read back, and what follows it is left. -/
theorem readNumber_writeDouble (x : Double) {rest : List Char} (hrest : EndsNumeral rest) :
    readNumber (writeDouble x ++ rest) = some (.double x, rest) := by
  cases x with
  | finite negative units fits =>
    have htext : writeDouble (.finite negative units fits) = Double.signChars negative ++
        Double.magnitudeChars (Double.finite negative units fits).decimal := String.toList_ofList
    have hread := Double.map_toDouble_magnitudeChars negative fits
    obtain ⟨whole, behind, hparts, hwhole, hbehind⟩ :=
      exists_magnitudeChars_eq (Double.finite negative units fits).decimal
    rw [htext, readNumber_signChars_append negative (Double.exists_magnitudeChars_eq_cons _)
      (Double.isFigure_of_mem_magnitudeChars _) hrest, hparts,
      magnitude?_append negative hwhole hbehind, ← hparts]
    obtain ⟨d, hd, hvalue⟩ := Option.map_eq_some_iff.1 hread
    rw [hd, ← hvalue]
    rfl
  | infinite negative => cases negative <;> rfl
  | nan => rfl

/-- The digits of a natural number are a whole number. -/
theorem isWhole_toDigits (n : ℕ) : Keypad.IsWhole (Nat.toDigits 10 n) := by
  refine ⟨Numeral.isDigits_toDigits n, fun hzero => ?_⟩
  rcases eq_or_ne n 0 with rfl | hn
  · rfl
  · obtain ⟨c, cs, hdigits, hc⟩ := exists_toDigits_eq_cons hn
    rw [hdigits] at hzero
    exact absurd (Option.some.inj hzero) hc

/-- A whole number is read back, and what follows it is left. -/
theorem readNumber_writeInt (n : ℤ) {rest : List Char} (hrest : EndsNumeral rest) :
    readNumber (writeInt n ++ rest) = some (.int n, rest) := by
  have hwhole := isWhole_toDigits n.natAbs
  have hfront := hwhole.1.exists_append_eq_cons []
  rw [List.append_nil] at hfront
  have hend : ∀ c ∈ ([] : List Char).head?, ¬ c.isDigit := nofun
  obtain ⟨htake, hdrop⟩ := Text.span_append hwhole.1.2 hend
  rw [List.append_nil] at htake hdrop
  have hisWhole := isWhole_of_isWhole hwhole
  have hread : magnitude? (n < 0) (Nat.toDigits 10 n.natAbs) = some (.int n) := by
    unfold magnitude?
    rw [htake, hdrop]
    dsimp only
    rw [if_neg (not_not.2 hisWhole), Nat.ofDigitChars_ten_toDigits]
    rcases lt_or_ge n 0 with hneg | hpos
    · rw [decide_eq_true hneg, if_pos rfl, Int.ofNat_natAbs_of_nonpos hneg.le, neg_neg]
    · rw [decide_eq_false (not_lt.2 hpos), if_neg Bool.false_ne_true, Int.natAbs_of_nonneg hpos]
  rw [writeInt, readNumber_signChars_append _ hfront Double.isFigure_of_mem_toDigits hrest, hread]
  rfl

end Keypad.Json
