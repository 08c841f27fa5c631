import Keypad.Proofs.Double.Plain

/-!
# What is written for a double

The texts of a double cannot be taken for something else. The one that reads back has more than one
character (`two_le_length_text`), so it is not the symbol of an operator. What a result line shows
of a finite double consists of figures (`isFigure_of_mem_display`): digits, signs, a point and the
letter of an exponent. A text with any other character in it is no value. -/

namespace Keypad

/-- The character is a digit or one of the characters that belong to a number in print. -/
def Text.IsFigure (c : Char) : Prop := c.isDigit ∨ c ∈ ['-', '+', '.', 'e']

instance Text.decidableIsFigure (c : Char) : Decidable (IsFigure c) :=
  inferInstanceAs (Decidable (_ ∨ _))

namespace Double

open Text (IsFigure)

/-! ## Length -/

/-- A magnitude is written with more than one character. -/
theorem two_le_length_magnitudeChars (d : Decimal) : 2 ≤ (magnitudeChars d).length := by
  unfold magnitudeChars
  split_ifs with hzero hpositional hfraction
  · exact Nat.le_succ 2
  · simp
  · -- The point and at least one digit behind it.
    have hdigits := List.length_pos_of_ne_nil hfraction
    rw [List.length_append, List.length_cons]
    omega
  · -- The sign of the exponent and the letter in front of it.
    rw [List.length_append, List.length_cons, exponentChars, List.length_cons]
    omega

/-- A number is printed with more than one character. -/
theorem two_le_length_text (x : Double) : 2 ≤ x.text.toList.length := by
  unfold text
  split
  · rw [String.toList_ofList, List.length_append]
    exact Nat.le_add_left_of_le (two_le_length_magnitudeChars _)
  · split_ifs <;> decide
  · decide

/-! ## Characters -/

/-- The digits of a number are figures. -/
theorem isFigure_of_mem_toDigits {n : ℕ} : ∀ c ∈ Nat.toDigits 10 n, IsFigure c :=
  fun _ hc => .inl (Nat.isDigit_of_mem_toDigits (by decide) le_rfl hc)

/-- A sign is a figure. -/
theorem isFigure_of_mem_signChars (negative : Bool) : ∀ c ∈ signChars negative, IsFigure c := by
  intro c hc
  cases negative with
  | false => cases hc
  | true =>
    rw [List.mem_singleton.1 hc]
    exact .inr (by decide)

/-- An exponent consists of figures. -/
theorem isFigure_of_mem_exponentChars (exponent : ℤ) :
    ∀ c ∈ exponentChars exponent, IsFigure c := by
  unfold exponentChars
  refine List.forall_mem_cons.2 ⟨?_, ?_⟩
  · split_ifs
    · exact .inr (by decide)
    · exact .inr (by decide)
  · split_ifs
    · exact List.forall_mem_cons.2 ⟨.inl (by decide), isFigure_of_mem_toDigits⟩
    · exact isFigure_of_mem_toDigits

/-- A mantissa consists of figures. -/
theorem isFigure_of_mem_mantissaChars (d : Decimal) :
    ∀ c ∈ mantissaChars d.significant, IsFigure c := by
  have hdigits : ∀ c ∈ d.significant, IsFigure c := fun c hc =>
    .inl (Decimal.isDigit_of_mem_significant hc)
  unfold mantissaChars
  split
  · next c e cs hsignificant =>
    rw [hsignificant] at hdigits
    obtain ⟨hc, hrest⟩ := List.forall_mem_cons.1 hdigits
    have hpoint : IsFigure '.' := .inr (by decide)
    exact List.forall_mem_cons.2 ⟨hc, List.forall_mem_cons.2 ⟨hpoint, hrest⟩⟩
  · exact hdigits

/-- A magnitude consists of figures. -/
theorem isFigure_of_mem_magnitudeChars (d : Decimal) : ∀ c ∈ magnitudeChars d, IsFigure c := by
  have hpoint : IsFigure '.' := .inr (by decide)
  have hletter : IsFigure 'e' := .inr (by decide)
  have hzero : IsFigure '0' := .inl (by decide)
  unfold magnitudeChars
  split_ifs with hdigits hpositional hfraction
  · simp [hpoint, hzero]
  · have hwhole := (Decimal.isWhole_wholeDigits hdigits).1.2
    refine List.forall_mem_append.2 ⟨fun c hc => .inl (hwhole c hc), ?_⟩
    simp [hpoint, hzero]
  · have hwhole := (Decimal.isWhole_wholeDigits hdigits).1.2
    have hfractions := (Decimal.fractionDigits_spec hdigits).1
    refine List.forall_mem_append.2 ⟨fun c hc => .inl (hwhole c hc), ?_⟩
    exact List.forall_mem_cons.2 ⟨hpoint, fun c hc => .inl (hfractions c hc)⟩
  · refine List.forall_mem_append.2 ⟨isFigure_of_mem_mantissaChars d, ?_⟩
    exact List.forall_mem_cons.2 ⟨hletter, isFigure_of_mem_exponentChars _⟩

/-- A finite double is printed in figures. -/
theorem isFigure_of_mem_text {x : Double} (hx : x.isFinite) : ∀ c ∈ x.text.toList, IsFigure c := by
  obtain ⟨negative, units, fits, rfl⟩ := exists_eq_finite hx
  unfold text
  dsimp only
  rw [String.toList_ofList]
  exact List.forall_mem_append.2
    ⟨isFigure_of_mem_signChars negative, isFigure_of_mem_magnitudeChars _⟩

/-- What a result line shows of a finite double consists of figures. -/
theorem isFigure_of_mem_display {x : Double} (hx : x.isFinite) :
    ∀ c ∈ x.display.toList, IsFigure c := by
  obtain ⟨negative, units, fits, rfl⟩ := exists_eq_finite hx
  unfold display
  dsimp only
  split_ifs
  · simp [IsFigure]
  · rw [String.toList_ofList]
    exact List.forall_mem_append.2 ⟨isFigure_of_mem_signChars negative, isFigure_of_mem_toDigits⟩
  · exact isFigure_of_mem_text hx

/-- A text with a character that is no figure is not shown for a finite double. -/
theorem display_ne_of_mem {x : Double} (hx : x.isFinite) {text : String} {c : Char}
    (hc : c ∈ text.toList) (hfigure : ¬ IsFigure c) : x.display ≠ text := by
  rintro rfl
  exact hfigure (isFigure_of_mem_display hx c hc)

end Double

end Keypad
