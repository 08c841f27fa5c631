import Keypad.Proofs.Double.Display
import Keypad.Proofs.Expression.Token

/-!
# A written double is an operand

A result that has been written can be calculated with (`texts_read_back`). Its plain text is read as
the value that was written, and it stays the first token when an operator is put behind it, because
the only sign in it stands in front (`ofText_plain_append`). The text on a result line may have an
exponent, so that it cannot be typed on, but it too is read as the value. -/

namespace Keypad

namespace Numeral.IsMantissa

variable {m : List Char}

/-- No operator symbol stands in a mantissa. -/
theorem isSymbol_eq_false (h : IsMantissa m) : ∀ c ∈ m, Operator.isSymbol c = false := by
  intro c hc
  obtain hdigit | rfl := h.isDigit_or_eq c hc
  · exact Operator.isSymbol_of_isDigit hdigit
  · decide

/-- No blank character stands in a mantissa. -/
theorem isBlank_eq_false (h : IsMantissa m) : ∀ c ∈ m, Text.isBlank c = false := by
  intro c hc
  obtain hdigit | rfl := h.isDigit_or_eq c hc
  · exact Text.isBlank_of_isDigit hdigit
  · decide

end Numeral.IsMantissa

/-- A mantissa with a sign, if it has one, is one token, when the text ends there or goes on with an
operator. -/
theorem Token.atOperand_signChars_append (negative : Bool) {m cs : List Char}
    (hm : Numeral.IsMantissa m) (hcs : ∀ d ∈ cs.head?, Operator.isSymbol d) :
    atOperand (Double.signChars negative ++ m ++ cs) =
      (Double.signChars negative ++ m) :: (inOperand cs).2 := by
  have hrun := hm.isSymbol_eq_false
  cases negative with
  | true => exact atOperand_cons_append (.inr rfl) hrun hcs
  | false =>
    -- Without a sign it is the first character of the mantissa that begins the operand.
    obtain ⟨c, run, rfl⟩ := List.exists_cons_of_ne_nil hm.ne_nil
    obtain ⟨hc, hrun⟩ := List.forall_mem_cons.1 hrun
    exact atOperand_cons_append (.inl hc) hrun hcs

namespace Double

variable {x : Double}

/-- No blank character stands in the plain text of a finite double. -/
theorem filter_isBlank_plain (hx : x.isFinite) :
    x.plain.toList.filter (!Text.isBlank ·) = x.plain.toList := by
  obtain ⟨negative, m, hplain, hm⟩ := exists_plain_eq hx
  have hsign : ∀ c ∈ signChars negative, Text.isBlank c = false := by
    cases negative with
    | false => nofun
    | true => exact List.forall_mem_singleton.2 (by decide)
  rw [List.filter_eq_self, hplain]
  intro c hc
  obtain hc | hc := List.mem_append.1 hc
  · rw [hsign c hc, Bool.not_false]
  · rw [hm.isMantissa.isBlank_eq_false c hc, Bool.not_false]

/-- The plain text of a finite double stays the first token when the text goes on with an operator
behind it, or not at all. -/
theorem ofText_plain_append (hx : x.isFinite) (rest : String)
    (hrest : ∀ c ∈ rest.toList.head?, Operator.isSymbol c) :
    Token.ofText (x.plain ++ rest) = x.plain ::
      (Token.inOperand (rest.toList.filter (!Text.isBlank ·))).2.map String.ofList := by
  -- The first character is an operator, so it is not removed with the blank ones.
  have hkept : ∀ c ∈ (rest.toList.filter (!Text.isBlank ·)).head?, Operator.isSymbol c := by
    cases hchars : rest.toList with
    | nil => nofun
    | cons c cs =>
      have hc : Operator.isSymbol c := hrest c (by rw [hchars]; rfl)
      rw [List.filter_cons_of_pos (by simp [Text.isBlank_of_isSymbol hc])]
      rintro d ⟨rfl⟩
      exact hc
  obtain ⟨negative, m, hplain, hm⟩ := exists_plain_eq hx
  rw [Token.ofText, String.toList_append, List.filter_append, filter_isBlank_plain hx, hplain,
    Token.atOperand_signChars_append negative hm.isMantissa hkept, List.map_cons, ← hplain,
    String.ofList_toList]

/-- The plain text of a finite double is a single token. -/
theorem ofText_plain (hx : x.isFinite) : Token.ofText x.plain = [x.plain] := by
  have htokens := ofText_plain_append hx "" nofun
  rwa [String.append_empty] at htokens

/-- The texts of a finite double read back as its value. The plain text is a sign and a plain
magnitude, has the value as a literal, and stays the first token in front of an operator. What a
result line shows has the value as a number, so that doubles with different values are not shown
alike. -/
theorem texts_read_back (hx : x.isFinite) :
    (∃ negative m, x.plain.toList = signChars negative ++ m ∧ IsPlain m) ∧
    (∃ y, Numeral.parse? x.plain = some y ∧ y.isFinite ∧ y.toRat = x.toRat) ∧
    (∀ rest : String, (∀ c ∈ rest.toList.head?, Operator.isSymbol c) →
      (Token.ofText (x.plain ++ rest)).head? = some x.plain) ∧
    (∃ y, ofText? x.display = some y ∧ y.isFinite ∧ y.toRat = x.toRat) ∧
    ∀ y : Double, y.isFinite → y.display = x.display → y.toRat = x.toRat := by
  obtain ⟨hfinite, hvalue⟩ := isFinite_plainValue hx
  refine ⟨exists_plain_eq hx, ⟨_, parse?_plain hx, hfinite, hvalue⟩, fun rest hrest => ?_,
    ⟨_, ofText?_display hx, hfinite, hvalue⟩, fun y hy => toRat_eq_of_display_eq hy hx⟩
  rw [ofText_plain_append hx rest hrest, List.head?_cons]

/-- A ten-millionth is shown with an exponent, and it is its plain text that is typed on. -/
theorem texts_read_back_tenMillionth :
    (ofRatio false 1 10000000).isFinite ∧
    (ofRatio false 1 10000000).display = "1e-07" ∧
    (Token.ofText "0.0000001-3").head? = some "0.0000001" ∧
    ∃ y, ofText? "1e-07" = some y ∧ y.toRat = (ofRatio false 1 10000000).toRat := by
  have hfinite : (ofRatio false 1 10000000).isFinite := by decide +kernel
  have hplain : (ofRatio false 1 10000000).plain = "0.0000001" := by decide +kernel
  have hdisplay : (ofRatio false 1 10000000).display = "1e-07" := by decide +kernel
  obtain ⟨-, -, hfirst, ⟨y, hread, -, hvalue⟩, -⟩ := texts_read_back hfinite
  have hsymbol : ∀ c ∈ "-3".toList.head?, Operator.isSymbol c := by
    rintro c ⟨rfl⟩
    decide
  have htyped := hfirst "-3" hsymbol
  rw [hplain] at htyped
  rw [hdisplay] at hread
  exact ⟨hfinite, hdisplay, htyped, y, hread, hvalue⟩

end Double

end Keypad
