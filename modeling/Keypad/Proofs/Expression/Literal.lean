import Keypad.Token
import Mathlib.Data.Rat.Cast.Order

/-!
# Literals and the tokens they make

A literal is a text together with the numeral that the text is read as. Its exact value is a
rational number and its value the nearest double. As a token it means that double, provided that it
is finite (`Literal.ofToken_text`), just as the text of an operator means the operator
(`Operator.ofToken_text`). -/

namespace Keypad

/-- A text of an expression that is read as a numeral. -/
structure Literal where
  /-- The text. -/
  text : String
  /-- The numeral. -/
  numeral : Numeral
  /-- The text is read as the numeral. -/
  reads : Numeral.ofChars? text.toList = some numeral

namespace Literal

/-- The double that the literal stands for. -/
def value (l : Literal) : Double := l.numeral.toDouble

/-- The number that the literal denotes, before it is rounded. -/
def exact (l : Literal) : ℚ := l.numeral.value

/-- A literal is accepted, as its value, exactly when this is finite. -/
theorem parse?_text_iff {l : Literal} :
    Numeral.parse? l.text = some l.value ↔ l.value.isFinite := by
  rw [Numeral.parse?, l.reads]
  dsimp only
  rw [← value]
  split_ifs with h
  · exact ⟨fun _ => h, fun _ => rfl⟩
  · exact ⟨fun hnone => (by cases hnone), fun hfinite => absurd hfinite h⟩

/-- A text that is accepted is a literal with a finite value. -/
theorem exists_of_parse? {text : String} {x : Double} (h : Numeral.parse? text = some x) :
    ∃ l : Literal, l.text = text ∧ l.value = x ∧ x.isFinite := by
  rw [Numeral.parse?] at h
  split at h
  · next n hn =>
    split_ifs at h with hfinite
    cases h
    exact ⟨⟨text, n, hn⟩, rfl, rfl, hfinite⟩
  · cases h

/-- As a token, a literal with a finite value means a number. -/
theorem ofToken_text {l : Literal} (h : l.value.isFinite) :
    TokenKind.ofToken l.text = .number l.value := by
  rw [TokenKind.ofToken, parse?_text_iff.2 h]

end Literal

/-- As a token, the text of an operator means the operator. -/
theorem Operator.ofToken_text (o : Operator) : TokenKind.ofToken o.text = .operator o := by
  cases o <;> rfl

/-- Only the text of an operator means the operator. -/
theorem TokenKind.eq_text_of_ofToken {token : String} {o : Operator}
    (h : ofToken token = .operator o) : token = o.text := by
  unfold ofToken Operator.ofText? at h
  split at h
  · cases h
  · split at h
    · next other hother =>
      cases h
      split at hother
      · next c hc =>
        rw [Operator.ofChar?_eq_some_iff] at hother
        rw [← String.ofList_toList (s := token), hc, hother]
        rfl
      · cases hother
    · cases h

end Keypad
