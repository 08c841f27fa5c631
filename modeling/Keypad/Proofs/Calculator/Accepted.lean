import Keypad.Proofs.Calculator.Outcome
import Keypad.Proofs.Expression.Grammar

/-!
# Accepted expressions

Which expressions have a value. Their tokens are literals with an operator between any two
neighbours (`exists_chain_of_isOk`): an evaluation to one value has one number more than operators,
and separated tokens with this excess alternate. So the characters of the expression, without the
blank ones, follow the grammar, and no token was left out, whether or not tokens without a meaning
are refused (`follows_grammar_of_isOk`). -/

namespace Keypad

namespace Config

variable {config : Config} {s : String} {result : Result}

/-- A value comes from an evaluation of the tokens in postfix order. -/
theorem exists_evaluation_of_isOk (h : config.calculate (.text s) = .ok result)
    (hok : result.isOk) : ∃ x, (config.evaluation s).outcome = .ok x := by
  obtain ⟨result', hresult, hends⟩ := config.exists_calculate_ends s
  obtain rfl : result = result' := Except.ok.inj (h.symm.trans hresult)
  -- The other ends are an empty result or an error.
  cases hends with
  | value x hnone heval => exact ⟨x, heval⟩
  | empty hnil => cases hok
  | refused token hstrict htoken => cases hok
  | fault f hne hnone heval => cases hok

/-- The tokens of an expression with a value are literals with finite values and an operator between
any two neighbours. -/
theorem exists_chain_of_isOk (h : config.calculate (.text s) = .ok result) (hok : result.isOk) :
    ∃ c : Chain Literal, Token.ofText s = (c.map Literal.text).tokens ∧
      ∀ l ∈ c.operands, l.value.isFinite := by
  obtain ⟨x, heval⟩ := exists_evaluation_of_isOk h hok
  have hcount := Evaluation.length_add_balance_of_run config.precision_le heval
  have hbalance := Postfix.balance_order [] (Token.ofText s)
  simp only [List.length_nil, Nat.cast_zero, zero_add, sub_zero] at hcount hbalance
  exact Token.exists_chain_of_balance (Token.isChain_ofText s) (hbalance.symm.trans hcount)

end Config

/-- A token that is a literal has no sign in its exponent. -/
theorem Literal.isLiteral_of_mem_ofText {s : String} {l : Literal} (h : l.text ∈ Token.ofText s) :
    Numeral.IsLiteral Numeral.noSign l.text.toList := by
  refine (Numeral.isLiteral_of_ofChars? l.reads).unsignedExponent fun c hc => ?_
  -- Both signs are operator symbols, which stand only at the front of a token.
  have hsymbol := (Token.isToken_of_mem_ofText h).2 c hc
  constructor
  · rintro rfl
    exact absurd hsymbol (by decide)
  · rintro rfl
    exact absurd hsymbol (by decide)

/-- An expression with a value is, without its blank characters, a sequence of literals with finite
values and without signed exponents, with an operator between any two neighbours, and none of its
tokens was left out. -/
theorem Config.follows_grammar_of_isOk (config : Config) (s : String) (result : Result)
    (h : config.calculate (.text s) = .ok result) (hok : result.isOk) :
    (∃ c : Chain Literal,
      s.toList.filter (!Text.isBlank ·) = (c.map Literal.text).tokens.flatMap String.toList ∧
      ∀ l ∈ c.operands, Numeral.IsLiteral Numeral.noSign l.text.toList ∧ l.value.isFinite) ∧
      ∀ duration trace, config.trace (.text s) duration = .ok trace → trace.dropped = [] := by
  obtain ⟨c, htokens, hfinite⟩ := exists_chain_of_isOk h hok
  refine ⟨⟨c, ?_, fun l hl => ⟨?_, hfinite l hl⟩⟩, ?_⟩
  · rw [← htokens, Token.flatMap_ofText]
  · have hmem : l.text ∈ Token.ofText s := by
      rw [htokens]
      exact Chain.mem_tokens_map.2 (.inl ⟨l, hl, rfl⟩)
    exact Literal.isLiteral_of_mem_ofText hmem
  · intro duration trace htrace
    rw [Config.trace, Chain.run_of_tokens config htokens hfinite] at htrace
    cases htrace
    rfl

/-- `1 + -2.5e1` has a value and follows the grammar. -/
theorem Config.follows_grammar_one_add :
    ({} : Config).calculate (.text "1 + -2.5e1") =
        .ok ⟨"1 + -2.5e1", .ok (Double.ofInt (-24))⟩ ∧
      (⟨"1 + -2.5e1", .ok (Double.ofInt (-24))⟩ : Result).isOk ∧
      (∃ c : Chain Literal,
        "1 + -2.5e1".toList.filter (!Text.isBlank ·) =
            (c.map Literal.text).tokens.flatMap String.toList ∧
          ∀ l ∈ c.operands, Numeral.IsLiteral Numeral.noSign l.text.toList ∧ l.value.isFinite) ∧
      ∀ duration trace,
        ({} : Config).trace (.text "1 + -2.5e1") duration = .ok trace → trace.dropped = [] := by
  have h : ({} : Config).calculate (.text "1 + -2.5e1") =
      .ok ⟨"1 + -2.5e1", .ok (Double.ofInt (-24))⟩ := by decide +kernel
  exact ⟨h, rfl, follows_grammar_of_isOk {} _ _ h rfl⟩

end Keypad
