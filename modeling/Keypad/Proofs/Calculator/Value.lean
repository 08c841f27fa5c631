import Keypad.Proofs.Expression.Order
import Keypad.Trace

/-!
# The calculation of a chain

When the tokens of an expression are literals with an operator between any two neighbours, the
calculation is that of the chain they form: every stage is known (`run_of_tokens`), and the result
and the recorded operations are those of `Chain.evaluate`, a sum of products computed from the left
(`calculate_eq_evaluate`). The tokens, the postfix order and the stack leave no trace in this
statement. It holds for every rounding, so the order of the operations matters in it: each of them
rounds, and each may be the first that fails. -/

namespace Keypad

/-- The result for an expression whose evaluation has come to this. -/
def Config.concluded (config : Config) (s : String) (a : Progress) : Result :=
  match a.outcome with
  | .ok value => ⟨s, .ok value⟩
  | .error fault => config.failed s fault

/-- A configured number of places is at most 15. -/
theorem Config.precision_le (config : Config) : config.precision.val ≤ 15 :=
  Nat.le_of_lt_succ config.precision.isLt

namespace Chain

variable {s : String} {c : Chain Literal}

/-- The stages of the calculation of a chain. -/
theorem run_of_tokens (config : Config) (htokens : Token.ofText s = (c.map Literal.text).tokens)
    (hfinite : ∀ l ∈ c.operands, l.value.isFinite) :
    config.run (.text s) = .ok
      { result := config.concluded s ((c.map Literal.value).evaluate config.precision.val)
        tokens := (c.map Literal.text).tokens
        dropped := []
        items := (c.map Literal.value).tree.postorder
        steps := ((c.map Literal.value).evaluate config.precision.val).steps } := by
  have horder := ofTokens_tokens config.strictTokens hfinite
  have heval := Evaluation.ofItems_postorder config.precision_le (c.map Literal.value).tree
  rw [evaluate_tree] at heval
  rw [tokens] at htokens horder ⊢
  rw [Config.run, htokens]
  dsimp only
  rw [horder]
  dsimp only
  rw [heval, Config.concluded]
  -- Both outcomes of the evaluation end in a result.
  rcases (c.map Literal.value).evaluate config.precision.val with ⟨steps, fault | value⟩
  · rfl
  · simp only [Progress.resume, List.append_nil]

/-- A chain of accepted literals is calculated as a sum of products, from the left: the result, with
the value or the first failure, and the recorded operations are those of `evaluate`, and no token is
left out. -/
theorem calculate_eq_evaluate (config : Config) (s : String) (c : Chain Literal)
    (htokens : Token.ofText s = (c.map Literal.text).tokens)
    (haccepted : ∀ l ∈ c.operands, Numeral.parse? l.text = some l.value)
    (duration : Option Double) :
    ∃ trace, config.trace (.text s) duration = .ok trace ∧
      config.calculate (.text s) = .ok trace.result ∧
      trace.result = config.concluded s ((c.map Literal.value).evaluate config.precision.val) ∧
      trace.steps = ((c.map Literal.value).evaluate config.precision.val).steps ∧
      trace.dropped = [] := by
  have hrun := run_of_tokens config htokens fun l hl => Literal.parse?_text_iff.1 (haccepted l hl)
  refine ⟨_, by rw [Config.trace, hrun], by rw [Config.calculate, hrun]; rfl, rfl, rfl, rfl⟩

/-- The chain of the expression `2+3×4`. -/
def twoPlusThreeTimesFour : Chain Literal :=
  ⟨⟨"2", ⟨false, 2, 0⟩, rfl⟩,
    [(.add, ⟨"3", ⟨false, 3, 0⟩, rfl⟩), (.multiply, ⟨"4", ⟨false, 4, 0⟩, rfl⟩)]⟩

/-- `2+3×4` is calculated as the sum of `2` and the product of `3` and `4`. -/
theorem calculate_twoPlusThreeTimesFour :
    Token.ofText "2+3×4" = (twoPlusThreeTimesFour.map Literal.text).tokens ∧
      (∀ l ∈ twoPlusThreeTimesFour.operands, Numeral.parse? l.text = some l.value) ∧
      ∃ trace, ({} : Config).trace (.text "2+3×4") none = .ok trace ∧
        ({} : Config).calculate (.text "2+3×4") = .ok trace.result ∧
        trace.result =
          ({} : Config).concluded "2+3×4" ((twoPlusThreeTimesFour.map Literal.value).evaluate 9) ∧
        trace.steps = ((twoPlusThreeTimesFour.map Literal.value).evaluate 9).steps ∧
        trace.dropped = [] := by
  have htokens : Token.ofText "2+3×4" = (twoPlusThreeTimesFour.map Literal.text).tokens := by
    decide
  have haccepted : ∀ l ∈ twoPlusThreeTimesFour.operands, Numeral.parse? l.text = some l.value := by
    simp only [twoPlusThreeTimesFour, operands, List.map_cons, List.map_nil, List.forall_mem_cons,
      Literal.parse?_text_iff]
    decide +kernel
  exact ⟨htokens, haccepted, calculate_eq_evaluate {} _ _ htokens haccepted none⟩

end Chain

end Keypad
