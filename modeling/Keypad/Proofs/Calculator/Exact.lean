import Keypad.Proofs.Calculator.Value
import Keypad.Proofs.Expression.Exact

/-!
# Exact decimal calculations

An expression whose literals and exact intermediate results have no more decimal places than are
configured, and are not too large, is calculated as if with decimal numbers: the result is the
double nearest to the exact value of the expression (`exists_calculate_isNearest`). Adding `0.1` and
`0.2` gives the double nearest to `0.3`, which the sum of the two doubles is not. -/

namespace Keypad.Chain

open Double

/-- An expression in which every literal and every exact result is on the grid of the configured
decimal places, and no divisor is zero, has as its value the double nearest to its exact value. -/
theorem exists_calculate_isNearest (config : Config) (s : String) (c : Chain Literal)
    (htokens : Token.ofText s = (c.map Literal.text).tokens)
    (hdecimal : c.tree.IsDecimal config.precision.val) :
    ∃ x, config.calculate (.text s) = .ok ⟨s, .ok x⟩ ∧ IsNearest x c.tree.exact := by
  have hp := config.precision_le
  have hfinite : ∀ l ∈ c.operands, l.value.isFinite := by
    rw [← operands_tree]
    exact hdecimal.isFinite hp
  obtain ⟨steps, x, heval, hrounds⟩ := Tree.exists_evaluate_eq hp c.tree hdecimal
  rw [← tree_map, evaluate_tree] at heval
  refine ⟨x, ?_, hrounds.isNearest (hrounds.abs_sub_le_of_onGrid hp hdecimal.onGrid).1⟩
  rw [Config.calculate, run_of_tokens config htokens hfinite, heval]
  rfl

/-- The chain of the expression `0.1+0.2`. -/
def tenthPlusFifth : Chain Literal :=
  ⟨⟨"0.1", ⟨false, 1, -1⟩, by decide⟩, [(.add, ⟨"0.2", ⟨false, 2, -1⟩, by decide⟩)]⟩

/-- `0.1+0.2` is the double nearest to `0.3`. -/
theorem calculate_tenthPlusFifth :
    Token.ofText "0.1+0.2" = (tenthPlusFifth.map Literal.text).tokens ∧
      tenthPlusFifth.tree.IsDecimal 9 ∧
      ∃ x, ({} : Config).calculate (.text "0.1+0.2") = .ok ⟨"0.1+0.2", .ok x⟩ ∧
        IsNearest x (3 / 10) := by
  have htokens : Token.ofText "0.1+0.2" = (tenthPlusFifth.map Literal.text).tokens := by decide
  have htree : tenthPlusFifth.tree =
      .node .add (.leaf ⟨"0.1", ⟨false, 1, -1⟩, by decide⟩)
        (.leaf ⟨"0.2", ⟨false, 2, -1⟩, by decide⟩) := rfl
  have hdecimal : tenthPlusFifth.tree.IsDecimal 9 := by
    rw [htree]
    refine ⟨⟨10 ^ 8, by norm_num, ?_⟩, ⟨2 * 10 ^ 8, by norm_num, ?_⟩, fun h => (by cases h),
      ⟨3 * 10 ^ 8, by norm_num, ?_⟩⟩
    all_goals
      norm_num [Operator.exact, Tree.exact, Literal.exact, Numeral.value, Decimal.value, zpow_neg]
  have hexact : tenthPlusFifth.tree.exact = 3 / 10 := by
    rw [htree]
    norm_num [Operator.exact, Tree.exact, Literal.exact, Numeral.value, Decimal.value, zpow_neg]
  have h := exists_calculate_isNearest {} _ _ htokens hdecimal
  rw [hexact] at h
  exact ⟨htokens, hdecimal, h⟩

end Keypad.Chain
