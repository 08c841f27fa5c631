import Keypad.Proofs.Double.Decimal
import Keypad.Proofs.Double.Grid
import Keypad.Proofs.Expression.Chain

/-!
# Decimal expressions are computed exactly

`Tree.exact` computes an expression of literals with rational numbers. `Tree.IsDecimal p` says that
every literal and every result on the way, all of them exact, is on the grid of `p` decimal places,
and that no divisor is zero. The calculation rounds each literal, each operation, each scaling and
each scaled integer; on such an expression it comes nevertheless to the double nearest to the exact
value (`Tree.exists_evaluate_eq`).

The induction carries that every result is the exact one rounded once. So one step starts from
operands with one rounding each, and the operation on them has at most three times the relative
error of an operand (`Operator.abs_exact_sub_mul_le`), which is less than a quarter of a place. -/

namespace Keypad

open Double

/-! ## One operation -/

/-- The exact result of an operation. -/
def Operator.exact : Operator → ℚ → ℚ → ℚ
  | .add, a, b => a + b
  | .subtract, a, b => a - b
  | .multiply, a, b => a * b
  | .divide, a, b => a / b

/-- The operations on doubles round the exact result. -/
theorem Operator.rounds_apply (o : Operator) {x y : Double} (hx : x.isFinite) (hy : y.isFinite)
    (h0 : o = .divide → y.toRat ≠ 0) : Rounds (o.exact x.toRat y.toRat) (o.apply x y) := by
  cases o with
  | add => exact rounds_add hx hy
  | subtract => exact rounds_sub hx hy
  | multiply => exact rounds_mul hx hy
  | divide => exact rounds_div hx hy (h0 rfl)

section Errors

variable {a b x y ε : ℚ}

/-- The relative errors of two factors add up, but for their product. -/
theorem abs_mul_sub_mul_le (hε : 0 ≤ ε) (hx : |x - a| ≤ |a| * ε) (hy : |y - b| ≤ |b| * ε) :
    |x * y - a * b| ≤ |a * b| * (2 * ε + ε * ε) := by
  have hsplit : x * y - a * b = (x - a) * (y - b) + (x - a) * b + a * (y - b) := by ring
  have hfirst : |(x - a) * (y - b)| ≤ |a| * ε * (|b| * ε) := by
    rw [abs_mul]
    exact mul_le_mul hx hy (abs_nonneg _) (mul_nonneg (abs_nonneg a) hε)
  have hsecond : |(x - a) * b| ≤ |a| * ε * |b| := by
    rw [abs_mul]
    exact mul_le_mul_of_nonneg_right hx (abs_nonneg b)
  have hthird : |a * (y - b)| ≤ |a| * (|b| * ε) := by
    rw [abs_mul]
    exact mul_le_mul_of_nonneg_left hy (abs_nonneg a)
  calc |x * y - a * b|
      ≤ |(x - a) * (y - b)| + |(x - a) * b| + |a * (y - b)| := by
        rw [hsplit]
        exact abs_add_three ..
    _ ≤ |a| * ε * (|b| * ε) + |a| * ε * |b| + |a| * (|b| * ε) := by gcongr
    _ = |a * b| * (2 * ε + ε * ε) := by
        rw [abs_mul]
        ring

/-- A number with a small relative error keeps most of its size. -/
theorem le_abs_of_abs_sub_le (hy : |y - b| ≤ |b| * ε) : |b| * (1 - ε) ≤ |y| := by
  have h := abs_sub_abs_le_abs_sub b y
  rw [abs_sub_comm] at h
  linarith

/-- A quotient has at most three times the relative error of the two sides. -/
theorem abs_div_sub_div_le (hε : 0 ≤ ε) (hε' : ε ≤ 1 / 4) (hb : b ≠ 0) (hx : |x - a| ≤ |a| * ε)
    (hy : |y - b| ≤ |b| * ε) : y ≠ 0 ∧ |x / y - a / b| ≤ |a / b| * (3 * ε) := by
  have hysize := le_abs_of_abs_sub_le hy
  have hbpos : 0 < |b| := abs_pos.2 hb
  have hypos : 0 < |y| := lt_of_lt_of_le (mul_pos hbpos (by linarith)) hysize
  have hy0 : y ≠ 0 := abs_pos.1 hypos
  refine ⟨hy0, ?_⟩
  -- The quotients are compared by their cross products, where both errors enter once.
  have hcross : |x * b - y * a| ≤ 2 * ε * (|a| * |b|) := by
    have hsplit : x * b - y * a = (x - a) * b - a * (y - b) := by ring
    have hfirst : |(x - a) * b| ≤ |a| * ε * |b| := by
      rw [abs_mul]
      exact mul_le_mul_of_nonneg_right hx (abs_nonneg b)
    have hsecond : |a * (y - b)| ≤ |a| * (|b| * ε) := by
      rw [abs_mul]
      exact mul_le_mul_of_nonneg_left hy (abs_nonneg a)
    rw [hsplit]
    have h := abs_sub ((x - a) * b) (a * (y - b))
    linarith
  -- What is relative to `b` there has to become relative to `y`.
  have hsize : 2 * ε * (|a| * |b|) ≤ 3 * ε * (|a| * |y|) := by
    have h1 : 2 * |b| ≤ 3 * |y| := by
      have h2 := mul_le_mul_of_nonneg_left hε' hbpos.le
      linarith
    have h3 := mul_le_mul_of_nonneg_left h1 (mul_nonneg hε (abs_nonneg a))
    linarith
  rw [div_sub_div _ _ hy0 hb, abs_div, div_le_iff₀ (abs_pos.2 (mul_ne_zero hy0 hb)), abs_div,
    abs_mul]
  have hcancel : |a| / |b| * (3 * ε) * (|y| * |b|) = 3 * ε * (|a| * |y|) := by
    field_simp
  rw [hcancel]
  exact hcross.trans hsize

end Errors

/-- From operands on the grid that were rounded once, an operation with an exact result on the grid
comes to within a quarter of a place of it, and a divisor other than zero is not rounded to zero. -/
theorem Operator.abs_exact_sub_mul_le (o : Operator) {p : ℕ} {a b x y : ℚ} (ha : OnGrid p a)
    (hb : OnGrid p b) (hc : OnGrid p (o.exact a b)) (h0 : o = .divide → b ≠ 0)
    (hx : |x - a| ≤ |a| * (9 / 2 ^ 56)) (hy : |y - b| ≤ |b| * (9 / 2 ^ 56)) :
    |o.exact x y - o.exact a b| * 10 ^ p ≤ 27 / 128 ∧ (o = .divide → y ≠ 0) := by
  have hten : (0 : ℚ) < 10 ^ p := by positivity
  have hasize := ha.abs_mul_le
  have hbsize := hb.abs_mul_le
  have hcsize := hc.abs_mul_le
  -- The error of a sum or difference is at most the sum of the errors.
  have hsum : ∀ z : ℚ, |z| ≤ |x - a| + |y - b| → |z| * 10 ^ p ≤ 27 / 128 := by
    intro z hz
    have h := mul_le_mul_of_nonneg_right (hz.trans (add_le_add hx hy)) hten.le
    linarith
  -- The error of a product or quotient is relative to the result.
  have hrelative : ∀ {z δ : ℚ}, |z| ≤ |o.exact a b| * δ → δ ≤ 27 / 2 ^ 56 →
      |z| * 10 ^ p ≤ 27 / 128 := by
    intro z δ hz hδ
    have h1 := mul_le_mul_of_nonneg_left hδ (abs_nonneg (o.exact a b))
    have h2 := mul_le_mul_of_nonneg_right (hz.trans h1) hten.le
    linarith
  cases o with
  | add =>
    refine ⟨hsum _ ?_, fun h => by cases h⟩
    have hsplit : x + y - (a + b) = (x - a) + (y - b) := by ring
    rw [exact, exact, hsplit]
    exact abs_add_le ..
  | subtract =>
    refine ⟨hsum _ ?_, fun h => by cases h⟩
    have hsplit : x - y - (a - b) = (x - a) - (y - b) := by ring
    rw [exact, exact, hsplit]
    exact abs_sub ..
  | multiply =>
    exact ⟨hrelative (abs_mul_sub_mul_le (by norm_num) hx hy) (by norm_num), fun h => by cases h⟩
  | divide =>
    obtain ⟨hy0, hle⟩ := abs_div_sub_div_le (by norm_num) (by norm_num) (h0 rfl) hx hy
    exact ⟨hrelative hle (by norm_num), fun _ => hy0⟩

/-- One step of a decimal expression: from the exact operands rounded once to the exact result
rounded once. -/
theorem exists_operate_eq {p : ℕ} (hp : p ≤ 15) (o : Operator) {a b : ℚ} {x y : Double}
    (ha : OnGrid p a) (hb : OnGrid p b) (hc : OnGrid p (o.exact a b)) (h0 : o = .divide → b ≠ 0)
    (hx : Rounds a x) (hy : Rounds b y) :
    ∃ steps z, operate p o x y = ⟨steps, .ok z⟩ ∧ Rounds (o.exact a b) z := by
  obtain ⟨hxfinite, hxerror⟩ := hx.abs_sub_le_of_onGrid hp ha
  obtain ⟨hyfinite, hyerror⟩ := hy.abs_sub_le_of_onGrid hp hb
  obtain ⟨herror, hy0⟩ := o.abs_exact_sub_mul_le ha hb hc h0 hxerror hyerror
  obtain ⟨hfinite, hrounds⟩ := rounds_rounded hp hc herror (o.rounds_apply hxfinite hyfinite hy0)
  have hdivisor : ¬ (o = .divide ∧ y.isZero) := fun h => hy0 h.1 ((isZero_iff hyfinite).1 h.2)
  rw [operate, if_neg hdivisor, if_pos hfinite]
  exact ⟨_, _, rfl, hrounds⟩

/-! ## Literals -/

/-- A literal is read as the double nearest to the number that it denotes. -/
theorem Literal.rounds_value (l : Literal) : Rounds l.exact l.value := by
  have h := Decimal.rounds_toDouble l.numeral.negative l.numeral.magnitude
  have hexact : l.exact = signRat l.numeral.negative * l.numeral.magnitude.value := by
    rw [exact, Numeral.value]
    cases l.numeral.negative <;> simp [signRat]
  rw [hexact]
  exact h

/-! ## Expressions -/

namespace Tree

/-- The exact value of an expression. -/
def exact : Tree Literal → ℚ
  | leaf l => l.exact
  | node o left right => o.exact left.exact right.exact

/-- Every literal and every exact result is on the grid of `p` decimal places, and no divisor is
zero. -/
def IsDecimal (p : ℕ) : Tree Literal → Prop
  | leaf l => OnGrid p l.exact
  | node o left right =>
    left.IsDecimal p ∧ right.IsDecimal p ∧ (o = .divide → right.exact ≠ 0) ∧
      OnGrid p (o.exact left.exact right.exact)

/-- The value of a decimal expression is on the grid. -/
theorem IsDecimal.onGrid {p : ℕ} {t : Tree Literal} (h : t.IsDecimal p) : OnGrid p t.exact := by
  cases t with
  | leaf l => exact h
  | node o left right => exact h.2.2.2

/-- The literals of a decimal expression have finite values. -/
theorem IsDecimal.isFinite {p : ℕ} (hp : p ≤ 15) {t : Tree Literal} (h : t.IsDecimal p) :
    ∀ l ∈ t.operands, l.value.isFinite := by
  induction t with
  | leaf l =>
    intro l' hl'
    rw [List.mem_singleton.1 hl']
    exact (l.rounds_value.abs_sub_le_of_onGrid hp h).1
  | node o left right ihl ihr => exact List.forall_mem_append.2 ⟨ihl h.1, ihr h.2.1⟩

/-- A decimal expression is computed to the double nearest to its exact value. -/
theorem exists_evaluate_eq {p : ℕ} (hp : p ≤ 15) (t : Tree Literal) (h : t.IsDecimal p) :
    ∃ steps x, (t.map Literal.value).evaluate p = ⟨steps, .ok x⟩ ∧ Rounds t.exact x := by
  induction t with
  | leaf l => exact ⟨[], l.value, rfl, l.rounds_value⟩
  | node o left right ihl ihr =>
    obtain ⟨hleft, hright, h0, hc⟩ := h
    obtain ⟨before, x, hx, hxrounds⟩ := ihl hleft
    obtain ⟨between, y, hy, hyrounds⟩ := ihr hright
    obtain ⟨after, z, hz, hzrounds⟩ :=
      exists_operate_eq hp o hleft.onGrid hright.onGrid hc h0 hxrounds hyrounds
    refine ⟨before ++ (between ++ after), z, ?_, hzrounds⟩
    rw [map, evaluate, hx, hy]
    simp only [Progress.andThen, hz]

end Tree

end Keypad
