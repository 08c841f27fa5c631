import Keypad.Proofs.Expression.Tree

/-!
# The course of an evaluation

What can happen to the items of an evaluation, one after the other: a number becomes an operand, an
operator takes two operands and its rounded result becomes one, and at any other item the evaluation
stops. `Course` relates the operands and the items to what comes of them, and every evaluation has
such a course (`course_run`). What is to be shown of all evaluations is shown by induction on it, so
that the checks of the stack machine are looked at in one place only. -/

namespace Keypad.Evaluation

/-- The course of an evaluation of items that finds operands on the stack. -/
inductive Course (p : ℕ) : List Double → List Item → Evaluation → Prop
  /-- The items are used up and one operand is left, which is the value. -/
  | value (x : Double) : Course p [x] [] ⟨[], .ok x⟩
  /-- The items are used up and no operand is left, or more than one. -/
  | leftover {operands} : operands.length ≠ 1 →
      Course p operands [] ⟨[], .error (.fault (.leftover operands.length))⟩
  /-- A number becomes an operand. -/
  | number {operands items e} (x : Double) : Course p (x :: operands) items e →
      Course p operands (.number x :: items) e
  /-- The finite result of an operator is rounded, recorded, and becomes an operand. -/
  | operation {operands items e} (o : Operator) (left right : Double) :
      (o.apply left right).isFinite →
      Course p ((o.apply left right).rounded p :: operands) items e →
      Course p (right :: left :: operands) (.operator o :: items)
        ⟨⟨left, o.text, right, (o.apply left right).rounded p⟩ :: e.steps, e.outcome⟩
  /-- At an operator that cannot be applied, or at something else, the evaluation stops. -/
  | stop {operands item items fault} : (∀ x, item ≠ .number x) → fault.kind ≠ .malformedToken →
      Course p operands (item :: items) ⟨[], .error (.fault fault)⟩

/-- Every evaluation takes its course. -/
theorem course_run {p : ℕ} (hp : p ≤ 15) (operands : List Double) (items : List Item) :
    Course p operands items (run p operands items) := by
  induction items generalizing operands with
  | nil =>
    rcases operands with _ | ⟨x, _ | ⟨y, operands⟩⟩
    · exact .leftover (by simp)
    · exact .value x
    · exact .leftover (by simp)
  | cons item items ih =>
    cases item with
    | number x =>
      rw [run]
      exact .number x (ih (x :: operands))
    | operator o =>
      have hoperator : ∀ x, Item.operator o ≠ .number x := by simp
      rcases operands with _ | ⟨right, _ | ⟨left, operands⟩⟩
      · exact .stop hoperator (by simp [Fault.kind])
      · exact .stop hoperator (by simp [Fault.kind])
      · rw [run_operator hp]
        obtain ⟨fault, hoperate, hkind⟩ | ⟨hfinite, hoperate⟩ := operate_cases p o left right
        · rw [hoperate]
          exact .stop hoperator hkind
        · rw [hoperate]
          exact .operation o left right hfinite (ih _)
    | foreign shown =>
      rw [run]
      exact .stop (by simp) (by simp [Fault.kind])

end Keypad.Evaluation
