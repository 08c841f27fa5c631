import Keypad.Proofs.Expression.Balance

/-!
# How many operations are recorded

Every operator that the stack machine carries out is recorded once, so the number of recorded
operations tells how far an evaluation has come. Either it has used up its items (`Completes`), and
then there are as many operations as operators, or it has stopped at an operator, which is not
recorded any more (`completes_or_stops`). With a value, all operators were carried out, and the
value is the result of the last of them (`steps_of_value`).

A complete evaluation may nevertheless end without a value, since any number of operands may be left
over. But no more are left than there are numbers in excess of operators, and once an operation has
been carried out its result stays. So with an excess of one at most, an evaluation without a value
has either stopped or has had nothing to carry out (`steps_of_fault`). -/

namespace Keypad

/-- The item is an operator. -/
def Item.isOperator : Item → Bool
  | .operator _ => true
  | _ => false

/-- The item is neither a number nor an operator. -/
def Item.isForeign : Item → Bool
  | .foreign _ => true
  | _ => false

/-- Numbers and operators are as many as the excess of numbers and twice the operators. -/
theorem Item.length_eq_balance_add {items : List Item}
    (h : ∀ item ∈ items, item.isForeign = false) :
    (items.length : ℤ) = balance items + 2 * items.countP isOperator := by
  induction items with
  | nil => rfl
  | cons item items ih =>
    obtain ⟨hitem, hrest⟩ := List.forall_mem_cons.1 h
    have hlength := ih hrest
    rw [List.length_cons, balance_cons, List.countP_cons]
    cases item with
    | number x =>
      simp only [gain, isOperator]
      push_cast
      omega
    | operator o =>
      simp only [gain, isOperator]
      push_cast
      omega
    | foreign shown => cases hitem

namespace Evaluation

/-- What an evaluation comes to that uses up the items, with the operands that are left then. -/
structure Completes (operands : List Double) (items : List Item) (left : List Double)
    (e : Evaluation) : Prop where
  /-- There is a value exactly when one operand is left, which is the value then. -/
  outcome_eq_ok_iff : ∀ x, e.outcome = .ok x ↔ left = [x]
  /-- As many operations are recorded as there are operators. -/
  length_steps : e.steps.length = items.countP Item.isOperator
  /-- Each number has added an operand and each operator has taken one away. -/
  length_left : (left.length : ℤ) = operands.length + Item.balance items
  /-- The last result has not been used. -/
  last_mem : ∀ step ∈ e.steps.getLast?, step.result ∈ left
  /-- Without an operation no operand has been used. -/
  subset_left : e.steps = [] → operands ⊆ left

section Course

variable {p : ℕ} {operands left : List Double} {items : List Item} {e : Evaluation}

/-- Without items the operands are left. -/
theorem Completes.nil {outcome : Except Stop Double}
    (h : ∀ x, outcome = .ok x ↔ operands = [x]) : Completes operands [] operands ⟨[], outcome⟩ where
  outcome_eq_ok_iff := h
  length_steps := rfl
  length_left := by simp [Item.balance]
  last_mem := fun step hstep => by cases hstep
  subset_left := fun _ => List.Subset.refl _

/-- An evaluation that goes on behind a number completes as the rest does. -/
theorem Completes.number {x : Double} (h : Completes (x :: operands) items left e) :
    Completes operands (.number x :: items) left e where
  outcome_eq_ok_iff := h.outcome_eq_ok_iff
  length_steps := by
    rw [h.length_steps, List.countP_cons]
    rfl
  length_left := by
    have hlength := h.length_left
    rw [List.length_cons] at hlength
    rw [Item.balance_cons, Item.gain, hlength]
    push_cast
    ring
  last_mem := h.last_mem
  subset_left := fun hnone => (List.cons_subset.1 (h.subset_left hnone)).2

/-- An evaluation that goes on behind an operation completes as the rest does. -/
theorem Completes.operation {o : Operator} {x y : Double} {step : Step}
    (h : Completes (step.result :: operands) items left e) :
    Completes (y :: x :: operands) (.operator o :: items) left ⟨step :: e.steps, e.outcome⟩ where
  outcome_eq_ok_iff := h.outcome_eq_ok_iff
  length_steps := by
    rw [List.length_cons, h.length_steps, List.countP_cons]
    rfl
  length_left := by
    have hlength := h.length_left
    rw [List.length_cons] at hlength
    rw [Item.balance_cons, Item.gain, hlength, List.length_cons, List.length_cons]
    push_cast
    ring
  last_mem := by
    intro last hlast
    rw [List.getLast?_cons, Option.mem_some_iff] at hlast
    cases hrest : e.steps.getLast? with
    | none =>
      -- The operation is the last one, and its result is not used behind it.
      have hnone := List.getLast?_eq_none_iff.1 hrest
      rw [hrest, Option.getD_none] at hlast
      rw [← hlast]
      exact (List.cons_subset.1 (h.subset_left hnone)).1
    | some other =>
      rw [hrest, Option.getD_some] at hlast
      subst hlast
      exact h.last_mem other hrest
  subset_left := fun hnone => absurd hnone (List.cons_ne_nil _ _)

/-- An evaluation of numbers and operators uses up its items, or it stops at an operator, which is
not recorded. -/
theorem completes_or_stops (h : Course p operands items e)
    (hitems : ∀ item ∈ items, item.isForeign = false) :
    (∃ left, Completes operands items left e) ∨
      (∀ x, e.outcome ≠ .ok x) ∧ e.steps.length < items.countP Item.isOperator := by
  induction h with
  | value x =>
    refine .inl ⟨[x], .nil fun y => ?_⟩
    simp
  | @leftover operands hlength =>
    refine .inl ⟨operands, .nil fun x => ?_⟩
    -- One operand would be the value.
    have hne : operands ≠ [x] := fun heq => hlength (heq ▸ rfl)
    simp [hne]
  | number x _ ih =>
    obtain ⟨left, hleft⟩ | ⟨hnovalue, hlt⟩ := ih (List.forall_mem_cons.1 hitems).2
    · exact .inl ⟨left, hleft.number⟩
    · refine .inr ⟨hnovalue, ?_⟩
      rw [List.countP_cons]
      exact Nat.lt_add_right _ hlt
  | operation o x y _ _ ih =>
    obtain ⟨left, hleft⟩ | ⟨hnovalue, hlt⟩ := ih (List.forall_mem_cons.1 hitems).2
    · exact .inl ⟨left, hleft.operation⟩
    · refine .inr ⟨hnovalue, ?_⟩
      rw [List.length_cons, List.countP_cons]
      exact Nat.succ_lt_succ hlt
  | @stop operands item items fault hnumber _ =>
    obtain ⟨hitem, -⟩ := List.forall_mem_cons.1 hitems
    -- Neither a number nor anything else, the item is an operator.
    have hoperator : item.isOperator := by
      cases item with
      | number x => exact absurd rfl (hnumber x)
      | operator o => rfl
      | foreign shown => cases hitem
    refine .inr ⟨by simp, ?_⟩
    rw [List.countP_cons_of_pos hoperator]
    exact Nat.succ_pos _

/-- Each recorded result is a finite double rounded to the decimal places. -/
theorem exists_rounded_of_mem_steps (h : Course p operands items e) {step : Step}
    (hstep : step ∈ e.steps) : ∃ x : Double, x.isFinite ∧ step.result = x.rounded p := by
  induction h with
  | value x => cases hstep
  | leftover => cases hstep
  | number x _ ih => exact ih hstep
  | operation o x y hfinite _ ih =>
    obtain rfl | hrest := List.mem_cons.1 hstep
    · exact ⟨_, hfinite, rfl⟩
    · exact ih hrest
  | stop => cases hstep

end Course

section Value

variable {p : ℕ} {items : List Item}

/-- An evaluation with a value has recorded an operation for each operator, and the value is the
result of the last one. -/
theorem steps_of_value (hp : p ≤ 15) (hitems : ∀ item ∈ items, item.isForeign = false) {x : Double}
    (h : (ofItems p items).outcome = .ok x) :
    (ofItems p items).steps.length = items.countP Item.isOperator ∧
      Item.balance items = 1 ∧ ∀ step ∈ (ofItems p items).steps.getLast?, step.result = x := by
  have hcourse : Course p [] items (ofItems p items) := course_run hp [] items
  obtain ⟨left, hleft⟩ | ⟨hnovalue, -⟩ := completes_or_stops hcourse hitems
  · obtain rfl := (hleft.outcome_eq_ok_iff x).1 h
    have hlength := hleft.length_left
    simp only [List.length_singleton, List.length_nil, Nat.cast_zero, zero_add] at hlength
    refine ⟨hleft.length_steps, hlength.symm, fun step hstep => ?_⟩
    exact List.mem_singleton.1 (hleft.last_mem step hstep)
  · exact absurd h (hnovalue x)

/-- An evaluation without a value of items with an excess of one at most has recorded fewer
operations than there are operators, unless there are none. -/
theorem steps_of_fault (hp : p ≤ 15) (hitems : ∀ item ∈ items, item.isForeign = false)
    (hbalance : Item.balance items ≤ 1) (h : ∀ x, (ofItems p items).outcome ≠ .ok x) :
    (ofItems p items).steps.length < items.countP Item.isOperator ∨
      items.countP Item.isOperator = 0 ∧ (ofItems p items).steps = [] := by
  have hcourse : Course p [] items (ofItems p items) := course_run hp [] items
  obtain ⟨left, hleft⟩ | ⟨-, hlt⟩ := completes_or_stops hcourse hitems
  · have hlength := hleft.length_left
    rw [List.length_nil, Nat.cast_zero, zero_add] at hlength
    rcases left with _ | ⟨x, _ | ⟨y, left⟩⟩
    · -- Nothing is left, not even the result of an operation.
      have hnone : (ofItems p items).steps = [] := by
        cases hlast : (ofItems p items).steps.getLast? with
        | none => exact List.getLast?_eq_none_iff.1 hlast
        | some step => exact absurd (hleft.last_mem step hlast) List.not_mem_nil
      have hcount := hleft.length_steps
      rw [hnone, List.length_nil] at hcount
      exact .inr ⟨hcount.symm, hnone⟩
    · exact absurd ((hleft.outcome_eq_ok_iff x).2 rfl) (h x)
    · -- Two operands and more are more than the excess.
      rw [List.length_cons, List.length_cons] at hlength
      omega
  · exact .inl hlt

end Value

end Evaluation

end Keypad
