import Keypad.Evaluation
import Keypad.Proofs.Double.Places

/-!
# Expression trees and their postorder

A tree has numbers at its leaves and operators at its nodes. `Tree.evaluate` computes it by
recursion, the left operand before the right one, and `Tree.postorder` lists its items in the order
in which the stack machine wants them. `run_postorder_append` is the correctness of that machine on
trees: whatever is on the stack and whatever follows, the postorder of a tree leaves the value of
the tree on top, records the same operations, and stops at the same fault.

`Progress` is what an evaluation has come to: the recorded operations, and a value or a fault. Two
of them in a row are joined by `andThen`. -/

namespace Keypad

/-- The operation on two doubles, without any check. -/
def Operator.apply : Operator → Double → Double → Double
  | .add, x, y => x.add y
  | .subtract, x, y => x.sub y
  | .multiply, x, y => x.mul y
  | .divide, x, y => x.div y

/-- The operations recorded so far, and the value, or the fault that ended the evaluation. -/
structure Progress where
  /-- The recorded operations, in order. -/
  steps : List Step
  /-- The value or the fault. -/
  outcome : Except Fault Double

namespace Progress

/-- A value that needs no operation. -/
def value (x : Double) : Progress := ⟨[], .ok x⟩

/-- Goes on with the value, if there is one. -/
def andThen (a : Progress) (next : Double → Progress) : Progress :=
  match a.outcome with
  | .ok x => ⟨a.steps ++ (next x).steps, (next x).outcome⟩
  | .error fault => ⟨a.steps, .error fault⟩

/-- Goes on with the value on the stack machine, if there is one. -/
def resume (a : Progress) (next : Double → Evaluation) : Evaluation :=
  match a.outcome with
  | .ok x => ⟨a.steps ++ (next x).steps, (next x).outcome⟩
  | .error fault => ⟨a.steps, .error (.fault fault)⟩

@[simp]
theorem value_resume (x : Double) (next : Double → Evaluation) :
    (value x).resume next = next x := rfl

/-- Going on twice is going on once with both. -/
theorem andThen_resume (a : Progress) (f : Double → Progress) (g : Double → Evaluation) :
    (a.andThen f).resume g = a.resume fun x => (f x).resume g := by
  obtain ⟨steps, outcome⟩ := a
  cases outcome with
  | error fault => rfl
  | ok x =>
    unfold andThen resume
    dsimp only
    cases (f x).outcome with
    | error fault => rfl
    | ok y => simp only [List.append_assoc]

/-- Going on does not end with a fault that neither of the two ends with. -/
theorem andThen_outcome_ne {a : Progress} {next : Double → Progress} {fault : Fault}
    (ha : a.outcome ≠ .error fault) (hnext : ∀ x, (next x).outcome ≠ .error fault) :
    (a.andThen next).outcome ≠ .error fault := by
  obtain ⟨steps, outcome⟩ := a
  cases outcome with
  | error found => exact ha
  | ok x => exact hnext x

/-- Going on ends with a fault when there was one already, or when going on finds it. -/
theorem resume_outcome_eq_error_iff {a : Progress} {next : Double → Evaluation} {fault : Fault} :
    (a.resume next).outcome = .error (.fault fault) ↔
      a.outcome = .error fault ∨
        ∃ x, a.outcome = .ok x ∧ (next x).outcome = .error (.fault fault) := by
  obtain ⟨steps, outcome⟩ := a
  cases outcome with
  | error found => simp [resume]
  | ok x => simp [resume]

end Progress

/-- One operation: the divisor is checked, then the result, which is then rounded and recorded. -/
def operate (precision : ℕ) (o : Operator) (left right : Double) : Progress :=
  if o = .divide ∧ right.isZero then ⟨[], .error .divisionByZero⟩
  else if (o.apply left right).isFinite then
    ⟨[⟨left, o.text, right, (o.apply left right).rounded precision⟩],
      .ok ((o.apply left right).rounded precision)⟩
  else ⟨[], .error .notFinite⟩

/-- One operation stops at a fault, which is about no token, or records its finite result rounded.
-/
theorem operate_cases (p : ℕ) (o : Operator) (left right : Double) :
    (∃ fault, operate p o left right = ⟨[], .error fault⟩ ∧ fault.kind ≠ .malformedToken) ∨
      (o.apply left right).isFinite ∧
        operate p o left right =
          ⟨[⟨left, o.text, right, (o.apply left right).rounded p⟩],
            .ok ((o.apply left right).rounded p)⟩ := by
  unfold operate
  split_ifs with hzero hfinite
  · exact .inl ⟨_, rfl, by simp [Fault.kind]⟩
  · exact .inr ⟨hfinite, rfl⟩
  · exact .inl ⟨_, rfl, by simp [Fault.kind]⟩

/-- An operation fails for its divisor, which is zero then, or for its result. -/
theorem operate_outcome_eq_error {p : ℕ} {o : Operator} {left right : Double} {fault : Fault}
    (h : (operate p o left right).outcome = .error fault) :
    fault = .divisionByZero ∧ o = .divide ∧ right.isZero ∨ fault = .notFinite := by
  unfold operate at h
  split_ifs at h with hzero
  · exact .inl ⟨(Except.error.inj h).symm, hzero⟩
  · exact .inr (Except.error.inj h).symm

/-- A division by zero is one. -/
theorem operate_divide_of_isZero {p : ℕ} {left right : Double} (h : right.isZero) :
    operate p .divide left right = ⟨[], .error .divisionByZero⟩ := if_pos ⟨rfl, h⟩

/-- An expression with operands of some type. -/
inductive Tree (α : Type) where
  /-- An operand. -/
  | leaf (operand : α)
  /-- An operator with its two sides. -/
  | node (o : Operator) (left right : Tree α)

namespace Tree

variable {α β : Type}

/-- The same operators between other operands. -/
def map (f : α → β) : Tree α → Tree β
  | leaf a => .leaf (f a)
  | node o left right => .node o (left.map f) (right.map f)

/-- The operands from left to right. -/
def operands : Tree α → List α
  | leaf a => [a]
  | node _ left right => left.operands ++ right.operands

/-- The items of a tree, operands before their operator. -/
def postorder : Tree Double → List Item
  | leaf x => [.number x]
  | node o left right => left.postorder ++ right.postorder ++ [.operator o]

/-- Computes a tree, the left side first. -/
def evaluate (precision : ℕ) : Tree Double → Progress
  | leaf x => .value x
  | node o left right =>
    (left.evaluate precision).andThen fun x =>
      (right.evaluate precision).andThen fun y => operate precision o x y

end Tree

namespace Evaluation

/-- An operator with two operands on the stack carries out one operation. -/
theorem run_operator {p : ℕ} (hp : p ≤ 15) (o : Operator) (left right : Double)
    (operands : List Double) (items : List Item) :
    run p (right :: left :: operands) (.operator o :: items) =
      (operate p o left right).resume fun result => run p (result :: operands) items := by
  have hcompute : o.compute? left right =
      if o = .divide ∧ right.isZero then none else some (o.apply left right) := by
    cases o <;> simp [Operator.compute?, Operator.apply]
  rw [run, reduce, hcompute, operate]
  split_ifs with hzero hfinite
  · rfl
  · dsimp only
    rw [if_pos hfinite, Double.roundHalfUp_eq hp]
    rfl
  · dsimp only
    rw [if_neg hfinite]
    rfl

/-- The postorder of a tree puts the value of the tree on the stack. -/
theorem run_postorder_append {p : ℕ} (hp : p ≤ 15) (t : Tree Double) (operands : List Double)
    (items : List Item) :
    run p operands (t.postorder ++ items) =
      (t.evaluate p).resume fun x => run p (x :: operands) items := by
  induction t generalizing operands items with
  | leaf x =>
    rw [Tree.postorder, Tree.evaluate, Progress.value_resume, List.singleton_append, run]
  | node o left right ihl ihr =>
    -- The right side runs on a stack with the value of the left side on top, then the operator
    -- finds both values there.
    rw [Tree.postorder, Tree.evaluate, List.append_assoc, List.append_assoc, ihl,
      Progress.andThen_resume]
    congr 1
    funext x
    rw [ihr, Progress.andThen_resume]
    congr 1
    funext y
    rw [List.singleton_append, run_operator hp]

/-- The postorder of a tree evaluates to the value of the tree. -/
theorem ofItems_postorder {p : ℕ} (hp : p ≤ 15) (t : Tree Double) :
    ofItems p t.postorder = (t.evaluate p).resume fun x => ⟨[], .ok x⟩ := by
  have h := run_postorder_append hp t [] []
  rw [List.append_nil] at h
  rw [ofItems, h]
  rfl

end Evaluation

end Keypad
