import Keypad.Proofs.Expression.Course

/-!
# Only a postorder has a value

The stack machine accepts the postorders of trees and nothing else. That it computes them is
`ofItems_postorder`; here is the converse. `Tree.assemble` runs the stack machine on trees in place
of numbers, without any check of values. It succeeds exactly on the postorder of a tree, which it
gives back (`assemble_eq_some_iff`), so that a postorder belongs to one tree only. An evaluation that
comes to a value has never found the stack too short and has left one operand on it, so that
`assemble` succeeds as well (`exists_assemble_of_course`).

Nothing that follows an item can change what has been recorded before it: the operations recorded
for a beginning of the items are the first ones recorded for all of them
(`steps_run_prefix_append`). -/

namespace Keypad

namespace Tree

/-- The items of the trees on a stack, the last one first. -/
def stackedItems : List (Tree Double) → List Item
  | [] => []
  | t :: stack => stackedItems stack ++ t.postorder

/-- Puts a tree together from its items, when the trees of the items in front of them, the last one
first, are on the stack. -/
def assemble : (stack : List (Tree Double)) → List Item → Option (Tree Double)
  | [t], [] => some t
  | stack, .number x :: items => assemble (.leaf x :: stack) items
  | right :: left :: stack, .operator o :: items => assemble (.node o left right :: stack) items
  | _, _ => none

/-- The items of a tree put the tree on the stack. -/
theorem assemble_postorder_append (t : Tree Double) (stack : List (Tree Double))
    (items : List Item) : assemble stack (t.postorder ++ items) = assemble (t :: stack) items := by
  induction t generalizing stack items with
  | leaf x => rw [postorder, List.singleton_append, assemble]
  | node o left right ihl ihr =>
    rw [postorder, List.append_assoc, List.append_assoc, ihl, ihr, List.singleton_append, assemble]

/-- What is put together has the items that were stacked and those that followed. -/
theorem postorder_of_assemble {stack : List (Tree Double)} {items : List Item} {t : Tree Double}
    (h : assemble stack items = some t) : t.postorder = stackedItems stack ++ items := by
  fun_induction assemble stack items with
  | case1 u =>
    obtain rfl := Option.some.inj h
    simp [stackedItems]
  | case2 stack x items ih => simp [ih h, stackedItems, postorder]
  | case3 right left stack o items ih => simp [ih h, stackedItems, postorder]
  | case4 => cases h

/-- Items are put together to a tree exactly when they are its postorder. -/
theorem assemble_eq_some_iff {items : List Item} {t : Tree Double} :
    assemble [] items = some t ↔ t.postorder = items := by
  constructor
  · exact postorder_of_assemble
  · rintro rfl
    have h := assemble_postorder_append t [] []
    rwa [List.append_nil, assemble] at h

end Tree

namespace Evaluation

variable {p : ℕ}

/-- Where an evaluation comes to a value, trees in place of the operands are put together to a tree.
-/
theorem exists_assemble_of_course {operands : List Double} {items : List Item} {e : Evaluation}
    {x : Double} (h : Course p operands items e) (hx : e.outcome = .ok x)
    (stack : List (Tree Double)) (hstack : stack.length = operands.length) :
    ∃ t, Tree.assemble stack items = some t := by
  induction h generalizing stack with
  | value y =>
    obtain ⟨t, rfl⟩ := List.length_eq_one_iff.1 hstack
    exact ⟨t, rfl⟩
  | leftover => cases hx
  | number y _ ih =>
    rw [Tree.assemble]
    exact ih hx _ (congrArg Nat.succ hstack)
  | operation o left right _ _ ih =>
    -- There is a tree for each of the two operands, and the tree of the operation for its result.
    obtain ⟨r, stack, rfl⟩ := List.exists_cons_of_length_eq_add_one hstack
    obtain ⟨l, stack, rfl⟩ := List.exists_cons_of_length_eq_add_one (Nat.succ.inj hstack)
    rw [Tree.assemble]
    exact ih hx _ (Nat.succ.inj hstack)
  | stop => cases hx

/-- What evaluates to a value is the postorder of exactly one tree. -/
theorem existsUnique_postorder_of_value (hp : p ≤ 15) {items : List Item} {x : Double}
    (h : (ofItems p items).outcome = .ok x) : ∃! t : Tree Double, t.postorder = items := by
  obtain ⟨t, ht⟩ := exists_assemble_of_course (course_run hp [] items) h [] rfl
  refine ⟨t, Tree.assemble_eq_some_iff.1 ht, fun u hu => ?_⟩
  exact Option.some.inj ((Tree.assemble_eq_some_iff.2 hu).symm.trans ht)

/-- An evaluation without a value ends with a fault that is about no token. -/
theorem exists_fault_of_course {operands : List Double} {items : List Item} {e : Evaluation}
    (h : Course p operands items e) (hvalue : ∀ x, e.outcome ≠ .ok x) :
    ∃ fault, e.outcome = .error (.fault fault) ∧ fault.kind ≠ .malformedToken := by
  induction h with
  | value x => exact absurd rfl (hvalue x)
  | leftover => exact ⟨_, rfl, by simp [Fault.kind]⟩
  | number _ _ ih => exact ih hvalue
  | operation _ _ _ _ _ ih => exact ih hvalue
  | stop _ hkind => exact ⟨_, rfl, hkind⟩

/-- Going on with more records more. -/
theorem steps_resume_prefix {a : Progress} {f g : Double → Evaluation}
    (h : ∀ x, (f x).steps <+: (g x).steps) : (a.resume f).steps <+: (a.resume g).steps := by
  obtain ⟨steps, outcome⟩ := a
  cases outcome with
  | error fault => exact List.prefix_rfl
  | ok x => exact (List.prefix_append_right_inj steps).2 (h x)

/-- The operations recorded for the first items are the first ones recorded for all of them. -/
theorem steps_run_prefix_append (hp : p ≤ 15) (operands : List Double) (items more : List Item) :
    (run p operands items).steps <+: (run p operands (items ++ more)).steps := by
  induction items generalizing operands with
  | nil =>
    -- At the end nothing is recorded, whatever is on the stack.
    have hnone : (run p operands []).steps = [] := by
      rcases operands with _ | ⟨x, _ | ⟨y, operands⟩⟩ <;> rfl
    rw [hnone]
    exact List.nil_prefix
  | cons item items ih =>
    rw [List.cons_append]
    cases item with
    | number x =>
      rw [run, run]
      exact ih (x :: operands)
    | operator o =>
      -- Without two operands both runs stop here; otherwise both begin with the same operation.
      rcases operands with _ | ⟨right, _ | ⟨left, operands⟩⟩
      · exact List.prefix_rfl
      · exact List.prefix_rfl
      · rw [run_operator hp, run_operator hp]
        exact steps_resume_prefix fun result => ih (result :: operands)
    | foreign shown =>
      rw [run, run]

/-- Evaluating the postorder of a tree gives what computing the tree gives, with the same operations
recorded, and any other sequence of items ends with a fault of an invalid expression or of a division
by zero. What is recorded for the first items stays at the front. -/
theorem ofItems_eq_tree_or_fault (hp : p ≤ 15) :
    (∀ t : Tree Double, (ofItems p t.postorder).steps = (t.evaluate p).steps ∧
      (ofItems p t.postorder).outcome = (t.evaluate p).outcome.mapError .fault) ∧
    (∀ items : List Item, (∃! t : Tree Double, t.postorder = items) ∨
      ∃ fault, (ofItems p items).outcome = .error (.fault fault) ∧
        (fault.kind = .invalidExpression ∨ fault.kind = .divisionByZero)) ∧
    ∀ items more : List Item, (ofItems p items).steps <+: (ofItems p (items ++ more)).steps := by
  refine ⟨fun t => ?_, fun items => ?_, steps_run_prefix_append hp []⟩
  · rw [ofItems_postorder hp]
    obtain ⟨steps, outcome⟩ := t.evaluate p
    cases outcome with
    | error fault => exact ⟨rfl, rfl⟩
    | ok x => exact ⟨List.append_nil steps, rfl⟩
  · by_cases hvalue : ∃ x, (ofItems p items).outcome = .ok x
    · obtain ⟨x, hx⟩ := hvalue
      exact .inl (existsUnique_postorder_of_value hp hx)
    · obtain ⟨fault, hfault, hkind⟩ :=
        exists_fault_of_course (course_run hp [] items) (not_exists.1 hvalue)
      refine .inr ⟨fault, hfault, ?_⟩
      cases h : fault.kind with
      | invalidExpression => exact .inl rfl
      | divisionByZero => exact .inr rfl
      | malformedToken => exact absurd h hkind

/-- The items of `1 + 2` with one more operator are those of no tree. The addition is recorded before
the evaluation ends with a fault. -/
theorem ofItems_eq_tree_or_fault_overfull :
    9 ≤ 15 ∧
    ⟨.ofInt 1, "+", .ofInt 2, .ofInt 3⟩ ∈ (ofItems 9
      [.number (.ofInt 1), .number (.ofInt 2), .operator .add, .operator .multiply]).steps ∧
    ∃ fault, (ofItems 9
      [.number (.ofInt 1), .number (.ofInt 2), .operator .add, .operator .multiply]).outcome =
        .error (.fault fault) ∧
      (fault.kind = .invalidExpression ∨ fault.kind = .divisionByZero) := by
  obtain ⟨htree, hfault, hprefix⟩ := ofItems_eq_tree_or_fault (p := 9) (by decide)
  have hsum : ((Tree.node .add (.leaf (.ofInt 1)) (.leaf (.ofInt 2))).evaluate 9).steps =
      [⟨.ofInt 1, "+", .ofInt 2, .ofInt 3⟩] := by decide +kernel
  have hfirst := hprefix (Tree.node .add (.leaf (.ofInt 1)) (.leaf (.ofInt 2))).postorder
    [.operator .multiply]
  rw [(htree _).1, hsum] at hfirst
  refine ⟨by decide, hfirst.subset List.mem_cons_self, (hfault _).resolve_left ?_⟩
  -- Two trees would be left.
  rintro ⟨t, ht, -⟩
  cases Tree.assemble_eq_some_iff.2 ht

end Evaluation

end Keypad
