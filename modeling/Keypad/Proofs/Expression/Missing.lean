import Keypad.Proofs.Expression.Balance
import Keypad.Proofs.Expression.Waiting

/-!
# Missing operands

What becomes of an expression in which an operator has no operand behind it. Nothing notices at that
place. But from there on there are fewer operands on the stack than the waiting operators need, and
this stays so, since what follows adds at most one operand for every operator. `Short` states it for
the two places at which the tokens can be: where an operand may follow, and behind one. An operator
that would divide by something else than what is written behind it finds no two operands then, so
that no division by zero comes of it (`Short.ne_divisionByZero`). -/

namespace Keypad

/-- The token is read as zero. -/
def Token.IsZero (token : String) : Prop := ∃ x, Numeral.parse? token = some x ∧ x.isZero

/-- A division sign stands directly in front of a token that is read as zero. -/
def Token.DividesByZero (tokens : List String) : Prop :=
  ∃ token, IsZero token ∧ [Operator.divide.text, token] <:+: tokens

/-- What holds of a part of the tokens holds of all. -/
theorem Token.DividesByZero.of_part {part tokens : List String} (h : DividesByZero part)
    (hpart : part <:+: tokens) : DividesByZero tokens := by
  obtain ⟨zero, hread, hwithin⟩ := h
  exact ⟨zero, hread, hwithin.trans hpart⟩

/-- The tokens do not begin with a number. -/
def Token.NoOperand (tokens : List String) : Prop :=
  ∀ token ∈ tokens.head?, Numeral.parse? token = none

/-- The symbol of an operator is not read as a number. -/
theorem Token.IsOperator.parse?_eq_none {token : String} (h : IsOperator token) :
    Numeral.parse? token = none := by
  obtain ⟨o, rfl⟩ := h
  cases o <;> rfl

/-- Behind a token that is no operator stands an operator, if anything. -/
theorem Token.noOperand_of_separated {token : String} {tokens : List String}
    (h : (token :: tokens).IsChain Separated)
    (htoken : ∀ o, TokenKind.ofToken token ≠ .operator o) :
    NoOperand tokens := by
  intro next hnext
  have hpair : Separated token next := (List.isChain_cons.1 h).1 next hnext
  refine (hpair.resolve_left ?_).parse?_eq_none
  rintro ⟨o, rfl⟩
  exact htoken o o.ofToken_text

namespace Evaluation

/-- A division on top of the waiting operators does not find two operands of which the second is
zero. -/
def SafeDivision (waiting : List Operator) (operands : List Double) : Prop :=
  waiting.head? = some .divide → operands.length < 2 ∨ ∀ x ∈ operands.head?, x.isZero = false

/-- When waiting operators are applied and a division by zero comes of it, then of what follows
them, each of them having taken one operand away. -/
theorem exists_run_of_waiting {p : ℕ} (hp : p ≤ 15) {waiting : List Operator}
    (hdivide : Operator.divide ∉ waiting.tail) {operands : List Double}
    (hsafe : SafeDivision waiting operands) {items : List Item}
    (h : (run p operands (waiting.map .operator ++ items)).outcome =
      .error (.fault .divisionByZero)) :
    ∃ rest, rest.length + waiting.length = operands.length ∧
      (run p rest items).outcome = .error (.fault .divisionByZero) := by
  induction waiting generalizing operands with
  | nil => exact ⟨operands, rfl, h⟩
  | cons o waiting ih =>
    rw [List.tail_cons] at hdivide
    rw [List.map_cons, List.cons_append] at h
    rcases operands with _ | ⟨right, _ | ⟨left, operands⟩⟩
    · cases h
    · cases h
    · rw [run_operator hp, Progress.resume_outcome_eq_error_iff] at h
      obtain hoperation | ⟨x, -, hrest⟩ := h
      · obtain ⟨-, rfl, hzero⟩ | hfinite := operate_outcome_eq_error hoperation
        · obtain hfew | hright := hsafe rfl
          · simp only [List.length_cons] at hfew
            omega
          · simp [hzero] at hright
        · cases hfinite
      · -- The operators below are no divisions.
        have hbelow : SafeDivision waiting (x :: operands) :=
          fun hhead => absurd (List.mem_of_head? hhead) hdivide
        obtain ⟨rest, hlength, hrest⟩ :=
          ih (fun hmem => hdivide (List.mem_of_mem_tail hmem)) hbelow hrest
        refine ⟨rest, ?_, hrest⟩
        simp only [List.length_cons] at hlength ⊢
        omega

/-- There are fewer operands than the waiting operators and the tokens need. -/
inductive Short (waiting : List Operator) (operands : List Double) (tokens : List String) : Prop
  /-- In front of a place where an operand may follow. -/
  | front : operands.length < waiting.length →
      (waiting.head? = some .divide → ∀ token ∈ tokens.head?, ¬ Token.IsZero token) →
      Short waiting operands tokens
  /-- Where no operand follows. -/
  | behind : operands.length ≤ waiting.length → SafeDivision waiting operands →
      Token.NoOperand tokens → Short waiting operands tokens

namespace Short

variable {waiting : List Operator} {operands : List Double} {tokens : List String}

/-- There are not more operands than waiting operators, and if no operand follows, a division finds
no zero. -/
theorem length_le (h : Short waiting operands tokens) (hlevelled : Operator.Levelled waiting) :
    operands.length ≤ waiting.length ∧ SafeDivision waiting operands := by
  have htwo := hlevelled.length_le
  cases h with
  | front hlt => exact ⟨by omega, fun _ => .inl (by omega)⟩
  | behind hle hsafe => exact ⟨hle, hsafe⟩

/-- As long as operands are missing, nothing is divided by zero. -/
theorem ne_divisionByZero {p : ℕ} (hp : p ≤ 15) (h : Short waiting operands tokens)
    (hlevelled : Operator.Levelled waiting) (hseparated : tokens.IsChain Token.Separated)
    (hzero : ¬ Token.DividesByZero tokens) :
    (run p operands (Postfix.order waiting tokens).1).outcome ≠
      .error (.fault .divisionByZero) := by
  intro hrun
  induction tokens generalizing waiting operands with
  | nil =>
    obtain ⟨-, hsafe⟩ := h.length_le hlevelled
    rw [Postfix.order, ← List.append_nil (waiting.map Item.operator)] at hrun
    obtain ⟨rest, -, hrest⟩ :=
      exists_run_of_waiting hp hlevelled.divide_not_mem_tail hsafe hrun
    rcases rest with _ | ⟨x, _ | ⟨y, rest⟩⟩ <;> cases hrest
  | cons token tokens ih =>
    obtain ⟨hle, hsafe⟩ := h.length_le hlevelled
    have htail := hseparated.tail
    have hzero' : ¬ Token.DividesByZero tokens := fun hpart =>
      hzero (hpart.of_part (List.suffix_cons token tokens).isInfix)
    cases htoken : TokenKind.ofToken token with
    | number x =>
      have hread := TokenKind.parse?_of_ofToken htoken
      have hnext := Token.noOperand_of_separated hseparated fun o => by simp [htoken]
      rw [Postfix.order_number htoken, run] at hrun
      cases h with
      | behind _ _ hnone => cases hread.symm.trans (hnone token rfl)
      | front hlt hdivisor =>
        -- The operand fills the place, and a division that waits for it does not find a zero.
        have hdivision : SafeDivision waiting (x :: operands) := by
          refine fun hhead => .inr fun y hy => ?_
          cases hy
          by_contra hx
          exact hdivisor hhead token rfl ⟨x, hread, by simpa using hx⟩
        have hbehind : Short waiting (x :: operands) tokens := .behind hlt hdivision hnext
        exact ih hbehind hlevelled htail hzero' hrun
    | operator o =>
      obtain rfl := TokenKind.eq_text_of_ofToken htoken
      rw [Postfix.order_operator] at hrun
      have happlied : Operator.Levelled (waiting.takeWhile o.yieldsTo) :=
        hlevelled.sublist (List.takeWhile_sublist o.yieldsTo)
      have hdivision : SafeDivision (waiting.takeWhile o.yieldsTo) operands := by
        intro hhead
        rw [List.head?_takeWhile, Option.filter_eq_some_iff] at hhead
        exact hsafe hhead.1
      obtain ⟨rest, hlength, hrest⟩ :=
        exists_run_of_waiting hp happlied.divide_not_mem_tail hdivision hrun
      -- As many operands as operators are gone, and the new one waits for one more.
      have hsplit : (waiting.takeWhile o.yieldsTo).length +
          (waiting.dropWhile o.yieldsTo).length = waiting.length := by
        rw [← List.length_append, List.takeWhile_append_dropWhile]
      have hlt : rest.length < (o :: waiting.dropWhile o.yieldsTo).length := by
        rw [List.length_cons]
        omega
      have hfront : Short (o :: waiting.dropWhile o.yieldsTo) rest tokens := by
        refine .front hlt fun hhead next hnext hread => hzero ⟨next, hread, ?_⟩
        cases hhead
        obtain ⟨tokens, rfl⟩ := List.head?_eq_some_iff.1 hnext
        exact (List.prefix_append [Operator.divide.text, next] tokens).isInfix
      exact ih hfront (Operator.levelled_cons_dropWhile hlevelled o) htail hzero' hrest
    | unrecognised =>
      have hnext := Token.noOperand_of_separated hseparated fun o => by simp [htoken]
      rw [Postfix.order_unrecognised htoken] at hrun
      exact ih (.behind hle hsafe hnext) hlevelled htail hzero' hrun

end Short

end Evaluation

end Keypad
