import Keypad.Proofs.Calculator.Strict
import Keypad.Proofs.Double.Written
import Keypad.Proofs.Expression.Rearranged
import Keypad.Proofs.Expression.Steps

/-!
# Traces are faithful

A trace records the calculation that it belongs to (`exists_trace_isFaithful`): its result is the
result of the calculation, and what it lists for each stage is what the stage has produced, up to
the one at which the calculation has ended. `Trace.IsFaithful` says it for an expression, and with
it how the lists fit together: every token is either left out or has its place in the postfix order,
and the recorded operations are all operators of the postfix order after a success and not all of
them after an error.

The counts come from two facts about the stages. Putting tokens in postfix order keeps their number
and their balance (`length_order`), so the excess of numbers is at most one as it is among the
tokens. With such an excess an evaluation records all operators only if it comes to a value
(`Evaluation.steps_of_fault`). -/

namespace Keypad

/-! ## The postfix order and the tokens left out -/

namespace Postfix

/-- Every token and every waiting operator is put out or left out. -/
theorem length_order (waiting : List Operator) (tokens : List String) :
    (order waiting tokens).1.length + (order waiting tokens).2.length =
      tokens.length + waiting.length := by
  induction tokens generalizing waiting with
  | nil => simp [order]
  | cons token tokens ih =>
    rw [order, List.length_cons]
    cases htoken : TokenKind.ofToken token with
    | number x =>
      have hrest := ih waiting
      dsimp only
      rw [List.length_cons]
      omega
    | operator o =>
      have hrest := ih (o :: waiting.dropWhile o.yieldsTo)
      have hsplit : (waiting.takeWhile o.yieldsTo).length +
          (waiting.dropWhile o.yieldsTo).length = waiting.length := by
        rw [← List.length_append, List.takeWhile_append_dropWhile]
      dsimp only
      rw [List.length_cons] at hrest
      rw [List.length_append, List.length_map]
      omega
    | unrecognised =>
      have hrest := ih waiting
      dsimp only
      rw [List.length_cons]
      omega

/-- Only numbers and operators are put out. -/
theorem isForeign_of_mem_order {waiting : List Operator} {tokens : List String} :
    ∀ item ∈ (order waiting tokens).1, item.isForeign = false := by
  intro item hitem
  obtain ⟨o, rfl⟩ | ⟨token, x, -, rfl⟩ := cases_of_mem_order hitem
  · rfl
  · rfl

end Postfix

/-! ## Operators in print -/

/-- The text is the symbol of an operator. -/
def Operator.isText (text : String) : Bool := (ofText? text).isSome

/-- A text with more than one character is not the symbol of an operator. -/
theorem Operator.isText_of_two_le {text : String} (h : 2 ≤ text.toList.length) :
    isText text = false := by
  unfold isText ofText?
  split
  · next c hc =>
    rw [hc, List.length_singleton] at h
    omega
  · rfl

/-- Among printed items the symbols of operators are the operators. -/
theorem Item.countP_map_text {items : List Item} (h : ∀ item ∈ items, item.isForeign = false) :
    (items.map text).countP Operator.isText = items.countP isOperator := by
  rw [List.countP_map]
  refine List.countP_congr fun item hitem => ?_
  have hforeign := h item hitem
  cases item with
  | number x =>
    have htext : Operator.isText x.text = false :=
      Operator.isText_of_two_le x.two_le_length_text
    rw [Function.comp_apply, text, htext]
    rfl
  | operator o => cases o <;> decide
  | foreign shown => cases hforeign

/-! ## Faithful traces -/

/-- What a trace of an expression has to do with its calculation. -/
structure Trace.IsFaithful (config : Config) (s : String) (trace : Trace) : Prop where
  /-- The tokens are those of the expression. -/
  tokens : trace.tokens = Token.ofText s
  /-- If a token is refused, no later stage has produced anything. -/
  refused : config.Refuses s → trace.dropped = [] ∧ trace.postfixItems = [] ∧ trace.steps = []
  /-- Otherwise the tokens left out are those without a meaning, in their order. -/
  dropped : ¬ config.Refuses s → trace.dropped = trace.tokens.filter Postfix.isUnrecognised
  /-- Otherwise the items are those of the postfix order. -/
  ordered : ¬ config.Refuses s → ∃ items,
    Postfix.ofTokens config.strictTokens trace.tokens = .ok (items, trace.dropped) ∧
      trace.postfixItems = items.map Item.text
  /-- Otherwise no token is lost. -/
  length : ¬ config.Refuses s →
    trace.postfixItems.length + trace.dropped.length = trace.tokens.length
  /-- With a value, nothing is left out, every operator is carried out, and the last result is the
  value. -/
  value : ∀ x, trace.result.verdict = .ok x →
    trace.dropped = [] ∧ trace.steps.length = trace.postfixItems.countP Operator.isText ∧
      trace.tokens.length = 2 * trace.steps.length + 1 ∧
      ∀ step ∈ trace.steps.getLast?, step.result = x
  /-- With an error, not every operator is carried out, unless there is none. -/
  error : trace.result.isError →
    trace.steps.length < trace.postfixItems.countP Operator.isText ∨
      trace.postfixItems.countP Operator.isText = 0 ∧ trace.steps = []

namespace Config

/-- The excess of numbers over operators in the postfix order of an expression is at most one. -/
theorem balance_order_ofText_le (s : String) :
    Item.balance (Postfix.order [] (Token.ofText s)).1 ≤ 1 := by
  rw [Postfix.balance_order, List.length_nil, Nat.cast_zero, sub_zero]
  exact (Token.balance_le (Token.isChain_ofText s)).1

variable {config : Config} {s : String} {result : Result}

/-- The value of a calculation is that of the evaluation. -/
theorem Ends.outcome_eq_ok {x : Double} (h : config.Ends s result) (hx : result.verdict = .ok x) :
    (config.evaluation s).outcome = .ok x := by
  cases h with
  | value y hnone heval =>
    cases hx
    exact heval
  | _ => cases hx

/-- An error is that of the evaluation unless a token is refused. -/
theorem Ends.exists_outcome_eq_error (h : config.Ends s result) (herror : result.isError)
    (hkept : ¬ config.Refuses s) :
    ∃ fault, (config.evaluation s).outcome = .error (.fault fault) := by
  cases h with
  | empty => cases herror
  | refused token hstrict htoken => exact absurd (refuses_iff.2 ⟨hstrict, token, htoken⟩) hkept
  | value => cases herror
  | fault f hne hnone heval => exact ⟨f, heval⟩

/-- A calculation with a value refuses no token and leaves none out. -/
theorem filter_isUnrecognised_of_value (h : config.calculate (.text s) = .ok result)
    {x : Double} (hx : result.verdict = .ok x) :
    ¬ config.Refuses s ∧ (Token.ofText s).filter Postfix.isUnrecognised = [] := by
  have hok : result.isOk := by
    rw [Result.isOk, Result.outcome, hx]
    rfl
  have hnone := find?_isUnrecognised_of_isOk h hok
  refine ⟨fun hrefuses => ?_, List.filter_eq_nil_iff.2 (List.find?_eq_none.1 hnone)⟩
  obtain ⟨-, token, htoken⟩ := refuses_iff.1 hrefuses
  cases htoken.symm.trans hnone

/-- With a value, no token is left out and every operator is carried out, the last one with the
value as its result. -/
theorem steps_of_value (h : config.calculate (.text s) = .ok result) {x : Double}
    (hx : result.verdict = .ok x) :
    (Postfix.order [] (Token.ofText s)).2 = [] ∧
      (config.evaluation s).steps.length =
        (Postfix.order [] (Token.ofText s)).1.countP Item.isOperator ∧
      (Token.ofText s).length = 2 * (config.evaluation s).steps.length + 1 ∧
      ∀ step ∈ (config.evaluation s).steps.getLast?, step.result = x := by
  have hitems : ∀ item ∈ (Postfix.order [] (Token.ofText s)).1, item.isForeign = false :=
    Postfix.isForeign_of_mem_order
  have hdropped : (Postfix.order [] (Token.ofText s)).2 = [] := by
    rw [Postfix.order_snd]
    exact (filter_isUnrecognised_of_value h hx).2
  obtain ⟨result', hresult, hends⟩ := config.exists_calculate_ends s
  obtain rfl : result = result' := Except.ok.inj (h.symm.trans hresult)
  obtain ⟨hsteps, hbalance, hlast⟩ :=
    Evaluation.steps_of_value config.precision_le hitems (hends.outcome_eq_ok hx)
  rw [← evaluation] at hsteps hlast
  -- All tokens are items, and of these the numbers are one more than the operators.
  have hlength := Postfix.length_order [] (Token.ofText s)
  rw [hdropped, List.length_nil, List.length_nil] at hlength
  have hcount := Item.length_eq_balance_add hitems
  exact ⟨hdropped, hsteps, by omega, hlast⟩

/-- With an error and no token that is refused, not every operator is carried out, unless there is
none. -/
theorem steps_of_error (h : config.Ends s result) (herror : result.isError)
    (hkept : ¬ config.Refuses s) :
    (config.evaluation s).steps.length <
        (Postfix.order [] (Token.ofText s)).1.countP Item.isOperator ∨
      (Postfix.order [] (Token.ofText s)).1.countP Item.isOperator = 0 ∧
        (config.evaluation s).steps = [] := by
  obtain ⟨fault, hfault⟩ := h.exists_outcome_eq_error herror hkept
  have hnovalue : ∀ x, (config.evaluation s).outcome ≠ .ok x := by
    intro x hx
    cases hx.symm.trans hfault
  exact Evaluation.steps_of_fault config.precision_le Postfix.isForeign_of_mem_order
    (balance_order_ofText_le s) hnovalue

/-- If no token is refused, the tokens are put in postfix order. -/
theorem ofTokens_of_not_refuses (hkept : ¬ config.Refuses s) :
    Postfix.ofTokens config.strictTokens (Token.ofText s) =
      .ok (Postfix.order [] (Token.ofText s)) := by
  obtain ⟨token, hstrict, htoken, -⟩ | ⟨-, hok⟩ :=
    Postfix.ofTokens_cases config.strictTokens (Token.ofText s)
  · exact absurd (refuses_iff.2 ⟨hstrict, token, htoken⟩) hkept
  · exact hok

/-- The trace of an expression with a token that is refused. -/
theorem isFaithful_trace_of_refuses {c : Calculation} {duration : Option Double}
    (hrefuses : config.Refuses s) (hcalculate : config.calculate (.text s) = .ok c.result)
    (htokens : c.tokens = Token.ofText s) (hstages : c.dropped = [] ∧ c.items = [] ∧ c.steps = []) :
    (c.trace duration).IsFaithful config s := by
  obtain ⟨hdropped, hitems, hsteps⟩ := hstages
  have hordered : (c.trace duration).postfixItems = [] := by
    rw [Calculation.trace, hitems]
    rfl
  exact
    { tokens := htokens
      refused := fun _ => ⟨hdropped, hordered, hsteps⟩
      dropped := fun h => absurd hrefuses h
      ordered := fun h => absurd hrefuses h
      length := fun h => absurd hrefuses h
      value := fun x hx =>
        absurd hrefuses (filter_isUnrecognised_of_value hcalculate hx).1
      error := fun _ => .inr ⟨by rw [hordered]; rfl, hsteps⟩ }

/-- The trace of an expression of which no token is refused. -/
theorem isFaithful_trace_of_order {c : Calculation} {duration : Option Double}
    (hkept : ¬ config.Refuses s) (hcalculate : config.calculate (.text s) = .ok c.result)
    (hends : config.Ends s c.result) (htokens : c.tokens = Token.ofText s)
    (horder : (c.items, c.dropped) = Postfix.order [] (Token.ofText s))
    (hsteps : c.steps = (config.evaluation s).steps) :
    (c.trace duration).IsFaithful config s := by
  obtain ⟨hitems, hdropped⟩ := Prod.mk.inj horder
  have hlength := Postfix.length_order [] (Token.ofText s)
  rw [List.length_nil, ← hitems, ← hdropped, ← htokens] at hlength
  have hcount : (c.trace duration).postfixItems.countP Operator.isText =
      c.items.countP Item.isOperator := by
    refine Item.countP_map_text ?_
    rw [hitems]
    exact Postfix.isForeign_of_mem_order
  exact
    { tokens := htokens
      refused := fun h => absurd h hkept
      dropped := fun _ => by
        show c.dropped = c.tokens.filter Postfix.isUnrecognised
        rw [hdropped, Postfix.order_snd, htokens]
      ordered := fun _ => by
        refine ⟨c.items, ?_, rfl⟩
        show Postfix.ofTokens config.strictTokens c.tokens = .ok (c.items, c.dropped)
        rw [htokens, horder, ofTokens_of_not_refuses hkept]
      length := fun _ => by
        rw [Calculation.trace, List.length_map]
        exact hlength
      value := fun x hx => by
        obtain ⟨hnone, hall, hodd, hlast⟩ := steps_of_value hcalculate hx
        rw [← hsteps, ← hitems, ← hcount] at hall
        rw [← hsteps, ← htokens] at hodd
        rw [← hsteps] at hlast
        exact ⟨hdropped.trans hnone, hall, hodd, hlast⟩
      error := fun herror => by
        have hfewer := steps_of_error hends herror hkept
        rw [← hsteps, ← hitems, ← hcount] at hfewer
        exact hfewer }

/-- Tracing anything comes to an end with the result of calculating it. The trace of an expression
is faithful, and the trace of what is no expression is empty. -/
theorem exists_trace_isFaithful (config : Config) (input : Input) (duration : Option Double) :
    ∃ trace, config.trace input duration = .ok trace ∧
      config.calculate input = .ok trace.result ∧
      (∀ s, input = .text s → trace.IsFaithful config s) ∧
      ∀ typeName, input = .other typeName →
        trace.tokens = [] ∧ trace.dropped = [] ∧ trace.postfixItems = [] ∧ trace.steps = [] := by
  cases input with
  | other typeName =>
    refine ⟨_, rfl, rfl, fun s hs => ?_, fun _ _ => ⟨rfl, rfl, rfl, rfl⟩⟩
    cases hs
  | text s =>
    obtain ⟨c, hrun, hends, htokens, hrefused, hkept⟩ := config.exists_run_ends s
    have hcalculate : config.calculate (.text s) = .ok c.result := by rw [calculate, hrun]
    have hfaithful : (c.trace duration).IsFaithful config s := by
      by_cases hrefuses : config.Refuses s
      · exact isFaithful_trace_of_refuses hrefuses hcalculate htokens (hrefused hrefuses)
      · obtain ⟨horder, hsteps⟩ := hkept hrefuses
        exact isFaithful_trace_of_order hrefuses hcalculate hends htokens horder hsteps
    refine ⟨c.trace duration, by rw [trace, hrun], hcalculate, fun s' hs => ?_, fun _ ht => ?_⟩
    · cases hs
      exact hfaithful
    · cases ht

end Config

end Keypad
