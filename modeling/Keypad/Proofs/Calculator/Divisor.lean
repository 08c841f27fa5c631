import Keypad.Proofs.Calculator.Outcome
import Keypad.Proofs.Expression.Dangling

/-!
# What is reported as a division by zero

A division by zero is reported for an expression in which a division sign stands in front of a zero,
and for no other expression that is well formed. But it is also reported for some expressions that
are not: when a sum ends in a product with the value zero and a division sign without a number
behind it, as in `1+0÷`, the sign takes the product as its divisor and the sum as its dividend.
`Token.MissingDivisor` describes these expressions, and they are all
(`Config.outcome_eq_divisionByZero_iff`): a division sign without a divisor that is the first
operator without an operand finds the operands of a sum, and any later one finds too few. -/

namespace Keypad

/-- The tokens are a sum up to a product with the value zero, then a division sign, and behind it no
number. -/
structure Token.MissingDivisor (p : ℕ) (tokens : List String) (sum : Chain Literal)
    (sign : Operator) (product : Chain Literal) (after : List String) : Prop where
  /-- The division sign stands behind the sum. -/
  tokens_eq : tokens =
    ((Chain.join sum sign product).map Literal.text).tokens ++ Operator.divide.text :: after
  /-- The product is added or subtracted. -/
  additive : sign.isMultiplicative = false
  /-- It is a product. -/
  isProduct : product.IsProduct
  /-- The literals are accepted. -/
  finite : ∀ l ∈ (Chain.join sum sign product).operands, l.value.isFinite
  /-- Behind the division sign there is no number. -/
  missing : NoOperand after
  /-- What stands in front of the product has a value. -/
  dividend : ∃ x, ((sum.map Literal.value).evaluate p).outcome = .ok x
  /-- The product has the value zero. -/
  divisor : ∃ y, ((product.map Literal.value).evaluate p).outcome = .ok y ∧ y.isZero

/-- Where no operand follows, a product or quotient on top of the waiting operators is applied
next. -/
theorem Postfix.exists_order_eq_cons {o : Operator} (ho : o.isMultiplicative)
    (bottom : List Operator) {tokens : List String} (hseparated : tokens.IsChain Token.Separated)
    (hnone : Token.NoOperand tokens) :
    ∃ items, (order (o :: bottom) tokens).1 = .operator o :: items := by
  induction tokens with
  | nil => exact ⟨bottom.map .operator, rfl⟩
  | cons token tokens ih =>
    cases htoken : TokenKind.ofToken token with
    | number x => cases (TokenKind.parse?_of_ofToken htoken).symm.trans (hnone token rfl)
    | operator other =>
      obtain rfl := TokenKind.eq_text_of_ofToken htoken
      have hyields : other.yieldsTo o := by simp [Pending.yieldsTo_eq, ho]
      rw [order_operator, List.takeWhile_cons_of_pos hyields, List.map_cons, List.cons_append]
      exact ⟨_, rfl⟩
    | unrecognised =>
      rw [order_unrecognised htoken]
      refine ih hseparated.tail (Token.noOperand_of_separated hseparated fun other => ?_)
      simp [htoken]

namespace Evaluation

variable {p : ℕ} {c sum product : Chain Literal} {o sign : Operator} {tokens rest : List String}

/-- Nothing is divided by zero when an operator that ends a chain has no operand behind it. -/
theorem ne_divisionByZero_of_tokens_append (hp : p ≤ 15)
    (hc : ∀ l ∈ c.operands, l.value.isFinite) (ho : o.isMultiplicative = false ∨ c.IsProduct)
    (hnone : Token.NoOperand rest) (hseparated : rest.IsChain Token.Separated)
    (hzero : ¬ Token.DividesByZero ((c.map Literal.text).tokens ++ o.text :: rest)) :
    (run p [] (Postfix.order [] ((c.map Literal.text).tokens ++ o.text :: rest)).1).outcome ≠
      .error (.fault .divisionByZero) := by
  rw [Chain.order_tokens_append hc ho, Chain.run_postorder_append hp]
  intro h
  obtain heval | ⟨x, -, hrun⟩ := Progress.resume_outcome_eq_error_iff.1 h
  · exact hzero (Chain.dividesByZero_of_evaluate hc heval _)
  · -- One operand is there for the operator, which needs two.
    have hshort : Short [o] [x] rest := .behind le_rfl (fun _ => .inl one_lt_two) hnone
    have hsuffix : rest <:+ (c.map Literal.text).tokens ++ o.text :: rest :=
      (List.suffix_cons _ _).trans (List.suffix_append _ _)
    exact hshort.ne_divisionByZero hp (List.pairwise_singleton _ _) hseparated
      (fun h => hzero (h.of_part hsuffix.isInfix)) hrun

/-- Behind a sum, an operator without an operand divides by zero only if it is a division and the
last product of the sum is zero. -/
theorem missingDivisor_of_join (hp : p ≤ 15) (hsign : sign.isMultiplicative = false)
    (hproduct : product.IsProduct)
    (hc : ∀ l ∈ (Chain.join sum sign product).operands, l.value.isFinite)
    (ho : o.isMultiplicative) (hnone : Token.NoOperand rest)
    (hseparated : rest.IsChain Token.Separated)
    (hzero : ¬ Token.DividesByZero
      (((Chain.join sum sign product).map Literal.text).tokens ++ o.text :: rest))
    (h : (run p [] (Postfix.order [] (((Chain.join sum sign product).map Literal.text).tokens ++
      o.text :: rest)).1).outcome = .error (.fault .divisionByZero)) :
    Token.MissingDivisor p
      (((Chain.join sum sign product).map Literal.text).tokens ++ o.text :: rest)
      sum sign product rest := by
  obtain ⟨hsum, hfactors⟩ := List.forall_mem_append.1 (Chain.operands_join sum sign product ▸ hc)
  have htokens : ((Chain.join sum sign product).map Literal.text).tokens ++ o.text :: rest =
      (sum.map Literal.text).tokens ++
        (sign.text :: ((product.map Literal.text).tokens ++ o.text :: rest)) := by
    rw [Chain.map_join, Chain.tokens_join, List.append_assoc, List.cons_append]
  rw [Chain.run_order_join_append hp hsum hfactors hproduct hsign ho] at h
  obtain heval | ⟨x, hx, h⟩ := Progress.resume_outcome_eq_error_iff.1 h
  · rw [htokens] at hzero
    exact absurd (Chain.dividesByZero_of_evaluate hsum heval _) hzero
  obtain heval | ⟨y, hy, h⟩ := Progress.resume_outcome_eq_error_iff.1 h
  · have hwithin : (product.map Literal.text).tokens ++ o.text :: rest <:+:
        ((Chain.join sum sign product).map Literal.text).tokens ++ o.text :: rest := by
      rw [htokens]
      exact ((List.suffix_cons _ _).trans (List.suffix_append _ _)).isInfix
    exact absurd ((Chain.dividesByZero_of_evaluate hfactors heval _).of_part hwithin) hzero
  -- Both operands are there, so the operator is applied to them, and the rest has too few.
  by_cases hdivision : o = .divide ∧ y.isZero
  · obtain ⟨rfl, hy0⟩ := hdivision
    exact ⟨rfl, hsign, hproduct, hc, hnone, ⟨x, hx⟩, ⟨y, hy, hy0⟩⟩
  · have hsafe : SafeDivision [o, sign] [y, x] := by
      refine fun hhead => .inr fun z hz => ?_
      cases hhead
      cases hz
      simpa using hdivision
    have hlevelled : Operator.Levelled [o, sign] := by
      refine List.pairwise_pair.2 ?_
      rw [Operator.precedence_eq, Operator.precedence_eq, if_pos ho, hsign]
      exact one_lt_two
    have hshort : Short [o, sign] [y, x] rest := .behind le_rfl hsafe hnone
    have hsuffix : rest <:+ ((Chain.join sum sign product).map Literal.text).tokens ++
        o.text :: rest := (List.suffix_cons _ _).trans (List.suffix_append _ _)
    exact absurd h (hshort.ne_divisionByZero hp hlevelled hseparated
      fun hpart => hzero (hpart.of_part hsuffix.isInfix))

/-- A division by zero without a zero behind a division sign comes from a missing divisor. -/
theorem exists_missingDivisor (hp : p ≤ 15) (hseparated : tokens.IsChain Token.Separated)
    (hzero : ¬ Token.DividesByZero tokens)
    (h : (ofItems p (Postfix.order [] tokens).1).outcome = .error (.fault .divisionByZero)) :
    ∃ sum sign product after, Token.MissingDivisor p tokens sum sign product after := by
  rw [ofItems] at h
  obtain hnone | ⟨c, after, rfl, hc, rfl | ⟨o, rest, rfl, hrest⟩⟩ :=
    Token.exists_chain_append hseparated
  · -- The tokens do not begin with an operand, so operands are missing from the start.
    have hsafe : SafeDivision [] [] := fun hhead => by cases hhead
    have hshort : Short [] [] tokens := .behind le_rfl hsafe hnone
    exact absurd h (hshort.ne_divisionByZero hp List.Pairwise.nil hseparated hzero)
  · rw [List.append_nil, Chain.order_tokens hc, ← List.append_nil (Tree.postorder _),
      Chain.run_postorder_append hp, Progress.resume_outcome_eq_error_iff] at h
    obtain heval | ⟨x, -, hrun⟩ := h
    · exact absurd (Chain.dividesByZero_of_evaluate hc heval []) hzero
    · cases hrun
  · have hseparated' : rest.IsChain Token.Separated :=
      (List.isChain_append.1 hseparated).2.1.tail
    by_cases hend : o.isMultiplicative = false ∨ c.IsProduct
    · exact absurd h (ne_divisionByZero_of_tokens_append hp hc hend hrest hseparated' hzero)
    · obtain ⟨ho, hnotproduct⟩ := not_or.1 hend
      obtain ⟨sum, sign, product, rfl, hsign, hproduct⟩ := c.exists_join.resolve_left hnotproduct
      exact ⟨sum, sign, product, rest, missingDivisor_of_join hp hsign hproduct hc
        (by simpa using ho) hrest hseparated' hzero h⟩

/-- A missing divisor is a division by zero. -/
theorem divisionByZero_of_missingDivisor (hp : p ≤ 15)
    (hseparated : tokens.IsChain Token.Separated) {after : List String}
    (h : Token.MissingDivisor p tokens sum sign product after) :
    (ofItems p (Postfix.order [] tokens).1).outcome = .error (.fault .divisionByZero) := by
  obtain ⟨rfl, hsign, hproduct, hc, hnone, ⟨x, hx⟩, ⟨y, hy, hy0⟩⟩ := h
  obtain ⟨hsum, hfactors⟩ := List.forall_mem_append.1 (Chain.operands_join sum sign product ▸ hc)
  have hseparated' : after.IsChain Token.Separated := (List.isChain_append.1 hseparated).2.1.tail
  obtain ⟨items, horder⟩ :=
    Postfix.exists_order_eq_cons (o := .divide) rfl [sign] hseparated' hnone
  rw [ofItems, Chain.run_order_join_append hp hsum hfactors hproduct hsign rfl, horder]
  refine Progress.resume_outcome_eq_error_iff.2 (.inr ⟨x, hx, ?_⟩)
  refine Progress.resume_outcome_eq_error_iff.2 (.inr ⟨y, hy, ?_⟩)
  rw [run_operator hp, operate_divide_of_isZero hy0]
  rfl

end Evaluation

/-- When no division sign stands in front of a zero, a division by zero is reported exactly for a
missing divisor, provided that no token is refused; and a malformed token is reported only if tokens
without a meaning are to be refused. -/
theorem Config.outcome_eq_divisionByZero_iff (config : Config) (s : String)
    (h : ¬ Token.DividesByZero (Token.ofText s)) :
    ∃ result, config.calculate (.text s) = .ok result ∧
      (result.outcome = .error .divisionByZero ↔
        (config.strictTokens →
          ∀ token ∈ Token.ofText s, TokenKind.ofToken token ≠ .unrecognised) ∧
        ∃ sum sign product after, Token.MissingDivisor config.precision.val (Token.ofText s)
          sum sign product after) ∧
      (result.outcome = .error .malformedToken → config.strictTokens) := by
  have hp := config.precision_le
  have hseparated := Token.isChain_ofText s
  have hmeaning : (∀ token ∈ Token.ofText s, TokenKind.ofToken token ≠ .unrecognised) ↔
      (Token.ofText s).find? Postfix.isUnrecognised = none := by
    simp [List.find?_eq_none, Postfix.isUnrecognised]
  rw [hmeaning]
  have heval : (config.evaluation s).outcome = .error (.fault .divisionByZero) ↔
      ∃ sum sign product after, Token.MissingDivisor config.precision.val (Token.ofText s)
        sum sign product after := by
    constructor
    · exact Evaluation.exists_missingDivisor hp hseparated h
    · rintro ⟨sum, sign, product, after, hmissing⟩
      exact Evaluation.divisionByZero_of_missingDivisor hp hseparated hmissing
  rw [← heval]
  obtain ⟨result, hresult, hends⟩ := config.exists_calculate_ends s
  refine ⟨result, hresult, ?_⟩
  -- Of the ways to end, only a fault of the evaluation can be a division by zero.
  cases hends with
  | empty hnil =>
    have hnothing : (config.evaluation s).outcome = .error (.fault (.leftover 0)) := by
      rw [Config.evaluation, hnil]
      rfl
    simp [Result.outcome, hnothing]
  | refused token hstrict htoken =>
    simp [Config.failed, Result.outcome, Fault.kind, hstrict, htoken]
  | value x hnone hx => simp [Result.outcome, hx]
  | fault f hne hnone hf =>
    have hkind := Evaluation.kind_ne_malformedToken hp hf
    have houtcome : (config.failed s f).outcome = .error f.kind := rfl
    rw [houtcome, Outcome.error.injEq, Outcome.error.injEq, Fault.kind_eq_divisionByZero_iff, hf,
      Except.error.injEq, Stop.fault.injEq]
    exact ⟨⟨fun hdivision => ⟨hnone, hdivision⟩, fun hdivision => hdivision.2⟩,
      fun hmalformed => absurd hmalformed hkind⟩

/-- In `1+0÷` no division sign stands in front of a zero. -/
theorem Token.not_dividesByZero_oneAddZero : ¬ DividesByZero (ofText "1+0÷") := by
  have htokens : ofText "1+0÷" = ["1", "+", "0", "÷"] := by decide
  rintro ⟨zero, -, hwithin⟩
  rw [htokens] at hwithin
  simp [List.infix_cons_iff, Operator.text, Operator.symbol] at hwithin

/-- For `1+0÷` a division by zero is reported exactly if a divisor is missing in it. -/
theorem Config.outcome_oneAddZeroDivide :
    ¬ Token.DividesByZero (Token.ofText "1+0÷") ∧
      ∃ result, ({} : Config).calculate (.text "1+0÷") = .ok result ∧
        (result.outcome = .error .divisionByZero ↔
          (({} : Config).strictTokens →
            ∀ token ∈ Token.ofText "1+0÷", TokenKind.ofToken token ≠ .unrecognised) ∧
          ∃ sum sign product after, Token.MissingDivisor 9 (Token.ofText "1+0÷")
            sum sign product after) ∧
        (result.outcome = .error .malformedToken → ({} : Config).strictTokens) :=
  ⟨Token.not_dividesByZero_oneAddZero,
    outcome_eq_divisionByZero_iff {} "1+0÷" Token.not_dividesByZero_oneAddZero⟩

/-- For `1+0÷` a division by zero is reported, although no division sign stands in front of a
zero. -/
theorem Config.calculate_oneAddZeroDivide :
    ({} : Config).calculate (.text "1+0÷") =
        .ok ⟨"1+0÷", .error .divisionByZero (some "Error: Div by 0")⟩ ∧
      ¬ Token.DividesByZero (Token.ofText "1+0÷") :=
  ⟨by decide +kernel, Token.not_dividesByZero_oneAddZero⟩

end Keypad
