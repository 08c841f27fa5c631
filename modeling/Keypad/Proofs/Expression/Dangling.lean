import Keypad.Proofs.Expression.Missing

/-!
# Operators without an operand behind them

An expression that is not well formed begins with a chain of operands, behind which an operator has
no operand (`Token.exists_chain_append`). The chain is either a product or a sum joined with its
last product (`Chain.exists_join`), and when the operator comes, the stack machine has computed
them: one value for a chain that the operator ends (`order_tokens_append`), and the values of the
sum and of the product where a product or quotient goes on behind a sum
(`order_join_append`). -/

namespace Keypad

namespace Chain

variable {α β : Type}

/-! ## A sum and its last product -/

/-- One chain behind another, with an operator between them. -/
def join (c : Chain α) (o : Operator) (d : Chain α) : Chain α :=
  ⟨c.first, c.rest ++ (o, d.first) :: d.rest⟩

/-- The chain is a product: it has no sums or differences. -/
def IsProduct (c : Chain α) : Prop := ∀ factor ∈ c.rest, factor.1.isMultiplicative

/-- A chain is a product, or a chain joined with a product by a sum or difference. -/
theorem exists_join (c : Chain α) :
    c.IsProduct ∨ ∃ sum o product, c = join sum o product ∧ o.isMultiplicative = false ∧
      product.IsProduct := by
  obtain ⟨first, rest⟩ := c
  induction rest generalizing first with
  | nil => exact .inl (by simp [IsProduct])
  | cons head rest ih =>
    obtain ⟨o, a⟩ := head
    obtain hproduct | ⟨sum, o', product, hjoin, ho', hproduct⟩ := ih a
    · cases ho : o.isMultiplicative with
      | true => exact .inl (List.forall_mem_cons.2 ⟨ho, hproduct⟩)
      | false => exact .inr ⟨⟨first, []⟩, o, ⟨a, rest⟩, rfl, ho, hproduct⟩
    · rw [join, mk.injEq] at hjoin
      obtain ⟨rfl, rfl⟩ := hjoin
      exact .inr ⟨⟨first, (o, sum.first) :: sum.rest⟩, o', product, rfl, ho', hproduct⟩

/-- Joined chains with other operands. -/
theorem map_join (f : α → β) (c : Chain α) (o : Operator) (d : Chain α) :
    (join c o d).map f = join (c.map f) o (d.map f) := by
  simp [join, map]

/-- The tokens of joined chains. -/
theorem tokens_join (c : Chain String) (o : Operator) (d : Chain String) :
    (join c o d).tokens = c.tokens ++ o.text :: d.tokens := by
  simp [join, tokens, restTokens]

/-- The operands of joined chains. -/
theorem operands_join (c : Chain α) (o : Operator) (d : Chain α) :
    (join c o d).operands = c.operands ++ d.operands := by
  simp [join, operands]

/-! ## The operator behind a chain -/

variable {c sum product : Chain Literal} {o : Operator}

/-- Only products and quotients are among the tokens of a product. -/
theorem IsProduct.isMultiplicative_of_mem_tokens (hc : c.IsProduct)
    (h : ∀ l ∈ c.operands, l.value.isFinite) (hmem : o.text ∈ (c.map Literal.text).tokens) :
    o.isMultiplicative := by
  have hmeaning := o.ofToken_text
  obtain ⟨l, hl, htext⟩ | ⟨factor, hfactor, htext⟩ := mem_tokens_map.1 hmem
  · rw [htext, Literal.ofToken_text (h l hl)] at hmeaning
    cases hmeaning
  · rw [htext, Operator.ofToken_text] at hmeaning
    cases hmeaning
    exact hc factor hfactor

/-- The postfix order of the tokens of a chain is the postorder of its tree. -/
theorem order_tokens (h : ∀ l ∈ c.operands, l.value.isFinite) :
    (Postfix.order [] (c.map Literal.text).tokens).1 = (c.map Literal.value).tree.postorder := by
  rw [Postfix.order_of_ofTokens (ofTokens_tokens false h)]

/-- An operator that ends a chain waits for what follows, and the tree of the chain is put out. -/
theorem order_tokens_append (h : ∀ l ∈ c.operands, l.value.isFinite)
    (ho : o.isMultiplicative = false ∨ c.IsProduct) (after : List String) :
    (Postfix.order [] ((c.map Literal.text).tokens ++ o.text :: after)).1 =
      (c.map Literal.value).tree.postorder ++ (Postfix.order [o] after).1 := by
  rw [← order_tokens h]
  cases hm : o.isMultiplicative with
  | false => exact Postfix.order_append_of_not_isMultiplicative hm [] _ after
  | true =>
    have hc : c.IsProduct := ho.resolve_left (by simp [hm])
    exact Postfix.order_append_of_isMultiplicative hm (List.forall_mem_nil _)
      (List.forall_mem_nil _) (fun _ => hc.isMultiplicative_of_mem_tokens h) after

/-- A product or quotient that goes on behind a sum waits on top of it, and the trees of the sum and
of its last product are put out. -/
theorem order_join_append (hsum : ∀ l ∈ sum.operands, l.value.isFinite)
    (hfactors : ∀ l ∈ product.operands, l.value.isFinite) (hproduct : product.IsProduct)
    {sign : Operator} (hsign : sign.isMultiplicative = false) (ho : o.isMultiplicative)
    (after : List String) :
    (Postfix.order [] (((join sum sign product).map Literal.text).tokens ++ o.text :: after)).1 =
      (sum.map Literal.value).tree.postorder ++ ((product.map Literal.value).tree.postorder ++
        (Postfix.order [o, sign] after).1) := by
  have hrest := Postfix.order_append_of_isMultiplicative ho (List.forall_mem_nil _)
    (List.forall_mem_singleton.2 hsign)
    (fun _ => hproduct.isMultiplicative_of_mem_tokens hfactors) after
  rw [List.nil_append, order_tokens hfactors] at hrest
  rw [map_join, tokens_join, List.append_assoc, List.cons_append,
    Postfix.order_append_of_not_isMultiplicative hsign, order_tokens hsum, hrest]

/-- The stack machine goes on behind a chain with the value of the chain. -/
theorem run_postorder_append {p : ℕ} (hp : p ≤ 15) (c : Chain Double) (operands : List Double)
    (items : List Item) :
    Evaluation.run p operands (c.tree.postorder ++ items) =
      (c.evaluate p).resume fun x => Evaluation.run p (x :: operands) items := by
  rw [Evaluation.run_postorder_append hp, evaluate_tree]

/-- Where a product or quotient goes on behind a sum, the stack machine has the values of the last
product and of the sum in front of it. -/
theorem run_order_join_append {p : ℕ} (hp : p ≤ 15) (hsum : ∀ l ∈ sum.operands, l.value.isFinite)
    (hfactors : ∀ l ∈ product.operands, l.value.isFinite) (hproduct : product.IsProduct)
    {sign : Operator} (hsign : sign.isMultiplicative = false) (ho : o.isMultiplicative)
    (after : List String) :
    Evaluation.run p [] (Postfix.order []
        (((join sum sign product).map Literal.text).tokens ++ o.text :: after)).1 =
      ((sum.map Literal.value).evaluate p).resume fun x =>
        ((product.map Literal.value).evaluate p).resume fun y =>
          Evaluation.run p [y, x] (Postfix.order [o, sign] after).1 := by
  rw [order_join_append hsum hfactors hproduct hsign ho, run_postorder_append hp]
  congr 1
  funext x
  rw [run_postorder_append hp]

/-! ## Zero divisors -/

/-- A product fails because of a zero divisor only if it has one. -/
theorem evaluateProduct_ne_divisionByZero {p : ℕ} {c : Chain Double}
    (h : ∀ factor ∈ c.rest, factor.1 = .divide → factor.2.isZero = false) :
    (c.evaluateProduct p).outcome ≠ .error .divisionByZero := by
  refine List.foldlRecOn (motive := fun a : Progress => a.outcome ≠ .error .divisionByZero)
    c.rest _ nofun fun before hbefore factor hfactor => ?_
  refine Progress.andThen_outcome_ne hbefore fun x hx => ?_
  obtain ⟨-, hdivide, hzero⟩ | hfault := operate_outcome_eq_error hx
  · simp [h factor hfactor hdivide] at hzero
  · cases hfault

/-- A chain fails because of a zero divisor only if it has one. -/
theorem evaluate_ne_divisionByZero {p : ℕ} {c : Chain Double}
    (h : ∀ factor ∈ c.rest, factor.1 = .divide → factor.2.isZero = false) :
    (c.evaluate p).outcome ≠ .error .divisionByZero := by
  have hgroup := group_append_ungroup c.rest
  obtain ⟨-, hproducts⟩ := isMultiplicative_group c.rest
  refine List.foldlRecOn (motive := fun a : Progress => a.outcome ≠ .error .divisionByZero)
    (group c.rest).2 _ ?_ fun before hbefore product hproduct => ?_
  · refine evaluateProduct_ne_divisionByZero fun factor hfactor => h factor ?_
    rw [← hgroup]
    exact List.mem_append_left _ hfactor
  · refine Progress.andThen_outcome_ne hbefore fun x => ?_
    refine Progress.andThen_outcome_ne (evaluateProduct_ne_divisionByZero ?_) fun y hy => ?_
    · refine fun factor hfactor => h factor ?_
      rw [← hgroup]
      exact List.mem_append_right _
        (List.mem_flatMap.2 ⟨product, hproduct, List.mem_cons_of_mem _ hfactor⟩)
    · -- The products are added and subtracted.
      obtain ⟨-, hdivide, -⟩ | hfault := operate_outcome_eq_error hy
      · have hsign := (hproducts product hproduct).1
        rw [hdivide] at hsign
        cases hsign
      · cases hfault

/-- In a chain that fails because of a zero divisor, a division sign stands in front of a zero. -/
theorem dividesByZero_of_evaluate {p : ℕ} (hfinite : ∀ l ∈ c.operands, l.value.isFinite)
    (h : ((c.map Literal.value).evaluate p).outcome = .error .divisionByZero)
    (after : List String) : Token.DividesByZero ((c.map Literal.text).tokens ++ after) := by
  by_contra hnone
  refine evaluate_ne_divisionByZero (fun factor hfactor hdivide => ?_) h
  obtain ⟨⟨o, l⟩, hmem, rfl⟩ := List.mem_map.1 hfactor
  obtain rfl : o = .divide := hdivide
  by_contra hzero
  have hl : l.value.isFinite := hfinite l (List.mem_cons_of_mem _ (List.mem_map_of_mem hmem))
  refine hnone ⟨l.text, ⟨l.value, Literal.parse?_text_iff.2 hl, by simpa using hzero⟩, ?_⟩
  obtain ⟨before, behind, hrest⟩ := List.append_of_mem hmem
  refine ⟨c.first.text :: restTokens (before.map fun factor => (factor.1, factor.2.text)),
    restTokens (behind.map fun factor => (factor.1, factor.2.text)) ++ after, ?_⟩
  simp [tokens, map, restTokens, hrest]

end Chain

/-! ## Where a chain ends -/

/-- Unless they do not begin with an operand, tokens begin with a chain of literals, up to their end
or to an operator that has no operand behind it. -/
theorem Token.exists_chain_append :
    ∀ {tokens : List String}, tokens.IsChain Separated → NoOperand tokens ∨
      ∃ (c : Chain Literal) (after : List String), tokens = (c.map Literal.text).tokens ++ after ∧
        (∀ l ∈ c.operands, l.value.isFinite) ∧
        (after = [] ∨ ∃ (o : Operator) (rest : List String), after = o.text :: rest ∧
          NoOperand rest)
  | [], _ => .inl (by simp [NoOperand])
  | [token], _ => by
    cases htoken : Numeral.parse? token with
    | none => exact .inl (by simpa [NoOperand] using htoken)
    | some x =>
      obtain ⟨l, rfl, rfl, hl⟩ := Literal.exists_of_parse? htoken
      exact .inr ⟨⟨l, []⟩, [], rfl, List.forall_mem_singleton.2 hl, .inl rfl⟩
  | token :: next :: tokens, hseparated => by
    cases htoken : Numeral.parse? token with
    | none => exact .inl (by simpa [NoOperand] using htoken)
    | some x =>
      obtain ⟨hpair, hrest⟩ := List.isChain_cons_cons.1 hseparated
      have hnotoperator : ¬ IsOperator token := fun hop => by
        rw [hop.parse?_eq_none] at htoken
        cases htoken
      obtain ⟨o, rfl⟩ := hpair.resolve_left hnotoperator
      obtain ⟨l, rfl, rfl, hl⟩ := Literal.exists_of_parse? htoken
      -- Behind the operator the chain goes on, or ends in front of it.
      obtain hnone | ⟨c, after, rfl, hc, hend⟩ := exists_chain_append hrest.tail
      · exact .inr ⟨⟨l, []⟩, o.text :: tokens, rfl, List.forall_mem_singleton.2 hl,
          .inr ⟨o, tokens, rfl, hnone⟩⟩
      · exact .inr ⟨⟨l, (o, c.first) :: c.rest⟩, after, rfl, List.forall_mem_cons.2 ⟨hl, hc⟩, hend⟩

end Keypad
