import Keypad.Proofs.Expression.Chain
import Keypad.Proofs.Expression.Course
import Keypad.Proofs.Expression.Token
import Mathlib.Tactic.Linarith

/-!
# The balance of numbers and operators

No stage of a calculation checks that operands and operators alternate. What enforces it is a count.
A number adds an operand to the stack and an operator takes one away, so an evaluation that ends
with one value has one number more than operators (`length_add_balance_of_run`); putting tokens in
postfix order changes nothing about the count (`balance_order`). Tokens without a meaning do not
count, but they separate operators as numbers do. Since of two neighbouring tokens one is an
operator, an excess of one is only possible when numbers and operators alternate, and then no token
is without a meaning (`exists_chain_of_balance`). -/

namespace Keypad

/-- The number of operands that an item adds to the stack. -/
def Item.gain : Item → ℤ
  | .number _ => 1
  | .operator _ => -1
  | .foreign _ => 0

/-- The number of operands that a token adds to the stack. -/
def TokenKind.gain : TokenKind → ℤ
  | .number _ => 1
  | .operator _ => -1
  | .unrecognised => 0

/-- The excess of numbers over operators among items. -/
def Item.balance (items : List Item) : ℤ := (items.map Item.gain).sum

/-- The excess of numbers over operators among tokens. -/
def Token.balance (tokens : List String) : ℤ :=
  (tokens.map fun token => (TokenKind.ofToken token).gain).sum

/-- An item in front of others. -/
@[simp]
theorem Item.balance_cons (item : Item) (items : List Item) :
    balance (item :: items) = item.gain + balance items := by
  rw [balance, List.map_cons, List.sum_cons, ← balance]

/-- A token in front of others. -/
@[simp]
theorem Token.balance_cons (token : String) (tokens : List String) :
    balance (token :: tokens) = (TokenKind.ofToken token).gain + balance tokens := by
  rw [balance, List.map_cons, List.sum_cons, ← balance]

/-- A token that means a number is read as it. -/
theorem TokenKind.parse?_of_ofToken {token : String} {x : Double}
    (h : ofToken token = .number x) : Numeral.parse? token = some x := by
  rw [ofToken] at h
  split at h
  · next hx =>
    cases h
    exact hx
  · split at h <;> cases h

/-! ## The stages keep the balance -/

/-- Waiting operators. -/
theorem Item.balance_map_operator (os : List Operator) :
    balance (os.map .operator) = -(os.length : ℤ) := by
  induction os with
  | nil => rfl
  | cons o os ih =>
    rw [List.map_cons, balance_cons, ih, gain, List.length_cons]
    push_cast
    ring

/-- Balances of items add up. -/
theorem Item.balance_append (a b : List Item) : balance (a ++ b) = balance a + balance b := by
  rw [balance, List.map_append, List.sum_append, ← balance, ← balance]

/-- An item behind others. -/
theorem Item.balance_concat (items : List Item) (item : Item) :
    balance (items ++ [item]) = balance items + item.gain := by
  rw [balance_append, balance_cons]
  exact congrArg _ (add_zero _)

/-- No tokens. -/
theorem Token.balance_nil : balance [] = 0 := rfl

/-- A token alone. -/
theorem Token.balance_singleton (token : String) :
    balance [token] = (TokenKind.ofToken token).gain := by
  rw [balance_cons, balance_nil, add_zero]

/-- Balances of tokens add up. -/
theorem Token.balance_append (a b : List String) : balance (a ++ b) = balance a + balance b := by
  rw [balance, List.map_append, List.sum_append, ← balance, ← balance]

/-- The items of the postfix order are operators and the numbers that tokens mean. -/
theorem Postfix.cases_of_mem_order {waiting : List Operator} {tokens : List String} {item : Item}
    (h : item ∈ (order waiting tokens).1) :
    (∃ o, item = .operator o) ∨
      ∃ token x, TokenKind.ofToken token = .number x ∧ item = .number x := by
  have hoperators : ∀ os : List Operator, item ∈ os.map .operator → ∃ o, item = .operator o := by
    intro os hmem
    obtain ⟨o, -, rfl⟩ := List.mem_map.1 hmem
    exact ⟨o, rfl⟩
  induction tokens generalizing waiting with
  | nil => exact .inl (hoperators waiting h)
  | cons token tokens ih =>
    rw [order] at h
    cases htoken : TokenKind.ofToken token with
    | number x =>
      rw [htoken] at h
      obtain rfl | hrest := List.mem_cons.1 h
      · exact .inr ⟨token, x, htoken, rfl⟩
      · exact ih hrest
    | operator o =>
      rw [htoken] at h
      obtain hfront | hrest := List.mem_append.1 h
      · exact .inl (hoperators _ hfront)
      · exact ih hrest
    | unrecognised =>
      rw [htoken] at h
      exact ih h

/-- The postfix order has the balance of the tokens, less the operators that were waiting. -/
theorem Postfix.balance_order (waiting : List Operator) (tokens : List String) :
    Item.balance (order waiting tokens).1 = Token.balance tokens - waiting.length := by
  induction tokens generalizing waiting with
  | nil =>
    rw [order, Item.balance_map_operator]
    exact (zero_sub _).symm
  | cons token tokens ih =>
    rw [order, Token.balance_cons]
    cases htoken : TokenKind.ofToken token with
    | number x =>
      simp only [Item.balance_cons, ih, Item.gain, TokenKind.gain]
      ring
    | operator o =>
      -- The operators put out and those that go on waiting are the ones that waited.
      have hlength : (waiting.takeWhile o.yieldsTo).length +
          (waiting.dropWhile o.yieldsTo).length = waiting.length := by
        rw [← List.length_append, List.takeWhile_append_dropWhile]
      simp only [Item.balance_append, Item.balance_map_operator, ih, TokenKind.gain,
        List.length_cons]
      push_cast
      omega
    | unrecognised =>
      simp only [ih, TokenKind.gain]
      ring

/-- An evaluation that ends with a value has, together with the operands on the stack, one number
more than operators. -/
theorem Evaluation.length_add_balance_of_run {p : ℕ} (hp : p ≤ 15) {operands : List Double}
    {items : List Item} {x : Double} (h : (run p operands items).outcome = .ok x) :
    operands.length + Item.balance items = 1 := by
  have hcourse := course_run hp operands items
  generalize run p operands items = e at hcourse h
  induction hcourse with
  | value y => rfl
  | leftover => cases h
  | number y _ ih =>
    have hrest := ih h
    rw [List.length_cons] at hrest
    rw [Item.balance_cons, Item.gain]
    push_cast at hrest
    omega
  | operation o left right _ _ ih =>
    -- Two operands are taken from the stack and one is put on it.
    have hrest := ih h
    rw [List.length_cons] at hrest
    rw [Item.balance_cons, Item.gain, List.length_cons, List.length_cons]
    push_cast at hrest ⊢
    omega
  | stop => cases h

/-! ## Separated tokens with an excess of one form a chain -/

/-- A token that is the symbol of an operator takes an operand away. -/
theorem Token.IsOperator.gain_eq {token : String} (h : IsOperator token) :
    (TokenKind.ofToken token).gain = -1 := by
  obtain ⟨o, rfl⟩ := h
  rw [Operator.ofToken_text]
  rfl

/-- Any other token adds an operand at most. -/
theorem TokenKind.gain_le (kind : TokenKind) : kind.gain ≤ 1 := by
  cases kind <;> simp [gain]

/-- The excess of separated tokens is at most one, and at most zero when they begin with an
operator. -/
theorem Token.balance_le {tokens : List String} (h : tokens.IsChain Separated) :
    balance tokens ≤ 1 ∧ ∀ token ∈ tokens.head?, IsOperator token → balance tokens ≤ 0 := by
  induction tokens with
  | nil => simp [balance]
  | cons token tokens ih =>
    obtain ⟨hhead, htail⟩ := List.isChain_cons.1 h
    obtain ⟨hone, hzero⟩ := ih htail
    have hoperator : IsOperator token → balance (token :: tokens) ≤ 0 := by
      intro hop
      rw [balance_cons, hop.gain_eq]
      omega
    refine ⟨?_, fun t ht => ?_⟩
    · by_cases hop : IsOperator token
      · exact (hoperator hop).trans zero_le_one
      · rw [balance_cons]
        have hgain := (TokenKind.ofToken token).gain_le
        rcases tokens with _ | ⟨next, tokens⟩
        · simpa [balance] using hgain
        · -- Behind a token that is no operator comes an operator.
          have hnext : IsOperator next := (hhead next rfl).resolve_left hop
          have := hzero next rfl hnext
          omega
    · obtain rfl : token = t := by simpa using ht
      exact hoperator

/-- A token that adds an operand is a literal with a finite value. -/
theorem Literal.exists_of_gain {token : String} (h : (TokenKind.ofToken token).gain = 1) :
    ∃ l : Literal, l.text = token ∧ l.value.isFinite := by
  cases htoken : TokenKind.ofToken token with
  | number x =>
    obtain ⟨l, hl, rfl, hfinite⟩ := exists_of_parse? (TokenKind.parse?_of_ofToken htoken)
    exact ⟨l, hl, hfinite⟩
  | operator o =>
    rw [htoken] at h
    cases h
  | unrecognised =>
    rw [htoken] at h
    cases h

/-- Separated tokens with an excess of one are the tokens of a chain of literals with finite
values. -/
theorem Token.exists_chain_of_balance :
    ∀ {tokens : List String}, tokens.IsChain Separated → balance tokens = 1 →
      ∃ c : Chain Literal, tokens = (c.map Literal.text).tokens ∧ ∀ l ∈ c.operands, l.value.isFinite
  | [], _, hbalance => by cases hbalance
  | [token], _, hbalance => by
    obtain ⟨l, rfl, hl⟩ := Literal.exists_of_gain (by simpa [balance] using hbalance)
    exact ⟨⟨l, []⟩, rfl, by simpa [Chain.operands] using hl⟩
  | token :: next :: tokens, hseparated, hbalance => by
    have hnotoperator : ¬ IsOperator token := by
      intro hop
      have := (balance_le hseparated).2 token rfl hop
      omega
    obtain ⟨hpair, hrest⟩ := List.isChain_cons_cons.1 hseparated
    have hnext : IsOperator next := hpair.resolve_left hnotoperator
    have htail := List.IsChain.tail hrest
    -- The operator cancels the first token, which must be a number, so the rest has an excess of
    -- one again.
    rw [balance_cons, balance_cons, hnext.gain_eq] at hbalance
    have hgain := (TokenKind.ofToken token).gain_le
    have hle := (balance_le htail).1
    rw [List.tail_cons] at htail hle
    obtain ⟨l, rfl, hl⟩ := Literal.exists_of_gain (by omega : (TokenKind.ofToken token).gain = 1)
    obtain ⟨c, rfl, hc⟩ := exists_chain_of_balance htail (by omega)
    obtain ⟨o, rfl⟩ := hnext
    refine ⟨⟨l, (o, c.first) :: c.rest⟩, rfl, ?_⟩
    rw [Chain.operands, List.map_cons, ← Chain.operands]
    exact List.forall_mem_cons.2 ⟨hl, hc⟩

end Keypad
