import Keypad.Proofs.Expression.Order

/-!
# Waiting operators

What waits while tokens are put in postfix order. From the top of the stack down every operator
binds less strongly than the one above it (`levelled_cons_dropWhile`), so that at most two wait and
a division can only be on top. It follows where the postfix order of a sequence of tokens can be cut
in two. A sum or difference applies everything that waits (`order_append_of_not_isMultiplicative`),
and a product or quotient everything down to a sum that waits at the bottom
(`order_append_of_isMultiplicative`). -/

namespace Keypad

namespace Operator

/-- From the top down, each operator binds less strongly than those above it. -/
def Levelled (waiting : List Operator) : Prop :=
  waiting.Pairwise fun top below => below.binding.precedence < top.binding.precedence

/-- There are two levels of operators. -/
theorem precedence_eq (o : Operator) :
    o.binding.precedence = if o.isMultiplicative then 2 else 1 := by
  cases o <;> rfl

/-- An operator lets those wait that bind less strongly. -/
theorem yieldsTo_eq_false_iff {o other : Operator} :
    o.yieldsTo other = false ↔ other.binding.precedence < o.binding.precedence := by
  cases o <;> cases other <;> decide

/-- An operator on top of those that it lets wait. -/
theorem levelled_cons_dropWhile {waiting : List Operator} (h : Levelled waiting) (o : Operator) :
    Levelled (o :: waiting.dropWhile o.yieldsTo) := by
  have hrest : Levelled (waiting.dropWhile o.yieldsTo) :=
    h.sublist (List.dropWhile_sublist o.yieldsTo)
  refine List.pairwise_cons.2 ⟨fun below hbelow => ?_, hrest⟩
  cases hdrop : waiting.dropWhile o.yieldsTo with
  | nil =>
    rw [hdrop] at hbelow
    cases hbelow
  | cons top rest =>
    have hne : waiting.dropWhile o.yieldsTo ≠ [] := by simp [hdrop]
    have htop : top.binding.precedence < o.binding.precedence := by
      have := List.head_dropWhile_not o.yieldsTo hne
      simp only [hdrop, List.head_cons] at this
      exact yieldsTo_eq_false_iff.1 this
    rw [hdrop] at hbelow hrest
    rcases List.mem_cons.1 hbelow with rfl | hbelow
    · exact htop
    · exact lt_trans (List.rel_of_pairwise_cons hrest hbelow) htop

/-- At most two operators wait. -/
theorem Levelled.length_le {waiting : List Operator} (h : Levelled waiting) :
    waiting.length ≤ 2 := by
  rcases waiting with _ | ⟨a, _ | ⟨b, _ | ⟨c, rest⟩⟩⟩
  · simp
  · simp
  · simp
  · have hab := List.rel_of_pairwise_cons h (List.mem_cons_self ..)
    have hbc := List.rel_of_pairwise_cons (List.Pairwise.of_cons h) (List.mem_cons_self ..)
    rw [precedence_eq, precedence_eq] at hab hbc
    split_ifs at hab hbc <;> omega

/-- No division waits below another operator. -/
theorem Levelled.divide_not_mem_tail {waiting : List Operator} (h : Levelled waiting) :
    Operator.divide ∉ waiting.tail := by
  cases waiting with
  | nil => exact List.not_mem_nil
  | cons top below =>
    intro hdivide
    have hlt := List.rel_of_pairwise_cons h hdivide
    rw [precedence_eq, precedence_eq] at hlt
    simp only [isMultiplicative, if_true] at hlt
    split_ifs at hlt
    · omega
    · omega

end Operator

namespace Postfix

/-- A number is put out. -/
theorem order_number {token : String} {x : Double} (h : TokenKind.ofToken token = .number x)
    (waiting : List Operator) (tokens : List String) :
    (order waiting (token :: tokens)).1 = .number x :: (order waiting tokens).1 := by
  rw [order, h]

/-- A token without a meaning is left out. -/
theorem order_unrecognised {token : String} (h : TokenKind.ofToken token = .unrecognised)
    (waiting : List Operator) (tokens : List String) :
    (order waiting (token :: tokens)).1 = (order waiting tokens).1 := by
  rw [order, h]

/-- An operator puts out those that it does not let wait, and waits on top of the others. -/
theorem order_operator (o : Operator) (waiting : List Operator) (tokens : List String) :
    (order waiting (o.text :: tokens)).1 =
      (waiting.takeWhile o.yieldsTo).map .operator ++
        (order (o :: waiting.dropWhile o.yieldsTo) tokens).1 := by
  rw [order, Operator.ofToken_text]

/-- A sum or difference ends what stands in front of it: the postfix order goes on as if it were the
first operator. -/
theorem order_append_of_not_isMultiplicative {o : Operator} (ho : o.isMultiplicative = false)
    (waiting : List Operator) (before after : List String) :
    (order waiting (before ++ o.text :: after)).1 =
      (order waiting before).1 ++ (order [o] after).1 := by
  induction before generalizing waiting with
  | nil =>
    have hall : ∀ other ∈ waiting, o.yieldsTo other := fun other _ => by
      simp [Pending.yieldsTo_eq, ho]
    rw [List.nil_append, order_operator, List.takeWhile_eq_self_iff.2 hall,
      List.dropWhile_eq_nil_iff.2 hall, order]
  | cons token before ih =>
    rw [List.cons_append]
    cases htoken : TokenKind.ofToken token with
    | number x =>
      rw [order_number htoken, order_number htoken, ih, List.cons_append]
    | operator other =>
      obtain rfl := TokenKind.eq_text_of_ofToken htoken
      rw [order_operator, order_operator, ih, List.append_assoc]
    | unrecognised =>
      rw [order_unrecognised htoken, order_unrecognised htoken, ih]

/-- A product or quotient applies the products and quotients that wait above a sum. -/
theorem waiting_append_of_isMultiplicative {o : Operator} (ho : o.isMultiplicative)
    {waiting bottom : List Operator} (hwaiting : ∀ w ∈ waiting, w.isMultiplicative)
    (hbottom : ∀ b ∈ bottom, b.isMultiplicative = false) :
    (waiting ++ bottom).takeWhile o.yieldsTo = waiting ∧
      (waiting ++ bottom).dropWhile o.yieldsTo = bottom := by
  have hall : ∀ w ∈ waiting, o.yieldsTo w := fun w hw => by
    simp [Pending.yieldsTo_eq, hwaiting w hw]
  rw [List.takeWhile_append_of_pos hall, List.dropWhile_append_of_pos hall]
  cases bottom with
  | nil => simp
  | cons b bottom =>
    have hb : ¬ o.yieldsTo b := by simp [Pending.yieldsTo_eq, hbottom b (List.mem_cons_self ..), ho]
    rw [List.takeWhile_cons_of_neg hb, List.dropWhile_cons_of_neg hb, List.append_nil]
    exact ⟨rfl, rfl⟩

/-- Behind factors, a product or quotient ends what waits above a sum: the postfix order goes on
with the sum waiting and the operator on top of it. -/
theorem order_append_of_isMultiplicative {o : Operator} (ho : o.isMultiplicative)
    {waiting bottom : List Operator} (hwaiting : ∀ w ∈ waiting, w.isMultiplicative)
    (hbottom : ∀ b ∈ bottom, b.isMultiplicative = false) {before : List String}
    (hbefore : ∀ other : Operator, other.text ∈ before → other.isMultiplicative)
    (after : List String) :
    (order (waiting ++ bottom) (before ++ o.text :: after)).1 =
      (order waiting before).1 ++ (order (o :: bottom) after).1 := by
  induction before generalizing waiting with
  | nil =>
    obtain ⟨htake, hdrop⟩ := waiting_append_of_isMultiplicative ho hwaiting hbottom
    rw [List.nil_append, order_operator, htake, hdrop, order]
  | cons token before ih =>
    have hrest := fun other hother => hbefore other (List.mem_cons_of_mem token hother)
    rw [List.cons_append]
    cases htoken : TokenKind.ofToken token with
    | number x =>
      rw [order_number htoken, order_number htoken, ih hwaiting hrest, List.cons_append]
    | operator other =>
      obtain rfl := TokenKind.eq_text_of_ofToken htoken
      have hother := hbefore other (List.mem_cons_self ..)
      obtain ⟨htake, hdrop⟩ := waiting_append_of_isMultiplicative hother hwaiting hbottom
      -- Without a sum at the bottom the operator is alone on the stack.
      obtain ⟨htake', hdrop'⟩ :=
        waiting_append_of_isMultiplicative hother hwaiting (List.forall_mem_nil _)
      rw [List.append_nil] at htake' hdrop'
      have hih := ih (List.forall_mem_singleton.2 hother) hrest
      rw [List.singleton_append] at hih
      rw [order_operator, order_operator, htake, hdrop, htake', hdrop', hih, List.append_assoc]
    | unrecognised =>
      rw [order_unrecognised htoken, order_unrecognised htoken, ih hwaiting hrest]

end Postfix

end Keypad
