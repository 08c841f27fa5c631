import Keypad.Postfix
import Keypad.Proofs.Expression.Chain
import Mathlib.Data.List.TakeWhile

/-!
# The postfix order of a chain

The postfix order of the tokens of a chain is the postorder of the tree of the chain
(`ofTokens_tokens`). A `Pending` stack keeps with every waiting operator the tree of its left side,
whose items are put out already. Ordering any chain of tokens builds a tree from such a stack
(`exists_order_restTokens`), and this tree is the sum of products (`grow_nil`), because
between two operands the stack holds at most one operator of each level, the stronger one on top. -/

namespace Keypad

/-- Waiting operators, the last one first, each with the tree of its left side. -/
abbrev Pending (α : Type) : Type := List (Tree α × Operator)

namespace Pending

variable {α : Type}

/-- The items of the left sides, in the order in which they were put out. -/
def emitted : Pending Double → List Item
  | [] => []
  | (left, _) :: pending => emitted pending ++ left.postorder

/-- Applies the waiting operators from the top as long as they belong to a class, the tree being the
right side of the first of them. -/
def close (class? : Operator → Bool) : Pending α → Tree α → Pending α × Tree α
  | [], t => ([], t)
  | (left, o) :: pending, t =>
    if class? o then close class? pending (.node o left t) else ((left, o) :: pending, t)

/-- The tree that comes out of a stack, the tree of the last operand and what follows it. -/
def grow : Pending α → Tree α → List (Operator × α) → Tree α
  | pending, t, [] => (close (fun _ => true) pending t).2
  | pending, t, (o, a) :: rest =>
    grow (((close o.yieldsTo pending t).2, o) :: (close o.yieldsTo pending t).1) (.leaf a) rest

/-- Applying waiting operators puts out the operators and keeps the others waiting. -/
theorem emitted_close (class? : Operator → Bool) (pending : Pending Double) (t : Tree Double) :
    emitted (close class? pending t).1 ++ (close class? pending t).2.postorder =
        emitted pending ++ t.postorder ++
          ((pending.map Prod.snd).takeWhile class?).map .operator ∧
      (close class? pending t).1.map Prod.snd = (pending.map Prod.snd).dropWhile class? := by
  induction pending generalizing t with
  | nil => simp [close, emitted]
  | cons head pending ih =>
    obtain ⟨left, o⟩ := head
    rw [close, List.map_cons]
    split_ifs with ho
    · obtain ⟨hitems, hwaiting⟩ := ih (.node o left t)
      rw [List.takeWhile_cons_of_pos ho, List.dropWhile_cons_of_pos ho, hitems, hwaiting]
      simp [emitted, Tree.postorder]
    · rw [List.takeWhile_cons_of_neg ho, List.dropWhile_cons_of_neg ho]
      simp

/-- Ordering the tokens behind an operand completes the postorder of the tree that grows from the
waiting operators. -/
theorem exists_order_restTokens (pending : Pending Double) (t : Tree Double)
    (rest : List (Operator × Literal)) (hrest : ∀ a ∈ rest, a.2.value.isFinite) :
    ∃ items, Postfix.order (pending.map Prod.snd)
        (Chain.restTokens (rest.map fun (o, l) => (o, l.text))) = (items, []) ∧
      emitted pending ++ t.postorder ++ items =
        (grow pending t (rest.map fun (o, l) => (o, l.value))).postorder := by
  induction rest generalizing pending t with
  | nil =>
    refine ⟨_, rfl, ?_⟩
    -- At the end every waiting operator is applied, as if the next one yielded to all of them.
    obtain ⟨hitems, hwaiting⟩ := emitted_close (fun _ => true) pending t
    have hall : (pending.map Prod.snd).dropWhile (fun _ => true) = [] :=
      List.dropWhile_eq_nil_iff.2 fun _ _ => rfl
    have hnone : (close (fun _ => true) pending t).1 = [] := by
      rw [hall] at hwaiting
      exact List.map_eq_nil_iff.1 hwaiting
    have htake : (pending.map Prod.snd).takeWhile (fun _ => true) = pending.map Prod.snd :=
      List.takeWhile_eq_self_iff.2 fun _ _ => rfl
    rw [hnone, htake, emitted, List.nil_append] at hitems
    exact hitems.symm
  | cons head rest ih =>
    obtain ⟨o, l⟩ := head
    have hl : l.value.isFinite := hrest (o, l) (List.mem_cons_self ..)
    -- The operators that the next one waits for complete the tree on its left, and it goes on top
    -- of the others.
    obtain ⟨hitems, hwaiting⟩ := emitted_close o.yieldsTo pending t
    obtain ⟨items, horder, hgrow⟩ :=
      ih (((close o.yieldsTo pending t).2, o) :: (close o.yieldsTo pending t).1) (.leaf l.value)
        fun a ha => hrest a (List.mem_cons_of_mem _ ha)
    refine ⟨((pending.map Prod.snd).takeWhile o.yieldsTo).map .operator ++ .number l.value :: items,
      ?_, ?_⟩
    · rw [List.map_cons, hwaiting] at horder
      simp only [List.map_cons, Chain.restTokens, List.flatMap_cons, List.cons_append,
        List.nil_append, Postfix.order, Operator.ofToken_text, Literal.ofToken_text hl]
      rw [Chain.restTokens] at horder
      rw [horder]
    · rw [List.map_cons, grow, ← hgrow, emitted, hitems, Tree.postorder]
      simp only [List.append_assoc, List.singleton_append]

/-! ## The tree is the sum of products -/

/-- Products and quotients are applied before any next operator, sums and differences only before
one of their own level. -/
theorem yieldsTo_eq (o other : Operator) :
    o.yieldsTo other = (other.isMultiplicative || !o.isMultiplicative) := by
  cases o <;> cases other <;> rfl

/-- The tree below an operator that waits for it, if there is one. -/
def under : Option (Tree α × Operator) → Tree α → Tree α
  | none, t => t
  | some (left, o), t => .node o left t

section Levels

variable {sum product : Option (Tree α × Operator)} {o : Operator}

/-- A product or quotient applies the one that waits on top and nothing else. -/
theorem close_of_isMultiplicative (hsum : ∀ e ∈ sum, e.2.isMultiplicative = false)
    (hproduct : ∀ e ∈ product, e.2.isMultiplicative) (ho : o.isMultiplicative) (t : Tree α) :
    close o.yieldsTo (product.toList ++ sum.toList) t = (sum.toList, under product t) := by
  -- A product does not wait for a sum, which stays at the bottom of the stack.
  have hbottom : ∀ t : Tree α, close o.yieldsTo sum.toList t = (sum.toList, t) := by
    intro t
    cases sum with
    | none => rfl
    | some e =>
      have he : o.yieldsTo e.2 = false := by simp [yieldsTo_eq, hsum e rfl, ho]
      exact if_neg (by simp [he])
  cases product with
  | none => exact hbottom t
  | some e =>
    have he : o.yieldsTo e.2 := by simp [yieldsTo_eq, hproduct e rfl]
    rw [Option.toList_some, List.singleton_append, close, if_pos he, hbottom]
    rfl

/-- A sum or difference applies everything that waits. -/
theorem close_of_not_isMultiplicative (ho : o.isMultiplicative = false) (t : Tree α) :
    close o.yieldsTo (product.toList ++ sum.toList) t = ([], under sum (under product t)) := by
  have hall : ∀ other, o.yieldsTo other := fun other => by simp [yieldsTo_eq, ho]
  cases product <;> cases sum <;> simp [close, under, hall]

variable (sum product) in
/-- Between two operands at most one sum or difference waits, and on top of it at most one product
or quotient. What follows first completes the product, then the sum. -/
theorem grow_eq_foldl (hsum : ∀ e ∈ sum, e.2.isMultiplicative = false)
    (hproduct : ∀ e ∈ product, e.2.isMultiplicative) (t : Tree α) (rest : List (Operator × α)) :
    grow (product.toList ++ sum.toList) t rest =
      (Chain.group rest).2.foldl (fun t (o, c) => .node o t c.productTree)
        (under sum <|
          (Chain.group rest).1.foldl (fun t (o, a) => .node o t (.leaf a)) (under product t)) := by
  induction rest generalizing sum product t with
  | nil => cases product <;> cases sum <;> rfl
  | cons head rest ih =>
    obtain ⟨o, a⟩ := head
    rw [grow, Chain.group]
    split_ifs with ho
    · rw [close_of_isMultiplicative hsum hproduct ho]
      have hnext : ∀ e ∈ some (under product t, o), e.2.isMultiplicative := by
        rintro e ⟨⟩
        exact ho
      exact ih sum (some (under product t, o)) hsum hnext (.leaf a)
    · rw [close_of_not_isMultiplicative (by simpa using ho)]
      have hnext : ∀ e ∈ some (under sum (under product t), o), e.2.isMultiplicative = false := by
        rintro e ⟨⟩
        simpa using ho
      exact ih (some (under sum (under product t), o)) none hnext (by simp) (.leaf a)

end Levels

/-- With nothing waiting, the tree that grows from the operands of a chain is the tree of the
chain. -/
theorem grow_nil (c : Chain α) : grow [] (.leaf c.first) c.rest = c.tree :=
  grow_eq_foldl none none (by simp) (by simp) _ _

end Pending

/-- Tokens that are put in postfix order are put there by `Postfix.order`, refused or not. -/
theorem Postfix.order_of_ofTokens {strict : Bool} {tokens : List String}
    {ordered : List Item × List String} (h : ofTokens strict tokens = .ok ordered) :
    order [] tokens = ordered := by
  rw [ofTokens] at h
  split at h
  · cases h
  · exact Except.ok.inj h

namespace Chain

variable {c : Chain Literal}

/-- No token of a chain of literals with finite values is without a meaning. -/
theorem find?_isUnrecognised_tokens (h : ∀ l ∈ c.operands, l.value.isFinite) :
    (c.map Literal.text).tokens.find? Postfix.isUnrecognised = none := by
  rw [List.find?_eq_none]
  intro token htoken
  rw [Postfix.isUnrecognised]
  obtain ⟨l, hl, rfl⟩ | ⟨factor, -, rfl⟩ := mem_tokens_map.1 htoken
  · simp [Literal.ofToken_text (h l hl)]
  · simp [Operator.ofToken_text]

/-- The postfix order of the tokens of a chain is the postorder of its tree. -/
theorem ofTokens_tokens (strict : Bool) (h : ∀ l ∈ c.operands, l.value.isFinite) :
    Postfix.ofTokens strict (c.map Literal.text).tokens =
      .ok ((c.map Literal.value).tree.postorder, []) := by
  have hnone : (if strict then (c.map Literal.text).tokens.find? Postfix.isUnrecognised else none) =
      none := by
    rw [find?_isUnrecognised_tokens h, ite_self]
  rw [Postfix.ofTokens, hnone]
  dsimp only
  have hfirst : c.first.value.isFinite := h c.first (List.mem_cons_self ..)
  obtain ⟨items, horder, htree⟩ :=
    Pending.exists_order_restTokens [] (.leaf c.first.value) c.rest fun a ha =>
      h a.2 (List.mem_cons_of_mem _ (List.mem_map_of_mem ha))
  rw [List.map_nil] at horder
  have hwhole : Pending.grow [] (.leaf c.first.value) (c.rest.map fun (o, l) => (o, l.value)) =
      (c.map Literal.value).tree :=
    Pending.grow_nil (c.map Literal.value)
  rw [hwhole] at htree
  rw [← htree]
  simp only [tokens, map, Postfix.order, Literal.ofToken_text hfirst, horder]
  rfl

end Chain

end Keypad
