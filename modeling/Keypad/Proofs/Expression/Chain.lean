import Keypad.Proofs.Expression.Literal
import Keypad.Proofs.Expression.Tree

/-!
# Chains of operands and their grouping

A chain is an operand followed by operators, each with its right operand. `Chain.grouped` cuts it
into the maximal runs joined by products and quotients, so that a chain is a sum of products:
`Chain.evaluate` computes it in these two levels, from the left, and takes up a product when the sum
has come to it. `Chain.tree` is the tree that the grouping describes, and computing this tree is the
same (`evaluate_tree`). -/

namespace Keypad

/-- Products and quotients, which are applied before sums and differences. -/
def Operator.isMultiplicative : Operator → Bool
  | .multiply | .divide => true
  | .add | .subtract => false

/-- Operands with an operator between any two neighbours. -/
structure Chain (α : Type) where
  /-- The first operand. -/
  first : α
  /-- The operators, each with the operand behind it. -/
  rest : List (Operator × α)

namespace Chain

variable {α β : Type}

/-- The operands from left to right. -/
def operands (c : Chain α) : List α := c.first :: c.rest.map Prod.snd

/-- The same operators between other operands. -/
def map (f : α → β) (c : Chain α) : Chain β := ⟨f c.first, c.rest.map fun (o, a) => (o, f a)⟩

/-- The tokens behind the first operand. -/
def restTokens (rest : List (Operator × String)) : List String :=
  rest.flatMap fun (o, text) => [o.text, text]

/-- The texts of the operands and operators from left to right. -/
def tokens (c : Chain String) : List String := c.first :: restTokens c.rest

/-- The tokens of a chain are the texts of its operands and of its operators. -/
theorem mem_tokens_map {text : α → String} {c : Chain α} {token : String} :
    token ∈ (c.map text).tokens ↔
      (∃ a ∈ c.operands, token = text a) ∨ ∃ factor ∈ c.rest, token = factor.1.text := by
  simp only [tokens, map, restTokens, operands, List.mem_cons, List.mem_flatMap, List.mem_map,
    List.not_mem_nil, or_false]
  constructor
  · rintro (rfl | ⟨_, ⟨factor, hfactor, rfl⟩, rfl | rfl⟩)
    · exact .inl ⟨c.first, .inl rfl, rfl⟩
    · exact .inr ⟨factor, hfactor, rfl⟩
    · exact .inl ⟨factor.2, .inr ⟨factor, hfactor, rfl⟩, rfl⟩
  · rintro (⟨a, rfl | ⟨factor, hfactor, rfl⟩, rfl⟩ | ⟨factor, hfactor, rfl⟩)
    · exact .inl rfl
    · exact .inr ⟨_, ⟨factor, hfactor, rfl⟩, .inr rfl⟩
    · exact .inr ⟨_, ⟨factor, hfactor, rfl⟩, .inl rfl⟩

/-! ## Sums of products -/

/-- Cuts what follows an operand into the factors that belong to the operand's product, and the
further products, each behind the operator in front of it. -/
def group : List (Operator × α) → List (Operator × α) × List (Operator × Chain α)
  | [] => ([], [])
  | (o, a) :: rest =>
    match group rest with
    | (factors, products) =>
      if o.isMultiplicative then ((o, a) :: factors, products)
      else ([], (o, ⟨a, factors⟩) :: products)

/-- The chain as a sum of products. -/
def grouped (c : Chain α) : Chain (Chain α) := ⟨⟨c.first, (group c.rest).1⟩, (group c.rest).2⟩

/-- The operators and operands of a sum behind the first product. -/
def ungroup (products : List (Operator × Chain α)) : List (Operator × α) :=
  products.flatMap fun (o, product) => (o, product.first) :: product.rest

/-- A product in front of others. -/
@[simp]
theorem ungroup_cons (o : Operator) (product : Chain α) (products : List (Operator × Chain α)) :
    ungroup ((o, product) :: products) = (o, product.first) :: product.rest ++ ungroup products :=
  List.flatMap_cons

/-- Grouping keeps every operand and operator in its place. -/
theorem group_append_ungroup (rest : List (Operator × α)) :
    (group rest).1 ++ ungroup (group rest).2 = rest := by
  induction rest with
  | nil => rfl
  | cons head rest ih =>
    obtain ⟨o, a⟩ := head
    rw [group]
    split_ifs with ho
    · rw [List.cons_append, ih]
    · rw [List.nil_append, ungroup_cons, List.cons_append, ih]

/-- Within a product there are only products and quotients, between products none. -/
theorem isMultiplicative_group (rest : List (Operator × α)) :
    (∀ factor ∈ (group rest).1, factor.1.isMultiplicative) ∧
      ∀ product ∈ (group rest).2, product.1.isMultiplicative = false ∧
        ∀ factor ∈ product.2.rest, factor.1.isMultiplicative := by
  induction rest with
  | nil => simp [group]
  | cons head rest ih =>
    obtain ⟨o, a⟩ := head
    rw [group]
    split_ifs with ho
    · exact ⟨List.forall_mem_cons.2 ⟨ho, ih.1⟩, ih.2⟩
    · exact ⟨by simp, List.forall_mem_cons.2 ⟨⟨by simpa using ho, ih.1⟩, ih.2⟩⟩

/-- A product computed from the left. -/
def evaluateProduct (precision : ℕ) (c : Chain Double) : Progress :=
  c.rest.foldl (fun before (o, y) => before.andThen fun x => operate precision o x y)
    (.value c.first)

/-- A sum of products computed from the left, each product when it is reached. -/
def evaluateSum (precision : ℕ) (c : Chain (Chain Double)) : Progress :=
  c.rest.foldl
    (fun before (o, product) =>
      before.andThen fun x =>
        (evaluateProduct precision product).andThen fun y => operate precision o x y)
    (evaluateProduct precision c.first)

/-- The chain computed as a sum of products. -/
def evaluate (precision : ℕ) (c : Chain Double) : Progress := evaluateSum precision c.grouped

/-! ## The tree of a chain -/

/-- The tree of a product, grouped to the left. -/
def productTree (c : Chain α) : Tree α :=
  c.rest.foldl (fun t (o, a) => .node o t (.leaf a)) (.leaf c.first)

/-- The tree of a sum of products, grouped to the left. -/
def sumTree (c : Chain (Chain α)) : Tree α :=
  c.rest.foldl (fun t (o, product) => .node o t product.productTree) c.first.productTree

/-- The tree of a chain. -/
def tree (c : Chain α) : Tree α := sumTree c.grouped

/-- The tree of a product has the operands of the product. -/
theorem operands_productTree (c : Chain α) : c.productTree.operands = c.operands := by
  have hfold : ∀ (rest : List (Operator × α)) (t : Tree α),
      (rest.foldl (fun t (o, a) => Tree.node o t (.leaf a)) t).operands =
        t.operands ++ rest.map Prod.snd := by
    intro rest
    induction rest with
    | nil => exact fun t => (List.append_nil _).symm
    | cons head rest ih =>
      intro t
      rw [List.foldl_cons, ih, List.map_cons, Tree.operands, Tree.operands, List.append_assoc,
        List.singleton_append]
  rw [productTree, hfold]
  rfl

/-- The tree of a chain has the operands of the chain. -/
theorem operands_tree (c : Chain α) : c.tree.operands = c.operands := by
  have hfold : ∀ (products : List (Operator × Chain α)) (t : Tree α),
      (products.foldl (fun t (o, product) => Tree.node o t product.productTree) t).operands =
        t.operands ++ (ungroup products).map Prod.snd := by
    intro products
    induction products with
    | nil => exact fun t => (List.append_nil _).symm
    | cons head products ih =>
      intro t
      obtain ⟨o, product⟩ := head
      rw [List.foldl_cons, ih, Tree.operands, operands_productTree, List.append_assoc, ungroup_cons,
        List.map_append, List.map_cons, operands]
  rw [tree, sumTree, hfold, operands_productTree, grouped, operands, operands, List.cons_append,
    ← List.map_append, group_append_ungroup]

/-- Grouping does not look at the operands. -/
theorem group_map (f : α → β) (rest : List (Operator × α)) :
    group (rest.map fun (o, a) => (o, f a)) =
      ((group rest).1.map fun (o, a) => (o, f a),
        (group rest).2.map fun (o, product) => (o, product.map f)) := by
  induction rest with
  | nil => rfl
  | cons head rest ih =>
    obtain ⟨o, a⟩ := head
    rw [List.map_cons, group, group, ih]
    split_ifs with ho
    · rfl
    · rfl

/-- The tree of a product with other operands. -/
theorem productTree_map (f : α → β) (c : Chain α) :
    (c.map f).productTree = c.productTree.map f := by
  have hfirst : Tree.leaf (c.map f).first = (Tree.leaf c.first).map f := rfl
  rw [productTree, productTree, hfirst, map, List.foldl_map]
  exact List.foldl_hom (Tree.map f) fun t b => rfl

/-- The tree of a chain with other operands. -/
theorem tree_map (f : α → β) (c : Chain α) : (c.map f).tree = c.tree.map f := by
  have hgrouped : (c.map f).grouped = c.grouped.map (Chain.map f) := by
    rw [grouped, map, group_map]
    rfl
  rw [tree, tree, hgrouped, sumTree, sumTree, map, List.foldl_map, productTree_map]
  refine List.foldl_hom (Tree.map f) fun t b => ?_
  exact congrArg (Tree.node b.1 (t.map f)) (productTree_map f b.2)

/-- The tree of a product computes the product. -/
theorem evaluate_productTree (p : ℕ) (c : Chain Double) :
    c.productTree.evaluate p = c.evaluateProduct p := by
  rw [productTree, evaluateProduct]
  exact (List.foldl_hom (Tree.evaluate p) (fun t b => rfl)).symm

/-- The tree of a chain computes the chain. -/
theorem evaluate_tree (p : ℕ) (c : Chain Double) : c.tree.evaluate p = c.evaluate p := by
  rw [tree, sumTree, evaluate, evaluateSum, ← evaluate_productTree]
  refine (List.foldl_hom (Tree.evaluate p) (fun t b => ?_)).symm
  rw [Tree.evaluate, evaluate_productTree]

end Chain

end Keypad
