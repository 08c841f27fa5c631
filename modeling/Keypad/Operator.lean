import Keypad.Double.Arith

/-!
# Operators

The four arithmetic operators of a keypad, each a single symbol. `Binding` is what decides which of
two operators next to each other is applied first; it stands on its own so that the rule can be
stated for any precedence and associativity.
-/

namespace Keypad

/-- How operators of one precedence group. -/
inductive Associativity where
  | left
  | right
  deriving DecidableEq

/-- How strongly an operator binds, and how it groups with its equals. -/
structure Binding where
  /-- The greater number binds first. -/
  precedence : Int
  /-- How operators of this precedence group. -/
  associativity : Associativity
  deriving DecidableEq

namespace Binding

/-- The operator groups to the left. -/
def isLeft (b : Binding) : Bool := b.associativity = .left

/-- An operator with binding `b` waits until an earlier one with binding `other` has been applied.
-/
def yieldsTo (b other : Binding) : Bool :=
  b.precedence < other.precedence || (b.precedence = other.precedence && b.isLeft)

end Binding

/-- An arithmetic operator. -/
inductive Operator where
  | add
  | subtract
  | multiply
  | divide
  deriving DecidableEq

namespace Operator

/-- The operators in the order of the keypad. -/
def all : List Operator := [.add, .subtract, .multiply, .divide]

/-- The symbol that stands for the operator. -/
def symbol : Operator → Char
  | .add => '+'
  | .subtract => '-'
  | .multiply => '×'
  | .divide => '÷'

/-- The symbol as a text. -/
def text (o : Operator) : String := String.singleton o.symbol

/-- The name of the operation. -/
def name : Operator → String
  | .add => "add"
  | .subtract => "subtract"
  | .multiply => "multiply"
  | .divide => "divide"

/-- Products and quotients bind before sums and differences, and all group to the left. -/
def binding : Operator → Binding
  | .add | .subtract => ⟨1, .left⟩
  | .multiply | .divide => ⟨2, .left⟩

/-- The operator waits until an earlier one has been applied. -/
def yieldsTo (o other : Operator) : Bool := o.binding.yieldsTo other.binding

/-- The operator that a character stands for. -/
def ofChar? : Char → Option Operator
  | '+' => some .add
  | '-' => some .subtract
  | '×' => some .multiply
  | '÷' => some .divide
  | _ => none

/-- The character stands for an operator. -/
def isSymbol (c : Char) : Bool := (ofChar? c).isSome

/-- The operator that a text stands for. -/
def ofText? (text : String) : Option Operator :=
  match text.toList with
  | [c] => ofChar? c
  | _ => none

/-- The result of the operation; only a division by zero has none. -/
def compute? : Operator → Double → Double → Option Double
  | .add, x, y => some (x.add y)
  | .subtract, x, y => some (x.sub y)
  | .multiply, x, y => some (x.mul y)
  | .divide, x, y => if y.isZero then none else some (x.div y)

/-- A character stands for an operator exactly when it is the operator's symbol. -/
theorem ofChar?_eq_some_iff {c : Char} {o : Operator} : ofChar? c = some o ↔ c = o.symbol := by
  constructor
  · intro h
    unfold ofChar? at h
    split at h <;> first | (injection h with h; subst h; rfl) | cases h
  · rintro rfl
    cases o <;> rfl

end Operator

end Keypad
