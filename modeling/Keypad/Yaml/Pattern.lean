/-!
# Patterns

Sets of texts given by a pattern of character classes. Whether a text belongs to a pattern is found
character by character: `derive` is the pattern of what may follow a given character, and the text
belongs to the pattern when what is left after its last character may be nothing.
-/

namespace Keypad.Yaml

/-- A pattern of characters. -/
inductive Pattern where
  /-- No text. -/
  | none
  /-- The empty text. -/
  | empty
  /-- One character of a class. -/
  | one (class? : Char → Bool)
  /-- A text of the first pattern followed by one of the second. -/
  | seq (first second : Pattern)
  /-- A text of either pattern. -/
  | or (left right : Pattern)
  /-- Any number of texts of a pattern, one behind the other. -/
  | many (p : Pattern)

namespace Pattern

/-- The empty text belongs to the pattern. -/
def allowsEmpty : Pattern → Bool
  | .none | .one _ => false
  | .empty | .many _ => true
  | .seq p q => p.allowsEmpty && q.allowsEmpty
  | .or p q => p.allowsEmpty || q.allowsEmpty

/-- One pattern behind another; nothing follows what is impossible. -/
def append : Pattern → Pattern → Pattern
  | .none, _ => .none
  | .empty, q => q
  | p, q => .seq p q

/-- Either of two patterns, of which an impossible one can be left out. -/
def orElse : Pattern → Pattern → Pattern
  | .none, q => q
  | p, .none => p
  | p, q => .or p q

/-- The pattern of what may follow a character. -/
def derive (c : Char) : Pattern → Pattern
  | .none | .empty => .none
  | .one class? => if class? c then .empty else .none
  | .seq p q =>
    if p.allowsEmpty then orElse (append (p.derive c) q) (q.derive c)
    else append (p.derive c) q
  | .or p q => orElse (p.derive c) (q.derive c)
  | .many p => append (p.derive c) (.many p)

/-- The text belongs to the pattern. -/
def allows (p : Pattern) (cs : List Char) : Bool :=
  (cs.foldl (fun p c => p.derive c) p).allowsEmpty

/-! ## Building patterns -/

/-- A given character. -/
def char (c : Char) : Pattern := .one (· == c)

/-- One of some characters. -/
def oneOf (s : String) : Pattern := .one s.toList.contains

/-- A given text. -/
def text (s : String) : Pattern := s.toList.foldr (fun c p => .seq (char c) p) .empty

/-- Patterns one behind the other. -/
def sequence (ps : List Pattern) : Pattern := ps.foldr .seq .empty

/-- Any of some patterns. -/
def choice (ps : List Pattern) : Pattern := ps.foldr .or .none

/-- A pattern or nothing. -/
def opt (p : Pattern) : Pattern := .or .empty p

/-- A pattern at least once. -/
def some (p : Pattern) : Pattern := .seq p (.many p)

/-- A decimal digit. -/
def digit : Pattern := .one Char.isDigit

end Pattern

end Keypad.Yaml
