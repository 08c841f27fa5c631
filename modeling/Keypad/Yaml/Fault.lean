/-!
# What can be wrong with a document

Most documents that cannot be read are malformed, and nothing more is said of them. The other faults
belong to single values: a scalar that has the tag of a number or a date without being one, a date
that is not in the calendar, an escape of a code point that does not exist.
-/

namespace Keypad.Yaml

/-- A part of a date or of a time of day that is out of its range. -/
inductive DatePart where
  | year (year : Nat)
  | month
  | day
  | hour
  | minute
  | second
  | offset (minutes : Int)
  deriving DecidableEq

/-- Why a document cannot be read. -/
inductive Fault where
  /-- The document is not well formed, or has a tag that is not known. -/
  | malformed
  /-- An escape stands for a code point that does not exist. -/
  | codePoint (n : Nat)
  /-- A scalar with the tag of a truth value is none. -/
  | notBool
  /-- A scalar with the tag of a number has no characters but a sign. -/
  | noDigits
  /-- A part of a whole number has other characters than the digits of its base. -/
  | notInt (base : Nat) (text : String)
  /-- A part of a whole number has more decimal digits than are read. -/
  | tooManyDigits (count : Nat)
  /-- A number has more parts to the base of sixty than there are such places in the doubles. -/
  | tooManyParts
  /-- Nodes are nested too deeply. -/
  | tooDeep
  /-- A part of a number is none. -/
  | notDouble (text : String)
  /-- A scalar with the tag of a point in time is none. -/
  | notTimestamp
  /-- A point in time is given by something that is not a scalar. -/
  | notScalar
  /-- A date or a time of day does not exist. -/
  | datePart (part : DatePart)
  deriving DecidableEq

end Keypad.Yaml
