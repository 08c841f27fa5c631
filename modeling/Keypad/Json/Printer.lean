import Keypad.Double.Text
import Keypad.Json.Basic
import Keypad.Text.Hex

/-!
# Writing JSON

A value is written on one line or, with an indentation, with every item and member on a line of its
own. Quotes, backslashes and control characters are escaped, all other characters are written as
they are. A double is written as the shortest text that reads back as it; three words stand for the
infinities and for what is not a number.
-/

namespace Keypad.Json

/-- How the parts of a value are laid out. -/
inductive Layout where
  /-- All on one line, with a blank behind commas and colons. -/
  | oneLine
  /-- Each part on its own line, moved right by so many blanks for each level. -/
  | indented (width : Nat)
  deriving DecidableEq

namespace Layout

/-- The layout for a given indentation, where a negative one means none. -/
def ofIndent : Option Int → Layout
  | none => .oneLine
  | some width => .indented width.toNat

/-- The line break in front of a part. -/
def lineBreak : Layout → (level : Nat) → List Char
  | .oneLine, _ => []
  | .indented width, level => '\n' :: List.replicate (level * width) ' '

/-- What stands between two parts. -/
def separator : Layout → (level : Nat) → List Char
  | .oneLine, _ => [',', ' ']
  | layout, level => ',' :: layout.lineBreak level

end Layout

/-- A character as it stands inside a text. -/
def escape (c : Char) : List Char :=
  if c = '"' ∨ c = '\\' then ['\\', c]
  else if c = '\n' then ['\\', 'n']
  else if c = '\r' then ['\\', 'r']
  else if c = '\t' then ['\\', 't']
  else if c = '\x08' then ['\\', 'b']
  else if c = '\x0c' then ['\\', 'f']
  else if c.toNat < 0x20 then '\\' :: 'u' :: Text.hexDigits 4 c.toNat
  else [c]

/-- A text between quotes. -/
def writeText (s : String) : List Char := '"' :: s.toList.flatMap escape ++ ['"']

/-- A double. -/
def writeDouble : Double → List Char
  | .infinite negative => if negative then "-Infinity".toList else "Infinity".toList
  | .nan => "NaN".toList
  | x => x.text.toList

/-- A whole number. -/
def writeInt (n : Int) : List Char := Double.signChars (n < 0) ++ Nat.toDigits 10 n.natAbs

mutual

/-- The text of a value whose first character stands at a level of nesting. -/
def write (layout : Layout) (level : Nat) : Json → List Char
  | .null => "null".toList
  | .bool b => if b then "true".toList else "false".toList
  | .int n => writeInt n
  | .double x => writeDouble x
  | .text s => writeText s
  | .array [] => ['[', ']']
  | .array (item :: items) =>
    '[' :: layout.lineBreak (level + 1) ++ write layout (level + 1) item ++
      writeItems layout (level + 1) items ++ layout.lineBreak level ++ [']']
  | .object [] => ['{', '}']
  | .object ((key, value) :: members) =>
    '{' :: layout.lineBreak (level + 1) ++ writeText key ++ [':', ' '] ++
      write layout (level + 1) value ++ writeMembers layout (level + 1) members ++
      layout.lineBreak level ++ ['}']

/-- The items after the first, each behind a separator. -/
def writeItems (layout : Layout) (level : Nat) : List Json → List Char
  | [] => []
  | item :: items =>
    layout.separator level ++ write layout level item ++ writeItems layout level items

/-- The members after the first, each behind a separator. -/
def writeMembers (layout : Layout) (level : Nat) : List (String × Json) → List Char
  | [] => []
  | (key, value) :: members =>
    layout.separator level ++ writeText key ++ [':', ' '] ++ write layout level value ++
      writeMembers layout level members

end

/-- The text of a value. -/
def render (layout : Layout) (json : Json) : String := String.ofList (write layout 0 json)

end Keypad.Json
