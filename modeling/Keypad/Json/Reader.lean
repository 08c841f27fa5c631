import Keypad.Json.Basic
import Keypad.Numeral
import Keypad.Text.Hex

/-!
# Reading JSON

The reader accepts a JSON text, and besides it the words that stand for the infinities and for what
is not a number. A numeral without point and exponent is a whole number. Of members with one key the
last one counts. Every nested value begins behind at least one character of the value around it, so
the length of the text bounds the depth of the reading.
-/

namespace Keypad.Json

/-- The text behind the blanks that may stand between the parts. -/
def skipBlanks (cs : List Char) : List Char :=
  cs.dropWhile fun c => c = ' ' || c = '\t' || c = '\n' || c = '\r'

/-! ## Texts -/

/-- The code unit that four hexadecimal digits denote. -/
def unit? (a b c d : Char) : Option Nat := Text.ofHexDigits? [a, b, c, d]

/-- The character that a backslash and a letter stand for. -/
def unescape? : Char → Option Char
  | '"' => some '"'
  | '\\' => some '\\'
  | '/' => some '/'
  | 'n' => some '\n'
  | 'r' => some '\r'
  | 't' => some '\t'
  | 'b' => some '\x08'
  | 'f' => some '\x0c'
  | _ => none

/-- The character of a pair of surrogate code units. -/
def surrogatePair? (high low : Nat) : Option Char :=
  if 0xD800 ≤ high ∧ high < 0xDC00 ∧ 0xDC00 ≤ low ∧ low < 0xE000 then
    some (Char.ofNat (0x10000 + (high - 0xD800) * 0x400 + (low - 0xDC00)))
  else none

/-- The rest of a text behind its opening quote, and what follows the closing one. -/
def readText : List Char → Option (List Char × List Char)
  | [] => none
  | '"' :: cs => some ([], cs)
  | '\\' :: 'u' :: a :: b :: c :: d :: cs =>
    match unit? a b c d with
    | none => none
    | some n =>
      if 0xD800 ≤ n ∧ n < 0xE000 then
        match cs with
        | '\\' :: 'u' :: e :: f :: g :: h :: cs =>
          match (unit? e f g h).bind (surrogatePair? n) with
          | none => none
          | some char => (readText cs).map fun (chars, rest) => (char :: chars, rest)
        | _ => none
      else (readText cs).map fun (chars, rest) => (Char.ofNat n :: chars, rest)
  | '\\' :: c :: cs =>
    match unescape? c with
    | none => none
    | some char => (readText cs).map fun (chars, rest) => (char :: chars, rest)
  | c :: cs =>
    if c.toNat < 0x20 then none
    else (readText cs).map fun (chars, rest) => (c :: chars, rest)

/-! ## Numbers -/

/-- The characters of numerals. -/
def isNumeralChar (c : Char) : Bool :=
  c.isDigit || c == '-' || c == '+' || c == '.' || c == 'e' || c == 'E'

/-- A whole number as JSON has it, without needless zeros in front. -/
def isWhole (cs : List Char) : Bool :=
  cs == ['0'] || (cs.all Char.isDigit && cs.head?.any (· != '0'))

/-- The number that a numeral without a sign denotes. -/
def magnitude? (negative : Bool) (cs : List Char) : Option Json :=
  let whole := cs.takeWhile Char.isDigit
  if ¬ isWhole whole then none
  else
    match cs.dropWhile Char.isDigit with
    | [] =>
      let n : Int := Nat.ofDigitChars 10 whole 0
      some (.int (if negative then -n else n))
    | '.' :: c :: rest =>
      if c.isDigit then
        (Numeral.unsigned? (whole ++ '.' :: c :: rest)).map fun d => .double (d.toDouble negative)
      else none
    | '.' :: [] => none
    | rest => (Numeral.unsigned? (whole ++ rest)).map fun d => .double (d.toDouble negative)

/-- The number that a numeral denotes. -/
def number? : List Char → Option Json
  | '-' :: cs => magnitude? true cs
  | cs => magnitude? false cs

/-- A number or one of the words for the doubles without a numeral, and what follows. -/
def readNumber (cs : List Char) : Option (Json × List Char) :=
  if "-Infinity".toList.isPrefixOf cs then some (.double (.infinite true), cs.drop 9)
  else if "Infinity".toList.isPrefixOf cs then some (.double (.infinite false), cs.drop 8)
  else if "NaN".toList.isPrefixOf cs then some (.double .nan, cs.drop 3)
  else (number? (cs.takeWhile isNumeralChar)).map (·, cs.dropWhile isNumeralChar)

/-! ## Values -/

mutual

/-- A value at the front, and what follows it. -/
def readValue : (depth : Nat) → List Char → Option (Json × List Char)
  | 0, _ => none
  | depth + 1, cs =>
    match cs with
    | '"' :: cs => (readText cs).map fun (chars, rest) => (.text (String.ofList chars), rest)
    | '[' :: cs =>
      match skipBlanks cs with
      | ']' :: rest => some (.array [], rest)
      | cs => (readItems depth cs).map fun (items, rest) => (.array items, rest)
    | '{' :: cs =>
      match skipBlanks cs with
      | '}' :: rest => some (.object [], rest)
      | cs => (readMembers depth [] cs).map fun (members, rest) => (.object members, rest)
    | 'n' :: 'u' :: 'l' :: 'l' :: rest => some (.null, rest)
    | 't' :: 'r' :: 'u' :: 'e' :: rest => some (.bool true, rest)
    | 'f' :: 'a' :: 'l' :: 's' :: 'e' :: rest => some (.bool false, rest)
    | cs => readNumber cs

/-- The items of an array from the next one on, and what follows the closing bracket. -/
def readItems : (depth : Nat) → List Char → Option (List Json × List Char)
  | 0, _ => none
  | depth + 1, cs =>
    match readValue depth (skipBlanks cs) with
    | none => none
    | some (item, rest) =>
      match skipBlanks rest with
      | ']' :: rest => some ([item], rest)
      | ',' :: rest => (readItems depth rest).map fun (items, rest) => (item :: items, rest)
      | _ => none

/-- The members of an object, those read so far and the next ones, and what follows the closing
brace. -/
def readMembers : (depth : Nat) → List (String × Json) → List Char →
    Option (List (String × Json) × List Char)
  | 0, _, _ => none
  | depth + 1, members, cs =>
    match skipBlanks cs with
    | '"' :: cs =>
      match readText cs with
      | none => none
      | some (key, rest) =>
        match skipBlanks rest with
        | ':' :: rest =>
          match readValue depth (skipBlanks rest) with
          | none => none
          | some (value, rest) =>
            let members := put members (String.ofList key) value
            match skipBlanks rest with
            | '}' :: rest => some (members, rest)
            | ',' :: rest => readMembers depth members rest
            | _ => none
        | _ => none
    | _ => none

end

/-- The value that a text denotes. -/
def read? (s : String) : Option Json :=
  let cs := s.toList
  match readValue (cs.length + 1) (skipBlanks cs) with
  | some (json, rest) => if skipBlanks rest = [] then some json else none
  | none => none

end Keypad.Json
