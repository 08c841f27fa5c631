/-!
# Blank characters

Two sets of blank characters. `isBlank` are the characters that may stand between the symbols of an
expression; `isSpace` are those with the Unicode property White_Space, which may surround a number
in a configuration. The first set holds the second and the four information separators U+001C to
U+001F.
-/

namespace Keypad.Text

/-- The characters with the property White_Space. -/
def isSpace (c : Char) : Bool :=
  let n := c.toNat
  (9 ≤ n && n ≤ 13) || n == 0x20 || n == 0x85 || n == 0xA0 || n == 0x1680 ||
    (0x2000 ≤ n && n ≤ 0x200A) || n == 0x2028 || n == 0x2029 || n == 0x202F || n == 0x205F ||
    n == 0x3000

/-- White space and the information separators. -/
def isBlank (c : Char) : Bool := isSpace c || (0x1C ≤ c.toNat && c.toNat ≤ 0x1F)

/-- The text without the characters of a class at its two ends. -/
def trim (class? : Char → Bool) (cs : List Char) : List Char :=
  ((cs.dropWhile class?).reverse.dropWhile class?).reverse

end Keypad.Text
