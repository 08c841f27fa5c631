/-!
# Characters of documents

The classes of characters that the reading of a document is based on. A document holds no NUL, so
that `eof` can stand for what follows its last character.
-/

namespace Keypad.Yaml

/-- What follows the last character of a document. -/
def eof : Char := '\x00'

/-- The characters that a document may hold. -/
def isAllowed (c : Char) : Bool :=
  let n := c.toNat
  n == 0x09 || n == 0x0A || n == 0x0D || (0x20 ≤ n && n ≤ 0x7E) || n == 0x85 ||
    (0xA0 ≤ n && n ≤ 0xD7FF) || (0xE000 ≤ n && n ≤ 0xFFFD) || 0x10000 ≤ n

/-- The characters that end a line. -/
def isBreak (c : Char) : Bool :=
  c == '\r' || c == '\n' || c == '\u0085' || c == '\u2028' || c == '\u2029'

/-- The end of a line or of the document. -/
def isLineEnd (c : Char) : Bool := c == eof || isBreak c

/-- The end of a line, of the document or of a word. -/
def isWordEnd (c : Char) : Bool := c == ' ' || isLineEnd c

/-- A tab, or the end of a line, of the document or of a word. -/
def isGap (c : Char) : Bool := c == '\t' || isWordEnd c

/-- The characters that structure flow collections. -/
def isFlowIndicator (c : Char) : Bool := c == ',' || c == '[' || c == ']' || c == '{' || c == '}'

/-- The characters with a meaning of their own at the start of a token. -/
def isIndicator (c : Char) : Bool :=
  "-?:,[]\x7b\x7d#&*!|>'\"%@`".toList.contains c

/-- ASCII letters and digits. -/
def isAlphanumeric (c : Char) : Bool := c.isAlphanum

/-- The characters of names. -/
def isNameChar (c : Char) : Bool := isAlphanumeric c || c == '-' || c == '_'

/-- The characters of tags and their abbreviations. -/
def isUriChar (c : Char) : Bool :=
  isAlphanumeric c || "-;/?:@&=+$,_.!~*'()[]%".toList.contains c

/-- The mark that may stand in front of a text to tell its encoding. -/
def byteOrderMark : Char := '\uFEFF'

end Keypad.Yaml
