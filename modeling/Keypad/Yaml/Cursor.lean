import Keypad.Yaml.Character

/-!
# Positions in a document

A cursor is what remains of a document, and where that is. Columns count the characters since the
last line break, without byte order marks.
-/

namespace Keypad.Yaml

/-- A position in a document. -/
structure Cursor where
  /-- The characters from here on. -/
  rest : List Char
  /-- The number of characters before. -/
  index : Nat := 0
  /-- The number of line breaks before. -/
  line : Nat := 0
  /-- The number of characters before on this line. -/
  column : Nat := 0

namespace Cursor

/-- The character at the cursor. -/
def peek (c : Cursor) : Char := c.rest.headD eof

/-- The character after so many others. -/
def peekAt (c : Cursor) (n : Nat) : Char := c.rest.getD n eof

/-- The position behind the character at the cursor. A carriage return and a line feed make one line
break. -/
def next (c : Cursor) : Cursor :=
  match c.rest with
  | [] => c
  | char :: rest =>
    if char == '\r' && rest.head? == some '\n' then
      { c with rest, index := c.index + 1, column := c.column + 1 }
    else if isBreak char then ⟨rest, c.index + 1, c.line + 1, 0⟩
    else if char == byteOrderMark then { c with rest, index := c.index + 1 }
    else { c with rest, index := c.index + 1, column := c.column + 1 }

/-- The position so many characters further. -/
def forward (c : Cursor) : Nat → Cursor
  | 0 => c
  | n + 1 => c.next.forward n

/-- The characters of a class from the cursor on, and the position behind them. -/
def span (c : Cursor) (class? : Char → Bool) : List Char × Cursor :=
  let chars := c.rest.takeWhile class?
  (chars, c.forward chars.length)

/-- The position behind the characters of a class. -/
def skip (c : Cursor) (class? : Char → Bool) : Cursor := (c.span class?).2

/-- The position behind blanks. -/
def skipBlanks (c : Cursor) : Cursor := c.skip (· == ' ')

/-- The position behind a comment, if there is one. -/
def skipComment (c : Cursor) : Cursor := if c.peek == '#' then c.skip (!isLineEnd ·) else c

/-- The line break at the cursor, if there is one, as the character that it counts as, and the
position behind it. -/
def lineBreak? (c : Cursor) : Option Char × Cursor :=
  match c.rest with
  | '\r' :: '\n' :: _ => (some '\n', c.forward 2)
  | char :: _ =>
    if char == '\u2028' || char == '\u2029' then (some char, c.next)
    else if isBreak char then (some '\n', c.next)
    else (none, c)
  | [] => (none, c)

/-- Whether a mark that begins or ends a document stands at the cursor: three characters of one kind
with a gap behind them. -/
def atMark (c : Cursor) (char : Char) : Bool :=
  c.rest.take 3 == [char, char, char] && isGap (c.peekAt 3)

/-- Whether a mark that begins or one that ends a document stands at the cursor. -/
def atDocumentMark (c : Cursor) : Bool := c.atMark '-' || c.atMark '.'

end Cursor

end Keypad.Yaml
