import Keypad.Yaml.Cursor

/-!
# Plain scalars

A plain scalar has no quotes. It ends at a comment, at a colon that ends a key, at the end of its
indentation or, inside a flow collection, at an indicator of that collection. It may go on over
several lines: one line break between two lines becomes a blank, and of several the first is
dropped.
-/

namespace Keypad.Yaml.Plain

/-- The colon in front of the given character ends a key. -/
def endsKey (flow : Bool) (following : Char) : Bool :=
  isGap following || (flow && isFlowIndicator following)

/-- The part of the scalar up to the next gap. -/
def word (flow : Bool) : List Char → List Char
  | [] => []
  | c :: cs =>
    if isGap c || (c == ':' && endsKey flow (cs.headD eof)) ||
        (flow && (c == '?' || isFlowIndicator c)) then []
    else c :: word flow cs

/-- The line breaks after the first one, with the blanks around them; nothing when they lead to a
mark of a document. -/
def breaks : (fuel : Nat) → Cursor → Option (List Char) × Cursor
  | 0, c => (some [], c)
  | fuel + 1, c =>
    if c.peek == ' ' then breaks fuel c.next
    else
      match c.lineBreak? with
      | (none, c) => (some [], c)
      | (some char, c) =>
        if c.atDocumentMark then (none, c)
        else
          match breaks fuel c with
          | (chars, c) => (chars.map (char :: ·), c)

/-- What a line break counts as, given the breaks that follow it. -/
def fold (char : Char) (breaks : List Char) : List Char :=
  (if char != '\n' then [char] else if breaks = [] then [' '] else []) ++ breaks

/-- A gap between two words: the characters that it counts as, none where the scalar ends, whether
it holds a line break, and the position behind it. -/
def gap (c : Cursor) : Option (List Char) × Bool × Cursor :=
  match c.span (· == ' ') with
  | (blanks, c) =>
    match c.lineBreak? with
    | (none, c) => (some blanks, false, c)
    | (some char, c) =>
      if c.atDocumentMark then (none, true, c)
      else
        match breaks c.rest.length c with
        | (chars, c) => (chars.map (fold char), true, c)

/-- The words of the scalar from here on behind a gap, whether the last gap holds a line break, and
the position behind the scalar. -/
def words (flow : Bool) (indent : Int) :
    (fuel : Nat) → (gapChars : List Char) → (broken : Bool) → Cursor → List Char × Bool × Cursor
  | 0, _, broken, c => ([], broken, c)
  | fuel + 1, gapChars, broken, c =>
    let chars := word flow c.rest
    if c.peek == '#' || chars.isEmpty then ([], broken, c)
    else
      match gap (c.forward chars.length) with
      | (none, broken, c) => (gapChars ++ chars, broken, c)
      | (some gapChars', broken, c) =>
        if gapChars'.isEmpty || c.peek == '#' || (!flow && (c.column : Int) < indent) then
          (gapChars ++ chars, broken, c)
        else
          match words flow indent fuel gapChars' broken c with
          | (more, broken, c) => (gapChars ++ chars ++ more, broken, c)

/-- A plain scalar: its text, whether a line break precedes the position behind it, and that
position. -/
def scan (flow : Bool) (indent : Int) (c : Cursor) : String × Bool × Cursor :=
  match words flow indent c.rest.length [] false c with
  | (chars, broken, c) => (String.ofList chars, broken, c)

end Keypad.Yaml.Plain
