import Keypad.Text.Hex
import Keypad.Yaml.Cursor
import Keypad.Yaml.Fault

/-!
# Quoted scalars

A scalar between single quotes has no escapes but the quote written twice. Between double quotes a
backslash escapes a character, a code point or a line break. In both, a line break with the blanks
around it becomes a blank, and of several line breaks the first is dropped.
-/

namespace Keypad.Yaml.Quoted

/-- The characters that a backslash and a letter stand for. -/
def escapes : List (Char × Char) :=
  [('0', '\x00'), ('a', '\x07'), ('b', '\x08'), ('t', '\t'), ('\t', '\t'), ('n', '\n'),
    ('v', '\x0b'), ('f', '\x0c'), ('r', '\r'), ('e', '\x1b'), (' ', ' '), ('"', '"'), ('\\', '\\'),
    ('/', '/'), ('N', '\u0085'), ('_', '\u00a0'), ('L', '\u2028'), ('P', '\u2029')]

/-- How many hexadecimal digits follow a letter that introduces a code point. -/
def escapeWidth? : Char → Option Nat
  | 'x' => some 2
  | 'u' => some 4
  | 'U' => some 8
  | _ => none

/-- The character with a code point. -/
def char? (n : Nat) : Except Fault Char :=
  if n < 0x110000 then .ok (Char.ofNat n) else .error (.codePoint n)

/-- The characters that stand for themselves inside quotes. -/
def isOrdinary (c : Char) : Bool := !(c == '\'' || c == '"' || c == '\\' || isGap c)

/-- The line breaks from here on, each with the blanks in front of it. -/
def breaks : (fuel : Nat) → Cursor → Except Fault (List Char × Cursor)
  | 0, _ => .error .malformed
  | fuel + 1, c =>
    if c.atDocumentMark then .error .malformed
    else
      match (c.skip fun char => char == ' ' || char == '\t').lineBreak? with
      | (none, c) => .ok ([], c)
      | (some char, c) => (breaks fuel c).map fun (chars, c) => (char :: chars, c)

/-- An escape, from the character behind the backslash on. -/
def escaped (fuel : Nat) (c : Cursor) : Except Fault (List Char × Cursor) :=
  match escapes.lookup c.peek, escapeWidth? c.peek with
  | some char, _ => .ok ([char], c.next)
  | none, some width =>
    let digits := c.next.rest.take width
    match if digits.length = width then Text.ofHexDigits? digits else none with
    | none => .error .malformed
    | some n => (char? n).map fun char => ([char], c.next.forward width)
  | none, none =>
    match c.lineBreak? with
    | (none, _) => .error .malformed
    | (some _, c) => breaks fuel c

/-- The characters up to the next gap or the closing quote. -/
def word (double : Bool) : (fuel : Nat) → Cursor → Except Fault (List Char × Cursor)
  | 0, _ => .error .malformed
  | fuel + 1, c =>
    match c.span isOrdinary with
    | (chars, c) =>
      let more (extra : List Char) (c : Cursor) : Except Fault (List Char × Cursor) :=
        (word double fuel c).map fun (rest, c) => (chars ++ extra ++ rest, c)
      if !double && c.peek == '\'' && c.peekAt 1 == '\'' then more ['\''] (c.forward 2)
      else if (double && c.peek == '\'') || (!double && (c.peek == '"' || c.peek == '\\')) then
        more [c.peek] c.next
      else if double && c.peek == '\\' then
        match escaped fuel c.next with
        | .error fault => .error fault
        | .ok (extra, c) => more extra c
      else .ok (chars, c)

/-- A gap inside quotes. -/
def gap (fuel : Nat) (c : Cursor) : Except Fault (List Char × Cursor) :=
  match c.span fun char => char == ' ' || char == '\t' with
  | (blanks, c) =>
    if c.peek == eof then .error .malformed
    else
      match c.lineBreak? with
      | (none, c) => .ok (blanks, c)
      | (some char, c) =>
        (breaks fuel c).map fun (chars, c) =>
          ((if char != '\n' then [char] else if chars = [] then [' '] else []) ++ chars, c)

/-- The gaps and words up to the closing quote. -/
def parts (quote : Char) : (fuel : Nat) → Cursor → Except Fault (List Char × Cursor)
  | 0, _ => .error .malformed
  | fuel + 1, c =>
    if c.peek == quote then .ok ([], c.next)
    else
      match gap (fuel + 1) c with
      | .error fault => .error fault
      | .ok (blanks, c) =>
        match word (quote == '"') (fuel + 1) c with
        | .error fault => .error fault
        | .ok (chars, c) =>
          (parts quote fuel c).map fun (rest, c) => (blanks ++ chars ++ rest, c)

/-- The scalar whose opening quote is at the cursor. -/
def scan (c : Cursor) : Except Fault (String × Cursor) :=
  let fuel := c.rest.length + 1
  match word (c.peek == '"') fuel c.next with
  | .error fault => .error fault
  | .ok (chars, behind) =>
    (parts c.peek fuel behind).map fun (rest, c) => (String.ofList (chars ++ rest), c)

end Keypad.Yaml.Quoted
