import Keypad.Yaml.Cursor
import Keypad.Yaml.Fault

/-!
# Block scalars

A block scalar is a header and the lines below it that are indented far enough. The header may tell
how many of the line breaks at the end are kept and how far the lines are indented; otherwise the
first line that is not blank tells. In a folded scalar a line break between two lines becomes a
blank unless one of them begins with a blank.
-/

namespace Keypad.Yaml.Block

/-- What happens to the line breaks at the end of a scalar. -/
inductive Chomping where
  /-- One is kept. -/
  | clip
  /-- None is kept. -/
  | strip
  /-- All are kept. -/
  | keep
  deriving DecidableEq

/-- The chomping that a character of the header asks for. -/
def chomping? : Char → Option Chomping
  | '+' => some .keep
  | '-' => some .strip
  | _ => none

/-- The indentation that a character of the header asks for, which is not zero. -/
def increment? (c : Char) : Except Fault (Option Nat) :=
  if c == '0' then .error .malformed
  else .ok (if c.isDigit then some (c.toNat - '0'.toNat) else none)

/-- The two parts of a header in either order, and the position behind them. -/
def header (c : Cursor) : Except Fault (Chomping × Option Nat × Cursor) :=
  match chomping? c.peek with
  | some chomping =>
    (increment? c.next.peek).map fun
      | some n => (chomping, some n, c.next.next)
      | none => (chomping, none, c.next)
  | none =>
    (increment? c.peek).map fun
      | none => (.clip, none, c)
      | some n =>
        match chomping? c.next.peek with
        | some chomping => (chomping, some n, c.next.next)
        | none => (.clip, some n, c.next)

/-- The position behind the rest of the header's line, on which only a comment may stand. -/
def skipHeaderLine (c : Cursor) : Except Fault Cursor :=
  let c := c.skipBlanks.skipComment
  if isLineEnd c.peek then .ok c.lineBreak?.2 else .error .malformed

/-- The line breaks in front of the first line, the greatest column reached by blanks among them,
and the position of that line. -/
def leading : (fuel : Nat) → (width : Nat) → Cursor → List Char × Nat × Cursor
  | 0, width, c => ([], width, c)
  | fuel + 1, width, c =>
    if c.peek == ' ' then leading fuel (max width c.next.column) c.next
    else
      match c.lineBreak? with
      | (none, c) => ([], width, c)
      | (some char, c) =>
        match leading fuel width c with
        | (chars, width, c) => (char :: chars, width, c)

/-- The position behind at most so many blanks as reach the indentation. -/
def skipIndent (indent : Nat) : (fuel : Nat) → Cursor → Cursor
  | 0, c => c
  | fuel + 1, c => if c.column < indent && c.peek == ' ' then skipIndent indent fuel c.next else c

/-- The line breaks in front of the next line, and the position where that line's text begins. -/
def breaks (indent : Nat) : (fuel : Nat) → Cursor → List Char × Cursor
  | 0, c => ([], c)
  | fuel + 1, c =>
    match (skipIndent indent indent c).lineBreak? with
    | (none, c) => ([], c)
    | (some char, c) =>
      match breaks indent fuel c with
      | (chars, c) => (char :: chars, c)

/-- The character is a blank or a tab. -/
def isBlank (c : Char) : Bool := c == ' ' || c == '\t'

/-- The line break of a line that is followed by another one, given the breaks between them. -/
def joint (folded : Bool) (char : Option Char) (opening following : Char) (between : List Char) :
    List Char :=
  if folded && char == some '\n' && !isBlank opening && !isBlank following then
    if between.isEmpty then [' '] else []
  else char.toList

/-- The line breaks at the end of a scalar: that of its last line and the others. -/
def tail (chomping : Chomping) (char : Option Char) (others : List Char) : List Char :=
  match chomping with
  | .strip => []
  | .clip => char.toList
  | .keep => char.toList ++ others

/-- The lines from the cursor on, behind the given line breaks, and the position behind them. -/
def lines (folded : Bool) (chomping : Chomping) (indent : Nat) :
    (fuel : Nat) → (before : List Char) → Cursor → List Char × Cursor
  | 0, _, c => ([], c)
  | fuel + 1, before, c =>
    match c.span (!isLineEnd ·) with
    | (text, behind) =>
      match behind.lineBreak? with
      | (char, below) =>
        match breaks indent (below.rest.length + 1) below with
        | (between, next) =>
          if next.column = indent && next.peek != eof then
            match lines folded chomping indent fuel between next with
            | (rest, last) =>
              (before ++ text ++ joint folded char c.peek next.peek between ++ rest, last)
          else (before ++ text ++ tail chomping char between, next)

/-- The scalar whose indicator is at the cursor, below a node with the given indentation. -/
def scan (folded : Bool) (parentIndent : Int) (c : Cursor) : Except Fault (String × Cursor) :=
  match header c.next with
  | .error fault => .error fault
  | .ok (chomping, increment, c) =>
    if !isWordEnd c.peek then .error .malformed
    else
      match skipHeaderLine c with
      | .error fault => .error fault
      | .ok c =>
        let fuel := c.rest.length + 1
        let least := max (parentIndent + 1).toNat 1
        let (before, indent, c) :=
          match increment with
          | none =>
            match leading fuel 0 c with
            | (before, width, c) => (before, max least width, c)
          | some n =>
            match breaks (least + n - 1) fuel c with
            | (before, c) => (before, least + n - 1, c)
        let (chars, c) :=
          if c.column = indent && c.peek != eof then lines folded chomping indent fuel before c
          else (tail chomping none before, c)
        .ok (String.ofList chars, c)

end Keypad.Yaml.Block
