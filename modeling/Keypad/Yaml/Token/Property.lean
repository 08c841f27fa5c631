import Keypad.Text.Hex
import Keypad.Yaml.Cursor
import Keypad.Yaml.Fault
import Keypad.Yaml.Token.Basic

/-!
# Names, tags and directives

The tokens that say something about a node or about a document: anchors and aliases, which are names
behind an indicator; tags, which may be abbreviated; and directives, each on a line of its own.
-/

namespace Keypad.Yaml.Property

/-- A name of at least one character, and the position behind it. -/
def name (c : Cursor) : Except Fault (String × Cursor) :=
  match c.span isNameChar with
  | ([], _) => .error .malformed
  | (chars, c) => .ok (String.ofList chars, c)

/-- What may follow the name of an anchor. -/
def endsAnchor (c : Char) : Bool := isGap c || "?:,]\x7d%@`".toList.contains c

/-- The name of an anchor or an alias whose indicator is at the cursor. -/
def anchorName (c : Cursor) : Except Fault (String × Cursor) :=
  match name c.next with
  | .error fault => .error fault
  | .ok (chars, c) => if endsAnchor c.peek then .ok (chars, c) else .error .malformed

/-! ## Tags -/

/-- The bytes of escapes of two hexadecimal digits behind a percent sign. -/
def escapedBytes : List Char → Option (List UInt8 × List Char)
  | '%' :: a :: b :: cs =>
    match Text.ofHexDigits? [a, b] with
    | none => none
    | some n => (escapedBytes cs).map fun (bytes, rest) => (UInt8.ofNat n :: bytes, rest)
  | '%' :: _ => none
  | cs => some ([], cs)

/-- The characters of a tag with its escapes resolved. Escapes that follow each other encode
characters together. -/
def unescape : (fuel : Nat) → List Char → Except Fault (List Char)
  | _, [] => .ok []
  | 0, _ => .error .malformed
  | fuel + 1, '%' :: cs =>
    match escapedBytes ('%' :: cs) with
    | none => .error .malformed
    | some (bytes, rest) =>
      match String.fromUTF8? ⟨bytes.toArray⟩ with
      | none => .error .malformed
      | some s => (unescape fuel rest).map (s.toList ++ ·)
  | fuel + 1, c :: cs => (unescape fuel cs).map (c :: ·)

/-- The written part of a tag, of at least one character, and the position behind it. -/
def uri (c : Cursor) : Except Fault (String × Cursor) :=
  match c.span isUriChar with
  | ([], _) => .error .malformed
  | (chars, c) => (unescape chars.length chars).map fun chars => (String.ofList chars, c)

/-- The abbreviation at the cursor: a single indicator in front of a blank, or a name, possibly
empty, between two. -/
def handle (c : Cursor) : Except Fault (String × Cursor) :=
  if c.peek != '!' then .error .malformed
  else if c.peekAt 1 == ' ' then .ok ("!", c.next)
  else
    match c.next.span isNameChar with
    | (chars, c) =>
      if c.peek == '!' then .ok (String.ofList ('!' :: chars ++ ['!']), c.next)
      else .error .malformed

/-- The word at the cursor has a second indicator, so it begins with an abbreviation. -/
def hasHandle (c : Cursor) : Bool := ((c.rest.drop 1).takeWhile (!isWordEnd ·)).contains '!'

/-- The tag whose indicator is at the cursor. -/
def tag (c : Cursor) : Except Fault (Token × Cursor) := do
  let (token, c) ←
    if c.peekAt 1 == '<' then do
      let (suffix, c) ← uri (c.forward 2)
      if c.peek != '>' then throw .malformed
      pure (Token.tag none suffix, c.next)
    else if isGap (c.peekAt 1) then pure (.tag none "!", c.next)
    else do
      let (abbreviation, c) ← if hasHandle c then handle c else pure ("!", c.next)
      let (suffix, c) ← uri c
      pure (.tag (some abbreviation) suffix, c)
  if isWordEnd c.peek then pure (token, c) else throw .malformed

/-! ## Directives -/

/-- A number of at least one digit, and the position behind it. -/
def number (c : Cursor) : Except Fault (Nat × Cursor) :=
  match c.span Char.isDigit with
  | ([], _) => .error .malformed
  | (chars, c) => .ok (Nat.ofDigitChars 10 chars 0, c)

/-- The version behind the name of its directive. -/
def version (c : Cursor) : Except Fault (Directive × Cursor) := do
  let (major, c) ← number c.skipBlanks
  if c.peek != '.' then throw .malformed
  let (_, c) ← number c.next
  if isWordEnd c.peek then pure (.version major, c) else throw .malformed

/-- An abbreviation and what it stands for behind the name of their directive. -/
def handleDirective (c : Cursor) : Except Fault (Directive × Cursor) := do
  let (abbreviation, c) ← handle c.skipBlanks
  if c.peek != ' ' then throw .malformed
  let (expansion, c) ← uri c.skipBlanks
  if isWordEnd c.peek then pure (.handle abbreviation expansion, c) else throw .malformed

/-- The directive whose indicator is at the cursor, and the position of the next line. -/
def directive (c : Cursor) : Except Fault (Token × Cursor) := do
  let (kind, c) ← name c.next
  if !isWordEnd c.peek then throw .malformed
  let (d, c) ←
    if kind = "YAML" then version c
    else if kind = "TAG" then handleDirective c
    else pure (.other, c.skip (!isLineEnd ·))
  let c := c.skipBlanks.skipComment
  if isLineEnd c.peek then pure (.directive d, c.lineBreak?.2) else throw .malformed

end Keypad.Yaml.Property
