import Keypad.Yaml.Token.Block
import Keypad.Yaml.Token.Plain
import Keypad.Yaml.Token.Property
import Keypad.Yaml.Token.Quoted

/-!
# The tokens of a document

Tokens are taken from a document one after the other. Three things make this more than cutting the
text up. Indentation opens and closes block collections, so a stack of columns is kept. A key of a
mapping need not be announced: that a token began a key is known only when its colon is reached, on
the same line and within 1024 characters, and the tokens for the key and for the mapping that it
opens are then put in front of it. And where such a key may begin depends on the tokens before.

A document that is not well formed has the tokens in front of the fault. Those from a possible key
on are not among them, since the fault was met before it was known whether it is one.
-/

namespace Keypad.Yaml

/-- A token that may turn out to begin a key. -/
structure PossibleKey where
  /-- The number of the token. -/
  number : Nat
  /-- Whether nothing but a key may stand there. -/
  isRequired : Bool
  /-- The position of the token. -/
  start : Cursor

/-- The state between two tokens. -/
structure TokenState where
  /-- The position. -/
  cursor : Cursor
  /-- The tokens so far. -/
  tokens : Array Token := #[]
  /-- How many flow collections are open. -/
  flowLevel : Nat := 0
  /-- The column of the innermost open block collection, -1 outside of all. -/
  indent : Int := -1
  /-- The columns of the block collections around it. -/
  outerIndents : List Int := []
  /-- Whether a key may begin here. -/
  allowKey : Bool := true
  /-- The token that may begin a key, for each level of flow collections that has one. -/
  keys : List (Nat × PossibleKey) := []
  /-- Whether the end has been reached. -/
  isDone : Bool := false

namespace TokenState

/-- Inside a flow collection. -/
def inFlow (s : TokenState) : Bool := s.flowLevel != 0

/-- The state with one more token. -/
def push (s : TokenState) (token : Token) : TokenState := { s with tokens := s.tokens.push token }

/-- The state with a token put in front of that with a given number. -/
def insert (s : TokenState) (number : Nat) (token : Token) : TokenState :=
  { s with tokens := s.tokens.insertIdxIfInBounds number token }

/-- The state at another position. -/
def moveTo (s : TokenState) (cursor : Cursor) : TokenState := { s with cursor }

/-! ## Indentation -/

/-- Closes block collections, from the innermost outwards. -/
def closeBlocks (column indent : Int) (tokens : Array Token) :
    List Int → Int × List Int × Array Token
  | [] => (indent, [], tokens)
  | outer :: outers =>
    if column < indent then closeBlocks column outer (tokens.push .blockEnd) outers
    else (indent, outer :: outers, tokens)

/-- Closes the block collections that are indented further than a column. -/
def unwind (s : TokenState) (column : Int) : TokenState :=
  if s.inFlow then s
  else
    match closeBlocks column s.indent s.tokens s.outerIndents with
    | (indent, outerIndents, tokens) => { s with indent, outerIndents, tokens }

/-- Opens a block collection at a column, unless the innermost one begins there. The token that
begins it is put in front of the one with the given number. -/
def openBlock (s : TokenState) (column : Nat) (number : Nat) (token : Token) : TokenState :=
  if s.indent < column then
    { s.insert number token with indent := column, outerIndents := s.indent :: s.outerIndents }
  else s

/-! ## Possible keys -/

/-- The token can no longer begin a key. -/
def isStale (s : TokenState) (key : PossibleKey) : Bool :=
  key.start.line != s.cursor.line || s.cursor.index - key.start.index > 1024

/-- Forgets the possible keys that are out of reach, which is a fault if one of them is required. -/
def dropStale (s : TokenState) : Except Fault TokenState :=
  if s.keys.any fun (_, key) => s.isStale key && key.isRequired then .error .malformed
  else .ok { s with keys := s.keys.filter fun (_, key) => !s.isStale key }

/-- Forgets the possible key on this level, which is a fault if it is required. -/
def dropKey (s : TokenState) : Except Fault TokenState :=
  match s.keys.lookup s.flowLevel with
  | some key =>
    if key.isRequired then .error .malformed
    else .ok { s with keys := s.keys.filter (·.1 != s.flowLevel) }
  | none => .ok s

/-- Notes that the next token may begin a key, if one may begin here. -/
def noteKey (s : TokenState) : Except Fault TokenState :=
  if s.allowKey then
    let isRequired := !s.inFlow && s.indent == s.cursor.column
    s.dropKey.map fun s =>
      { s with keys := (s.flowLevel, ⟨s.tokens.size, isRequired, s.cursor⟩) :: s.keys }
  else .ok s

/-- How many tokens are known for certain: those in front of the first possible key. -/
def settled (s : TokenState) : Nat :=
  s.keys.foldl (fun least (_, key) => min least key.number) s.tokens.size

/-! ## Tokens by kind -/

/-- The end of the document. -/
def takeStreamEnd (s : TokenState) : Except Fault TokenState :=
  (s.unwind (-1)).dropKey.map fun s =>
    { s.push .streamEnd with allowKey := false, keys := [], isDone := true }

/-- A directive. -/
def takeDirective (s : TokenState) : Except Fault TokenState := do
  let s ← (s.unwind (-1)).dropKey
  let (token, cursor) ← Property.directive s.cursor
  return { (s.push token).moveTo cursor with allowKey := false }

/-- A mark of a document. -/
def takeDocumentMark (s : TokenState) (token : Token) : Except Fault TokenState :=
  (s.unwind (-1)).dropKey.map fun s =>
    { (s.push token).moveTo (s.cursor.forward 3) with allowKey := false }

/-- The beginning of a flow collection, which may itself be a key. -/
def takeFlowStart (s : TokenState) (token : Token) : Except Fault TokenState :=
  s.noteKey.map fun s =>
    { (s.push token).moveTo s.cursor.next with flowLevel := s.flowLevel + 1, allowKey := true }

/-- The end of a flow collection. -/
def takeFlowEnd (s : TokenState) (token : Token) : Except Fault TokenState :=
  s.dropKey.map fun s =>
    { (s.push token).moveTo s.cursor.next with flowLevel := s.flowLevel - 1, allowKey := false }

/-- A comma in a flow collection. -/
def takeFlowEntry (s : TokenState) : Except Fault TokenState :=
  s.dropKey.map fun s => { (s.push .flowEntry).moveTo s.cursor.next with allowKey := true }

/-- Opens a block collection here, which is a fault where none may begin. -/
def openBlockHere (s : TokenState) (token : Token) : Except Fault TokenState :=
  if s.inFlow then .ok s
  else if s.allowKey then .ok (s.openBlock s.cursor.column s.tokens.size token)
  else .error .malformed

/-- The indicator of an entry of a block sequence. -/
def takeBlockEntry (s : TokenState) : Except Fault TokenState := do
  let s ← (← s.openBlockHere .blockSequenceStart).dropKey
  return { (s.push .blockEntry).moveTo s.cursor.next with allowKey := true }

/-- The indicator of a key. -/
def takeKey (s : TokenState) : Except Fault TokenState := do
  let s ← (← s.openBlockHere .blockMappingStart).dropKey
  return { (s.push .key).moveTo s.cursor.next with allowKey := !s.inFlow }

/-- The indicator of a value. If there is a possible key on this level, it is one. -/
def takeValue (s : TokenState) : Except Fault TokenState := do
  let s ←
    match s.keys.lookup s.flowLevel with
    | some key =>
      let s := { s with keys := s.keys.filter (·.1 != s.flowLevel), allowKey := false }
      -- The mapping, if it is new, begins in front of the key, so its token is put there second.
      let s := s.insert key.number .key
      pure (if s.inFlow then s else s.openBlock key.start.column key.number .blockMappingStart)
    | none =>
      let s ← s.openBlockHere .blockMappingStart
      { s with allowKey := !s.inFlow }.dropKey
  return (s.push .value).moveTo s.cursor.next

/-- An anchor or an alias. -/
def takeAnchor (s : TokenState) (token : String → Token) : Except Fault TokenState := do
  let s ← s.noteKey
  let (name, cursor) ← Property.anchorName s.cursor
  return { (s.push (token name)).moveTo cursor with allowKey := false }

/-- A tag. -/
def takeTag (s : TokenState) : Except Fault TokenState := do
  let s ← s.noteKey
  let (token, cursor) ← Property.tag s.cursor
  return { (s.push token).moveTo cursor with allowKey := false }

/-- A block scalar. -/
def takeBlockScalar (s : TokenState) (folded : Bool) : Except Fault TokenState := do
  let s ← s.dropKey
  let (text, cursor) ← Block.scan folded s.indent s.cursor
  return { (s.push (.scalar text false)).moveTo cursor with allowKey := true }

/-- A quoted scalar. -/
def takeQuoted (s : TokenState) : Except Fault TokenState := do
  let s ← s.noteKey
  let (text, cursor) ← Quoted.scan s.cursor
  return { (s.push (.scalar text false)).moveTo cursor with allowKey := false }

/-- A plain scalar. A key may begin behind it when it is followed by a line break. -/
def takePlain (s : TokenState) : Except Fault TokenState :=
  s.noteKey.map fun s =>
    match Plain.scan s.inFlow (s.indent + 1) s.cursor with
    | (text, broken, cursor) =>
      { (s.push (.scalar text true)).moveTo cursor with allowKey := broken }

/-! ## The next token -/

/-- The position of the next token, and whether a key may begin there: blanks, comments and line
breaks are passed, and outside of flow collections a key may begin on each new line. -/
def skipToToken (inFlow : Bool) : (fuel : Nat) → (allowKey : Bool) → Cursor → Bool × Cursor
  | 0, allowKey, c => (allowKey, c)
  | fuel + 1, allowKey, c =>
    match c.skipBlanks.skipComment.lineBreak? with
    | (none, c) => (allowKey, c)
    | (some _, c) => skipToToken inFlow fuel (allowKey || !inFlow) c

/-- A plain scalar may begin at the cursor. -/
def atPlain (s : TokenState) : Bool :=
  let char := s.cursor.peek
  !(isGap char || isIndicator char) ||
    (!isGap (s.cursor.peekAt 1) &&
      (char == '-' || (!s.inFlow && (char == '?' || char == ':'))))

/-- The indicator at the cursor stands alone, as it must outside of flow collections. -/
def standsAlone (s : TokenState) : Bool := s.inFlow || isGap (s.cursor.peekAt 1)

/-- Takes the token that begins at the cursor. -/
def takeToken (s : TokenState) : Except Fault TokenState :=
  let c := s.cursor
  let atLineStart := c.column == 0
  if c.peek == eof then s.takeStreamEnd
  else if atLineStart && c.peek == '%' then s.takeDirective
  else if atLineStart && c.atMark '-' then s.takeDocumentMark .documentStart
  else if atLineStart && c.atMark '.' then s.takeDocumentMark .documentEnd
  else
    match c.peek with
    | '[' => s.takeFlowStart .flowSequenceStart
    | '{' => s.takeFlowStart .flowMappingStart
    | ']' => s.takeFlowEnd .flowSequenceEnd
    | '}' => s.takeFlowEnd .flowMappingEnd
    | ',' => s.takeFlowEntry
    | '*' => s.takeAnchor .alias
    | '&' => s.takeAnchor .anchor
    | '!' => s.takeTag
    | '\'' => s.takeQuoted
    | '"' => s.takeQuoted
    | char =>
      if char == '-' && isGap (c.peekAt 1) then s.takeBlockEntry
      else if char == '?' && s.standsAlone then s.takeKey
      else if char == ':' && s.standsAlone then s.takeValue
      else if char == '|' && !s.inFlow then s.takeBlockScalar false
      else if char == '>' && !s.inFlow then s.takeBlockScalar true
      else if s.atPlain then s.takePlain
      else .error .malformed

/-- Takes the next token and those that indentation adds in front of it. -/
def step (s : TokenState) : Except Fault TokenState := do
  let start :=
    if s.cursor.index == 0 && s.cursor.peek == byteOrderMark then s.cursor.next else s.cursor
  let (allowKey, cursor) := skipToToken s.inFlow (start.rest.length + 1) s.allowKey start
  -- A required key that has gone out of reach is a fault even where only a collection is closed.
  let s ← { s with allowKey, cursor }.dropStale
  (s.unwind cursor.column).takeToken

/-- Takes all tokens from a state on, as many as there are in front of a fault. -/
def takeAll : (fuel : Nat) → TokenState → List Token × Option Fault
  | 0, s => (s.tokens.toList.take s.settled, some .malformed)
  | fuel + 1, s =>
    if s.isDone then (s.tokens.toList, none)
    else
      match s.dropStale with
      | .error fault => (s.tokens.toList.take s.settled, some fault)
      | .ok s =>
        match s.step with
        | .error fault => (s.tokens.toList.take s.settled, some fault)
        | .ok next => takeAll fuel next

end TokenState

/-- The tokens of a document, and the fault behind them, if there is one. -/
def Token.scan (text : String) : List Token × Option Fault :=
  TokenState.takeAll (text.toList.length + 2) { cursor := { rest := text.toList } }

end Keypad.Yaml
