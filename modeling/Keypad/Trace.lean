import Keypad.Calculator
import Keypad.Json.Printer

/-!
# Traces

A trace records the stages of one calculation for a reader. It can be written as a JSON document and
as a Markdown report. In both, what is absent leaves no mark: a trace without dropped tokens or
without a duration has no member, and in the report no section, for it.
-/

namespace Keypad

/-- The record of one calculation. -/
structure Trace where
  /-- The expression. -/
  expression : String
  /-- The result. -/
  result : Result
  /-- The tokens of the expression. -/
  tokens : List String := []
  /-- The tokens left out. -/
  dropped : List String := []
  /-- The remaining tokens in postfix order. -/
  postfixItems : List String := []
  /-- The operations carried out. -/
  steps : List Step := []
  /-- The time taken, in milliseconds, if it is known. -/
  duration : Option Double := none
  deriving DecidableEq

/-- The text of an item. -/
def Item.text : Item → String
  | .number value => value.text
  | .operator o => o.text
  | .foreign shown => shown

/-- The record of a calculation's stages. -/
def Calculation.trace (c : Calculation) (duration : Option Double) : Trace where
  expression := c.result.expression
  result := c.result
  tokens := c.tokens
  dropped := c.dropped
  postfixItems := c.items.map Item.text
  steps := c.steps
  duration := duration

/-- Calculates and records the stages. -/
def Config.trace (config : Config) (input : Input) (duration : Option Double) :
    Except ScaleFault Trace :=
  match config.run input with
  | .ok calculation => .ok (calculation.trace duration)
  | .error fault => .error fault

/-! ## As a JSON document -/

/-- The members of a result. -/
def Result.toJson (r : Result) : Json :=
  .object <|
    [("expression", .text r.expression), ("outcome", .text r.outcome.name)] ++
      (r.value?.map fun value => ("value", Json.double value)).toList ++
      (r.message?.map fun message => ("message", Json.text message)).toList

/-- The members of an operation. -/
def Step.toJson (s : Step) : Json :=
  .object
    [("left", .double s.left), ("operator", .text s.symbol), ("right", .double s.right),
      ("result", .double s.result)]

namespace Trace

/-- The name and version of the document format. -/
def version : String := "keycalc-trace/1.0"

/-- The members of a trace. -/
def toJson (t : Trace) : Json :=
  .object <|
    [("trace_version", .text version), ("expression", .text t.expression),
      ("tokens", .texts t.tokens), ("rpn", .texts t.postfixItems),
      ("steps", .array (t.steps.map Step.toJson)), ("result", t.result.toJson)] ++
      (if t.dropped = [] then [] else [("dropped_tokens", Json.texts t.dropped)]) ++
      (t.duration.map fun duration => ("duration_ms", Json.double duration)).toList

/-- The JSON document with a given indentation. -/
def render (t : Trace) (indent : Option Int) : String := t.toJson.render (.ofIndent indent)

/-- The indentation of a document that is saved. -/
def defaultIndent : Option Int := some 2

/-! ## As a Markdown report -/

/-- Texts in a code block of their own. -/
def codeBlock (text : String) : List String := ["```", text, "```", ""]

/-- The report on the tokens. -/
def tokenLines (t : Trace) : List String :=
  ["## Tokens", ""] ++ codeBlock (if t.tokens = [] then "(none)" else " ".intercalate t.tokens)

/-- The report on the tokens left out. -/
def droppedLines (t : Trace) : List String :=
  if t.dropped = [] then []
  else ["### Dropped Tokens", ""] ++ t.dropped.map (fun token => "- `" ++ token ++ "`") ++ [""]

/-- The report on the postfix order. -/
def postfixLines (t : Trace) : List String :=
  if t.postfixItems = [] then []
  else ["## Postfix", ""] ++ codeBlock (" ".intercalate t.postfixItems)

/-- A row of the table of operations. -/
def stepRow (number : Nat) (s : Step) : String :=
  "| " ++ " | ".intercalate [toString number, s.left.text, s.symbol, s.right.text, s.result.text] ++
    " |"

/-- The report on the operations, numbered from one. -/
def stepLines (t : Trace) : List String :=
  if t.steps = [] then []
  else
    ["## Steps", "", "| # | Left | Op | Right | Result |", "|---|------|----|-------|--------|"] ++
      t.steps.mapIdx (fun i s => stepRow (i + 1) s) ++ [""]

/-- The Markdown report. -/
def toMarkdown (t : Trace) : String :=
  let display := t.result.display
  "\n".intercalate <|
    ["# Evaluation Trace: `" ++ t.expression ++ "`", "",
      "**Outcome:** " ++ t.result.outcome.name] ++
      (if display = "" then [] else ["**Result:** " ++ display]) ++
      [""] ++ t.tokenLines ++ t.droppedLines ++ t.postfixLines ++ t.stepLines

/-! ## Saving -/

/-- The content of a file in the format with a given name; unknown names mean JSON. -/
def fileContent (t : Trace) (format : Option String) : String :=
  if format = some "markdown" then t.toMarkdown else t.render defaultIndent

end Trace

end Keypad
