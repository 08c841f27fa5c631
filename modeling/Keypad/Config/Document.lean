import Keypad.Validation.Fields
import Keypad.Yaml.Load

/-!
# Configuration documents

A configuration is the section `calculator` of a document; other sections are left alone. A document
or a section that is empty, in the sense of `Datum.isBlank`, leaves everything at its default.
Anything else that is not a mapping is refused.
-/

namespace Keypad

/-- The values that count as nothing: null, false, zero, and what has no content. -/
def Datum.isBlank : Datum → Bool
  | .null => true
  | .bool b => !b
  | .int n => n = 0
  | .double x => x.isZero
  | .text s => s.isEmpty
  | .bytes bs => bs.isEmpty
  | .list items => items.isEmpty
  | .mapping members => members.isEmpty
  | .set items => items.isEmpty
  | .date _ | .timestamp _ => false

/-- Why a document gives no configuration. -/
inductive DocumentFault where
  /-- The document cannot be read. -/
  | unreadable (fault : Yaml.Fault)
  /-- The document is not a mapping. -/
  | notMapping
  /-- The section is not a mapping. -/
  | sectionNotMapping
  /-- The section is not valid. -/
  | invalid (problems : List Problem)
  deriving DecidableEq

/-- What is out of range in words. -/
def Yaml.DatePart.message : Yaml.DatePart → String
  | .year n => "year " ++ toString n ++ " is out of range"
  | .month => "month must be in 1..12"
  | .day => "day is out of range for month"
  | .hour => "hour must be in 0..23"
  | .minute => "minute must be in 0..59"
  | .second => "second must be in 0..59"
  | .offset minutes =>
    "offset must be a timedelta strictly between -timedelta(hours=24) and " ++
      "timedelta(hours=24), not " ++ showSpan minutes ++ "."

/-- Why a document cannot be read, in words. -/
def Yaml.Fault.message : Yaml.Fault → String
  | .malformed => "Invalid YAML configuration"
  | .codePoint _ => "chr() arg not in range(0x110000)"
  | .notBool => "Unknown truth value"
  | .noDigits => "string index out of range"
  | .notInt base text =>
    -- A long text is cut off; that of a number with a fraction, below, is not.
    "invalid literal for int() with base " ++ toString base ++ ": " ++
      String.ofList ((Text.quoted text).toList.take 200)
  | .tooManyDigits count =>
    "Exceeds the limit (" ++ toString Yaml.maxDigits ++
      " digits) for integer string conversion: value has " ++ toString count ++
      " digits; use sys.set_int_max_str_digits() to increase the limit"
  | .tooManyParts => "int too large to convert to float"
  | .tooDeep => "maximum recursion depth exceeded"
  | .notDouble text => "could not convert string to float: " ++ Text.quoted text
  | .notTimestamp => "Not a timestamp"
  | .notScalar => "Not a scalar"
  | .datePart part => part.message

/-- Why a document gives no configuration, in words. -/
def DocumentFault.message : DocumentFault → String
  | .unreadable fault => fault.message
  | .notMapping => "Configuration must be a mapping"
  | .sectionNotMapping => "'calculator' section must be a mapping"
  | .invalid _ => "Invalid configuration"

namespace Config

/-- The members of a value, none for one that counts as nothing. -/
def membersOf? (datum : Datum) : Option (List (Datum × Datum)) :=
  if datum.isBlank then some []
  else
    match datum with
    | .mapping members => some members
    | _ => none

/-- The configuration in the value of a document. -/
def ofRoot (root : Datum) : Except DocumentFault Config :=
  match membersOf? root with
  | none => .error .notMapping
  | some members =>
    match membersOf? ((Datum.get? members "calculator").getD .null) with
    | none => .error .sectionNotMapping
    | some fields =>
      match Config.ofDatum (.mapping fields) with
      | .ok config => .ok config
      | .error problems => .error (.invalid problems)

/-- The configuration in a document. -/
def ofYaml (text : String) : Except DocumentFault Config :=
  match Yaml.load text with
  | .ok root => ofRoot root
  | .error fault => .error (.unreadable fault)

/-- The characters of a file with every kind of line break as a line feed. -/
def unifyBreaks : List Char → List Char
  | '\r' :: '\n' :: cs => '\n' :: unifyBreaks cs
  | '\r' :: cs => '\n' :: unifyBreaks cs
  | c :: cs => c :: unifyBreaks cs
  | [] => []

/-- The configuration in a file with the given content. -/
def ofFileContent (content : String) : Except DocumentFault Config :=
  ofYaml (String.ofList (unifyBreaks content.toList))

end Config

end Keypad
