import Keypad.Yaml.Node.Basic
import Keypad.Yaml.Pattern

/-!
# Tags

A tag is written out, with an abbreviation resolved, or it is missing. A scalar without a tag gets
one from its form: the words for truth values and for nothing, the ways of writing whole numbers,
numbers and points in time, and the two keys with a special meaning. All other scalars are texts.
-/

namespace Keypad.Yaml

namespace Form

open Pattern

/-- A sign, if there is one. -/
def sign : Pattern := opt (oneOf "+-")

/-- A digit or an underscore. -/
def digitOrLine : Pattern := .one fun c => c.isDigit || c == '_'

/-- Digits, of which all but the first may be underscores. -/
def digits : Pattern := .seq digit (.many digitOrLine)

/-- Parts to the base of sixty behind colons. -/
def sixties : Pattern :=
  .some (sequence [char ':', opt (.one fun c => '0' ≤ c && c ≤ '5'), digit])

/-- The words for truth values. -/
def bool : Pattern :=
  choice <|
    ["yes", "Yes", "YES", "no", "No", "NO", "true", "True", "TRUE", "false", "False", "FALSE", "on",
      "On", "ON", "off", "Off", "OFF"].map text

/-- An exponent with a sign, if there is one. -/
def exponent : Pattern := opt (sequence [oneOf "eE", oneOf "+-", .some digit])

/-- Numbers with a point, in decimal or with parts to the base of sixty, and the words for the
infinities and for what is not a number. -/
def float : Pattern :=
  choice
    [sequence [sign, digits, char '.', .many digitOrLine, exponent],
      sequence [char '.', digits, exponent],
      sequence [sign, digits, sixties, char '.', .many digitOrLine],
      sequence [sign, char '.', choice (["inf", "Inf", "INF"].map text)],
      sequence [char '.', choice (["nan", "NaN", "NAN"].map text)]]

/-- Whole numbers in binary, octal, decimal and hexadecimal, and with parts to the base of sixty. -/
def int : Pattern :=
  let positive := .seq (.one fun c => '1' ≤ c && c ≤ '9') (.many digitOrLine)
  .seq sign <|
    choice
      [.seq (text "0b") (.some (oneOf "01_")),
        .seq (char '0') (.some (oneOf "01234567_")),
        char '0',
        positive,
        .seq (text "0x") (.some (oneOf "0123456789abcdefABCDEF_")),
        .seq positive sixties]

/-- The ways of writing nothing. -/
def null : Pattern := choice (["~", "null", "Null", "NULL", ""].map text)

/-- One or two digits. -/
def shortNumber : Pattern := .seq digit (opt digit)

/-- A clock's distance from universal time. -/
def zone : Pattern :=
  .or (char 'Z')
    (sequence [oneOf "+-", shortNumber, opt (sequence [char ':', digit, digit])])

/-- A time of day behind a date. -/
def time : Pattern :=
  sequence
    [.or (oneOf "Tt") (.some (oneOf " \t")), shortNumber, char ':', digit, digit, char ':', digit,
      digit, opt (.seq (char '.') (.many digit)), opt (.seq (.many (oneOf " \t")) zone)]

/-- Dates, and points in time. -/
def timestamp : Pattern :=
  .seq (sequence [digit, digit, digit, digit, char '-']) <|
    .or (sequence [digit, digit, char '-', digit, digit])
      (sequence [shortNumber, char '-', shortNumber, time])

/-- The forms and the tags that they give. -/
def tags : List (Pattern × Tag) :=
  [(bool, .bool), (float, .float), (int, .int), (text "<<", .merge), (null, .null),
    (timestamp, .timestamp), (text "=", .value), (oneOf "!&*", .unknown)]

end Form

namespace Tag

/-- The tag that the form of a scalar gives it. A line break at its end does not count. -/
def ofForm (scalar : String) : Tag :=
  let cs := scalar.toList
  let line := if cs.getLast? = some '\n' && cs.length != 1 then cs.dropLast else cs
  match Form.tags.find? fun (form, _) => form.allows line with
  | some (_, tag) => tag
  | none => .str

/-- What the tags of the format have in common. -/
def standard : String := "tag:yaml.org,2002:"

/-- The names of the tags of the format. -/
def names : List (String × Tag) :=
  [("null", .null), ("bool", .bool), ("int", .int), ("float", .float), ("binary", .binary),
    ("timestamp", .timestamp), ("str", .str), ("seq", .seq), ("map", .map), ("set", .set),
    ("omap", .pairs), ("pairs", .pairs), ("merge", .merge), ("value", .value)]

/-- The tag that is written out. -/
def ofText (tag : String) : Tag :=
  match names.find? fun (name, _) => standard ++ name = tag with
  | some (_, tag) => tag
  | none => .unknown

end Tag

end Keypad.Yaml
