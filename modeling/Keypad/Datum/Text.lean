import Keypad.Datum.Basic

/-!
# Showing plain data

How a value is shown inside a message, each kind of value in its own spelling: quoted texts,
bracketed lists, braces for mappings and sets, and a call of a constructor for dates and points in
time.
-/

namespace Keypad

/-- A span of minutes, as a number of days and a rest of seconds that is not negative. -/
def showSpan (minutes : Int) : String :=
  let days := minutes / 1440
  let seconds := minutes % 1440 * 60
  let parts :=
    (if days = 0 then [] else ["days=" ++ toString days]) ++
      (if seconds = 0 then [] else ["seconds=" ++ toString seconds])
  "datetime.timedelta(" ++ (if parts = [] then "0" else ", ".intercalate parts) ++ ")"

/-- A calendar date. -/
def Date.text (d : Date) : String :=
  "datetime.date(" ++ ", ".intercalate ([d.year, d.month, d.day].map toString) ++ ")"

/-- A clock's distance from universal time. -/
def showOffset (minutes : Int) : String :=
  if minutes = 0 then "datetime.timezone.utc"
  else "datetime.timezone(" ++ showSpan minutes ++ ")"

/-- A point in time; seconds and millionths are left out from the end when they are zero. -/
def Timestamp.text (t : Timestamp) : String :=
  let fields :=
    [t.date.year, t.date.month, t.date.day, t.hour, t.minute] ++
      (if t.second = 0 ∧ t.micro = 0 then [] else [t.second]) ++
      (if t.micro = 0 then [] else [t.micro])
  let clock :=
    match t.offset with
    | none => []
    | some minutes => ["tzinfo=" ++ showOffset minutes]
  "datetime.datetime(" ++ ", ".intercalate (fields.map toString ++ clock) ++ ")"

namespace Datum

mutual

/-- The value as it is shown inside a message. -/
def shown : Datum → String
  | .null => "None"
  | .bool b => if b then "True" else "False"
  | .int n => toString n
  | .double x => x.text
  | .text s => Text.quoted s
  | .bytes bs => Text.quotedBytes bs
  | .date d => d.text
  | .timestamp t => t.text
  | .list items => "[" ++ ", ".intercalate (shownItems items) ++ "]"
  | .mapping members => "\x7b" ++ ", ".intercalate (shownMembers members) ++ "\x7d"
  | .set [] => "set()"
  | .set items => "\x7b" ++ ", ".intercalate (shownItems items) ++ "\x7d"

/-- The items as they are shown. -/
def shownItems : List Datum → List String
  | [] => []
  | item :: items => item.shown :: shownItems items

/-- The members as they are shown. -/
def shownMembers : List (Datum × Datum) → List String
  | [] => []
  | (key, value) :: members => (key.shown ++ ": " ++ value.shown) :: shownMembers members

end

end Datum

end Keypad
