import Keypad.Datum.Basic
import Keypad.Numeral
import Keypad.Yaml.Fault
import Keypad.Yaml.Node.Tag

/-!
# Dates and points in time

The dates and points in time that scalars denote. The calendar is checked, the year first and the
distance from universal time before all.
-/

namespace Keypad.Yaml

/-- The number that a run of digits denotes. -/
def number (cs : List Char) : Nat := Nat.ofDigitChars 10 cs 0

/-- A number at the front and what follows it. -/
def takeNumber (cs : List Char) : Nat × List Char :=
  (number (cs.takeWhile Char.isDigit), cs.dropWhile Char.isDigit)

/-! ## The calendar -/

/-- The year has a day more. -/
def isLeapYear (year : Nat) : Bool := year % 4 == 0 && (year % 100 != 0 || year % 400 == 0)

/-- The number of days of a month. -/
def daysOf (year month : Nat) : Nat :=
  if month = 2 then (if isLeapYear year then 29 else 28)
  else if month = 4 ∨ month = 6 ∨ month = 9 ∨ month = 11 then 30
  else 31

/-- The date with these parts. -/
def date? (year month day : Nat) : Except Fault Date :=
  if year = 0 then .error (.datePart (.year year))
  else if month = 0 ∨ 12 < month then .error (.datePart .month)
  else if day = 0 ∨ daysOf year month < day then .error (.datePart .day)
  else .ok ⟨year, month, day⟩

/-- The point in time with these parts. -/
def timestamp? (date : Date) (hour minute second micro : Nat) (offset : Option Int) :
    Except Fault Timestamp :=
  if 23 < hour then .error (.datePart .hour)
  else if 59 < minute then .error (.datePart .minute)
  else if 59 < second then .error (.datePart .second)
  else .ok ⟨date, hour, minute, second, micro, offset⟩

/-- The distance from universal time must be less than a day. -/
def offset? (minutes : Int) : Except Fault Int :=
  if minutes.natAbs < 1440 then .ok minutes else .error (.datePart (.offset minutes))

/-! ## Reading -/

/-- The millionths that the digits behind a point denote; further digits do not count. -/
def micros (cs : List Char) : Nat := number ((cs ++ List.replicate 6 '0').take 6)

/-- The minutes of a clock's distance from universal time. -/
def offsetMinutes (cs : List Char) : Int :=
  match takeNumber cs with
  | (hours, ':' :: rest) => 60 * hours + (takeNumber rest).1
  | (hours, _) => 60 * hours

/-- What tells a clock's distance from universal time, if it is there. -/
def zone? (cs : List Char) : Except Fault (Option Int) :=
  match cs.dropWhile fun c => c == ' ' || c == '\t' with
  | '+' :: cs => (offset? (offsetMinutes cs)).map some
  | '-' :: cs => (offset? (-offsetMinutes cs)).map some
  | 'Z' :: _ => .ok (some 0)
  | _ => .ok none

/-- The fraction of a second at the front, and what follows it. -/
def takeFraction : List Char → Nat × List Char
  | '.' :: cs => (micros (cs.takeWhile Char.isDigit), cs.dropWhile Char.isDigit)
  | cs => (0, cs)

/-- The date at the front of a scalar of the right form, and what follows it. -/
def takeDate (cs : List Char) : (Nat × Nat × Nat) × List Char :=
  let (year, cs) := takeNumber cs
  let (month, cs) := takeNumber (cs.drop 1)
  let (day, cs) := takeNumber (cs.drop 1)
  ((year, month, day), cs)

/-- The forms of dates and points in time that have the tag of one: months and days may have one
digit here also where no time of day follows. -/
def anyTimestamp : Pattern :=
  .seq
    (.sequence
      [.digit, .digit, .digit, .digit, .char '-', Form.shortNumber, .char '-', Form.shortNumber])
    (.opt Form.time)

/-- The date or point in time that a scalar denotes. -/
def toTimestamp (text : String) : Except Fault Datum :=
  let cs := text.toList
  let line := if cs.getLast? = some '\n' then cs.dropLast else cs
  if !anyTimestamp.allows line then .error .notTimestamp
  else
    match takeDate line with
    | ((year, month, day), []) => (date? year month day).map .date
    | ((year, month, day), rest) => do
      let (hour, cs) := takeNumber (rest.dropWhile (!Char.isDigit ·))
      let (minute, cs) := takeNumber (cs.drop 1)
      let (second, cs) := takeNumber (cs.drop 1)
      let (micro, cs) := takeFraction cs
      let offset ← zone? cs
      let date ← date? year month day
      (timestamp? date hour minute second micro offset).map .timestamp

end Keypad.Yaml
