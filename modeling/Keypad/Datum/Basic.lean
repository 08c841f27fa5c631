import Keypad.Double.Text
import Keypad.Json.Basic
import Keypad.Text.Quoted

/-!
# Plain data

The values that a configuration document can hold: the JSON values and, besides them, bytes, dates,
points in time and sets. The keys of a mapping may be any values. Two keys are the same key when
they are equal as values, and there numbers are compared by value across their kinds, a truth value
counting as one or zero.
-/

namespace Keypad

/-- A calendar date. -/
structure Date where
  /-- The year, from 1 on. -/
  year : Nat
  /-- The month, from 1 on. -/
  month : Nat
  /-- The day of the month, from 1 on. -/
  day : Nat
  deriving DecidableEq

/-- A point in time, by a clock that may be at a known distance from universal time. -/
structure Timestamp where
  /-- The date. -/
  date : Date
  /-- The hour of the day. -/
  hour : Nat
  /-- The minute of the hour. -/
  minute : Nat
  /-- The second of the minute. -/
  second : Nat
  /-- The millionths of the second. -/
  micro : Nat
  /-- How many minutes the clock is ahead of universal time, if that is known. -/
  offset : Option Int
  deriving DecidableEq

/-- A value of a document. -/
inductive Datum where
  | null
  | bool (b : Bool)
  | int (n : Int)
  | double (x : Double)
  | text (s : String)
  | bytes (bs : List UInt8)
  | date (d : Date)
  | timestamp (t : Timestamp)
  | list (items : List Datum)
  | mapping (members : List (Datum × Datum))
  | set (items : List Datum)

namespace Datum

/-! ## Keys -/

/-- The value of a finite number; a truth value is one or zero. -/
def number? : Datum → Option Rat
  | .bool b => some (if b then 1 else 0)
  | .int n => some n
  | .double x => if x.isFinite then some x.toRat else none
  | _ => none

/-- Two values are the same key. What is not a number is no key twice. -/
def sameKey (a b : Datum) : Bool :=
  match a, b with
  | .null, .null => true
  | .text s, .text t => s == t
  | .bytes s, .bytes t => s == t
  | .date s, .date t => s == t
  | .timestamp s, .timestamp t => s == t
  | .double (.infinite s), .double (.infinite t) => s == t
  | a, b =>
    match a.number?, b.number? with
    | some p, some q => p == q
    | _, _ => false

/-- The members with a value set for a key: a new key comes last, a key that is there keeps its
place and its spelling. -/
def put (members : List (Datum × Datum)) (key value : Datum) : List (Datum × Datum) :=
  match members with
  | [] => [(key, value)]
  | (k, v) :: rest =>
    if k.sameKey key then (k, value) :: rest else (k, v) :: put rest key value

/-- The value for a text key. -/
def get? (members : List (Datum × Datum)) (key : String) : Option Datum :=
  (members.find? fun member => member.1.sameKey (.text key)).map (·.2)

/-! ## From JSON -/

mutual

/-- The JSON value as plain data. -/
def ofJson : Json → Datum
  | .null => .null
  | .bool b => .bool b
  | .int n => .int n
  | .double x => .double x
  | .text s => .text s
  | .array items => .list (ofItems items)
  | .object members => .mapping (ofMembers members)

/-- The items of an array as plain data. -/
def ofItems : List Json → List Datum
  | [] => []
  | item :: items => ofJson item :: ofItems items

/-- The members of an object as plain data. -/
def ofMembers : List (String × Json) → List (Datum × Datum)
  | [] => []
  | (key, value) :: members => (.text key, ofJson value) :: ofMembers members

end

end Datum

end Keypad
