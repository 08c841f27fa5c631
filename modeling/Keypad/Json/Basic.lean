import Keypad.Double.Basic

/-!
# JSON values

The values that reports are written as and requests are read from. Whole numbers and doubles are
told apart, since a numeral without point and exponent is read as a whole number of any size. The
members of an object keep their order.
-/

namespace Keypad

/-- A JSON value. -/
inductive Json where
  | null
  | bool (b : Bool)
  | int (n : Int)
  | double (x : Double)
  | text (s : String)
  | array (items : List Json)
  | object (members : List (String × Json))

namespace Json

/-- The array of texts. -/
def texts (ss : List String) : Json := .array (ss.map .text)

/-- The members with a value set for a key: a new key comes last, a key that is there keeps its
place. -/
def put (members : List (String × Json)) (key : String) (value : Json) : List (String × Json) :=
  match members with
  | [] => [(key, value)]
  | (k, v) :: rest => if k = key then (k, value) :: rest else (k, v) :: put rest key value

/-- The member with a key. -/
def get? (members : List (String × Json)) (key : String) : Option Json :=
  (members.find? (·.1 = key)).map (·.2)

/-- The member of an object with a key. -/
def member? (json : Json) (key : String) : Option Json :=
  match json with
  | .object members => get? members key
  | _ => none

end Json

end Keypad
