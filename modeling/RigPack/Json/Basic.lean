import RigPack.Binary.Text

/-!
# JSON values

A value keeps whole numbers of up to 64 bits exactly and all others as 64 bit floating point
numbers.  The fields of an object stand in the order of their names.
-/

namespace RigPack

/-- A number of a JSON text. -/
inductive Json.Number
  | whole (n : Int)
  | real (x : Binary.Double)
  deriving DecidableEq

/-- A JSON value. -/
inductive Json
  | null
  | bool (b : Bool)
  | number (n : Json.Number)
  | string (s : String)
  | array (items : List Json)
  | object (fields : List (String × Json))
  deriving Inhabited

namespace Json

/-- A whole number. -/
def int (n : Int) : Json :=
  .number (.whole n)

/-- A natural number. -/
def nat (n : Nat) : Json :=
  .int n

/-- A list of texts. -/
def strings (items : List String) : Json :=
  .array (items.map .string)

/-- The value of a field of an object; nothing for other values. -/
def field? (name : String) : Json → Option Json
  | .object fields => (fields.find? (·.1 = name)).map (·.2)
  | _ => none

/-- The text of a string value; nothing for other values. -/
def string? : Json → Option String
  | .string s => some s
  | _ => none

end Json

end RigPack
