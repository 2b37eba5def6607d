import RigPack.Json.Reader
import RigPack.Json.Basic
import RigPack.Table

/-!
# Reading JSON values

`Json.parse` reads a text whose shape is not known in advance, such as metadata that some other
program wrote.  It refuses deep nesting and numbers beyond 64 bit floating point.
-/

namespace RigPack.Json

mutual

/-- The value of a draft that nests at most `depth` arrays and objects. -/
def Draft.toJson (depth : Nat) : Draft → Except Fault Json
  | .null => .ok .null
  | .bool b => .ok (.bool b)
  | .number literal =>
    match literal.number? with
    | some n => .ok (.number n)
    | none => .error .malformed
  | .text t => t.read.map .string
  | .array items ending =>
    match depth with
    | 0 => .error .malformed
    | depth + 1 => do
      let values ← itemsToJson depth items
      ending.check
      return .array values
  | .object members ending =>
    match depth with
    | 0 => .error .malformed
    | depth + 1 => do
      let fields ← membersToJson depth members
      ending.check
      return .object (Table.ofList fields).entries
  | .broken fault _ => .error fault

/-- The values of a list of items. -/
def Draft.itemsToJson (depth : Nat) : List Draft → Except Fault (List Json)
  | [] => .ok []
  | item :: items => do
    let value ← item.toJson depth
    let values ← itemsToJson depth items
    return value :: values

/-- The fields of a list of members. -/
def Draft.membersToJson (depth : Nat) :
    List (Draft × Draft) → Except Fault (List (String × Json))
  | [] => .ok []
  | (name, value) :: members => do
    let key ← name.name
    let value ← value.toJson depth
    let fields ← membersToJson depth members
    return (key, value) :: fields

end

/-- The most arrays and objects that a text may nest. -/
def maxDepth : Nat := 127

/-- The value of a text.  Of two fields with one name the later stays. -/
def parse (s : String) : Except Fault Json := do
  let (draft, alone) := Draft.read s
  let value ← draft.toJson maxDepth
  if alone then return value else .error .malformed

end RigPack.Json
