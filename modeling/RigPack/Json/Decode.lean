import RigPack.Json.Grammar
import RigPack.Json.Printer
import RigPack.Text.Quoted
import RigPack.Table

/-!
# Reading typed values from drafts

A `Decoder α` walks a draft from left to right and stops at the first thing that is wrong: a place
where the text breaks off, or a well-formed value of another shape than `α`.  So of two mistakes in
a document the one that stands further left is reported, wherever the draft ends.

A record may be written as an object or as the list of its fields in order.  In an object the order
is free, unknown fields are skipped, and a lacking field is noticed only behind the last one.
-/

namespace RigPack.Json

/-- What stands in a text, as far as a message tells. -/
inductive Found
  | null
  | boolean (b : Bool)
  | number (n : Number)
  | text (s : String)
  | sequence
  | map
  deriving DecidableEq

/-- The words for what was found. -/
def Found.message : Found → String
  | .null => "null"
  | .boolean b => "boolean `" ++ (if b then "true" else "false") ++ "`"
  | .number (.whole n) => "integer `" ++ toString n ++ "`"
  | .number (.real x) => "floating point `" ++ x.text .json ++ "`"
  | .text s => "string " ++ Text.quoted s
  | .sequence => "sequence"
  | .map => "map"

/-- How a well-formed value differs from what was asked for. -/
inductive Mismatch
  | wrongType (found : Found) (expected : String)
  | outOfRange (n : Int) (expected : String)
  | wrongLength (length : Nat) (expected : String)
  | missingField (name : String)
  | duplicateField (name : String)
  | unknownChoice (choice : String) (choices : List String)
  deriving DecidableEq

/-- The description of a mismatch. -/
def Mismatch.message : Mismatch → String
  | .wrongType found expected => "invalid type: " ++ found.message ++ ", expected " ++ expected
  | .outOfRange n expected =>
    "invalid value: " ++ (Found.number (.whole n)).message ++ ", expected " ++ expected
  | .wrongLength length expected =>
    "invalid length " ++ toString length ++ ", expected " ++ expected
  | .missingField name => "missing field `" ++ name ++ "`"
  | .duplicateField name => "duplicate field `" ++ name ++ "`"
  | .unknownChoice choice choices =>
    "unknown variant `" ++ choice ++ "`, expected one of "
      ++ ", ".intercalate (choices.map fun c => "`" ++ c ++ "`")

/-- Why a text yields no value. -/
inductive ReadError
  | fault (fault : Fault)
  | mismatch (mismatch : Mismatch)
  deriving DecidableEq

/-- Reads a value from a draft. -/
abbrev Decoder (α : Type) := Draft → Except ReadError α

variable [Grammar]

/-- The faults of a text, as reasons for a missing value. -/
def ofFault {α : Type} : Except Fault α → Except ReadError α
  | .ok a => .ok a
  | .error fault => .error (.fault fault)

/-- The complaint about a draft of another type than `expected`, if it is no broken one. -/
def wrongType {α : Type} (expected : String) (draft : Draft) : Except ReadError α :=
  let found (f : Found) : Except ReadError α := .error (.mismatch (.wrongType f expected))
  match draft with
  | .null => found .null
  | .bool b => found (.boolean b)
  | .number literal =>
    match Grammar.number? literal with
    | some n => found (.number n)
    | none => .error (.fault .malformed)
  | .text t =>
    match t.read with
    | .ok s => found (.text s)
    | .error fault => .error (.fault fault)
  | .array .. => found .sequence
  | .object .. => found .map
  | .broken fault _ => .error (.fault fault)

namespace Decoder

/-! ## Single values -/

/-- A truth value. -/
def bool : Decoder Bool
  | .bool b => .ok b
  | draft => wrongType "a boolean" draft

/-- A text. -/
def string : Decoder String
  | .text t => ofFault t.read
  | draft => wrongType "a string" draft

/-- A whole number from `low` to `high`, a range that messages call `name`. -/
def whole (low high : Int) (name : String) : Decoder Int
  | .number literal =>
    match Grammar.number? literal with
    | some (.whole n) =>
      if low ≤ n ∧ n ≤ high then .ok n else .error (.mismatch (.outOfRange n name))
    | _ => wrongType name (.number literal)
  | draft => wrongType name draft

/-- A natural number of 32 bits. -/
def word (draft : Draft) : Except ReadError UInt32 := do
  let n ← whole 0 (UInt32.size - 1) "u32" draft
  return UInt32.ofNat n.toNat

/-- An integer of 32 bits. -/
def integer (draft : Draft) : Except ReadError Int32 := do
  let n ← whole Int32.minValue.toInt Int32.maxValue.toInt "i32" draft
  return Int32.ofInt n

/-- A 32 bit floating point number. -/
def single : Decoder Binary.Single
  | .number literal =>
    match Grammar.number? literal with
    | some n => .ok (Grammar.single n)
    | none => .error (.fault .malformed)
  | draft => wrongType "f32" draft

/-- A value that may be null. -/
def option {α : Type} (item : Decoder α) : Decoder (Option α)
  | .null => .ok none
  | draft => (item draft).map some

/-- A name out of a list, which may also be written as the only field of an object, over null. -/
def choice {α : Type} (choices : List (String × α)) (draft : Draft) : Except ReadError α :=
  let named (s : String) : Except ReadError α :=
    match choices.lookup s with
    | some a => .ok a
    | none => .error (.mismatch (.unknownChoice s (choices.map (·.1))))
  match draft with
  | .text t => do
    let s ← ofFault t.read
    named s
  | .object [] ending => do
    ofFault ending.check
    .error (.fault .malformed)
  | .object ((.text t, value) :: members) ending => do
    let s ← ofFault t.read
    let a ← named s
    match value with
    | .null =>
      if members.isEmpty then do
        ofFault ending.check
        return a
      else .error (.fault .malformed)
    | _ => wrongType "unit" value
  | .object ((name, _) :: _) _ => wrongType "variant identifier" name
  | .broken fault false => .error (.fault fault)
  | _ => .error (.fault .malformed)

/-! ## Sequences and maps -/

/-- A list of values. -/
def list {α : Type} (item : Decoder α) : Decoder (List α)
  | .array items ending => do
    let values ← items.mapM item
    ofFault ending.check
    return values
  | draft => wrongType "a sequence" draft

/-- What messages call a list of known length. -/
def lengthName (length : Nat) : String :=
  "an array of length " ++ toString length

/-- A list of values that has a known length. -/
def vector {α : Type} (length : Nat) (item : Decoder α) : Decoder (Vector α length)
  | .array items ending => do
    let values ← (items.take length).mapM item
    if complete : values.toArray.size = length then
      if length < items.length then .error (.fault .malformed)
      else do
        ofFault ending.check
        return ⟨values.toArray, complete⟩
    else do
      ofFault ending.check
      .error (.mismatch (.wrongLength values.length (lengthName length)))
  | draft => wrongType (lengthName length) draft

/-- A map from texts; of two entries with one key the later stays. -/
def table {α : Type} (item : Decoder α) : Decoder (Table α)
  | .object members ending => do
    let entries ← members.mapM fun (name, value) => do
      let key ← ofFault name.name
      let value ← item value
      return (key, value)
    ofFault ending.check
    return Table.ofList entries
  | draft => wrongType "a map" draft

/-! ## Records -/

/-- A field of a record of type `σ`: reading its value yields a change of the record. -/
structure Field (σ : Type) where
  name : String
  required : Bool
  read : Draft → Except ReadError (σ → σ)

/-- A field that has to be there. -/
def Field.need {σ α : Type} (name : String) (item : Decoder α) (set : α → σ → σ) : Field σ where
  name
  required := true
  read draft := (item draft).map set

/-- A field that may be left out. -/
def Field.may {σ α : Type} (name : String) (item : Decoder α) (set : α → σ → σ) : Field σ where
  name
  required := false
  read draft := (item draft).map set

variable {σ : Type}

/-- The first required field that is not among the names in `seen`. -/
def firstMissing (fields : List (Field σ)) (seen : List String) : Option String :=
  (fields.find? fun field => field.required && !seen.contains field.name).map (·.name)

/-- The members of a record that is written as an object. -/
def members (fields : List (Field σ)) (seen : List String) (record : σ) :
    List (Draft × Draft) → Except ReadError (List String × σ)
  | [] => .ok (seen, record)
  | (name, value) :: rest => do
    let key ← ofFault name.name
    match fields.find? (·.name = key) with
    | none => do
      ofFault value.skip
      members fields seen record rest
    | some field =>
      if seen.contains key then .error (.mismatch (.duplicateField key))
      else do
        let change ← field.read value
        members fields (key :: seen) (change record) rest

/-- The items of a record that is written as a list; `count` fields stand in front. -/
def positions (expected : String) (ending : Draft.Ending) (count : Nat) (record : σ) :
    List (Field σ) → List Draft → Except ReadError σ
  | [], [] => do
    ofFault ending.check
    return record
  | [], _ :: _ => .error (.fault .malformed)
  | field :: fields, [] => do
    ofFault ending.check
    if field.required then .error (.mismatch (.wrongLength count expected))
    else positions expected ending (count + 1) record fields []
  | field :: fields, item :: items => do
    let change ← field.read item
    positions expected ending (count + 1) (change record) fields items

/-- The record of the given type name and fields; `blank` has the values of fields left out. -/
def record (type : String) (fields : List (Field σ)) (blank : σ) : Decoder σ
  | .object entries ending => do
    let (seen, value) ← members fields [] blank entries
    ofFault ending.check
    match firstMissing fields seen with
    | some name => .error (.mismatch (.missingField name))
    | none => return value
  | .array items ending =>
    let elements := if fields.length = 1 then " element" else " elements"
    positions (type ++ " with " ++ toString fields.length ++ elements) ending 0 blank fields items
  | draft => wrongType type draft

end Decoder

/-- The value of a text that holds nothing else. -/
def decode {α : Type} (decoder : Decoder α) (s : String) : Except ReadError α := do
  let (draft, alone) := Grammar.read s
  let value ← decoder draft
  if alone then return value else .error (.fault .malformed)

end RigPack.Json
